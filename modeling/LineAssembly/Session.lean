import LineAssembly.Machine.Run

/-! # Sessions

A host drives a machine by requests, one after the other. A request that ends in a fault still leaves
the machine it reached, and the session goes on with that machine.
-/

set_option autoImplicit false

namespace LineAssembly

/-- What a host may ask of a machine. Without tokens, a run takes the loaded program. -/
inductive Request where
  | act (action : Action)
  | run (tokens : Option (List Token))
  | interpret (source : String)

namespace Machine

/-- A request answered with at most `fuel` steps of a run. -/
def serve (fuel : Nat) (m : Machine) : Request → Option (Machine × Except Fault Reply)
  | .act action =>
    match m.perform (executeWithin callLimit) [] action with
    | (m, .error fault) => some (m, .error fault)
    | (m, .ok .stop) => some (m, .ok .nothing)
    | (m, .ok (.next reply)) => some (m, .ok reply)
  | .run tokens => (m.run fuel (tokens.getD m.program)).map (answering fun _ => .nothing)
  | .interpret source => (m.interpret fuel source).map (answering fun _ => .nothing)

end Machine

end LineAssembly
