import LineAssembly.Token

/-! # Statements as wholes

A well-formed program is a list of statements, one after the other. In its flat form each statement is
the mnemonic, the operands and the end.
-/

set_option autoImplicit false

namespace LineAssembly

inductive Statement.Operand where
  | value (v : Value)
  | register (name : String)
deriving DecidableEq, Repr

structure Statement where
  mnemonic : String
  operands : List Statement.Operand
deriving DecidableEq, Repr

namespace Statement

def Operand.token : Operand → Token
  | .value v => .value v
  | .register name => .register name

def extend (s : Statement) (o : Operand) : Statement :=
  { s with operands := s.operands ++ [o] }

/-- The tokens of a statement whose end is still to come. -/
def openTokens (s : Statement) : List Token :=
  .instruction s.mnemonic :: s.operands.map Operand.token

def tokens (s : Statement) : List Token :=
  s.openTokens ++ [.statementEnd]

/-- The flat form of a program. -/
def stream (ss : List Statement) : List Token :=
  ss.flatMap tokens

@[simp] theorem openTokens_extend (s : Statement) (o : Operand) :
    (s.extend o).openTokens = s.openTokens ++ [o.token] := by
  simp [openTokens, extend]

@[simp] theorem length_openTokens (s : Statement) : s.openTokens.length = s.operands.length + 1 := by
  simp [openTokens]

@[simp] theorem length_tokens (s : Statement) : s.tokens.length = s.operands.length + 2 := by
  simp [tokens]

@[simp] theorem stream_cons (s : Statement) (ss : List Statement) :
    stream (s :: ss) = s.tokens ++ stream ss :=
  List.flatMap_cons

@[simp] theorem stream_append (ss others : List Statement) :
    stream (ss ++ others) = stream ss ++ stream others :=
  List.flatMap_append

theorem eq_mnemonic_of_mem_tokens {s : Statement} {name : String}
    (h : .instruction name ∈ s.tokens) : name = s.mnemonic := by
  rcases List.mem_append.mp h with h | h
  · rcases List.mem_cons.mp h with h | h
    · exact Token.instruction.inj h
    · obtain ⟨o, -, ho⟩ := List.mem_map.mp h
      cases o <;> cases ho
  · cases List.mem_singleton.mp h

end Statement

end LineAssembly
