import LineAssembly.Value

/-! # Tokens

A program is a flat list of tokens, addressed by index. A statement is a mnemonic, its operands and the
end of the statement.
-/

set_option autoImplicit false

namespace LineAssembly

inductive Token where
  | instruction (name : String)
  | value (v : Value)
  | register (name : String)
  | statementEnd
deriving DecidableEq, Repr, Inhabited

end LineAssembly
