import LineAssembly.CommandLine.Flag

/-! # Options

Words are taken from left to right. The first plain word that no flag claims is the program, and a
separator next to it belongs to it. A word of several short flags is taken as a whole or not at all. The
separator attached to a register flag is lost, so that the flag names no register. Words without a
place are collected and refused at the end.
-/

set_option autoImplicit false

namespace LineAssembly.CommandLine

structure Options where
  /-- The name of a file, or the source itself. -/
  program : String
  registers : List (Option String)
  literal : Bool
  dump : Bool
  listing : Bool
  verbose : Bool
deriving DecidableEq, Repr

inductive Stop where
  | help
  | usage (error : UsageError)
deriving DecidableEq, Repr

inductive Setting where
  | register (name : Option String)
  | flag (flag : Flag)
deriving DecidableEq, Repr

/-- The settings of a word, and whether its last flag takes the next word as its value. -/
structure Cluster where
  settings : List Setting
  awaitsValue : Bool
deriving DecidableEq, Repr

namespace Cluster

def after (f : Flag) (c : Cluster) : Cluster :=
  { c with settings := .flag f :: c.settings }

def bare : Flag → Cluster
  | .register => ⟨[], true⟩
  | f => ⟨[.flag f], false⟩

def register (text : List Char) : Cluster :=
  ⟨[.register (if text = ['-', '-'] then none else some (String.ofList text))], false⟩

/-- A short flag and the text attached to it: the flag's value if it takes one, and more short flags
otherwise. -/
def ofLetters : Flag → List Char → Except UsageError Cluster
  | .register, text => .ok (register text)
  | f, [] => .error (.textIgnored f "")
  | f, letter :: rest =>
    match Flag.ofSpelling? ['-', letter] with
    | none => .error (.textIgnored f (String.ofList (letter :: rest)))
    | some g => (if rest.isEmpty then .ok (bare g) else ofLetters g rest).map (after f)

def ofShort : Flag → Option (List Char) → Except UsageError Cluster
  | f, none => .ok (bare f)
  | f, some text => ofLetters f text

def ofLong : Flag → Option (List Char) → Except UsageError Cluster
  | f, none => .ok (bare f)
  | .register, some text => .ok (register text)
  | f, some text => .error (.textIgnored f (String.ofList text))

end Cluster

structure Draft where
  program : Option String := none
  registers : List (Option String) := []
  literal : Bool := false
  dump : Bool := false
  listing : Bool := false
  verbose : Bool := false
  misplaced : List String := []
  /-- The settings of a word whose last flag takes the next word as its value. -/
  awaiting : Option (List Setting) := none
  programLast : Bool := false

namespace Draft

def set (d : Draft) : Setting → Except Stop Draft
  | .register name => .ok { d with registers := d.registers ++ [name] }
  | .flag .help => .error .help
  | .flag .register => .ok d
  | .flag .source => .ok { d with literal := true }
  | .flag .dump => .ok { d with dump := true }
  | .flag .listing => .ok { d with listing := true }
  | .flag .verbose => .ok { d with verbose := true }

def misplace (d : Draft) (word : String) : Draft :=
  { d with misplaced := d.misplaced ++ [word] }

def takeCluster (d : Draft) : Except UsageError Cluster → Except Stop Draft
  | .error e => .error (.usage e)
  | .ok ⟨settings, false⟩ => settings.foldlM set d
  | .ok ⟨settings, true⟩ => .ok { d with awaiting := some settings }

def takeWord (d : Draft) (afterProgram : Bool) : Word → Except Stop Draft
  | .plain text =>
    match d.program with
    | none => .ok { d with program := some text, programLast := true }
    | some _ => .ok (d.misplace text)
  | .separator => if d.program.isNone || afterProgram then .ok d else .ok (d.misplace "--")
  | .unknown text => .ok (d.misplace text)
  | .short f text => d.takeCluster (Cluster.ofShort f text)
  | .long f text => d.takeCluster (Cluster.ofLong f text)

def take (d : Draft) (word : Word) : Except Stop Draft :=
  match d.awaiting, word with
  | none, word => { d with programLast := false }.takeWord d.programLast word
  | some settings, .plain value =>
    (settings ++ [Setting.register (some value)]).foldlM set { d with awaiting := none }
  | some _, _ => .error (.usage (.valueMissing .register))

def finish (d : Draft) : Except Stop Options :=
  match d.awaiting, d.program with
  | some _, _ => .error (.usage (.valueMissing .register))
  | none, none => .error (.usage .programMissing)
  | none, some program =>
    if d.misplaced ≠ [] then .error (.usage (.unrecognized d.misplaced))
    else .ok ⟨program, d.registers, d.literal, d.dump, d.listing, d.verbose⟩

end Draft

def Options.parse (arguments : List String) : Except Stop Options :=
  match Word.ofStrings arguments with
  | .error e => .error (.usage e)
  | .ok words =>
    match words.foldlM Draft.take {} with
    | .error stop => .error stop
    | .ok draft => draft.finish

end LineAssembly.CommandLine
