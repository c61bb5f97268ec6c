import LineAssembly.Text.Digit
import LineAssembly.Text.Quoted

/-! # Words of a command line

A word is a flag, plain text, or the separator after which everything is plain. A long flag may be
shortened as long as it fits one flag only, and may carry text behind an equals sign. A short flag may
carry text directly behind it, with or without an equals sign between them.
-/

set_option autoImplicit false

namespace LineAssembly.CommandLine

inductive Flag where
  | help
  | register
  | source
  | dump
  | listing
  | verbose
deriving DecidableEq, Repr

namespace Flag

def spellings : List (String × Flag) :=
  [("-h", .help), ("--help", .help), ("-r", .register), ("--register", .register),
   ("--source", .source), ("--dump", .dump), ("--listing", .listing), ("-v", .verbose),
   ("--verbose", .verbose)]

def ofSpelling? (spelling : List Char) : Option Flag :=
  (spellings.find? (fun s => s.1.toList == spelling)).map Prod.snd

def startingWith (start : List Char) : List (String × Flag) :=
  spellings.filter (fun s => start.isPrefixOf s.1.toList)

def shown (f : Flag) : String :=
  String.intercalate "/" ((spellings.filter (fun s => s.2 == f)).map Prod.fst)

end Flag

inductive UsageError where
  | ambiguous (word : String) (candidates : List String)
  | textIgnored (flag : Flag) (text : String)
  | valueMissing (flag : Flag)
  | programMissing
  | unrecognized (words : List String)
deriving DecidableEq, Repr

def UsageError.message : UsageError → String
  | .ambiguous word candidates =>
    let shown := String.intercalate ", " candidates
    s!"ambiguous option: {word} could match {shown}"
  | .textIgnored flag text =>
    s!"argument {flag.shown}: ignored explicit argument {Text.quote text}"
  | .valueMissing flag => s!"argument {flag.shown}: expected one argument"
  | .programMissing => "the following arguments are required: program"
  | .unrecognized words => "unrecognized arguments: " ++ String.intercalate " " words

inductive Word where
  | plain (text : String)
  | separator
  | short (flag : Flag) (text : Option (List Char))
  | long (flag : Flag) (text : Option (List Char))
  | unknown (text : String)
deriving DecidableEq, Repr

namespace Word

def splitEquals (word : List Char) : List Char × Option (List Char) :=
  match word.span (· != '=') with
  | (name, _ :: text) => (name, some text)
  | (name, []) => (name, none)

def withoutLastNewline (word : List Char) : List Char :=
  if word.getLast? = some '\n' then word.dropLast else word

/-- A minus sign and a decimal number, which a line feed may follow. -/
def isNegativeNumber (word : List Char) : Bool :=
  match withoutLastNewline word with
  | '-' :: rest =>
    match rest.span Text.isDigit with
    | (digits, []) => !digits.isEmpty
    | (_, '.' :: fraction) => !fraction.isEmpty && fraction.all Text.isDigit
    | _ => false
  | _ => false

/-- A word that starts with a minus sign and is no flag. -/
def ofNoFlag (word : List Char) : Word :=
  if isNegativeNumber word || word.contains ' ' then .plain (String.ofList word)
  else .unknown (String.ofList word)

/-- A word that starts with two minus signs. No long spelling starts as another one does, so a full
spelling always fits one flag only. -/
def ofLong (word : List Char) : Except UsageError Word :=
  match splitEquals word with
  | (name, text) =>
    match Flag.startingWith name with
    | [] => .ok (ofNoFlag word)
    | [(_, f)] => .ok (.long f text)
    | candidates => .error (.ambiguous (String.ofList word) (candidates.map Prod.fst))

/-- The text attached to a short flag by what follows its letter. One equals sign in front is no part of
it. -/
def attached : List Char → Option (List Char)
  | [] => none
  | '=' :: text => some text
  | text => some text

def ofChars : List Char → Except UsageError Word
  | '-' :: '-' :: rest => ofLong ('-' :: '-' :: rest)
  | '-' :: letter :: rest =>
    match Flag.ofSpelling? ['-', letter] with
    | some f => .ok (.short f (attached rest))
    | none => .ok (ofNoFlag ('-' :: letter :: rest))
  | word => .ok (.plain (String.ofList word))

def ofStrings : List String → Except UsageError (List Word)
  | [] => .ok []
  | word :: rest =>
    if word = "--" then .ok (.separator :: rest.map Word.plain)
    else match ofChars word.toList with
      | .error e => .error e
      | .ok w => (ofStrings rest).map (w :: ·)

end Word

end LineAssembly.CommandLine
