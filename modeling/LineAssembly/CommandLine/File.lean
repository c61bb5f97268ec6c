import LineAssembly.Text.Quoted
import LineAssembly.Text.Split
import LineAssembly.Text.Utf8

/-! # Source files

A source file is UTF-8 text in which every kind of line end counts as a line feed. A folder is a flat
set of named files held in memory, looked up the way a path is.
-/

set_option autoImplicit false

namespace LineAssembly.CommandLine

/-- Why a file cannot be opened: the name holds the character U+0000, or the system says so. -/
inductive OpenError where
  | nullCharacter
  | system (code : Nat) (description : String)
deriving DecidableEq, Repr

namespace OpenError

def notFound : OpenError := .system 2 "No such file or directory"

def notFolder : OpenError := .system 20 "Not a directory"

def isFolder : OpenError := .system 21 "Is a directory"

def nameTooLong : OpenError := .system 36 "File name too long"

end OpenError

def openMessage (name : String) (code : Nat) (description : String) : String :=
  s!"Failed to read {name}: [Errno {code}] {description}: {Text.quote name}\n"

def decodeSource (bytes : ByteArray) : Except Text.Utf8.Fault String :=
  match Text.Utf8.decode bytes with
  | .error fault => .error fault
  | .ok text => .ok (String.ofList (Text.unifyNewlines text.toList))

abbrev Folder := List (String × ByteArray)

namespace Folder

def longestName : Nat := 255

def longestPath : Nat := 4095

def file? (folder : Folder) (name : String) : Option ByteArray :=
  (folder.find? (fun f => f.1 == name)).map Prod.snd

/-- The steps of a path, without those that stay where they are. -/
def steps (path : List Char) : List String :=
  ((Text.splitAt '/' path).filter (fun step => step != [] && step != ['.'])).map String.ofList

/-- The path ends in a way that only a folder can: with a slash, or with a step that stays. -/
def asksForFolder (path : List Char) : Bool :=
  (Text.splitAt '/' path).getLast?.any (fun step => step == [] || step == ['.'])

/-- The file at a path. Besides the folder itself and the folders it lies in there is no other, so the
first step that leads to neither of them decides. -/
def find (folder : Folder) (path : List Char) : Except OpenError ByteArray :=
  match (steps path).span (· == "..") with
  | (_, []) => .error .isFolder
  | (outwards, name :: rest) =>
    if longestName < name.utf8ByteSize then .error .nameTooLong
    else if path.head? = some '/' || !outwards.isEmpty then .error .notFound
    else match folder.file? name with
      | none => .error .notFound
      | some bytes => if rest.isEmpty && !asksForFolder path then .ok bytes else .error .notFolder

def read (folder : Folder) (path : String) : Except OpenError ByteArray :=
  if path.contains '\x00' then .error .nullCharacter
  else if path.isEmpty then .error .notFound
  else if longestPath < path.utf8ByteSize then .error .nameTooLong
  else folder.find path.toList

end Folder

end LineAssembly.CommandLine
