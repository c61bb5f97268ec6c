import LineAssembly.CommandLine.Options

/-! # Usage and help -/

set_option autoImplicit false

namespace LineAssembly.CommandLine

def programName : String := "asmdef"

def usage : String :=
  s!"usage: {programName} [-h] [-r NAME] [--source] [--dump] [--listing] [-v] program\n"

def usageError (e : UsageError) : String :=
  usage ++ s!"{programName}: error: {e.message}\n"

def help : String :=
  usage ++
  "\nLine-oriented assembly interpreter\n" ++
  "\npositional arguments:\n" ++
  "  program               Source file path, or literal source with --source\n" ++
  "\noptions:\n" ++
  "  -h, --help            show this help message and exit\n" ++
  "  -r NAME, --register NAME\n" ++
  "                        Declare a register (repeatable)\n" ++
  "  --source              Treat the program argument as literal source text\n" ++
  "  --dump                Print the machine state after running\n" ++
  "  --listing             Print the scanned token stream as source\n" ++
  "  -v, --verbose         Enable debug logging\n"

end LineAssembly.CommandLine
