import SymbolExport.Table

/-!
The form of a command line: its options, and what stands beside them. An option is known by its
flags. A flag with two hyphens may be shortened, and takes its text behind a space or an equals
sign.
-/
namespace SymbolExport

inductive OptionKind
  | help
  | text (placeholder : String)
  | on
  | onOff
  deriving DecidableEq, Repr

structure OptionForm where
  name : String
  flags : List String
  kind : OptionKind
  help : String
  deriving DecidableEq, Repr

/-- What stands beside the options: a text that may be missing, or the name of a command, behind
which that command's own line follows. -/
inductive Operand
  | text (name help : String)
  | command (name : String) (choices : List (String × String))
  deriving DecidableEq, Repr

structure CommandLine where
  program : String
  description : String := ""
  options : List OptionForm
  operand : Operand
  deriving DecidableEq, Repr

def OptionForm.takesText (o : OptionForm) : Bool :=
  match o.kind with
  | .text _ => true
  | _ => false

/-- An option's flags, as messages show them. -/
def OptionForm.label (o : OptionForm) : String :=
  "/".intercalate o.flags

def helpOption : OptionForm :=
  ⟨"help", ["-h", "--help"], .help, "show this help message and exit"⟩

namespace CommandLine

/-- All flags in order, each with its option. -/
def flags (line : CommandLine) : List (String × OptionForm) :=
  line.options.flatMap fun o => o.flags.map fun flag => (flag, o)

def option? (line : CommandLine) (flag : String) : Option OptionForm :=
  (line.flags.find? fun entry => entry.1 = flag).map Prod.snd

end CommandLine

end SymbolExport
