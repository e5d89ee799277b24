import SymbolExport.Command
import SymbolExport.CommandLine.Reading

/-!
What a command line asks for. It has two parts: options of the program, and behind the name of a
command the options of that command. The log may be made verbose in both.
-/
namespace SymbolExport

def programName : String :=
  "entity-export"

def verboseName : String := "verbose"

def projectRootName : String := "project-root"

def configName : String := "config"

def verboseOption : OptionForm :=
  ⟨verboseName, ["-v", "--verbose"], .on, "Increase log verbosity for troubleshooting."⟩

/-- The command line up to the name of the command. -/
def mainLine (commands : List Command) : CommandLine where
  program := programName
  description := "Export backend enums and model constants to JavaScript modules."
  options :=
    [helpOption, verboseOption,
     ⟨projectRootName, ["--project-root"], .text "PROJECT_ROOT",
      "Backend project root; output paths and imports are relative to it."⟩,
     ⟨configName, ["--config"], .text "CONFIG",
      "Path to an .entity-export.yml file (defaults to the project root)."⟩]
  operand := .command "command" (commands.map fun c => (c.name, c.help))

/-- The command line behind the name of a command; `shared` are options of all commands. -/
def Command.line (c : Command) (shared : List OptionForm) : CommandLine where
  program := programName ++ " " ++ c.name
  options := helpOption :: shared ++ c.options
  operand := c.operand

/-- What a command line asks for: a command, and the readings before and behind its name. -/
structure Request where
  command : Command
  before : LineReading
  behind : LineReading

def Request.isVerbose (q : Request) : Bool :=
  q.before.isOn verboseName || q.behind.isOn verboseName

/-- How a run ends early, with the command line that it ends at. -/
structure EarlyEnd where
  line : CommandLine
  reason : LineEnd

/-- Reads a whole command line. Extra arguments are refused at the end, also those behind the
command. -/
def readRequest (commands : List Command) (arguments : List String) :
    Except EarlyEnd Request := do
  let line := mainLine commands
  let before ← (line.readPart arguments).mapError fun reason => ⟨line, reason⟩
  match before.command? with
  | none => throw ⟨line, .refused (.noCommand "command")⟩
  | some (name, rest) =>
    match commands.find? fun c => c.name = name with
    | none => throw ⟨line, .refused (.noCommand "command")⟩
    | some c =>
      let inner := c.line [verboseOption]
      let behind ← (inner.readPart rest).mapError fun reason => ⟨inner, reason⟩
      let extras := before.extras ++ behind.extras
      if extras.isEmpty then return ⟨c, before, behind⟩
      else throw ⟨line, .refused (.unrecognized extras)⟩

end SymbolExport
