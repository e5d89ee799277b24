import SymbolExport.CommandLine
import SymbolExport.Import
import SymbolExport.Policy

/-! Commands: the kinds of exports that can be asked for, the given ones and those of plugins. -/
namespace SymbolExport

/-- A kind of export with its texts and defaults. -/
structure Command where
  name : String := ""
  help : String := ""
  noun : String := ""
  label : String := "Source"
  defaultPath : String := ""
  defaultOutput : String := ""
  defaultSuffix : String := ""
  defaultIgnore : List String := []
  emptyMessage : String := "Nothing found."
  isReadonly : Bool := false
  mode : ExportMode := .constants
  hasPathOption : Bool := false
  /-- The least version of the interpreter that the command can do with. -/
  minimumVersion? : Option (List Int) := none
  deriving DecidableEq

namespace Command

def enums (minimumVersion : List Int) : Command where
  name := "enums"
  help := "Export enums to a JavaScript (and optionally TypeScript) file."
  noun := "Enums"
  label := "Enums"
  defaultPath := "enums"
  defaultOutput := "resources/js/enums.js"
  defaultIgnore := defaultEnumIgnore
  emptyMessage := "No enums found."
  isReadonly := true
  mode := .enums
  hasPathOption := true
  minimumVersion? := some minimumVersion

def constants : Command where
  name := "constants"
  help := "Export model constants to a JavaScript (and optionally TypeScript) file."
  noun := "Constants"
  label := "Models"
  defaultPath := "models"
  defaultOutput := "resources/js/constants.js"
  defaultSuffix := "Model"
  emptyMessage := "No constants found in models."

/-- The names of options, by which a reading of the command line is asked. -/
def suffixName : String := "suffix"

def declarationsName : String := "typescript"

def pathName : String := "path"

def operand (c : Command) : Operand :=
  .text "output"
    ("Output file path for the JavaScript module (default: " ++ c.defaultOutput ++ ").")

def options (c : Command) : List OptionForm :=
  [⟨suffixName, ["--suffix"], .text "SUFFIX", "Suffix appended to each exported name."⟩,
   ⟨declarationsName, ["--typescript", "--no-typescript"], .onOff,
    "Write (or with --no-typescript, skip) the TypeScript declaration file."⟩] ++
  (if c.hasPathOption then
    [⟨pathName, ["--path"], .text "PATH",
      "Enums directory relative to the app directory (default: " ++ c.defaultPath ++ ")."⟩]
  else [])

end Command

/-- What loading a plugin gives. -/
inductive PluginContent
  | command (c : Command)
  | other (s : Symbol)
  | raises (r : Raised)

structure Plugin where
  name : String
  content : PluginContent

/-- Why the commands cannot be found. -/
inductive PluginFault
  | notLoaded (plugin : String) (r : Raised)
  | noCommand (plugin : String)
  | aborted (r : Raised)

def PluginFault.message : PluginFault → String
  | notLoaded plugin r =>
    "Failed to load command entry point '" ++ plugin ++ "': " ++ r.message
  | noCommand plugin =>
    "Command entry point '" ++ plugin ++ "' is not an ExportCommand subclass"
  | aborted r => r.message

def Plugin.command (p : Plugin) : Except PluginFault Command :=
  match p.content with
  | .command c => .ok c
  | .other _ => .error (.noCommand p.name)
  | .raises r => .error (if r.isAbort then .aborted r else .notLoaded p.name r)

/-- Adds the commands of plugins in order. One whose name is taken is left out. -/
def addPlugins (commands : List Command) : List Plugin → Except PluginFault (List Command)
  | [] => .ok commands
  | p :: rest => do
    let c ← p.command
    addPlugins (if c.name ∈ commands.map Command.name then commands else commands ++ [c]) rest

/-- What is installed: the commands' demands on the interpreter, and plugins. -/
structure Installation where
  minimumVersion : List Int := [3, 11]
  plugins : List Plugin := []

/-- The given commands, followed by those of the plugins. -/
def Installation.commands (i : Installation) : Except PluginFault (List Command) :=
  addPlugins [.enums i.minimumVersion, .constants] i.plugins

end SymbolExport
