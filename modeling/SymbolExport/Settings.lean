import SymbolExport.Text.Line
import SymbolExport.Text.Utf8
import SymbolExport.World
import SymbolExport.Yaml.Document

/-!
The settings of a project. They stand in a file of their own, which may be missing; a setting of an
unfit kind counts as missing too.
-/
namespace SymbolExport

open SymbolExport.Text SymbolExport.Yaml

/-- The settings for one command. -/
structure CommandSettings where
  path? : Option String := none
  output? : Option String := none
  suffix? : Option String := none
  emitDeclarations? : Option Bool := none
  ignore? : Option (List String) := none
  deriving DecidableEq, Repr

structure Settings where
  root : Location
  appDirectory : String := "app"
  commands : Table CommandSettings := []

def Settings.forCommand (s : Settings) (name : String) : CommandSettings :=
  (s.commands.get? name).getD {}

/-- Why the settings of a project cannot be read. -/
inductive SettingsFault
  | failed (f : Failure)
  | undecodable (e : Utf8Error)
  | unparsable (file : String) (f : Yaml.Fault)
  | notTable (file : String)

namespace SettingsFault

def message : SettingsFault → String
  | failed f => f.message
  | undecodable e => e.message
  | unparsable file .malformed =>
    "Failed to parse " ++ file ++ ": " ++ Yaml.Fault.message .malformed
  | unparsable _ f => f.message
  | notTable file => file ++ " must contain a mapping at the root"

/-- Whether the fault lies in the file system or in the form of the document, rather than in one of
its values. -/
def isExpected : SettingsFault → Bool
  | failed f => f.isExpected
  | undecodable _ => false
  | unparsable _ f => f = .malformed
  | notTable _ => true

end SettingsFault

/-- Whether a value is an integer with more digits than can be written out. -/
def isOverlong : ScalarValue → Bool
  | .int i => Number.exceedsDigits i
  | _ => false

/-- A text, number or truth value as a setting that takes texts. -/
def textSetting? : ScalarValue → Option String
  | .str s => some (String.ofList s)
  | .int i => some (String.ofList (ScalarValue.text (.int i)))
  | .float x => some (String.ofList (ScalarValue.text (.float x)))
  | .bool b => some (String.ofList (ScalarValue.text (.bool b)))
  | _ => none

/-- A truth value, also by its usual words. -/
def switchSetting? : ScalarValue → Option Bool
  | .bool b => some b
  | .str s =>
    let word := String.ofList (lowercase (strip s))
    if word ∈ ["true", "yes", "1"] then some true
    else if word ∈ ["false", "no", "0"] then some false
    else none
  | _ => none

namespace Yaml

/-- Whether a content counts as nothing: null, false, zero, and what has no items. -/
def Content.isNothing : Content → Bool
  | .scalar .null | .scalar (.bool false) | .scalar (.int 0) => true
  | .scalar (.float x) => x.equalInt 0
  | .scalar (.str s) => s.isEmpty
  | .scalar (.bytes b) => b.isEmpty
  | .scalar _ => false
  | .list items => items.isEmpty
  | .pairs entries => entries.isEmpty
  | .table entries => entries.isEmpty
  | .set keys => keys.isEmpty

/-- What a table holds under a name. -/
def Document.entry? (d : Document) (entries : List (ScalarValue × Nat)) (name : String) :
    Option Content :=
  (entries.find? fun entry => entry.1 = .str name.toList).bind fun entry => d.content? entry.2

def Document.scalarEntry? (d : Document) (entries : List (ScalarValue × Nat)) (name : String) :
    Option ScalarValue :=
  match d.entry? entries name with
  | some (.scalar v) => some v
  | _ => none

/-- A list of texts. A single text is a list of one, bytes are a list of numbers, and whatever is no
list is an empty one. -/
def Document.textList (d : Document) : Content → List String
  | .scalar (.str s) => [String.ofList s]
  | .scalar (.bytes b) => b.map fun x => toString x.toNat
  | .list items => items.filterMap fun item => (d.scalar? item).bind textSetting?
  | _ => []

def Document.commandSettings (d : Document) (entries : List (ScalarValue × Nat)) :
    CommandSettings where
  path? := (d.scalarEntry? entries "path").bind textSetting?
  output? := (d.scalarEntry? entries "output").bind textSetting?
  suffix? := (d.scalarEntry? entries "suffix").bind textSetting?
  emitDeclarations? := (d.scalarEntry? entries "typescript").bind switchSetting?
  ignore? := (d.entry? entries "ignore").map d.textList

/-- The entry of a settings file that names the directory of the application. -/
def appDirectoryEntry : String :=
  "app_dir"

/-- The sections of commands. Every entry but one is for the command of its name, if it is a table
with entries. -/
def Document.sections (d : Document) (entries : List (ScalarValue × Nat)) :
    List (ScalarValue × List (ScalarValue × Nat)) :=
  entries.filterMap fun (key, value) =>
    if key = .str appDirectoryEntry.toList then none
    else match d.content? value with
      | some (.table (entry :: rest)) => some (key, entry :: rest)
      | _ => none

/-- The settings in the table of a document. -/
def Document.settings (d : Document) (root : Location) (entries : List (ScalarValue × Nat)) :
    Settings :=
  let directory := ((d.scalarEntry? entries appDirectoryEntry).bind textSetting?).getD ""
  { root := root
    appDirectory := if directory.isEmpty then "app" else directory
    commands := Table.ofEntries ((d.sections entries).map fun (key, values) =>
      (String.ofList key.text, d.commandSettings values)) }

/-- The scalars that a section holds for settings that take texts. -/
def Document.commandTexts (d : Document) (entries : List (ScalarValue × Nat)) : List ScalarValue :=
  ["path", "output", "suffix"].filterMap (d.scalarEntry? entries) ++
    match d.entry? entries "ignore" with
    | some (.list items) => items.filterMap d.scalar?
    | _ => []

/-- The scalars that become texts in the settings of a document: the directory of the application,
and each section's name and texts. -/
def Document.settingTexts (d : Document) (entries : List (ScalarValue × Nat)) : List ScalarValue :=
  (d.scalarEntry? entries appDirectoryEntry).toList ++
    (d.sections entries).flatMap fun (key, values) => key :: d.commandTexts values

end Yaml

def settingsFileName : String :=
  ".entity-export.yml"

/-- The settings in the text of a file. A text that stands for nothing has none, and a number among
them that cannot be written out is a fault. -/
def Settings.ofText (read : DocumentReader) (root : Location) (file : String) (text : List Char) :
    Except SettingsFault Settings :=
  if allBlank text then .ok { root := root }
  else match read text with
    | .error fault => .error (.unparsable file fault)
    | .ok d =>
      if d.root.isNothing then .ok { root := root }
      else match d.root with
        | .table entries =>
          if (d.settingTexts entries).any isOverlong then .error (.unparsable file .badNumber)
          else .ok (d.settings root entries)
        | _ => .error (.notTable file)

/-- The file that a path stands for: a directory has its own settings file. -/
def World.settingsFile (w : World) (p : Path) : Except Failure Location := do
  let p ← w.expandHome p
  w.resolve (if w.tree.isDirectory w.cwd p then p.child settingsFileName else p)

/-- Reads the settings file that a path stands for, with the given reader of documents; a missing one
has the default settings. -/
def World.loadSettings (w : World) (read : DocumentReader) (p : Path) :
    Except SettingsFault Settings := do
  let file ← (w.settingsFile p).mapError .failed
  let path := Path.ofLocation file
  let root ← (w.resolve path.parent).mapError .failed
  if !w.tree.exists? w.cwd path then return { root := root }
  let bytes ← (w.tree.read w.cwd path).mapError fun fault => .failed (.system fault path)
  let text ← (decodeUtf8 bytes).mapError .undecodable
  Settings.ofText read root path.name (unifyLineEnds text)

end SymbolExport
