import SymbolExport.Command.Options
import SymbolExport.CommandLine.Help
import SymbolExport.Request

/-!
A run of the program: finding the commands, reading the command line and the settings, exporting,
and telling the outcome.
-/
namespace SymbolExport

/-- Why a run fails. -/
inductive RunFault
  | plugin (f : PluginFault)
  | unnamedProject
  | unsupported (minimumVersion : List Int)
  | location (f : Failure)
  | settings (f : SettingsFault)
  | export (f : ExportFailure)

namespace RunFault

def message : RunFault → String
  | plugin f => f.message
  | unnamedProject => "expected str, bytes or os.PathLike object, not list"
  | unsupported version =>
    "Python " ++ ".".intercalate (version.map toString) ++
      " or higher is required to export enums."
  | location f => f.message
  | settings f => f.message
  | «export» f => f.message

/-- Whether the program itself tells of a fault and ends in order. -/
def isExpected : RunFault → Bool
  | unsupported _ => true
  | settings f => f.isExpected
  | «export» (.failed f) => f.isExpected
  | _ => false

end RunFault

/-- The version of the interpreter for which modules are written. -/
def interpreterVersion : List Int :=
  [3, 11]

/-- The order of versions: by the first part that differs, and a shorter one comes first. -/
def isOlder : List Int → List Int → Bool
  | _, [] => false
  | [], _ :: _ => true
  | a :: as, b :: bs => a < b || (a = b && isOlder as bs)

def Command.isSupported (c : Command) : Bool :=
  match c.minimumVersion? with
  | some version => !isOlder interpreterVersion version
  | none => true

/-- The root of the project that is asked for. -/
def World.projectRoot (w : World) (r : LineReading) : Except RunFault Location :=
  match r.texts.get? projectRootName with
  | some none => .error .unnamedProject
  | named => do
    let p ← (w.expandHome (.ofString (named.join.getD "."))).mapError .location
    (w.resolve p).mapError .location

/-- The settings that are asked for, or else those of the project. -/
def World.settingsFor (w : World) (r : LineReading) (root : Location) :
    Except RunFault Settings :=
  let file := firstGiven [r.text? configName] ""
  let path := if file.isEmpty then .ofLocation root else .ofString file
  (w.loadSettings Yaml.Document.read path).mapError .settings

/-- What a request exports from. -/
def World.prepare (w : World) (q : Request) : Except RunFault ExportOptions := do
  let root ← w.projectRoot q.before
  if !q.command.isSupported then
    throw (.unsupported (q.command.minimumVersion?.getD []))
  let settings ← w.settingsFor q.before root
  return q.command.exportOptions q.behind (settings.forCommand q.command.name)
    settings.appDirectory (.ofLocation root)

def World.perform (w : World) (q : Request) : Except RunFault ExportReport × World :=
  match w.prepare q with
  | .error f => (.error f, w)
  | .ok options =>
    match q.command.exporter.run options w with
    | (.error f, w) => (.error (.export f), w)
    | (.ok report, w) => (.ok report, w)

inductive RunEnd
  | exited (code : Nat)
  | failed (f : RunFault)

/-- The end of a run, and all that it has written. -/
structure RunResult where
  ending : RunEnd
  output : String := ""
  errors : String := ""

/-- A path as it is seen from the working directory, if it lies below. -/
def World.shownPath (w : World) (p : Path) : String :=
  ((p.relativeTo? (.ofLocation w.cwd)).getD p).text

/-- What is told of the files that an export has written: the module, and then declarations. -/
def World.confirmation (w : World) (noun : String) : List Path → String
  | [] => ""
  | module :: declarations =>
    noun ++ " exported to " ++ w.shownPath module ++ "\n" ++
      String.join (declarations.map fun p =>
        "TypeScript definitions exported to " ++ w.shownPath p ++ "\n")

def EarlyEnd.result (e : EarlyEnd) : RunResult :=
  match e.reason with
  | .help => { ending := .exited 0, output := e.line.help }
  | .refused fault => { ending := .exited 2, errors := e.line.refusal fault }

/-- Exports and tells the outcome. -/
def World.fulfil (w : World) (logger : Logger) (q : Request) : RunResult × World :=
  match w.perform q with
  | (.error f, w) =>
    let log := logger.text w.log
    if f.isExpected then
      ({ ending := .exited 1, errors := log ++ f.message ++ "\n" }, w)
    else ({ ending := .failed f, errors := log }, w)
  | (.ok report, w) =>
    let w := if report.isEmpty then w.note .warning .cli q.command.emptyMessage else w
    ({ ending := .exited 0
       output := w.confirmation q.command.noun report.written
       errors := logger.text w.log }, w)

/-- A process: the world that it acts on, and its logger, which stays from run to run. -/
structure Runtime where
  world : World
  logger : Logger := {}

/-- A process that sees an empty disk. -/
def newRuntime : Runtime where
  world := { tree := .empty, cwd := [], home := [] }

/-- Runs the program on its arguments, with an empty log. The logger is set up once they are
read. -/
def Runtime.run (p : Runtime) (installation : Installation) (arguments : List String) :
    RunResult × Runtime :=
  let w := { p.world with log := [] }
  match installation.commands with
  | .error f => ({ ending := .failed (.plugin f) }, { p with world := w })
  | .ok commands =>
    match readRequest commands arguments with
    | .error e => (e.result, { p with world := w })
    | .ok q =>
      let logger := p.logger.configure q.isVerbose
      let (result, w) := w.fulfil logger q
      (result, ⟨w, logger⟩)

end SymbolExport
