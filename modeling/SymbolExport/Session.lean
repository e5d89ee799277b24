import SymbolExport.Run

/-!
A process that lives on from step to step: files are written and removed between the steps, types
are looked up, and exports and whole runs of the program are made.
-/
namespace SymbolExport

/-- Puts a file, a link or a directory at a path, and makes the directories on the way to it. A file
goes to where a link at its path leads. -/
def World.place (w : World) (path : Path) (node : Node) : World :=
  let (_, w) := w.makeDirectories path.parent.anchor path.parent.parts.reverse
  match w.tree.find w.cwd path (node matches .file ..) with
  | .ok place => { w with tree := w.tree.put node place }
  | .error _ => w

def World.discard (w : World) (path : Path) : World :=
  match w.tree.find w.cwd path false with
  | .ok place => { w with tree := w.tree.remove place }
  | .error _ => w

inductive Step
  | write (files : List (Path × Node))
  | remove (paths : List Path)
  | lookUp (importRoot : Path) (types : List ResolvedType)
  | collect (x : Exporter) (o : ExportOptions)
  | export (x : Exporter) (o : ExportOptions)
  | run (installation : Installation) (cwd : Path) (arguments : List String)

/-- What a step gives, besides the files that it writes; `errors` is what the logger writes. -/
inductive Answer
  | done
  | found (result : Except Failure Lookup) (errors : String)
  | collected (result : Except Failure ExportReport) (errors : String)
  | exported (result : Except ExportFailure ExportReport) (errors : String)
  | ran (result : RunResult)

namespace Runtime

/-- Runs the program in another directory, and comes back from there. -/
def runIn (p : Runtime) (installation : Installation) (cwd : Path) (arguments : List String) :
    RunResult × Runtime :=
  let here := { p.world with cwd := p.world.tree.realPlace p.world.cwd cwd }
  let (result, after) := { p with world := here }.run installation arguments
  (result, { after with world := { after.world with cwd := p.world.cwd } })

/-- Takes a step, with an empty log. -/
def step (p : Runtime) (s : Step) : Answer × Runtime :=
  let w := { p.world with log := [] }
  match s with
  | .write files =>
    (.done, { p with world := files.foldl (fun w (path, node) => w.place path node) w })
  | .remove paths => (.done, { p with world := paths.foldl World.discard w })
  | .lookUp importRoot types =>
    let (result, w) := w.lookUp importRoot types
    (.found result (p.logger.text w.log), { p with world := w })
  | .collect x o =>
    let (result, w) := x.collect o w
    (.collected result (p.logger.text w.log), { p with world := w })
  | .export x o =>
    let (result, w) := x.run o w
    (.exported result (p.logger.text w.log), { p with world := w })
  | .run installation cwd arguments =>
    let (result, p) := { p with world := w }.runIn installation cwd arguments
    (.ran result, p)

/-- Takes steps one after the other; beside each answer stands what the step leaves. -/
def session (p : Runtime) : List Step → List (Answer × Runtime)
  | [] => []
  | s :: rest =>
    let result := p.step s
    result :: result.2.session rest

end Runtime

end SymbolExport
