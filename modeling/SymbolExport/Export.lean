import SymbolExport.Extraction
import SymbolExport.Locator
import SymbolExport.Script.Declarations

/-! Exporting all source files below a directory: collecting their members, and writing them. -/
namespace SymbolExport

/-- The settings of one export. -/
structure ExportOptions where
  sourceRoot : Path
  outputPath : Path
  importRoot : Path
  suffix : String := ""
  emitDeclarations : Bool := false
  ignore : List String := []

/-- A kind of export: what it reads, and how it writes and names it. -/
structure Exporter where
  mode : ExportMode
  isReadonly : Bool := false
  label : String := "Source"
  extension : String := sourceExtension

structure ExportReport where
  entries : ExportTable := []
  results : List Extraction := []
  written : List Path := []

def ExportReport.isEmpty (r : ExportReport) : Bool :=
  List.isEmpty r.entries

/-- Failures of a whole export. -/
inductive ExportFailure
  | failed (failure : Failure)
  | literal (e : LiteralError)

def ExportFailure.message : ExportFailure → String
  | failed failure => failure.message
  | literal e => e.message

/-- Adds an outcome; a later type takes the place of an earlier one with the same output name. -/
def ExportReport.add (r : ExportReport) (e : Extraction) : ExportReport :=
  match e.outcome with
  | .exported _ outputName members =>
    { r with results := r.results ++ [e], entries := r.entries.insert outputName members }
  | _ => { r with results := r.results ++ [e] }

/-- Logs what becomes of an outcome. -/
def World.logOutcome (w : World) (r : ExportReport) (e : Extraction) : World :=
  let path := (Path.ofLocation e.unit.path).text
  match e.outcome.outputName? with
  | none =>
    w.debug .exporter ("Skipping " ++ path ++ " (" ++ e.outcome.skipReason?.getD "None" ++ ")")
  | some outputName =>
    if r.entries.has outputName then
      w.debug .exporter (outputName ++ " from " ++ path ++ " replaces an earlier export")
    else w

/-- Extracts unit after unit; the first failure ends it. -/
def World.extractAll (w : World) (mode : ExportMode) (policy : Policy) (importRoot : Path)
    (report : ExportReport) : List SourceUnit → Except Failure ExportReport × World
  | [] => (.ok report, w)
  | unit :: rest =>
    match w.extract mode policy importRoot unit with
    | (.error failure, w) => (.error failure, w)
    | (.ok e, w) => (w.logOutcome report e).extractAll mode policy importRoot (report.add e) rest

namespace Exporter

def policyFor (x : Exporter) (o : ExportOptions) : Policy :=
  ⟨o.ignore, o.suffix, x.mode.synthesizeDefaults⟩

/-- What an export would write, without writing it. -/
def collect (x : Exporter) (o : ExportOptions) (w : World) :
    Except Failure ExportReport × World :=
  match w.sourceFiles o.sourceRoot x.extension x.label with
  | .error failure => (.error failure, w)
  | .ok units =>
    match w.resolve o.importRoot with
    | .error failure => (.error failure, w)
    | .ok root =>
      match w.importingFrom root fun w =>
          w.extractAll x.mode (x.policyFor o) o.importRoot {} units with
      | (.error failure, w) => (.error failure, w)
      | (.ok report, w) =>
        let counts := "Collected " ++ toString report.entries.length ++
          " export(s) from " ++ toString report.results.length ++ " file(s)"
        (.ok report, w.debug .exporter counts)

end Exporter

/-- A directory that cannot be made must be there. -/
def World.requireDirectory (w : World) (p : Path) (fault : PathFault) :
    Except Failure Unit × World :=
  if w.tree.isDirectory w.cwd p then (.ok (), w) else (.error (.system fault p), w)

/-- Makes one directory, unless it is there. -/
def World.makeDirectory (w : World) (p : Path) : Except Failure Unit × World :=
  match w.tree.makeDirectory w.refusal? w.cwd p with
  | .ok tree => (.ok (), { w with tree := tree })
  | .error fault => w.requireDirectory p fault

/-- Makes a directory and those on the way to it; the names come last one first. -/
def World.makeDirectories (w : World) (anchor : PathAnchor) :
    List String → Except Failure Unit × World
  | [] => w.makeDirectory ⟨anchor, []⟩
  | name :: outer =>
    let p : Path := ⟨anchor, (name :: outer).reverse⟩
    match w.tree.makeDirectory w.refusal? w.cwd p with
    | .error .missing =>
      match w.makeDirectories anchor outer with
      | (.error failure, w) => (.error failure, w)
      | (.ok (), w) => w.makeDirectory p
    | .error fault => w.requireDirectory p fault
    | .ok tree => (.ok (), { w with tree := tree })

/-- Writes bytes to a file and makes the directories on the way to it. -/
def World.writeBytes (w : World) (path : Path) (bytes : List UInt8) :
    Except Failure Unit × World :=
  match w.makeDirectories path.parent.anchor path.parent.parts.reverse with
  | (.error failure, w) => (.error failure, w)
  | (.ok (), w) =>
    match w.tree.write w.refusal? w.cwd path bytes with
    | .ok tree => (.ok (), { w with tree := tree })
    | .error fault => (.error (.system fault path), w)

/-- Writes a text to a file. That it cannot be encoded is found out when the file is open, and emptied
by that. -/
def World.writeFile (w : World) (path : Path) (content : List Char) :
    Except Failure Unit × World :=
  match w.encodeFault? content with
  | none => w.writeBytes path (Text.encodeUtf8 content)
  | some message =>
    match w.writeBytes path [] with
    | (.error failure, w) => (.error failure, w)
    | (.ok (), w) => (.error (.unencodable message), w)

namespace Exporter

/-- Writes the declarations beside the module. -/
def writeDeclarations (x : Exporter) (o : ExportOptions) (report : ExportReport) (w : World) :
    Except ExportFailure ExportReport × World :=
  match declarationPath? o.outputPath with
  | none => (.error (.failed (.emptyName ⟨o.outputPath⟩)), w)
  | some path =>
    match w.writeFile path (renderDeclarations x.isReadonly report.entries) with
    | (.error failure, w) => (.error (.failed failure), w)
    | (.ok (), w) => (.ok { report with written := report.written ++ [path] }, w)

/-- Writes the module and, if asked for, the declarations; nothing if there are no entries. -/
def writeReport (x : Exporter) (o : ExportOptions) (report : ExportReport) (w : World) :
    Except ExportFailure ExportReport × World :=
  if report.isEmpty then (.ok report, w)
  else match renderModule report.entries with
    | .error e => (.error (.literal e), w)
    | .ok text =>
      match w.writeFile o.outputPath text with
      | (.error failure, w) => (.error (.failed failure), w)
      | (.ok (), w) =>
        let report := { report with written := report.written ++ [o.outputPath] }
        if o.emitDeclarations then x.writeDeclarations o report w else (.ok report, w)

def run (x : Exporter) (o : ExportOptions) (w : World) :
    Except ExportFailure ExportReport × World :=
  match x.collect o w with
  | (.error failure, w) => (.error (.failed failure), w)
  | (.ok report, w) => x.writeReport o report w

end Exporter

end SymbolExport
