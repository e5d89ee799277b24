import SymbolExport.Path
import SymbolExport.Reflection

/-!
The files on disk. Every file carries what its module defines besides its bytes, so that importing
needs no evaluation.
-/
namespace SymbolExport

/-- What ends the evaluation of a module early. -/
inductive RaisedText
  | text (s : String)
  | code (i : Int)
  deriving DecidableEq, Repr

/-- An exception. One that aborts is outside of those that an import may fail with. -/
structure Raised where
  kind : String
  argument : RaisedText
  isAbort : Bool := false
  deriving DecidableEq, Repr

/-- The modules that a module imports, one after the other and before all else, what it defines, and
what it raises instead of ending. -/
structure ModuleBody where
  imports : List String := []
  attributes : Table Symbol := []
  raised? : Option Raised := none

inductive Node
  | file (content : List UInt8) (body : ModuleBody)
  | link (target : String)
  | directory (entries : List (String × Node))

namespace Node

def empty : Node :=
  .directory []

def isDirectory : Node → Bool
  | directory _ => true
  | _ => false

def entry? (node : Node) (name : String) : Option Node :=
  match node with
  | directory entries => Table.get? entries name
  | _ => none

/-- What stands at a place; links are not followed. -/
def at? (node : Node) : Location → Option Node
  | [] => some node
  | name :: rest => (node.entry? name).bind fun child => child.at? rest

/-- Puts something at a place whose directory exists. -/
def put (node : Node) (new : Node) : Location → Node
  | [] => new
  | name :: rest =>
    match node with
    | directory entries =>
      directory (Table.insert name (((Table.get? entries name).getD empty).put new rest) entries)
    | other => other

mutual

/-- What the files below a node hold to be evaluated. -/
def bodies : Node → List ModuleBody
  | file _ body => [body]
  | link _ => []
  | directory entries => bodiesIn entries

def bodiesIn : List (String × Node) → List ModuleBody
  | [] => []
  | (_, node) :: rest => bodies node ++ bodiesIn rest

end

/-- The names of the modules that the files below a node import. -/
def importNames (node : Node) : List String :=
  node.bodies.flatMap ModuleBody.imports

/-- Takes away what stands at a place. -/
def remove (node : Node) : Location → Node
  | [] => empty
  | [name] =>
    match node with
    | directory entries => directory (Table.erase entries name)
    | other => other
  | name :: rest =>
    match node with
    | directory entries =>
      match Table.get? entries name with
      | some child => directory (Table.insert name (child.remove rest) entries)
      | none => directory entries
    | other => other

end Node

/-- A root directory with all that is below it. -/
abbrev Tree := Node

/-- The most bytes that a name on disk may have. -/
def maxNameLength : Nat := 255

/-- Whether no file or directory can have a name. -/
def isOverlongName (name : String) : Bool :=
  maxNameLength < name.utf8ByteSize

/-- Why the system refuses a path. -/
inductive PathFault
  | missing
  | exists
  | notDirectory
  | isDirectory
  | tooManyLinks
  | nameTooLong
  | denied
  deriving DecidableEq, Repr

namespace PathFault

def number : PathFault → Nat
  | missing => 2
  | «exists» => 17
  | notDirectory => 20
  | isDirectory => 21
  | tooManyLinks => 40
  | nameTooLong => 36
  | denied => 13

def description : PathFault → String
  | missing => "No such file or directory"
  | «exists» => "File exists"
  | notDirectory => "Not a directory"
  | isDirectory => "Is a directory"
  | tooManyLinks => "Too many levels of symbolic links"
  | nameTooLong => "File name too long"
  | denied => "Permission denied"

end PathFault

namespace Tree

/-- The most links that are followed on the way to one path. -/
def maxLinks : Nat := 40

/-- Where a path leads from a place, names that are links followed; the last name need not exist.
With `followLast` false a link at the end is not followed. -/
def locate (tree : Tree) (followLast : Bool) (links : Nat) (here : Location) :
    List String → Except PathFault Location
  | [] => .ok here
  | name :: rest =>
    match tree.at? here with
    | some (.directory _) =>
      if name = ".." then locate tree followLast links here.dropLast rest
      else match tree.at? (here ++ [name]) with
        | some (.link target) =>
          if rest.isEmpty && !followLast then .ok (here ++ [name])
          else match links with
            | 0 => .error .tooManyLinks
            | links + 1 =>
              let goal := Path.ofString target
              locate tree followLast links (if goal.isAbsolute then [] else here)
                (goal.parts ++ rest)
        | some _ => locate tree followLast links (here ++ [name]) rest
        | none =>
          if rest.isEmpty then .ok (here ++ [name])
          else .error (if isOverlongName name then .nameTooLong else .missing)
    | some _ => .error .notDirectory
    | none => .error .missing
termination_by names => (links, names.length)

/-- The place of a path seen from the working directory. -/
def find (tree : Tree) (cwd : Location) (p : Path) (followLast : Bool) :
    Except PathFault Location :=
  tree.locate followLast maxLinks (if p.isAbsolute then [] else cwd) p.parts

def stat (tree : Tree) (cwd : Location) (p : Path) : Except PathFault Node := do
  let place ← tree.find cwd p true
  match tree.at? place with
  | some node => .ok node
  | none => .error .missing

def exists? (tree : Tree) (cwd : Location) (p : Path) : Bool :=
  (tree.stat cwd p).isOk

def isDirectory (tree : Tree) (cwd : Location) (p : Path) : Bool :=
  match tree.stat cwd p with
  | .ok (.directory _) => true
  | _ => false

def isFile (tree : Tree) (cwd : Location) (p : Path) : Bool :=
  match tree.stat cwd p with
  | .ok (.file ..) => true
  | _ => false

/-- The bytes of a file. -/
def read (tree : Tree) (cwd : Location) (p : Path) : Except PathFault (List UInt8) :=
  match tree.stat cwd p with
  | .ok (.file content _) => .ok content
  | .ok _ => .error .isDirectory
  | .error fault => .error fault

/-- What is refused anywhere: a name that is too long. -/
def refuseOverlong (place : Location) : Option PathFault :=
  if isOverlongName (place.getLast?.getD "") then some .nameTooLong else none

/-- Puts something at a place, unless the system refuses that. -/
def putUnless (tree : Tree) (refusal? : Option PathFault) (new : Node) (place : Location) :
    Except PathFault Tree :=
  match refusal? with
  | some fault => .error fault
  | none => .ok (tree.put new place)

/-- Makes one directory, in a directory that exists. -/
def makeDirectory (tree : Tree) (refusal? : Location → Option PathFault) (cwd : Location)
    (p : Path) : Except PathFault Tree := do
  let place ← tree.find cwd p false
  match tree.at? place with
  | some _ => .error .exists
  | none => tree.putUnless (refusal? place) .empty place

/-- Writes a file, over the old bytes if there are any; what its module defines stays. -/
def write (tree : Tree) (refusal? : Location → Option PathFault) (cwd : Location) (p : Path)
    (content : List UInt8) : Except PathFault Tree := do
  let place ← tree.find cwd p true
  match tree.at? place with
  | some (.file _ body) => tree.putUnless (refusal? place) (.file content body) place
  | some _ => .error .isDirectory
  | none => tree.putUnless (refusal? place) (.file content {}) place

variable {tree made written : Tree} {refusal? : Location → Option PathFault} {cwd place : Location}
  {p : Path} {content : List UInt8} {new : Node}

theorem putUnless_eq_ok_iff :
    tree.putUnless (refusal? place) new place = .ok made ↔
      refusal? place = none ∧ made = tree.put new place := by
  unfold putUnless
  split
  · simp_all
  · simp_all [eq_comm]

theorem makeDirectory_eq_ok_iff : tree.makeDirectory refusal? cwd p = .ok made ↔
    ∃ place, tree.find cwd p false = .ok place ∧ tree.at? place = none ∧ refusal? place = none ∧
      made = tree.put .empty place := by
  unfold makeDirectory
  cases hf : tree.find cwd p false with
  | error fault => simp [bind, Except.bind]
  | ok place =>
    simp only [bind, Except.bind, Except.ok.injEq, exists_eq_left']
    cases ha : tree.at? place with
    | some node => simp
    | none => simp [putUnless_eq_ok_iff]

theorem write_eq_ok_iff : tree.write refusal? cwd p content = .ok written ↔
    ∃ place body, tree.find cwd p true = .ok place ∧
      (tree.at? place = none ∧ body = {} ∨ ∃ old, tree.at? place = some (.file old body)) ∧
      refusal? place = none ∧ written = tree.put (.file content body) place := by
  unfold write
  cases hf : tree.find cwd p true with
  | error fault => simp [bind, Except.bind]
  | ok place =>
    simp only [bind, Except.bind, Except.ok.injEq, exists_and_left, exists_eq_left']
    cases ha : tree.at? place with
    | none => simp [putUnless_eq_ok_iff]
    | some node =>
      cases node with
      | file old body => simp [putUnless_eq_ok_iff]
      | link | directory => simp

end Tree

end SymbolExport
