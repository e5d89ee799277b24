/-!
Paths: where a path starts, and the names that lead on from there. Empty names and `.` are dropped
as a path is read; `..` is kept, since it may lead through a link.
-/
namespace SymbolExport

/-- Where a path starts. Exactly two slashes are kept apart from one and from more. -/
inductive PathAnchor
  | relative
  | root
  | doubleRoot
  deriving DecidableEq, Repr

structure Path where
  anchor : PathAnchor
  parts : List String
  deriving DecidableEq, Repr

/-- A place on disk: the names from the root, without `..`. -/
abbrev Location := List String

namespace Path

/-- The names between slashes. -/
def splitSlashes : List Char → List (List Char)
  | [] => [[]]
  | c :: rest =>
    if c = '/' then [] :: splitSlashes rest
    else match splitSlashes rest with
      | [] => [[c]]
      | name :: more => (c :: name) :: more

def anchorOf : List Char → PathAnchor
  | '/' :: '/' :: '/' :: _ => .root
  | '/' :: '/' :: _ => .doubleRoot
  | '/' :: _ => .root
  | _ => .relative

def ofChars (cs : List Char) : Path :=
  ⟨anchorOf cs,
    ((splitSlashes cs).filter fun name => name ≠ [] ∧ name ≠ ['.']).map String.ofList⟩

def ofString (s : String) : Path :=
  ofChars s.toList

def ofLocation (l : Location) : Path :=
  ⟨.root, l⟩

def isAbsolute (p : Path) : Bool :=
  p.anchor ≠ .relative

def anchorText : PathAnchor → String
  | .relative => ""
  | .root => "/"
  | .doubleRoot => "//"

def text (p : Path) : String :=
  if p.parts.isEmpty ∧ p.anchor = .relative then "."
  else anchorText p.anchor ++ "/".intercalate p.parts

/-- An absolute path on the right replaces the left one. -/
def join (p q : Path) : Path :=
  if q.isAbsolute then q else ⟨p.anchor, p.parts ++ q.parts⟩

def child (p : Path) (name : String) : Path :=
  ⟨p.anchor, p.parts ++ [name]⟩

def parent (p : Path) : Path :=
  ⟨p.anchor, p.parts.dropLast⟩

/-- The last name, empty if there is none. -/
def name (p : Path) : String :=
  p.parts.getLast?.getD ""

/-- Cuts a name before its last dot, which must be neither its first nor its last character. -/
def splitName (name : String) : List Char × List Char :=
  let backwards := name.toList.reverse
  let tail := backwards.takeWhile (· ≠ '.')
  match backwards.drop tail.length with
  | '.' :: stem =>
    if tail.isEmpty || stem.isEmpty then (name.toList, [])
    else (stem.reverse, '.' :: tail.reverse)
  | _ => (name.toList, [])

def stemOf (name : String) : String :=
  String.ofList (splitName name).1

def suffixOf (name : String) : String :=
  String.ofList (splitName name).2

def stem (p : Path) : String :=
  stemOf p.name

def suffix (p : Path) : String :=
  suffixOf p.name

/-- Replaces the last name; there must be one. -/
def withName? (p : Path) (name : String) : Option Path :=
  if p.parts.isEmpty then none else some ⟨p.anchor, p.parts.dropLast ++ [name]⟩

/-- The path without the suffix of its last name; there must be one. -/
def withoutSuffix? (p : Path) : Option Path :=
  p.withName? p.stem

/-- What leads on from the base to the path, if the base is the path's beginning. -/
def relativeTo? (p base : Path) : Option Path :=
  if p.anchor = base.anchor ∧ base.parts.isPrefixOf p.parts then
    some ⟨.relative, p.parts.drop base.parts.length⟩
  else none

/-- Replaces a leading `~` by the home directory; other users have none. -/
def expandHome? (home : Location) (p : Path) : Option Path :=
  match p.anchor, p.parts with
  | .relative, first :: rest =>
    if first = "~" then some ⟨.root, home ++ rest⟩
    else if first.toList.head? = some '~' then none
    else some p
  | _, _ => some p

end Path

/-- Removes `..` together with the name before it; at the root there is nothing to remove. -/
def normalize (place : Location) : List String → Location
  | [] => place
  | name :: rest =>
    if name = ".." then normalize place.dropLast rest else normalize (place ++ [name]) rest

end SymbolExport
