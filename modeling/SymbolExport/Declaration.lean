import SymbolExport.Token.Scan

/-!
The first class declaration of a source. The tokens are searched for the keyword; the name is read
from the token behind it.
-/
namespace SymbolExport

def Token.isKeyword (t : Token) : Bool :=
  t.kind = .name && t.text = "class".toList

def Token.opensBracket (t : Token) : Bool :=
  t.kind = .operator && bracketStep t.text = 1

def Token.closesBracket (t : Token) : Bool :=
  t.kind = .operator && bracketStep t.text = -1

/-- One of the given names, or any name that ends in `Enum`. -/
def namesBase (bases : List String) (t : Token) : Bool :=
  t.kind = .name && (bases.any (fun base => base.toList = t.text) ||
    "Enum".toList.isSuffixOf t.text)

/-- Whether a base stands directly inside of the bracket that is open at depth 1. -/
def listsBase (bases : List String) (depth : Int) : List Token → Bool
  | [] => false
  | t :: rest =>
    if t.opensBracket then listsBase bases (depth + 1) rest
    else if t.closesBracket then
      if depth = 1 then false else listsBase bases (depth - 1) rest
    else if depth = 1 && namesBase bases t then true
    else listsBase bases depth rest

/-- Whether tokens start with a bracketed list of names of which one is a base. -/
def declaresBase (bases : List String) : List Token → Bool
  | [] => false
  | t :: rest => t.text = ['('] && listsBase bases 0 (t :: rest)

/-- The name behind the first keyword whose declaration lists a base, if bases are asked for. No
later keyword counts, even if no name follows the first one. -/
def declaredName? (bases? : Option (List String)) : List Token → Option (List Char)
  | [] => none
  | t :: rest =>
    if t.isKeyword && bases?.all (fun bases => declaresBase bases rest.tail) then
      match rest with
      | next :: _ => if next.kind = .name then some next.text else none
      | [] => none
    else declaredName? bases? rest

/-- The full name of the first declaration of the tokens. -/
def qualifiedName? (bases? : Option (List String)) (moduleName? : Option String)
    (tokens : List Token) : Option String :=
  match moduleName?, declaredName? bases? tokens with
  | some moduleName, some name =>
    if moduleName.isEmpty || name.isEmpty then none
    else some (moduleName ++ "." ++ String.ofList name)
  | _, _ => none

end SymbolExport
