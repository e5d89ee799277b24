import SymbolExport.Value

/-!
Equality of values: numbers of all kinds compare by magnitude, collections by their elements, and an
object that is no number, text or collection equals only itself. Two values are always two objects.
-/
namespace SymbolExport

open SymbolExport.Number

/-- A number of either kind. -/
inductive Magnitude
  | int (i : Int)
  | float (x : Binary64)

def Magnitude.equal : Magnitude → Magnitude → Bool
  | .int i, .int j => i = j
  | .int i, .float x | .float x, .int i => x.equalInt i
  | .float x, .float y => x.equal y

def Value.magnitude? (v : Value) : Option Magnitude :=
  match v with
  | .bool b => some (.int (if b then 1 else 0))
  | v => (v.int?.map .int).orElse fun _ => v.float?.map .float

mutual

def Value.equal : Value → Value → Bool
  | .null, .null => true
  | .list a, .list b | .tuple a, .tuple b => Value.equalAll a b
  | .dict a, .dict b => a.length = b.length && Value.included a b
  | .object .bytes, .object .bytes | .object .set, .object .set
  | .object .complex, .object .complex => true
  | a, b =>
    match a.magnitude?, b.magnitude? with
    | some m, some n => m.equal n
    | _, _ =>
      match a.str?, b.str? with
      | some s, some t => s = t
      | _, _ => false

def Value.equalAll : List Value → List Value → Bool
  | [], [] => true
  | a :: as, b :: bs => Value.equal a b && Value.equalAll as bs
  | _, _ => false

/-- Every entry of the first table has an equal one in the second. -/
def Value.included : List (Value × Value) → List (Value × Value) → Bool
  | [], _ => true
  | (k, v) :: rest, entries =>
    entries.any (fun entry => Value.equal k entry.1 && Value.equal v entry.2) &&
      Value.included rest entries

end

/-- Equal keys keep the first key and its place, and take the last value. -/
def Value.insertEntry (key value : Value) : List (Value × Value) → List (Value × Value)
  | [] => [(key, value)]
  | entry :: rest =>
    if entry.1.equal key then (entry.1, value) :: rest
    else entry :: insertEntry key value rest

def Value.ofEntries (entries : List (Value × Value)) : Value :=
  .dict (entries.foldl (fun table entry => insertEntry entry.1 entry.2 table) [])

end SymbolExport
