import SymbolExport.Class
import SymbolExport.Number.Reading
import SymbolExport.Text.Lowercase
import SymbolExport.Value.Order
import SymbolExport.Value.Text

/-!
The members of an enumeration: which entries of its body are members, the value that each takes, and
which of them are other names of earlier members.
-/
namespace SymbolExport

open SymbolExport.Number SymbolExport.Text

/-- An entry of a class body: a value, or the demand for the next value of an enumeration. -/
inductive BodyValue
  | given (value : Value)
  | next

/-- What the bases of an enumeration decide about its members. -/
structure EnumForm where
  member : MemberForm
  isFlag : Bool
  isText : Bool

def MemberForm.ofLevels (levels : List ClassLevel) : MemberForm :=
  let data :=
    if ClassLevel.int.isAmong levels then DataKind.int
    else if ClassLevel.str.isAmong levels then .str
    else if ClassLevel.float.isAmong levels then .float
    else .none
  ⟨data, ClassLevel.dataEnum.isAmong levels⟩

/-- All ancestors decide what the members are, the last base decides what the next value is. -/
def EnumForm.ofLevels (ancestors lastBase : List ClassLevel) : EnumForm :=
  ⟨.ofLevels ancestors, ClassLevel.flag.isAmong lastBase, ClassLevel.strEnum.isAmong lastBase⟩

namespace Value

/-- The value plus one, if it is a number. -/
def successor? : Value → Option Value
  | bool b => some (int (if b then 2 else 1))
  | object .complex => some (object .complex)
  | v =>
    match v.int?, v.float? with
    | some i, _ => some (int (i + 1))
    | _, some x => some (float (x.add (.ofInt 1)))
    | _, _ => none

def toInt? (v : Value) : Option Int :=
  match v with
  | bool b => some (if b then 1 else 0)
  | v =>
    match v.int?, v.float?, v.str? with
    | some i, _, _ => some i
    | _, some x, _ => x.truncate?
    | _, _, some s => readInt? 10 s.toList
    | _, _, _ => none

def toFloat? (v : Value) : Option Binary64 :=
  match v with
  | bool b => some (.ofInt (if b then 1 else 0))
  | v =>
    match v.float?, v.int?, v.str? with
    | some x, _, _ => some x
    | _, some i, _ => some (.ofInt i)
    | _, _, some s => readBinary64? s.toList
    | _, _, _ => none

/-- The integer made of a value; a tuple holds the numeral and its base. -/
def asInt? : Value → Option Int
  | tuple [] => some 0
  | tuple [v] => v.toInt?
  | tuple [numeral, base] => do
    let s ← numeral.str?
    let b ← base.toInt?
    readInt? b.toNat s.toList
  | v => v.toInt?

def asFloat? : Value → Option Binary64
  | tuple [] => some (.ofInt 0)
  | tuple [v] => v.toFloat?
  | v => v.toFloat?

/-- The text made of a value; a tuple holds bytes and their encoding. -/
def asText : Value → String
  | tuple [] => ""
  | tuple [v] => v.text
  | tuple (object .bytes :: _) => "x"
  | v => v.text

/-- The value that a member with data of this kind takes; one that is no such data stays. -/
def converted (v : Value) : DataKind → Value
  | .none => v
  | .int => (v.asInt?.map int).getD v
  | .float => (v.asFloat?.map float).getD v
  | .str => str v.asText

end Value

/-- Names of the form `__name__`. -/
def isReservedName (name : String) : Bool :=
  match name.toList, name.toList.reverse with
  | '_' :: '_' :: c :: _ :: _, '_' :: '_' :: d :: _ => c ≠ '_' && d ≠ '_'
  | _, _ => false

/-- Names of the form `_Class__name`, unless they end in two underscores. -/
def isHiddenName (className name : String) : Bool :=
  let start := "_".toList ++ className.toList ++ "__".toList
  start.isPrefixOf name.toList && name.toList.length > start.length &&
    !("__".toList.isSuffixOf name.toList)

/-- Whether an entry of the body of an enumeration is a member. -/
def isCase (className : String) (name : String) : BodyValue → Bool
  | .next => !(isReservedName name || isHiddenName className name)
  | .given v => !(isReservedName name || isHiddenName className name || v.isDescriptor)

/-- The power of two above the highest bit of the greatest value. -/
def nextFlag (given : List Value) : Value :=
  match (given.filterMap Value.toInt?).max? with
  | some i => .int (if i = 0 then 1 else Nat.pow 2 (Nat.log2 i.natAbs + 1))
  | none => .int 1

/-- The successor of the greatest value that has one. Values that cannot be compared are searched
from the last one on, in the order that sorting has left. -/
def nextNumber (given : List Value) : Value :=
  ((Value.sortedAsFar given).reverse.findSome? Value.successor?).getD (.int 1)

/-- The value that follows the given ones, the latest last. -/
def EnumForm.nextValue (form : EnumForm) (name : String) (given : List Value) : Value :=
  if form.isText then .str (String.ofList (lowercase name.toList))
  else if form.isFlag then nextFlag given
  else nextNumber given

/-- A member whose value equals an earlier one's is another name of that member. -/
def settle (earlier : List (String × Value)) (value : Value) : Value :=
  ((earlier.find? fun entry => entry.2.equal value).map Prod.snd).getD value

/-- Takes the members of a body in order; `given` are the values as written, the latest last. -/
def EnumForm.casesFrom (form : EnumForm) (earlier : List (String × Value)) (given : List Value) :
    List (String × BodyValue) → List (String × Value)
  | [] => earlier
  | (name, entry) :: rest =>
    let written := match entry with
      | .given v => v
      | .next => form.nextValue name given
    let value := settle earlier (written.converted form.member.data)
    form.casesFrom (earlier ++ [(name, value)]) (given ++ [written]) rest

def EnumForm.cases (form : EnumForm) (className : String) (body : List (String × BodyValue)) :
    List (String × Value) :=
  form.casesFrom [] [] (body.filter fun entry => isCase className entry.1 entry.2)

end SymbolExport
