import SymbolExport.Number.Binary64

/-! Values that a class or an enumeration can hold. -/
namespace SymbolExport

open SymbolExport.Number

/-- Objects of which only the kind matters. -/
inductive ObjectKind
  | bare
  | function
  | staticMethod
  | classMethod
  | property
  | bytes
  | set
  | complex
  | type
  deriving DecidableEq, Repr

/-- Methods and properties describe how an attribute is looked up; an enumeration does not take
them for members. -/
def ObjectKind.isDescriptor : ObjectKind → Bool
  | .function | .staticMethod | .classMethod | .property => true
  | _ => false

def ObjectKind.typeName : ObjectKind → String
  | .bare => "object"
  | .function => "function"
  | .staticMethod => "staticmethod"
  | .classMethod => "classmethod"
  | .property => "property"
  | .bytes => "bytes"
  | .set => "set"
  | .complex => "complex"
  | .type => "type"

/-- The kind of data that the members of an enumeration are themselves. -/
inductive DataKind
  | none
  | int
  | str
  | float
  deriving DecidableEq, Repr

/-- Members of some enumerations show as their data, all others as their enumeration and name. -/
structure MemberForm where
  data : DataKind
  showsData : Bool
  deriving DecidableEq, Repr

/-- A value: a plain one, an instance of a class derived from integers or texts, a collection, a
member of an enumeration, or an object of some other kind. -/
inductive Value
  | null
  | bool (b : Bool)
  | int (i : Int)
  | float (x : Binary64)
  | str (s : String)
  | derivedInt (i : Int)
  | derivedStr (s : String)
  | list (items : List Value)
  | tuple (items : List Value)
  | dict (entries : List (Value × Value))
  | member (enumeration name : String) (form : MemberForm) (value : Value)
  | object (kind : ObjectKind)
  deriving Repr, Inhabited

namespace Value

/-- The integer that a value is, truth values left aside. -/
def int? : Value → Option Int
  | int i | derivedInt i | member _ _ ⟨.int, _⟩ (int i) => some i
  | _ => none

/-- The text that a value is. -/
def str? : Value → Option String
  | str s | derivedStr s | member _ _ ⟨.str, _⟩ (str s) => some s
  | _ => none

def float? : Value → Option Binary64
  | float x | member _ _ ⟨.float, _⟩ (float x) => some x
  | _ => none

def isNull : Value → Bool
  | null => true
  | _ => false

def isDescriptor : Value → Bool
  | object kind => kind.isDescriptor
  | _ => false

def typeName : Value → String
  | null => "NoneType"
  | bool _ => "bool"
  | int _ | derivedInt _ => "int"
  | float _ => "float"
  | str _ | derivedStr _ => "str"
  | list _ => "list"
  | tuple _ => "tuple"
  | dict _ => "dict"
  | member enumeration .. => enumeration
  | object kind => kind.typeName

end Value

/-- A named value of a type; it is null when the member has no backing value. -/
structure Member where
  name : String
  value : Value

end SymbolExport
