import SymbolExport.Table
import SymbolExport.Value

/-! Classes: their own attributes, their ancestors in lookup order, and their cases. -/
namespace SymbolExport

/-- One class of a hierarchy with what its own body defines. Two classes are the same if their
serial numbers are. -/
structure ClassLevel where
  serial : Nat
  name : String
  attributes : Table Value

def ClassLevel.isAmong (level : ClassLevel) (levels : List ClassLevel) : Bool :=
  levels.any fun l => l.serial = level.serial

/-- A class: itself, the classes it inherits from in the order of lookup, and the members by name
if it is an enumeration. -/
structure Class where
  level : ClassLevel
  ancestors : List ClassLevel
  cases? : Option (List (String × Value))

namespace Class

def name (c : Class) : String :=
  c.level.name

/-- The class and its ancestors in the order of lookup. -/
def lineage (c : Class) : List ClassLevel :=
  c.level :: c.ancestors

end Class

namespace ClassLevel

def object : ClassLevel := ⟨0, "object", []⟩
def enum : ClassLevel := ⟨1, "Enum", []⟩
def dataEnum : ClassLevel := ⟨2, "ReprEnum", []⟩
def intEnum : ClassLevel := ⟨3, "IntEnum", []⟩
def strEnum : ClassLevel := ⟨4, "StrEnum", []⟩
def flag : ClassLevel := ⟨5, "Flag", []⟩
def intFlag : ClassLevel := ⟨6, "IntFlag", []⟩
def int : ClassLevel := ⟨7, "int", []⟩
def str : ClassLevel := ⟨8, "str", []⟩
def float : ClassLevel := ⟨9, "float", []⟩

/-- Serial numbers below this one belong to the classes that every hierarchy starts from. -/
def firstSerial : Nat := 10

end ClassLevel

/-- A class of which only the kind matters: it has no attributes. -/
def Class.bare : Class :=
  ⟨⟨ClassLevel.firstSerial, "", []⟩, [.object], none⟩

open ClassLevel in
/-- The classes that a definition can name without defining them. -/
def rootClasses : List Class :=
  [⟨object, [], none⟩,
   ⟨int, [object], none⟩,
   ⟨str, [object], none⟩,
   ⟨float, [object], none⟩,
   ⟨enum, [object], some []⟩,
   ⟨flag, [enum, object], some []⟩,
   ⟨intEnum, [int, dataEnum, enum, object], some []⟩,
   ⟨strEnum, [str, dataEnum, enum, object], some []⟩,
   ⟨intFlag, [int, dataEnum, flag, enum, object], some []⟩]

end SymbolExport
