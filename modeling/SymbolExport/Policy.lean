import SymbolExport.Naming
import SymbolExport.Table
import SymbolExport.Value

/-! What becomes of the members of a type: which are left out, and which get a derived value. -/
namespace SymbolExport

structure Policy where
  ignore : List String := []
  suffix : String := ""
  synthesizeDefaults : Bool := false

/-- The members of an exported type by name. -/
abbrev MemberTable := Table Value

namespace Policy

def filter (p : Policy) (members : List Member) : List Member :=
  members.filter fun m => m.name ∉ p.ignore

def valueFor (p : Policy) (m : Member) : Value :=
  if m.value.isNull && p.synthesizeDefaults then
    .str (String.ofList (Naming.enumValue m.name.toList))
  else m.value

def outputName (p : Policy) (shortName : String) : String :=
  shortName ++ p.suffix

/-- The ignore list comes first, then the values; members keep their order. -/
def normalize (p : Policy) (members : List Member) : MemberTable :=
  Table.ofEntries ((p.filter members).map fun m => (m.name, p.valueFor m))

end Policy

/-- Names that an export of enumerations leaves out unless told otherwise. -/
def defaultEnumIgnore : List String :=
  ["CREATED_AT", "UPDATED_AT"]

end SymbolExport
