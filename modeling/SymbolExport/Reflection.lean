import SymbolExport.Class.Constant
import SymbolExport.Value.Text

/-! Reading the members of a type: the cases of an enumeration, or the constants of a class. -/
namespace SymbolExport

/-- What a name in a module stands for. -/
inductive Symbol
  | value (v : Value)
  | type (c : Class)
  | object (c : Class)
  | module

/-- The two kinds of types that can be exported. -/
inductive ExportMode
  | enums
  | constants
  deriving DecidableEq

/-- Base classes by which a declaration is known for an enumeration. -/
def enumBaseNames : List String :=
  ["Enum", "IntEnum", "StrEnum", "Flag", "IntFlag", "ReprEnum", "Choices", "TextChoices",
   "IntegerChoices"]

/-- The value of a case, if it is a text or an integer other than a truth value. -/
def Value.backing (v : Value) : Value :=
  match v.int?, v.str? with
  | some i, _ => .int i
  | none, some _ => .str v.text
  | none, none => .null

/-- Every case of an enumeration, also those that are other names of earlier ones. -/
def Class.caseMembers (c : Class) : List Member :=
  (c.cases?.getD []).map fun (name, value) => ⟨name, value.backing⟩

namespace ExportMode

def baseNames? : ExportMode → Option (List String)
  | enums => some enumBaseNames
  | constants => none

def synthesizeDefaults : ExportMode → Bool
  | enums => true
  | constants => false

/-- The class to read, if the symbol is one that this mode takes. -/
def accepted? : ExportMode → Symbol → Option Class
  | enums, .type c => if c.cases?.isSome then some c else none
  | constants, .type c => some c
  | constants, .value (.object .type) => some .bare
  | _, _ => none

def members : ExportMode → Class → List Member
  | enums, c => c.caseMembers
  | constants, c => c.constants

end ExportMode

end SymbolExport
