import SymbolExport.Class.Enumeration
import SymbolExport.Class.Linearization

/-! Classes from their definitions, each of which can name the ones before it. -/
namespace SymbolExport

structure ClassDefinition where
  name : String
  bases : List String
  body : List (String × BodyValue)

/-- The latest class of that name. -/
def classNamed? (known : List Class) (name : String) : Option Class :=
  (known.find? fun c => c.name = name).orElse fun _ => rootClasses.find? fun c => c.name = name

/-- Adds the class to the known ones, the latest first. Every class without a base descends from
`object`. -/
def ClassDefinition.define? (d : ClassDefinition) (known : List Class) : Option (List Class) := do
  let bases ← (if d.bases.isEmpty then ["object"] else d.bases).mapM (classNamed? known)
  let ancestors ← linearize? bases
  let serial := ClassLevel.firstSerial + known.length
  let isEnum := ancestors.any fun l => l.serial = ClassLevel.enum.serial
  let attributes := d.body.filterMap fun (name, entry) =>
    match entry with
    | .given v => if isEnum && isCase d.name name entry then none else some (name, v)
    | .next => none
  let lastBase := (bases.getLast?.map Class.lineage).getD []
  let cases? :=
    if isEnum then some ((EnumForm.ofLevels ancestors lastBase).cases d.name d.body) else none
  return ⟨⟨serial, d.name, Table.ofEntries attributes⟩, ancestors, cases?⟩ :: known

/-- All classes of a list of definitions, the latest first. -/
def defineAll? (definitions : List ClassDefinition) : Option (List Class) :=
  definitions.foldlM (fun known d => d.define? known) []

/-- The one member of a new enumeration with these bases. -/
def soleMember? (bases : List String) (name member : String) (value : BodyValue) :
    Option Value := do
  let known ← ClassDefinition.define? ⟨name, bases, [(member, value)]⟩ []
  let c ← known.head?
  let (_, v) ← (← c.cases?).head?
  return .member name member (.ofLevels c.ancestors) v

end SymbolExport
