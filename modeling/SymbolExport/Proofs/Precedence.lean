import SymbolExport.Command.Options
import SymbolExport.Proofs.GivenOptions
import SymbolExport.Request

/-!
Which source decides about an option of an export: the command line, then the settings, then the
default of the command. An empty text does not count among texts, so it decides only if no other one
stands behind it.
-/
namespace SymbolExport

/-- Where an option can come from. What is given on the command line may be no value at all. -/
structure Sources (α : Type) where
  given? : Option (Option α) := none
  set? : Option α
  fallback : α

namespace Sources

variable {α : Type}

/-- The first source decides, whatever it holds. -/
def Prescribes (s : Sources α) (value : α) : Prop :=
  match s.given?, s.set? with
  | some given?, _ => given? = some value
  | none, some v => value = v
  | none, none => value = s.fallback

/-- The sources that are left if empty texts are taken for none. -/
def nonempty (s : Sources String) : Sources String where
  given? := s.given?.filter fun text? => text?.getD "" ≠ ""
  set? := s.set?.filter fun text => text ≠ ""
  fallback := s.fallback

/-- The first source holds no text, or an empty one that stands before another text. -/
def IsPassedOver (s : Sources String) : Prop :=
  match s.given?, s.set? with
  | some none, _ => True
  | some (some text), set? => text = "" ∧ (set?.getD "" ≠ "" ∨ s.fallback ≠ "")
  | none, some text => text = "" ∧ s.fallback ≠ ""
  | none, none => False

/-- A text that is chosen among those that are not empty. It is the prescribed one but where the
first source is passed over. -/
structure Settles (s : Sources String) (value : String) : Prop where
  prescribes_nonempty : s.nonempty.Prescribes value
  prescribes_iff : s.Prescribes value ↔ ¬ s.IsPassedOver

end Sources

/-- The sources of all options of an export. -/
structure OptionSources where
  path : Sources String
  output : Sources String
  suffix : Sources String
  emitDeclarations : Sources Bool
  ignore : Sources (List String)

/-- What the items of a command line, some settings and the defaults hold for a command. -/
def Command.sources (c : Command) (line : CommandLine) (items : List LineItem)
    (s : CommandSettings) : OptionSources where
  path := ⟨line.textGiven? items pathName, s.path?, c.defaultPath⟩
  output := ⟨(line.operandGiven? items).map some, s.output?, c.defaultOutput⟩
  suffix := ⟨line.textGiven? items suffixName, s.suffix?, c.defaultSuffix⟩
  emitDeclarations := ⟨(line.switchGiven? items declarationsName).map some, s.emitDeclarations?,
    false⟩
  ignore := { set? := s.ignore?, fallback := c.defaultIgnore }

/-- The options that their sources make in a project. -/
structure OptionSources.Determine (s : OptionSources) (appDirectory : String) (project : Path)
    (o : ExportOptions) : Prop where
  path : ∃ path, s.path.Settles path ∧
    o.sourceRoot = (project.join (.ofString appDirectory)).join (.ofString path)
  output : ∃ output, s.output.Settles output ∧ o.outputPath = project.join (.ofString output)
  importRoot : o.importRoot = project
  suffix : s.suffix.Settles o.suffix
  emitDeclarations : s.emitDeclarations.Prescribes o.emitDeclarations
  ignore : s.ignore.Prescribes o.ignore

section FirstGiven

variable (texts : List (Option String)) (fallback : String)

@[simp] theorem firstGiven_nil : firstGiven [] fallback = fallback := rfl

@[simp] theorem firstGiven_none : firstGiven (none :: texts) fallback = firstGiven texts fallback :=
  rfl

@[simp] theorem firstGiven_some (text : String) : firstGiven (some text :: texts) fallback =
    if text = "" then firstGiven texts fallback else text := by
  by_cases ht : text = "" <;> simp [firstGiven, ht]

end FirstGiven

namespace Sources

theorem prescribes_firstGiven_set (set? : Option String) (fallback : String) :
    (nonempty ⟨none, set?, fallback⟩).Prescribes (firstGiven [set?] fallback) := by
  cases set? with
  | none => rfl
  | some v => by_cases hv : v = "" <;> simp [nonempty, Prescribes, Option.filter, hv]

theorem prescribes_firstGiven (given? : Option (Option String)) (set? : Option String)
    (fallback : String) :
    (nonempty ⟨given?, set?, fallback⟩).Prescribes
      (firstGiven [given?.join, set?] fallback) := by
  rcases given? with _ | _ | text
  · exact prescribes_firstGiven_set set? fallback
  · exact prescribes_firstGiven_set set? fallback
  · by_cases ht : text = ""
    · subst ht
      exact prescribes_firstGiven_set set? fallback
    · simp [nonempty, Prescribes, Option.filter, ht]

/-- The first text that is not empty settles an option. -/
theorem settles_firstGiven (s : Sources String) :
    s.Settles (firstGiven [s.given?.join, s.set?] s.fallback) := by
  obtain ⟨given?, set?, fallback⟩ := s
  refine ⟨prescribes_firstGiven given? set? fallback, ?_⟩
  -- the first source is followed at once unless its text is empty, and then the next one is asked
  rcases given? with _ | _ | text
  · cases set? with
    | none => simp [Prescribes, IsPassedOver]
    | some v => by_cases hv : v = "" <;> simp [Prescribes, IsPassedOver, hv]
  · simp [Prescribes, IsPassedOver]
  · by_cases ht : text = ""
    · cases set? with
      | none => simp [Prescribes, IsPassedOver, ht, eq_comm]
      | some v => by_cases hv : v = "" <;> simp [Prescribes, IsPassedOver, ht, hv, eq_comm]
    · simp [Prescribes, IsPassedOver, ht]

theorem prescribes_getD {α : Type} (given? set? : Option α) (fallback : α) :
    Prescribes ⟨given?.map some, set?, fallback⟩ (given?.getD (set?.getD fallback)) := by
  cases given? with
  | some value => rfl
  | none => cases set? <;> rfl

end Sources

namespace Command

variable {c : Command} {shared : List OptionForm} {arguments : List String} {r : LineReading}

/-- The options of an export come from the first of their sources; of texts, an empty one is left
out. -/
theorem exportOptions_by_precedence (h : (c.line shared).read arguments = .ok r)
    (settings : Settings) (project : Path) :
    ∃ items, (c.line shared).items arguments = .ok items ∧
      (c.sources (c.line shared) items (settings.forCommand c.name)).Determine
        settings.appDirectory project
        (c.exportOptions r (settings.forCommand c.name) settings.appDirectory project) := by
  obtain ⟨items, hitems, hholds⟩ := CommandLine.holds_of_read rfl h
  have hpath : r.text? pathName = ((c.line shared).textGiven? items pathName).join := by
    rw [LineReading.text?, hholds.texts]
  have hsuffix : r.text? suffixName = ((c.line shared).textGiven? items suffixName).join := by
    rw [LineReading.text?, hholds.texts]
  have houtput : r.operand? = (((c.line shared).operandGiven? items).map some).join := by
    rw [hholds.operand]
    cases (c.line shared).operandGiven? items <;> rfl
  refine ⟨items, hitems, ⟨_, ?_, rfl⟩, ⟨_, ?_, rfl⟩, rfl, ?_, ?_, ?_⟩
  · rw [hpath]
    exact Sources.settles_firstGiven _
  · rw [houtput]
    exact Sources.settles_firstGiven _
  · rw [exportOptions, hsuffix]
    exact Sources.settles_firstGiven _
  · rw [exportOptions, hholds.switches]
    exact Sources.prescribes_getD _ _ _
  · exact Sources.prescribes_getD none _ _

/-- Settings for the export of enumerations. -/
def choicesSection : CommandSettings where
  path? := some "choices"
  suffix? := some "Cfg"
  emitDeclarations? := some true
  ignore? := some []

def choicesSettings : Settings where
  root := []
  appDirectory := "backend"
  commands := [("enums", choicesSection)]

def statesArguments : List String :=
  ["--suffix", "Cli", "--no-typescript", "--path=states", "b.js"]

def statesReading : LineReading where
  texts := [("suffix", some "Cli"), ("path", some "states")]
  switches := [("typescript", false)]
  operand? := some "b.js"

theorem exportOptions_by_precedence_states :
    ((enums [3, 11]).line []).read statesArguments = .ok statesReading ∧
      ∃ items, ((enums [3, 11]).line []).items statesArguments = .ok items ∧
        ((enums [3, 11]).sources ((enums [3, 11]).line []) items
          (choicesSettings.forCommand "enums")).Determine "backend" (.ofLocation [])
          ((enums [3, 11]).exportOptions statesReading (choicesSettings.forCommand "enums")
            "backend" (.ofLocation [])) := by
  have hread : ((enums [3, 11]).line []).read statesArguments = .ok statesReading := by cbv
  exact ⟨hread, exportOptions_by_precedence hread choicesSettings (.ofLocation [])⟩

def emptySuffixItems : List LineItem :=
  [⟨"--suffix", .flag ⟨"--suffix", ⟨suffixName, ["--suffix"], .text "SUFFIX",
    "Suffix appended to each exported name."⟩, none⟩⟩, ⟨"", .word⟩]

def emptySuffixReading : LineReading where
  texts := [("suffix", some "")]

/-- The suffix of the settings is taken, although an empty one is given. -/
theorem not_prescribes_emptySuffix :
    ((enums [3, 11]).line []).read ["--suffix", ""] = .ok emptySuffixReading ∧
      ((enums [3, 11]).line []).items ["--suffix", ""] = .ok emptySuffixItems ∧
      ((enums [3, 11]).sources ((enums [3, 11]).line []) emptySuffixItems
        (choicesSettings.forCommand "enums")).suffix = ⟨some (some ""), some "Cfg", ""⟩ ∧
      ((enums [3, 11]).exportOptions emptySuffixReading (choicesSettings.forCommand "enums")
        "backend" (.ofLocation [])).suffix = "Cfg" ∧
      ¬ Sources.Prescribes ⟨some (some ""), some "Cfg", ""⟩ "Cfg" := by
  have hgiven : ((enums [3, 11]).line []).textGiven? emptySuffixItems suffixName =
      some (some "") := by cbv
  refine ⟨by cbv, by cbv, ?_, by cbv, ?_⟩
  · rw [sources, hgiven]
    rfl
  · intro hprescribes
    exact absurd (Option.some.inj hprescribes) (by decide)

end Command

end SymbolExport
