import SymbolExport.Proofs.LineReading
import SymbolExport.Proofs.Report

/-!
What the arguments of a line give. A text goes to an option behind its flag or attached to it, a
switch is set by its flag alone, and the first word besides is the operand. A reading holds just
that, for each option by its last use.
-/
namespace SymbolExport

namespace FlagUse

/-- The text that a use gives to its option, its own or else the argument behind it. -/
def textBefore (use : FlagUse) (behind : String) : Option String :=
  let text := use.text?.getD behind
  if text = separatorText then none else some text

def givenText? (use : FlagUse) (behind : String) : Option (String × Option String) :=
  if use.option.takesText then some (use.option.name, use.textBefore behind) else none

def givenSwitch? (use : FlagUse) : Option (String × Bool) :=
  match use.option.kind with
  | .on => some (use.option.name, true)
  | .onOff => some (use.option.name, !use.flag.startsWith "--no-")
  | _ => none

/-- The use needs no argument behind it. -/
def IsComplete (use : FlagUse) : Prop :=
  use.option.takesText → use.text?.isSome

end FlagUse

namespace CommandLine

/-- The uses of options in an argument, of which there are none if it is a word. -/
def usesIn (line : CommandLine) (item : LineItem) : List FlagUse :=
  match item.role with
  | .flag use => (line.usesOf use).toOption.getD []
  | _ => []

/-- The argument behind, empty if there is none. -/
def textBehind (items : List LineItem) : String :=
  (items.head?.map LineItem.text).getD ""

/-- The texts that are given to options, in order. -/
def textsGiven (line : CommandLine) : List LineItem → List (String × Option String)
  | [] => []
  | item :: rest =>
    (line.usesIn item).filterMap (·.givenText? (textBehind rest)) ++ line.textsGiven rest

/-- The switches that are set, in order. -/
def switchesGiven (line : CommandLine) (items : List LineItem) : List (String × Bool) :=
  items.flatMap fun item => (line.usesIn item).filterMap FlagUse.givenSwitch?

/-- The words that are not texts of options; `isText` tells whether the next one is. -/
def wordsBesides (line : CommandLine) (isText : Bool) : List LineItem → List String
  | [] => []
  | item :: rest =>
    if item.role = .word ∧ !isText then item.text :: line.wordsBesides false rest
    else line.wordsBesides (waitingOption? (line.usesIn item)).isSome rest

/-- The text that the last use of an option gives to it. -/
def textGiven? (line : CommandLine) (items : List LineItem) (name : String) :
    Option (Option String) :=
  Table.get? (line.textsGiven items).reverse name

/-- How the last use of a switch sets it. -/
def switchGiven? (line : CommandLine) (items : List LineItem) (name : String) : Option Bool :=
  Table.get? (line.switchesGiven items).reverse name

def operandGiven? (line : CommandLine) (items : List LineItem) : Option String :=
  (line.wordsBesides false items).head?

/-- A reading that holds what the items give, and nothing else. -/
structure Holds (line : CommandLine) (items : List LineItem) (r : LineReading) : Prop where
  texts : ∀ name, r.texts.get? name = line.textGiven? items name
  switches : ∀ name, r.switches.get? name = line.switchGiven? items name
  operand : r.operand? = line.operandGiven? items

end CommandLine

variable {line : CommandLine} {r r' : LineReading} {use : FlagUse} {uses waiting : List FlagUse}
  {items : List LineItem} {isBehindOperand : Bool} {next : String}

namespace Table

variable {α : Type}

/-- Puts entries into a table, one after the other. -/
def insertAll (t : Table α) (entries : List (String × α)) : Table α :=
  entries.foldl (fun t entry => t.insert entry.1 entry.2) t

@[simp] theorem insertAll_nil (t : Table α) : t.insertAll [] = t := rfl

theorem insertAll_append (t : Table α) (entries more : List (String × α)) :
    t.insertAll (entries ++ more) = (t.insertAll entries).insertAll more :=
  List.foldl_append

end Table

namespace LineReading

/-- A reading with texts and switches that are taken into account on top of another one. -/
structure Takes (r : LineReading) (texts : List (String × Option String))
    (switches : List (String × Bool)) (r' : LineReading) : Prop where
  texts : r'.texts = r.texts.insertAll texts
  switches : r'.switches = r.switches.insertAll switches
  operand : r'.operand? = r.operand?

theorem takes_apply (h : r.apply use next = .ok r') :
    r.Takes (use.givenText? next).toList use.givenSwitch?.toList r' := by
  unfold apply at h
  split at h
  · cases h
  · rename_i placeholder hkind
    cases h
    constructor <;> simp [FlagUse.givenText?, FlagUse.givenSwitch?, FlagUse.textBefore,
      OptionForm.takesText, Table.insertAll, hkind]
  · rename_i hkind
    cases h
    constructor <;> simp [FlagUse.givenText?, FlagUse.givenSwitch?, OptionForm.takesText,
      Table.insertAll, hkind]
  · rename_i hkind
    cases h
    constructor <;> simp [FlagUse.givenText?, FlagUse.givenSwitch?, OptionForm.takesText,
      Table.insertAll, hkind]

theorem takes_applyAll (h : r.applyAll next uses = .ok r') :
    r.Takes (uses.filterMap (·.givenText? next)) (uses.filterMap FlagUse.givenSwitch?) r' := by
  induction uses generalizing r with
  | nil =>
    cases h
    exact ⟨rfl, rfl, rfl⟩
  | cons use rest ih =>
    obtain ⟨middle, hfirst, hrest⟩ := exists_of_bind_eq_ok h
    have huse := takes_apply hfirst
    have hmore := ih hrest
    have htexts : (use :: rest).filterMap (·.givenText? next) =
        (use.givenText? next).toList ++ rest.filterMap (·.givenText? next) := by
      cases hu : use.givenText? next <;> simp [hu]
    have hswitches : (use :: rest).filterMap FlagUse.givenSwitch? =
        use.givenSwitch?.toList ++ rest.filterMap FlagUse.givenSwitch? := by
      cases hu : use.givenSwitch? <;> simp [hu]
    refine ⟨?_, ?_, hmore.operand.trans huse.operand⟩
    · rw [htexts, Table.insertAll_append, ← huse.texts, hmore.texts]
    · rw [hswitches, Table.insertAll_append, ← huse.switches, hmore.switches]

end LineReading

/-! Where no text is still to come, it does not matter what stands behind. -/

theorem FlagUse.IsComplete.givenText?_eq (h : use.IsComplete) (behind next : String) :
    use.givenText? behind = use.givenText? next := by
  unfold givenText?
  split
  · rename_i htext
    obtain ⟨text, ht⟩ := Option.isSome_iff_exists.mp (h htext)
    simp [textBefore, ht]
  · rfl

namespace CommandLine

/-- Only the last use in a cluster can lack its text. -/
theorem isComplete_of_cluster {flag : String} {o : OptionForm} {cs : List Char}
    (h : line.cluster flag o cs = .ok uses) : ∀ use ∈ uses.dropLast, use.IsComplete := by
  induction cs generalizing flag o uses with
  | nil =>
    unfold cluster at h
    split at h
    · cases h
      simp
    · cases h
  | cons c rest ih =>
    unfold cluster at h
    dsimp only at h
    split at h
    · cases h
      simp
    · rename_i hnone
      have hfirst : FlagUse.IsComplete ⟨flag, o, none⟩ := fun htext => absurd htext hnone
      split at h
      · cases h
      · split at h
        · cases h
        · rename_i nextOption hnext
          split at h
          · cases h
            simpa using hfirst
          · obtain ⟨more, hc, h⟩ := exists_of_bind_eq_ok h
            cases h
            intro use hu
            cases more with
            | nil => simp at hu
            | cons second others =>
              rw [List.dropLast_cons_cons] at hu
              rcases List.mem_cons.mp hu with rfl | hu
              · exact hfirst
              · exact ih hc use hu

theorem isComplete_of_usesOf (h : line.usesOf use = .ok uses) (hw : waitingOption? uses = none) :
    ∀ u ∈ uses, u.IsComplete := by
  have hfront : ∀ u ∈ uses.dropLast, u.IsComplete := by
    unfold usesOf at h
    split at h
    · exact isComplete_of_cluster h
    · cases h
      simp
  intro u hu
  have hne : uses ≠ [] := List.ne_nil_of_mem hu
  rw [← List.dropLast_concat_getLast hne] at hu
  rcases List.mem_append.mp hu with hu | hu
  · exact hfront u hu
  · obtain rfl := List.mem_singleton.mp hu
    rw [waitingOption?, List.getLast?_eq_some_getLast hne] at hw
    intro htext
    rcases huse : uses.getLast hne with ⟨flag, option, _ | text⟩
    · have hnot : ¬ option.takesText := by simpa [huse] using hw
      rw [huse] at htext
      exact absurd htext hnot
    · rfl

/-! What a reading holds in the end depends on the items alone. -/

/-- A reading that goes on from uses that wait for a text, and takes all that the items give. -/
structure ReadsOn (line : CommandLine) (r : LineReading) (waiting : List FlagUse)
    (items : List LineItem) (r' : LineReading) : Prop where
  texts : r'.texts = r.texts.insertAll
    (waiting.filterMap (·.givenText? (textBehind items)) ++ line.textsGiven items)
  switches : r'.switches = r.switches.insertAll
    (waiting.filterMap FlagUse.givenSwitch? ++ line.switchesGiven items)
  operand : r'.operand? =
    r.operand?.or (line.wordsBesides (waitingOption? waiting).isSome items).head?

theorem usesIn_of_flag {item : LineItem} (hrole : item.role = .flag use)
    (hu : line.usesOf use = .ok uses) : line.usesIn item = uses := by
  simp [usesIn, hrole, hu, Except.toOption]

theorem usesIn_of_not_flag {item : LineItem} (hrole : ∀ use, item.role ≠ .flag use) :
    line.usesIn item = [] := by
  unfold usesIn
  split
  · rename_i use hflag
    exact absurd hflag (hrole use)
  · rfl

section Cons

variable {item : LineItem} {rest : List LineItem} {middle : LineReading}

theorem waitingOption?_nil : waitingOption? [] = none := rfl

/-- A word behind a flag that waits for its text. -/
theorem ReadsOn.of_text (h : line.ReadsOn middle [] rest r')
    (ht : r.Takes (waiting.filterMap (·.givenText? item.text))
      (waiting.filterMap FlagUse.givenSwitch?) middle)
    (hw : (waitingOption? waiting).isSome) (hrole : item.role = .word) :
    line.ReadsOn r waiting (item :: rest) r' := by
  have huses : line.usesIn item = [] := usesIn_of_not_flag (by simp [hrole])
  refine ⟨?_, ?_, ?_⟩
  · rw [h.texts, ht.texts]
    simp [textsGiven, huses, textBehind, Table.insertAll_append]
  · rw [h.switches, ht.switches]
    simp [switchesGiven, huses, Table.insertAll_append]
  · rw [h.operand, ht.operand]
    simp [wordsBesides, huses, hw, waitingOption?_nil]

/-- A flag that waits for its text. -/
theorem ReadsOn.cons_of_open (h : line.ReadsOn r uses rest r') (huses : line.usesIn item = uses)
    (hrole : item.role ≠ .word) : line.ReadsOn r [] (item :: rest) r' := by
  refine ⟨?_, ?_, ?_⟩
  · simpa [textsGiven, huses] using h.texts
  · simpa [switchesGiven, huses] using h.switches
  · simpa [wordsBesides, huses, hrole] using h.operand

/-- A flag that is complete. -/
theorem ReadsOn.cons_of_closed (h : line.ReadsOn middle [] rest r')
    (ht : r.Takes (uses.filterMap (·.givenText? next)) (uses.filterMap FlagUse.givenSwitch?) middle)
    (hcomplete : ∀ use ∈ uses, use.IsComplete) (hw : waitingOption? uses = none)
    (huses : line.usesIn item = uses) (hrole : item.role ≠ .word) :
    line.ReadsOn r [] (item :: rest) r' := by
  have hsame : uses.filterMap (·.givenText? (textBehind rest)) =
      uses.filterMap (·.givenText? next) :=
    List.filterMap_congr fun use hm => (hcomplete use hm).givenText?_eq _ _
  refine ⟨?_, ?_, ?_⟩
  · rw [h.texts, ht.texts]
    simp [textsGiven, huses, hsame, Table.insertAll_append]
  · rw [h.switches, ht.switches]
    simp [switchesGiven, huses, Table.insertAll_append]
  · rw [h.operand, ht.operand]
    simp [wordsBesides, huses, hrole, hw, waitingOption?_nil]

/-- An item that is neither a flag nor a word gives nothing. -/
theorem ReadsOn.cons_of_passed (h : line.ReadsOn middle [] rest r') (huses : line.usesIn item = [])
    (hrole : item.role ≠ .word) (ht : r.Takes [] [] middle) :
    line.ReadsOn r [] (item :: rest) r' := by
  have htakes : r.Takes (([] : List FlagUse).filterMap (·.givenText? ""))
      (([] : List FlagUse).filterMap FlagUse.givenSwitch?) middle := ht
  exact h.cons_of_closed htakes (by simp) waitingOption?_nil huses hrole

/-- A word where none is waited for is the operand, unless there is one. -/
theorem ReadsOn.cons_of_word (h : line.ReadsOn middle [] rest r') (hrole : item.role = .word)
    (htexts : middle.texts = r.texts) (hswitches : middle.switches = r.switches)
    (hoperand : middle.operand? = r.operand?.or (some item.text)) :
    line.ReadsOn r [] (item :: rest) r' := by
  have huses : line.usesIn item = [] := usesIn_of_not_flag (by simp [hrole])
  refine ⟨?_, ?_, ?_⟩
  · simpa [textsGiven, huses, htexts] using h.texts
  · simpa [switchesGiven, huses, hswitches] using h.switches
  · rw [h.operand, hoperand]
    simp [wordsBesides, hrole, waitingOption?_nil]

end Cons

/-- A line with an operand is read as its items say, whatever has been read before. -/
theorem readsOn_readItems {operand help : String} (hop : line.operand = .text operand help)
    (hw : waiting = [] ∨ (waitingOption? waiting).isSome)
    (h : line.readItems r waiting isBehindOperand items = .ok r') :
    line.ReadsOn r waiting items r' := by
  induction items generalizing r waiting isBehindOperand with
  | nil =>
    unfold readItems at h
    split at h
    · cases h
    · rename_i hwait
      obtain rfl := hw.resolve_right (by simp [hwait])
      cases h
      exact ⟨rfl, rfl, by simp [wordsBesides]⟩
  | cons item rest ih =>
    cases hwait : waitingOption? waiting with
    | some option =>
      cases hrole : item.role with
      | word =>
        simp only [readItems, hwait, hrole] at h
        obtain ⟨middle, htake, hrest⟩ := exists_of_bind_eq_ok h
        exact (ih (Or.inl rfl) hrest).of_text (LineReading.takes_applyAll htake)
          (by simp [hwait]) hrole
      | separator | unknown | flag =>
        simp only [readItems, hwait, hrole] at h
        cases h
    | none =>
      obtain rfl := hw.resolve_right (by simp [hwait])
      cases hrole : item.role with
      | flag use =>
        have hword : item.role ≠ .word := by simp [hrole]
        simp only [readItems, hwait, hrole] at h
        obtain ⟨uses, hu, h⟩ := exists_of_bind_eq_ok h
        have hu := eq_ok_of_mapError hu
        have huses := usesIn_of_flag hrole hu
        by_cases hopen : (waitingOption? uses).isSome
        · rw [if_pos hopen] at h
          exact (ih (Or.inr hopen) h).cons_of_open huses hword
        · rw [if_neg hopen] at h
          obtain ⟨middle, htake, hrest⟩ := exists_of_bind_eq_ok h
          have hclosed : waitingOption? uses = none := Option.not_isSome_iff_eq_none.mp hopen
          exact (ih (Or.inl rfl) hrest).cons_of_closed (LineReading.takes_applyAll htake)
            (isComplete_of_usesOf hu hclosed) hclosed huses hword
      | unknown =>
        simp only [readItems, hwait, hrole] at h
        exact (ih (Or.inl rfl) h).cons_of_passed (usesIn_of_not_flag (by simp [hrole]))
          (by simp [hrole]) ⟨rfl, rfl, rfl⟩
      | separator =>
        have huses : line.usesIn item = [] := usesIn_of_not_flag (by simp [hrole])
        have hword : item.role ≠ .word := by simp [hrole]
        simp only [readItems, hwait, hrole, hop] at h
        split at h
        · exact (ih (Or.inl rfl) h).cons_of_passed huses hword ⟨rfl, rfl, rfl⟩
        · exact (ih (Or.inl rfl) h).cons_of_passed huses hword ⟨rfl, rfl, rfl⟩
      | word =>
        simp only [readItems, hwait, hrole, hop] at h
        split at h
        · rename_i hfree
          have hnone := Option.isNone_iff_eq_none.mp hfree
          exact (ih (Or.inl rfl) h).cons_of_word hrole rfl rfl (by simp [hnone])
        · rename_i htaken
          obtain ⟨first, hfirst⟩ := Option.ne_none_iff_exists'.mp (by simpa using htaken)
          exact (ih (Or.inl rfl) h).cons_of_word hrole rfl rfl
            (by simp [LineReading.addExtra, hfirst])

/-- What is read from the arguments of a line with an operand is what they give. -/
theorem holds_of_read {operand help : String} {arguments : List String}
    (hop : line.operand = .text operand help) (h : line.read arguments = .ok r) :
    ∃ items, line.items arguments = .ok items ∧ line.Holds items r := by
  obtain ⟨part, hpart, h⟩ := exists_of_bind_eq_ok h
  obtain rfl : part = r := by
    split at h
    · exact Except.ok.inj h
    · cases h
  obtain ⟨items, hitems, hpart⟩ := exists_of_bind_eq_ok hpart
  obtain ⟨read, hread, hpart⟩ := exists_of_bind_eq_ok hpart
  obtain rfl : read = part := by
    rw [hop] at hpart
    exact Except.ok.inj hpart
  have hon := readsOn_readItems hop (Or.inl rfl) hread
  refine ⟨items, eq_ok_of_mapError hitems, ?_, ?_, ?_⟩
  · intro name
    rw [hon.texts]
    exact Table.get?_ofEntries _ name
  · intro name
    rw [hon.switches]
    exact Table.get?_ofEntries _ name
  · exact hon.operand

end CommandLine

end SymbolExport
