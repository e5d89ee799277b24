import SymbolExport.Request
import SymbolExport.Proofs.Alike
import SymbolExport.Proofs.DottedName

/-!
Reading a command line from two states that differ in one switch. The readings stay alike: they fail
together, and one that is on stays on, since each use of an option comes from the line.
-/
namespace SymbolExport

/-- A reading that says the same as another one, but for a switch that it has turned on. -/
structure LineReading.TurnsOn (name : String) (r r' : LineReading) : Prop where
  texts : r'.texts = r.texts
  operand : r'.operand? = r.operand?
  command : r'.command? = r.command?
  extras : r'.extras = r.extras
  others : ∀ other, other ≠ name → r'.switches.get? other = r.switches.get? other
  on : r'.switches.get? name = some true

/-- No option of a line turns a switch off. -/
def CommandLine.NeverOff (line : CommandLine) (name : String) : Prop :=
  ∀ o ∈ line.options, o.kind = .onOff → o.name ≠ name

variable {line : CommandLine} {name flag argument : String} {r r' : LineReading}
  {use : FlagUse} {uses waiting : List FlagUse} {items : List LineItem} {isBehindOperand : Bool}

namespace CommandLine

/-! Uses of options come from the line. -/

theorem option_mem_of_flags {o : OptionForm} (h : (flag, o) ∈ line.flags) : o ∈ line.options := by
  obtain ⟨o', ho, hf⟩ := List.mem_flatMap.mp h
  obtain ⟨flag', -, he⟩ := List.mem_map.mp hf
  cases he
  exact ho

theorem option_mem_of_option? {o : OptionForm} (h : line.option? flag = some o) :
    o ∈ line.options := by
  obtain ⟨entry, he, rfl⟩ := Option.map_eq_some_iff.mp h
  exact option_mem_of_flags (List.mem_of_find?_eq_some he)

theorem option_mem_of_candidates {cs : List Char} (h : use ∈ line.candidates cs) :
    use.option ∈ line.options := by
  unfold candidates at h
  split at h
  · obtain ⟨⟨flag, o⟩, hm, hu⟩ := List.mem_filterMap.mp h
    obtain ⟨-, hu⟩ := Option.ite_none_right_eq_some.mp hu
    cases hu
    exact option_mem_of_flags hm
  · obtain ⟨⟨flag, o⟩, hm, hu⟩ := List.mem_filterMap.mp h
    dsimp only at hu
    split at hu
    · cases hu
      exact option_mem_of_flags hm
    · split at hu
      · cases hu
        exact option_mem_of_flags hm
      · cases hu
  · cases h

theorem option_mem_of_exactUse? (h : line.exactUse? argument = some use) :
    use.option ∈ line.options := by
  unfold exactUse? at h
  split at h
  · rename_i o ho
    cases h
    exact option_mem_of_option? ho
  · obtain ⟨⟨before, after⟩, -, h⟩ := Option.bind_eq_some_iff.mp h
    obtain ⟨o, ho, h⟩ := Option.bind_eq_some_iff.mp h
    cases h
    exact option_mem_of_option? ho

theorem option_mem_of_role (h : line.role argument = .ok (.flag use)) :
    use.option ∈ line.options := by
  unfold role at h
  split at h
  · dsimp only at h
    split at h
    · rename_i use' hu
      cases h
      exact option_mem_of_exactUse? hu
    · split at h
      · rename_i use' hu
        cases h
        exact option_mem_of_candidates (hu ▸ List.mem_singleton_self _)
      · split at h <;> cases h
      · cases h
  · cases h

theorem option_mem_of_items {arguments : List String} (h : line.items arguments = .ok items) :
    ∀ item ∈ items, ∀ use, item.role = .flag use → use.option ∈ line.options := by
  induction arguments generalizing items with
  | nil =>
    cases h
    simp
  | cons argument rest ih =>
    unfold CommandLine.items at h
    split at h
    · cases h
      intro item hm use hu
      rcases List.mem_cons.mp hm with rfl | hm
      · cases hu
      · obtain ⟨text, -, rfl⟩ := List.mem_map.mp hm
        cases hu
    · obtain ⟨role, hr, h⟩ := exists_of_bind_eq_ok h
      obtain ⟨more, hi, h⟩ := exists_of_bind_eq_ok h
      cases h
      intro item hm use hu
      rcases List.mem_cons.mp hm with rfl | hm
      · have hflag : role = .flag use := hu
        exact option_mem_of_role (hflag ▸ hr)
      · exact ih hi item hm use hu

theorem option_mem_of_cluster {o : OptionForm} {cs : List Char} (ho : o ∈ line.options)
    (h : line.cluster flag o cs = .ok uses) : ∀ use ∈ uses, use.option ∈ line.options := by
  induction cs generalizing flag o uses with
  | nil =>
    unfold cluster at h
    split at h
    · cases h
      simpa using ho
    · cases h
  | cons c rest ih =>
    unfold cluster at h
    dsimp only at h
    split at h
    · cases h
      simpa using ho
    · split at h
      · cases h
      · split at h
        · cases h
        · rename_i next hnext
          have hm := option_mem_of_option? hnext
          split at h
          · cases h
            simpa using ⟨ho, hm⟩
          · obtain ⟨more, hc, h⟩ := exists_of_bind_eq_ok h
            cases h
            intro use hu
            rcases List.mem_cons.mp hu with rfl | hu
            · exact ho
            · exact ih hm hc use hu

theorem option_mem_of_usesOf (hu : use.option ∈ line.options)
    (h : line.usesOf use = .ok uses) : ∀ use ∈ uses, use.option ∈ line.options := by
  unfold usesOf at h
  split at h
  · exact option_mem_of_cluster hu h
  · cases h
    simpa using hu

end CommandLine

namespace LineReading

theorem TurnsOn.insert (h : r.TurnsOn name r') {other : String} {value : Bool}
    (hv : other = name → value = true) :
    TurnsOn name { r with switches := r.switches.insert other value }
      { r' with switches := r'.switches.insert other value } := by
  refine ⟨h.texts, h.operand, h.command, h.extras, ?_, ?_⟩
  · intro third hne
    dsimp only
    by_cases he : third = other
    · subst he
      rw [Table.get?_insert_self, Table.get?_insert_self]
    · rw [Table.get?_insert_of_ne he, Table.get?_insert_of_ne he, h.others third hne]
  · dsimp only
    by_cases he : name = other
    · subst he
      rw [Table.get?_insert_self, hv rfl]
    · rw [Table.get?_insert_of_ne he, h.on]

theorem alike_apply (h : r.TurnsOn name r') (hn : use.option.kind = .onOff → use.option.name ≠ name)
    (next : String) : Alike (TurnsOn name) (r.apply use next) (r'.apply use next) := by
  unfold apply
  cases hk : use.option.kind with
  | help => exact Alike.error LineEnd.help
  | text =>
    refine .ok ⟨?_, h.operand, h.command, h.extras, h.others, h.on⟩
    dsimp only
    rw [h.texts]
  | on => exact .ok (h.insert fun _ => rfl)
  | onOff => exact .ok (h.insert fun he => absurd he (hn hk))

theorem alike_applyAll (hline : line.NeverOff name) (h : r.TurnsOn name r')
    (hu : ∀ use ∈ uses, use.option ∈ line.options) (next : String) :
    Alike (TurnsOn name) (r.applyAll next uses) (r'.applyAll next uses) := by
  induction uses generalizing r r' with
  | nil => exact .ok h
  | cons use rest ih =>
    have hfirst := alike_apply h (hline _ (hu use List.mem_cons_self)) next
    have hrest := fun u hm => hu u (List.mem_cons_of_mem use hm)
    exact hfirst.bind fun a b hab => ih hab hrest

theorem command_of_apply {next : String} (h : r.apply use next = .ok r') :
    r'.command? = r.command? := by
  unfold apply at h
  split at h <;> cases h <;> rfl

theorem command_of_applyAll {next : String} (h : r.applyAll next uses = .ok r') :
    r'.command? = r.command? := by
  induction uses generalizing r with
  | nil =>
    cases h
    rfl
  | cons use rest ih =>
    obtain ⟨middle, hfirst, hrest⟩ := exists_of_bind_eq_ok h
    exact (ih hrest).trans (command_of_apply hfirst)

end LineReading

theorem LineReading.TurnsOn.choose (h : r.TurnsOn name r') (operand given : String)
    (choices behind : List String) : Alike (LineReading.TurnsOn name)
      (r.choose operand given choices behind) (r'.choose operand given choices behind) := by
  unfold LineReading.choose
  split
  · exact .ok ⟨h.texts, h.operand, rfl, h.extras, h.others, h.on⟩
  · exact .error _

theorem LineReading.choose_eq_ok_iff {operand given : String} {choices behind : List String} :
    r.choose operand given choices behind = .ok r' ↔
      given ∈ choices ∧ r' = { r with command? := some (given, behind) } := by
  unfold LineReading.choose
  split
  · rename_i hm
    rw [Except.ok.injEq, eq_comm, and_iff_right hm]
  · rename_i hm
    simp [hm]

namespace CommandLine

/-- Readings that are alike stay so, whatever comes. -/
theorem alike_readItems (hline : line.NeverOff name) (h : r.TurnsOn name r')
    (hw : ∀ use ∈ waiting, use.option ∈ line.options)
    (hi : ∀ item ∈ items, ∀ use, item.role = .flag use → use.option ∈ line.options) :
    Alike (LineReading.TurnsOn name) (line.readItems r waiting isBehindOperand items)
      (line.readItems r' waiting isBehindOperand items) := by
  induction items generalizing r r' waiting isBehindOperand with
  | nil =>
    unfold readItems
    split
    · exact .error _
    · exact .ok h
  | cons item rest ih =>
    have hrest := fun i hm => hi i (List.mem_cons_of_mem item hm)
    have hnone : ∀ use ∈ ([] : List FlagUse), use.option ∈ line.options := by simp
    have hextra : LineReading.TurnsOn name (r.addExtra item.text) (r'.addExtra item.text) :=
      ⟨h.texts, h.operand, h.command, by simp [LineReading.addExtra, h.extras], h.others, h.on⟩
    cases hwait : waitingOption? waiting with
    | some option =>
      cases hrole : item.role with
      | word =>
        simp only [readItems, hwait, hrole]
        exact (LineReading.alike_applyAll hline h hw item.text).bind fun a b hab =>
          ih hab hnone hrest
      | separator | unknown | flag =>
        simp only [readItems, hwait, hrole]
        exact .error _
    | none =>
      cases hrole : item.role with
      | unknown =>
        simp only [readItems, hwait, hrole]
        exact ih hextra hnone hrest
      | flag use =>
        simp only [readItems, hwait, hrole]
        cases hu : line.usesOf use with
        | error fault => exact .error _
        | ok uses =>
          have huses := option_mem_of_usesOf (hi item List.mem_cons_self use hrole) hu
          simp only [Except.mapError, bind, Except.bind]
          split
          · exact ih h huses hrest
          · exact (LineReading.alike_applyAll hline h huses "").bind fun a b hab =>
              ih hab hnone hrest
      | word =>
        cases hoperand : line.operand with
        | text =>
          simp only [readItems, hwait, hrole, hoperand, h.operand]
          split
          · exact ih ⟨h.texts, rfl, h.command, h.extras, h.others, h.on⟩ hnone hrest
          · exact ih hextra hnone hrest
        | command operand choices =>
          simp only [readItems, hwait, hrole, hoperand]
          exact h.choose _ _ _ _
      | separator =>
        cases hoperand : line.operand with
        | text =>
          simp only [readItems, hwait, hrole, hoperand, h.operand]
          split
          · exact ih h hnone hrest
          · exact ih hextra hnone hrest
        | command operand choices =>
          simp only [readItems, hwait, hrole, hoperand]
          split
          · exact ih hextra hnone hrest
          · exact h.choose _ _ _ _

/-! A switch in front of the arguments, and in front of the name of a command. -/

/-- A flag of a line that turns something on. -/
structure IsSwitch (line : CommandLine) (flag : String) (o : OptionForm) : Prop where
  option : line.option? flag = some o
  on : o.kind = .on
  hyphen : ∃ c rest, flag.toList = '-' :: c :: rest
  ne_separator : flag ≠ separatorText

/-- The item that such a flag is sorted to. -/
def switchItem (flag : String) (o : OptionForm) : LineItem :=
  ⟨flag, .flag ⟨flag, o, none⟩⟩

variable {o : OptionForm} {arguments : List String} {front back : List LineItem}

theorem IsSwitch.role_eq (h : line.IsSwitch flag o) :
    line.role flag = .ok (.flag ⟨flag, o, none⟩) := by
  obtain ⟨c, rest, hc⟩ := h.hyphen
  have huse : line.exactUse? flag = some ⟨flag, o, none⟩ := by rw [exactUse?, h.option]
  unfold role
  rw [hc]
  simp only [huse]

theorem IsSwitch.items_cons (h : line.IsSwitch flag o) (arguments : List String) :
    line.items (flag :: arguments) =
      (line.items arguments).map fun items => switchItem flag o :: items := by
  rw [items, if_neg h.ne_separator, h.role_eq]
  cases line.items arguments <;> rfl

theorem IsSwitch.readItems_cons (h : line.IsSwitch flag o) (r : LineReading)
    (isBehindOperand : Bool) (items : List LineItem) :
    line.readItems r [] isBehindOperand (switchItem flag o :: items) =
      line.readItems { r with switches := r.switches.insert o.name true } [] false items := by
  have hwait : waitingOption? [⟨flag, o, none⟩] = none := by
    simp [waitingOption?, OptionForm.takesText, h.on]
  have hnone : waitingOption? [] = none := rfl
  simp only [readItems, switchItem, hnone, usesOf, Except.mapError, bind, Except.bind, hwait,
    LineReading.applyAll, LineReading.apply, h.on]
  rfl

/-- A switch in front is all that such a reading differs in. -/
theorem IsSwitch.alike_readPart (h : line.IsSwitch flag o) (hline : line.NeverOff o.name)
    (arguments : List String) : Alike (LineReading.TurnsOn o.name) (line.readPart arguments)
      (line.readPart (flag :: arguments)) := by
  unfold readPart
  rw [h.items_cons]
  cases hi : line.items arguments with
  | error fault => exact .error _
  | ok items =>
    have hstart : LineReading.TurnsOn o.name {} { switches := [(o.name, true)] } := by
      refine ⟨rfl, rfl, rfl, rfl, ?_, ?_⟩
      · intro other hne
        simp [Table.get?, Ne.symm hne]
      · simp [Table.get?]
    have hread : Alike (LineReading.TurnsOn o.name) (line.readItems {} [] false items)
        (line.readItems {} [] false (switchItem flag o :: items)) := by
      rw [h.readItems_cons]
      exact alike_readItems hline hstart (by simp) (option_mem_of_items hi)
    refine hread.bind ?_
    intro r r' hr
    rw [hr.command]
    split
    · exact .error _
    · exact .ok hr

/-- Where the name of a command is found: what stands before it is read whatever follows, and there
is no separator in it. -/
structure FindsCommand (line : CommandLine) (r : LineReading) (waiting : List FlagUse)
    (isBehindOperand : Bool) (front : List LineItem) (item : LineItem) (back : List LineItem)
    (reached : LineReading) (isBehind : Bool) : Prop where
  front_eq : ∀ more, line.readItems r waiting isBehindOperand (front ++ more) =
    line.readItems reached [] isBehind more
  noSeparator : ∀ i ∈ front, i.role ≠ .separator
  item : item.role = .word ∨ item.role = .separator ∧ back ≠ []

theorem readItems_of_chosen {operand : String} {choices : List (String × String)} {item : LineItem}
    (hop : line.operand = .command operand choices)
    (hitem : item.role = .word ∨ item.role = .separator ∧ back ≠ [])
    (isBehindOperand : Bool) :
    line.readItems r [] isBehindOperand (item :: back) =
      r.choose operand item.text (choices.map Prod.fst) (back.map LineItem.text) := by
  have hnone : waitingOption? [] = none := rfl
  rcases hitem with hrole | ⟨hrole, hne⟩
  · simp only [readItems, hnone, hrole, hop]
  · simp only [readItems, hnone, hrole, hop, List.isEmpty_iff, hne, if_false]

theorem readItems_of_waitingOption? (hw : waitingOption? waiting = none) (r : LineReading)
    (isBehindOperand : Bool) (items : List LineItem) :
    line.readItems r waiting isBehindOperand items =
      line.readItems r [] isBehindOperand items := by
  have hnone : waitingOption? [] = none := rfl
  cases items with
  | nil => simp only [readItems, hw, hnone]
  | cons item rest =>
    cases hrole : item.role <;> cases hop : line.operand <;>
      simp only [readItems, hw, hnone, hrole, hop]

/-- What becomes of the first item of a line that is read: it is passed, whatever follows, or it is
the name of a command, or a separator at the end. -/
inductive FirstItem (line : CommandLine) (r : LineReading) (waiting : List FlagUse)
    (isBehindOperand : Bool) (item : LineItem) (rest : List LineItem) (r' : LineReading) : Prop
  | passed {next : LineReading} {waiting' : List FlagUse} {isBehind : Bool}
      (step : ∀ more, line.readItems r waiting isBehindOperand (item :: more) =
        line.readItems next waiting' isBehind more)
      (command : next.command? = r.command?) (role : item.role ≠ .separator)
  | chosen (hw : waitingOption? waiting = none)
      (role : item.role = .word ∨ item.role = .separator ∧ rest ≠ [])
  | last (command : r'.command? = r.command?)

theorem firstItem_of_readItems {operand : String} {choices : List (String × String)}
    {item : LineItem} {rest : List LineItem} (hop : line.operand = .command operand choices)
    (hr : line.readItems r waiting isBehindOperand (item :: rest) = .ok r') :
    line.FirstItem r waiting isBehindOperand item rest r' := by
  cases hwait : waitingOption? waiting with
  | some option =>
    cases hrole : item.role with
    | word =>
      simp only [readItems, hwait, hrole] at hr
      obtain ⟨next, hnext, -⟩ := exists_of_bind_eq_ok hr
      have hstep : ∀ more, line.readItems r waiting isBehindOperand (item :: more) =
          line.readItems next [] false more := by
        intro more
        simp only [readItems, hwait, hrole, hnext, bind, Except.bind]
      exact .passed hstep (LineReading.command_of_applyAll hnext) (by simp [hrole])
    | separator | unknown | flag =>
      simp only [readItems, hwait, hrole] at hr
      cases hr
  | none =>
    cases hrole : item.role with
    | unknown =>
      have hstep : ∀ more, line.readItems r waiting isBehindOperand (item :: more) =
          line.readItems (r.addExtra item.text) [] false more := by
        intro more
        simp only [readItems, hwait, hrole]
      exact .passed hstep rfl (by simp [hrole])
    | flag use =>
      simp only [readItems, hwait, hrole] at hr
      obtain ⟨uses, huses, hr⟩ := exists_of_bind_eq_ok hr
      by_cases hopen : (waitingOption? uses).isSome
      · have hstep : ∀ more, line.readItems r waiting isBehindOperand (item :: more) =
            line.readItems r uses false more := by
          intro more
          simp only [readItems, hwait, hrole, huses, bind, Except.bind, hopen, if_true]
        exact .passed hstep rfl (by simp [hrole])
      · rw [if_neg hopen] at hr
        obtain ⟨next, hnext, -⟩ := exists_of_bind_eq_ok hr
        have hstep : ∀ more, line.readItems r waiting isBehindOperand (item :: more) =
            line.readItems next [] false more := by
          intro more
          simp only [readItems, hwait, hrole, huses, bind, Except.bind, hopen, Bool.false_eq_true,
            if_false, hnext]
        exact .passed hstep (LineReading.command_of_applyAll hnext) (by simp [hrole])
    | word => exact .chosen hwait (Or.inl hrole)
    | separator =>
      by_cases hne : rest = []
      · subst hne
        simp only [readItems, hwait, hrole, hop, List.isEmpty_nil, if_true] at hr
        have hnone : waitingOption? [] = none := rfl
        simp only [hnone] at hr
        cases hr
        exact .last rfl
      · exact .chosen hwait (Or.inr ⟨hrole, hne⟩)

/-- The name of a command that is read stands among the items, and the front of it is read in the
same way whatever follows. -/
theorem exists_findsCommand {operand : String} {choices : List (String × String)}
    {behind : List String} (hop : line.operand = .command operand choices)
    (hr : line.readItems r waiting isBehindOperand items = .ok r') (hnone : r.command? = none)
    (hc : r'.command? = some (name, behind)) :
    ∃ front item back reached isBehind, items = front ++ item :: back ∧ item.text = name ∧
      back.map LineItem.text = behind ∧
      line.FindsCommand r waiting isBehindOperand front item back reached isBehind := by
  induction items generalizing r waiting isBehindOperand with
  | nil =>
    unfold readItems at hr
    split at hr
    · cases hr
    · cases hr
      rw [hnone] at hc
      cases hc
  | cons item rest ih =>
    cases firstItem_of_readItems hop hr with
    | passed step command role =>
      rw [step] at hr
      obtain ⟨front, found, back, reached, isBehind, rfl, htext, hback, hfinds⟩ :=
        ih hr (command.trans hnone)
      refine ⟨item :: front, found, back, reached, isBehind, rfl, htext, hback, ?_, ?_, hfinds.item⟩
      · intro more
        rw [List.cons_append, step, hfinds.front_eq]
      · intro i hi
        rcases List.mem_cons.mp hi with rfl | hi
        · exact role
        · exact hfinds.noSeparator i hi
    | chosen hw role =>
      rw [readItems_of_waitingOption? hw, readItems_of_chosen hop role] at hr
      have hchosen : (item.text, rest.map LineItem.text) = (name, behind) := by
        obtain ⟨-, rfl⟩ := LineReading.choose_eq_ok_iff.mp hr
        exact Option.some.inj hc
      obtain ⟨htext, hback⟩ := Prod.mk.inj hchosen
      refine ⟨[], item, rest, r, isBehindOperand, rfl, htext, hback, ?_, by simp, role⟩
      exact fun more => readItems_of_waitingOption? hw r isBehindOperand more
    | last command =>
      rw [command, hnone] at hc
      cases hc

/-- Before the first separator each argument is sorted by itself. -/
theorem items_append {front back : List String} (h : separatorText ∉ front) :
    line.items (front ++ back) =
      (line.items front).bind fun items => (line.items back).map (items ++ ·) := by
  induction front with
  | nil =>
    rw [List.nil_append]
    cases line.items back <;> rfl
  | cons argument rest ih =>
    obtain ⟨hne, hrest⟩ := not_or.mp (mt List.mem_cons.mpr h)
    rw [List.cons_append, items, items, if_neg (Ne.symm hne), if_neg (Ne.symm hne), ih hrest]
    cases line.role argument with
    | error fault => rfl
    | ok role =>
      cases line.items rest with
      | error fault => rfl
      | ok more => cases line.items back <;> rfl

theorem items_of_append (hi : line.items arguments = .ok (front ++ back))
    (hs : ∀ i ∈ front, i.role ≠ .separator) :
    separatorText ∉ front.map LineItem.text ∧
      line.items (front.map LineItem.text) = .ok front ∧
      line.items (back.map LineItem.text) = .ok back := by
  induction front generalizing arguments with
  | nil =>
    have htexts := text_of_items hi
    rw [List.nil_append] at htexts hi
    subst htexts
    exact ⟨List.not_mem_nil, rfl, hi⟩
  | cons item rest ih =>
    cases arguments with
    | nil => cases hi
    | cons argument more =>
      unfold items at hi
      split at hi
      · obtain ⟨hitem, -⟩ := List.cons.inj (Except.ok.inj hi)
        exact absurd (hitem ▸ rfl) (hs item List.mem_cons_self)
      · rename_i hne
        obtain ⟨role, hrole, hi⟩ := exists_of_bind_eq_ok hi
        obtain ⟨sorted, hsorted, hi⟩ := exists_of_bind_eq_ok hi
        cases hi
        obtain ⟨hnotin, hfront, hback⟩ := ih hsorted fun i hm => hs i (List.mem_cons_of_mem _ hm)
        refine ⟨?_, ?_, hback⟩
        · intro hm
          rcases List.mem_cons.mp hm with he | hm
          · exact hne he.symm
          · exact hnotin hm
        · rw [List.map_cons, items, if_neg hne, hrole, hfront]
          rfl

/-- A switch behind an item is sorted as one, or as a word if a separator stands before it. -/
theorem IsSwitch.exists_items_insert (h : line.IsSwitch flag o) {item : LineItem}
    (hi : line.items ((item :: back).map LineItem.text) = .ok (item :: back)) :
    ∃ inserted, inserted.text = flag ∧
      line.items (item.text :: flag :: back.map LineItem.text) =
        .ok (item :: inserted :: back) := by
  rw [List.map_cons, items] at hi
  split at hi
  · rename_i hsep
    obtain ⟨hitem, hback⟩ := List.cons.inj (Except.ok.inj hi)
    refine ⟨⟨flag, .word⟩, rfl, ?_⟩
    rw [items, if_pos hsep, List.map_cons, hitem, hback]
  · rename_i hne
    obtain ⟨role, hrole, hi⟩ := exists_of_bind_eq_ok hi
    obtain ⟨sorted, hsorted, hi⟩ := exists_of_bind_eq_ok hi
    obtain ⟨hitem, rfl⟩ := List.cons.inj (Except.ok.inj hi)
    refine ⟨switchItem flag o, rfl, ?_⟩
    rw [items, if_neg hne, hrole, h.items_cons, hsorted]
    exact congrArg (fun first => Except.ok (first :: switchItem flag o :: sorted)) hitem

theorem readPart_of_items {found : String × List String} (hi : line.items arguments = .ok items)
    (hr : line.readItems {} [] false items = .ok r) (hc : r.command? = some found) :
    line.readPart arguments = .ok r := by
  simp only [readPart, hi, hr, Except.mapError, bind, Except.bind]
  cases hop : line.operand <;> simp only [hc] <;> rfl

/-- Directly before the name of a command a switch is read for this line; directly behind it, it
belongs to the command. -/
theorem IsSwitch.exists_readPart (h : line.IsSwitch flag o) {operand : String}
    {choices : List (String × String)} {behind : List String}
    (hop : line.operand = .command operand choices) (hr : line.readPart arguments = .ok r)
    (hc : r.command? = some (name, behind)) :
    ∃ front, arguments = front ++ name :: behind ∧
      line.readPart (front ++ flag :: name :: behind) =
        .ok { r with switches := r.switches.insert o.name true } ∧
      line.readPart (front ++ name :: flag :: behind) =
        .ok { r with command? := some (name, flag :: behind) } := by
  unfold readPart at hr
  obtain ⟨items, hi, hr⟩ := exists_of_bind_eq_ok hr
  obtain ⟨read, hread, hr⟩ := exists_of_bind_eq_ok hr
  have hi := eq_ok_of_mapError hi
  obtain rfl : read = r := by
    split at hr
    · cases hr
    · exact Except.ok.inj hr
  obtain ⟨front, item, back, reached, isBehind, rfl, rfl, rfl, hfinds⟩ :=
    exists_findsCommand hop hread rfl hc
  obtain ⟨hnotin, hfront, hback⟩ := items_of_append hi hfinds.noSeparator
  obtain ⟨inserted, htext, hinserted⟩ := h.exists_items_insert hback
  rw [hfinds.front_eq, readItems_of_chosen hop hfinds.item] at hread
  obtain ⟨hm, rfl⟩ := LineReading.choose_eq_ok_iff.mp hread
  refine ⟨front.map LineItem.text, ?_, ?_, ?_⟩
  · rw [← text_of_items hi, List.map_append, List.map_cons]
  · have hsorted : line.items (front.map LineItem.text ++ flag :: item.text ::
        back.map LineItem.text) = .ok (front ++ switchItem flag o :: item :: back) := by
      rw [items_append hnotin, hfront, h.items_cons, ← List.map_cons, hback]
      rfl
    refine readPart_of_items hsorted ?_ rfl
    rw [hfinds.front_eq, h.readItems_cons, readItems_of_chosen hop hfinds.item]
    exact LineReading.choose_eq_ok_iff.mpr ⟨hm, rfl⟩
  · have hsorted : line.items (front.map LineItem.text ++ item.text :: flag ::
        back.map LineItem.text) = .ok (front ++ item :: inserted :: back) := by
      rw [items_append hnotin, hfront, hinserted]
      rfl
    have hitem : item.role = .word ∨ item.role = .separator ∧ inserted :: back ≠ [] :=
      hfinds.item.imp_right fun hrole => ⟨hrole.1, List.cons_ne_nil _ _⟩
    refine readPart_of_items hsorted ?_ rfl
    rw [hfinds.front_eq, readItems_of_chosen hop hitem, List.map_cons, htext]
    exact LineReading.choose_eq_ok_iff.mpr ⟨hm, rfl⟩

end CommandLine

end SymbolExport
