import SymbolExport.Class.Definition
import SymbolExport.Policy
import SymbolExport.Reflection

/-!
The members that an enumeration is exported with: one for every case that is not left out, in the
order of the cases, each with an integer or a text.
-/
namespace SymbolExport

/-- The names of the cases, as a mapping lists them. -/
def Class.caseNames (c : Class) : List String :=
  (Table.ofEntries (c.cases?.getD [])).names

/-- The entries of a body that become members, as far as the class is an enumeration. -/
def ClassDefinition.caseEntries (d : ClassDefinition) : List (String × BodyValue) :=
  d.body.filter fun entry => isCase d.name entry.1 entry.2

theorem EnumForm.names_casesFrom (form : EnumForm) (earlier : List (String × Value))
    (given : List Value) (body : List (String × BodyValue)) :
    Table.names (form.casesFrom earlier given body) = Table.names earlier ++ Table.names body := by
  induction body generalizing earlier given with
  | nil => simp [casesFrom, Table.names]
  | cons entry rest ih =>
    obtain ⟨name, value⟩ := entry
    simp only [casesFrom, ih]
    simp [Table.names]

/-- Cases come in the order of their declaration. -/
theorem ClassDefinition.caseNames_of_define? {d : ClassDefinition} {known : List Class} {c : Class}
    (h : d.define? known = some (c :: known)) (hc : c.cases?.isSome) :
    c.caseNames = (Table.ofEntries d.caseEntries).names := by
  simp only [define?, Option.bind_eq_bind, Option.bind_eq_some_iff, Option.pure_def,
    Option.some.injEq, List.cons.injEq] at h
  obtain ⟨bases, -, ancestors, -, rfl, -⟩ := h
  refine Table.names_ofEntries_congr ?_
  dsimp only at hc ⊢
  split at hc
  · rename_i hEnum
    rw [if_pos hEnum]
    exact EnumForm.names_casesFrom _ [] [] d.caseEntries
  · cases hc

/-- An integer that is no truth value, or a text. -/
def Value.isBacked : Value → Bool
  | .int _ | .str _ => true
  | _ => false

theorem Value.backing_cases (v : Value) : v.backing.isBacked ∨ v.backing = .null := by
  unfold Value.backing
  split
  · exact Or.inl rfl
  · exact Or.inl rfl
  · exact Or.inr rfl

namespace Policy

variable {p : Policy}

/-- A value is synthesized where a case has none. -/
theorem isBacked_valueFor (hp : p.synthesizeDefaults) (name : String) (v : Value) :
    (p.valueFor ⟨name, v.backing⟩).isBacked := by
  unfold valueFor
  rcases v.backing_cases with h | h
  · have hnull : v.backing.isNull = false := by
      cases hb : v.backing <;> simp_all [Value.isBacked, Value.isNull]
    simpa [hnull] using h
  · simp [h, Value.isNull, hp, Value.isBacked]

theorem isBacked_normalize (hp : p.synthesizeDefaults) {c : Class} {member : String × Value}
    (h : member ∈ p.normalize c.caseMembers) : member.2.isBacked := by
  obtain ⟨m, hm, rfl⟩ := List.mem_map.mp (Table.mem_ofEntries h)
  obtain ⟨⟨name, v⟩, -, rfl⟩ := List.mem_map.mp (List.mem_filter.mp hm).1
  exact isBacked_valueFor hp name v

theorem names_normalize (p : Policy) (c : Class) :
    (p.normalize c.caseMembers).names = c.caseNames.filter (· ∉ p.ignore) := by
  have hnormalize : p.normalize c.caseMembers =
      Table.ofEntries ((c.caseMembers.map fun m => (m.name, p.valueFor m)).filter
        fun e => decide (e.1 ∉ p.ignore)) := by
    rw [normalize, filter, List.filter_map]
    rfl
  rw [hnormalize, Table.names_ofEntries_filter (fun name => decide (name ∉ p.ignore)),
    Class.caseNames]
  congr 1
  refine Table.names_ofEntries_congr ?_
  simp [Table.names, Class.caseMembers]

end Policy

end SymbolExport
