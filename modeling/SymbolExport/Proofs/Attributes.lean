import SymbolExport.Proofs.Bodies
import SymbolExport.Proofs.ModuleCache

/-!
What loaded modules have. An attribute is defined in the file of its module, unless a submodule has
taken its place.
-/
namespace SymbolExport

namespace ModuleCache

variable {tree : Tree} {root directory : Location}
  {cache moved during middle after : ModuleCache} {key name : String}
  {outer reversed : List String} {m old begun : LoadedModule} {origin : ModuleOrigin}

/-- Modules that are loaded before are evaluated from the same bodies afterwards. -/
def KeepsBodies (tree : Tree) (cache after : ModuleCache) : Prop :=
  ∀ key origin, cache.originOf? key = some origin →
    ∃ now, after.originOf? key = some now ∧ now.body tree = origin.body tree

/-- What a module had under a name when it was loaded before, or else what its file defines. -/
def ownAttribute? (tree : Tree) (cache : ModuleCache) (key : String) (m : LoadedModule)
    (name : String) : Option Symbol :=
  match cache.get? key with
  | some old => old.attributes.get? name
  | none => (m.origin.body tree).attributes.get? name

/-- Loaded modules have what is their own, but where submodules were loaded meanwhile. -/
def ShowsBodies (tree : Tree) (cache after : ModuleCache) : Prop :=
  ∀ key m name, key ≠ "" → after.get? key = some m →
    m.attributes.get? name = ownAttribute? tree cache key m name ∨
      m.attributes.get? name = some .module ∧ ¬ cache.has (key ++ "." ++ name) ∧
        after.has (key ++ "." ++ name)

theorem ownAttribute?_of_some (h : cache.get? key = some old) (tree : Tree) (m : LoadedModule)
    (name : String) : ownAttribute? tree cache key m name = old.attributes.get? name := by
  rw [ownAttribute?, h]

theorem ownAttribute?_of_none (h : cache.get? key = none) (tree : Tree) (m : LoadedModule)
    (name : String) :
    ownAttribute? tree cache key m name = (m.origin.body tree).attributes.get? name := by
  rw [ownAttribute?, h]

theorem KeepsBodies.refl (tree : Tree) (cache : ModuleCache) : KeepsBodies tree cache cache :=
  fun _ _ ho => ⟨_, ho, rfl⟩

theorem KeepsBodies.trans (h : KeepsBodies tree cache middle) (h' : KeepsBodies tree middle after) :
    KeepsBodies tree cache after := by
  intro key origin ho
  obtain ⟨between, hbetween, hbody⟩ := h key origin ho
  obtain ⟨now, hnow, hsame⟩ := h' key between hbetween
  exact ⟨now, hnow, hsame.trans hbody⟩

theorem KeepsBodies.has (h : KeepsBodies tree cache after) (hk : cache.has key) :
    after.has key := by
  rw [has_eq_isSome_originOf?, Option.isSome_iff_exists] at hk ⊢
  obtain ⟨origin, ho⟩ := hk
  obtain ⟨now, hnow, -⟩ := h key origin ho
  exact ⟨now, hnow⟩

theorem KeepsBodies.get?_eq_none (h : KeepsBodies tree cache after) (hm : after.get? key = none) :
    cache.get? key = none := by
  rw [← Option.not_isSome_iff_eq_none, ← Table.has_eq_isSome]
  intro hhas
  simpa [Table.has_eq_isSome, hm] using h.has hhas

theorem KeepsBodies.body_eq (h : KeepsBodies tree cache after) (ho : cache.get? key = some old)
    (hm : after.get? key = some m) : m.origin.body tree = old.origin.body tree := by
  obtain ⟨now, hnow, hbody⟩ := h key old.origin (by rw [originOf?, ho, Option.map_some])
  rw [originOf?, hm, Option.map_some, Option.some.injEq] at hnow
  rw [hnow, hbody]

theorem ShowsBodies.refl (tree : Tree) (cache : ModuleCache) : ShowsBodies tree cache cache :=
  fun _ m name _ hm => Or.inl (ownAttribute?_of_some hm tree m name).symm

theorem ShowsBodies.trans (h : ShowsBodies tree cache middle) (h' : ShowsBodies tree middle after)
    (hk : KeepsBodies tree cache middle) (hk' : KeepsBodies tree middle after) :
    ShowsBodies tree cache after := by
  intro key m name hne hm
  rcases h' key m name hne hm with hsame | ⟨hmodule, hnew, hhas⟩
  · cases hb : middle.get? key with
    | none =>
      rw [ownAttribute?_of_none hb] at hsame
      exact Or.inl (hsame.trans (ownAttribute?_of_none (hk.get?_eq_none hb) tree m name).symm)
    | some between =>
      rw [ownAttribute?_of_some hb] at hsame
      rw [hsame]
      refine (h key between name hne hb).imp (fun hown => ?_) fun ⟨hmodule, hnew, hhas⟩ =>
        ⟨hmodule, hnew, hk'.has hhas⟩
      rw [hown, ownAttribute?, ownAttribute?, hk'.body_eq hb hm]
  · exact Or.inr ⟨hmodule, mt hk.has hnew, hhas⟩

/-- Looking up a directory moves bare directories, which define nothing. -/
theorem keepsBodies_directoryOf
    (hd : cache.directoryOf tree root reversed = .ok (directory, after)) :
    KeepsBodies tree cache after ∧ ∀ key m, after.get? key = some m →
      ∃ old, cache.get? key = some old ∧ m.attributes = old.attributes := by
  induction reversed generalizing directory after with
  | nil =>
    cases hd
    exact ⟨.refl tree cache, fun key m hm => ⟨m, hm, rfl⟩⟩
  | cons name outer ih =>
    unfold directoryOf at hd
    split at hd
    · cases hd
    · rename_i m hm
      split at hd
      · cases hd
      · cases hd
        exact ⟨.refl tree cache, fun key m hm => ⟨m, hm, rfl⟩⟩
      · rename_i old horigin
        cases hup : cache.directoryOf tree root outer with
        | error fault => simp [hup, Except.map] at hd
        | ok upper =>
          obtain ⟨parent, middle⟩ := upper
          obtain ⟨hkeeps, hsame⟩ := ih hup
          simp only [hup, Except.map, Except.ok.injEq, relocate] at hd
          split at hd <;> cases hd
          · rename_i found _
            constructor
            · intro key origin ho
              rw [originOf?_insert]
              split
              · rename_i hk
                rw [hk, originOf?, hm, Option.map_some, Option.some.injEq] at ho
                rw [← ho, horigin]
                exact ⟨_, rfl, rfl⟩
              · exact hkeeps key origin ho
            · intro key now hnow
              by_cases hk : key = dottedName (name :: outer)
              · subst hk
                rw [Table.get?_insert_self, Option.some.injEq] at hnow
                exact ⟨m, hm, by rw [← hnow]⟩
              · rw [Table.get?_insert_of_ne hk] at hnow
                exact hsame key now hnow
          · exact ⟨hkeeps, hsame⟩

theorem ownAttribute?_directoryOf
    (hd : cache.directoryOf tree root reversed = .ok (directory, after)) :
    ownAttribute? tree after key m name = ownAttribute? tree cache key m name := by
  have hkeeps : KeepsBodies tree cache after := (keepsBodies_directoryOf hd).1
  have hsame := (keepsBodies_directoryOf hd).2
  cases hm : after.get? key with
  | some now =>
    obtain ⟨old, ho, hattributes⟩ := hsame key now hm
    rw [ownAttribute?_of_some hm, ownAttribute?_of_some ho, hattributes]
  | none =>
    rw [ownAttribute?_of_none hm, ownAttribute?_of_none (hkeeps.get?_eq_none hm)]

theorem showsBodies_directoryOf
    (hd : cache.directoryOf tree root reversed = .ok (directory, after)) :
    ShowsBodies tree cache after := by
  intro key m name _ hm
  obtain ⟨old, ho, hattributes⟩ := (keepsBodies_directoryOf hd).2 key m hm
  rw [ownAttribute?_of_some ho, hattributes]
  exact Or.inl rfl

/-- Of the modules of before, none is the one whose evaluation begins. -/
theorem KeepsBodies.of_begun (hmoved : KeepsBodies tree cache moved) (hnew : ¬ moved.has key)
    (hduring : KeepsBodies tree (moved.insert key begun) during) {other : String}
    (ho : cache.originOf? other = some origin) :
    other ≠ key ∧ ∃ now, during.originOf? other = some now ∧ now.body tree = origin.body tree := by
  have hne : other ≠ key := by
    rintro rfl
    exact hnew (hmoved.has (by rw [has_eq_isSome_originOf?, ho]; rfl))
  obtain ⟨between, hbetween, hbody⟩ := hmoved other origin ho
  obtain ⟨now, hnow, hsame⟩ :=
    hduring other between (by rw [originOf?_insert, if_neg hne, hbetween])
  exact ⟨hne, now, hnow, hsame.trans hbody⟩

/-- Loaded modules but one have what is their own, or a submodule that is another one than that. -/
def ShowsBodiesBut (tree : Tree) (cache during : ModuleCache) (key : String) : Prop :=
  ∀ other m name, other ≠ "" → other ≠ key → during.get? other = some m →
    m.attributes.get? name = ownAttribute? tree cache other m name ∨
      m.attributes.get? name = some .module ∧ ¬ cache.has (other ++ "." ++ name) ∧
        other ++ "." ++ name ≠ key ∧ during.has (other ++ "." ++ name)

/-- While a module is evaluated, the others are as they would be without it. -/
theorem showsBodiesBut_of_begun
    (hd : cache.directoryOf tree root reversed = .ok (directory, moved))
    (hduring : ShowsBodies tree (moved.insert key begun) during) :
    ShowsBodiesBut tree cache during key := by
  have hmoved : KeepsBodies tree cache moved := (keepsBodies_directoryOf hd).1
  intro other m name hempty hne hm
  rcases hduring other m name hempty hm with hown | ⟨hmodule, hnone, hhas⟩
  · left
    rw [hown, ← ownAttribute?_directoryOf hd, ownAttribute?, ownAttribute?,
      Table.get?_insert_of_ne hne]
  · rw [Table.has_insert, not_or] at hnone
    exact Or.inr ⟨hmodule, mt hmoved.has hnone.2, hnone.1, hhas⟩

theorem ShowsBodiesBut.erase (h : ShowsBodiesBut tree cache during key) :
    ShowsBodies tree cache (during.erase key) := by
  intro other m name hempty hm
  rw [Table.get?_erase] at hm
  split at hm
  · cases hm
  · rename_i hne
    refine (h other m name hempty hne hm).imp_right fun ⟨hmodule, hout, hdiffers, hhas⟩ => ?_
    exact ⟨hmodule, hout, Table.has_erase.mpr ⟨hdiffers, hhas⟩⟩

/-- A module that is kept as the latest one is a new attribute of its package, and of no other. -/
theorem ShowsBodiesBut.settle (h : ShowsBodiesBut tree cache during (dottedName (name :: outer)))
    (hn : IsModuleName (name :: outer)) (hfresh : ¬ cache.has (dottedName (name :: outer)))
    (hown : ∀ field, m.attributes.get? field = (m.origin.body tree).attributes.get? field ∨
      m.attributes.get? field = some .module ∧
        ¬ cache.has (dottedName (name :: outer) ++ "." ++ field) ∧
        during.has (dottedName (name :: outer) ++ "." ++ field)) :
    ShowsBodies tree cache (during.settle m name outer) := by
  intro other now field hempty hm
  rw [get?_settle hn] at hm
  split at hm
  · rename_i hk
    subst hk
    obtain rfl := Option.some.inj hm
    have hnone : cache.get? (dottedName (name :: outer)) = none := by
      rwa [← Option.not_isSome_iff_eq_none, ← Table.has_eq_isSome]
    rw [ownAttribute?_of_none hnone]
    exact (hown field).imp_right fun ⟨hmodule, hout, hhas⟩ =>
      ⟨hmodule, hout, has_settle.mpr (Or.inr hhas)⟩
  · rename_i hne
    split at hm
    · rename_i hpackage
      obtain ⟨before, hbefore, rfl⟩ := Option.map_eq_some_iff.mp hm
      have hparent : outer ≠ [] := by
        rintro rfl
        exact hempty hpackage
      by_cases ha : field = name
      · subst ha
        rw [hpackage, ← dottedName_cons field hparent]
        exact Or.inr ⟨Table.get?_insert_self .., hfresh, has_settle.mpr (Or.inl rfl)⟩
      · rw [Table.get?_insert_of_ne ha]
        refine (h other before field hempty hne hbefore).imp_right
          fun ⟨hmodule, hout, hdiffers, hhas⟩ => ?_
        exact ⟨hmodule, hout, has_settle.mpr (Or.inr hhas)⟩
    · refine (h other now field hempty hne hm).imp_right fun ⟨hmodule, hout, hdiffers, hhas⟩ => ?_
      exact ⟨hmodule, hout, has_settle.mpr (Or.inr hhas)⟩

/-- A module that is evaluated has what its body defines, before the submodules that were loaded
meanwhile. -/
theorem get?_evaluated (hmoved : KeepsBodies tree cache moved)
    (hduring : ShowsBodies tree (moved.insert key ⟨origin, []⟩) during) (hempty : key ≠ "")
    (hk : during.get? key = some old) (field : String) :
    (during.evaluated key origin (origin.body tree)).attributes.get? field =
        (origin.body tree).attributes.get? field ∨
      (during.evaluated key origin (origin.body tree)).attributes.get? field = some .module ∧
        ¬ cache.has (key ++ "." ++ field) ∧ during.has (key ++ "." ++ field) := by
  simp only [evaluated, hk, Option.map_some, Option.getD_some, Table.get?_append]
  cases hdefined : (origin.body tree).attributes.get? field with
  | some symbol => exact Or.inl rfl
  | none =>
    rw [Option.none_or]
    rcases hduring key old field hempty hk with hown | ⟨hmodule, hout, hhas⟩
    · left
      rw [hown, ownAttribute?_of_some (Table.get?_insert_self ..)]
      rfl
    · rw [Table.has_insert, not_or] at hout
      exact Or.inr ⟨hmodule, mt hmoved.has hout.2, hhas⟩

/-- Imports keep the bodies of what is loaded, and what they load shows what its body defines. -/
theorem isObeyed_showsBodies (tree : Tree) (root : Location) :
    IsObeyed tree root fun cache after =>
      KeepsBodies tree cache after ∧ ShowsBodies tree cache after where
  refl cache := ⟨.refl tree cache, .refl tree cache⟩
  trans h h' := ⟨h.1.trans h'.1, h.2.trans h'.2 h.1 h'.1⟩
  move _ hd := ⟨(keepsBodies_directoryOf hd).1, showsBodies_directoryOf hd⟩
  load {cache moved during directory name outer origin} hn hd hnew hs hduring := by
    obtain ⟨hkeeps, hshows⟩ := hduring
    have hmoved : KeepsBodies tree cache moved := (keepsBodies_directoryOf hd).1
    have hothers := showsBodiesBut_of_begun hd hshows
    obtain ⟨now, hnow, -⟩ := hkeeps (dottedName (name :: outer)) origin
      (by rw [originOf?_insert, if_pos rfl])
    obtain ⟨begun, hbegun, -⟩ := Option.map_eq_some_iff.mp hnow
    refine ⟨⟨?_, hothers.erase⟩, ?_, hothers.settle hn (mt hmoved.has hnew)
      (get?_evaluated hmoved hshows (dottedName_ne_empty hn) hbegun)⟩
    · intro key old ho
      obtain ⟨hne, hlater⟩ := hmoved.of_begun hnew hkeeps ho
      rwa [originOf?_erase, if_neg hne]
    · intro key old ho
      obtain ⟨hne, hlater⟩ := hmoved.of_begun hnew hkeeps ho
      rwa [originOf?_settle, if_neg hne]

/-- An attribute of an imported module is what its file defines under that name, or a submodule that
is loaded. -/
theorem attribute_of_import
    (h : KeepsBodies tree [] cache ∧ ShowsBodies tree [] cache) {depth : Nat}
    (hi : (ModuleCache.importWithin tree root depth cache key).1 = .ok m) (name : String) :
    m.attributes.get? name = (m.origin.body tree).attributes.get? name ∨
      m.attributes.get? name = some .module ∧
        (ModuleCache.importWithin tree root depth cache key).2.has (key ++ "." ++ name) := by
  have hobeyed := isObeyed_showsBodies tree root
  obtain ⟨hn, hm⟩ := get?_importWithin hi
  have hempty : key ≠ "" := by
    rw [← dottedName_componentsOf key]
    exact dottedName_ne_empty hn
  have hafter := (hobeyed.trans h (hobeyed.importWithin depth cache key)).2 key m name hempty hm
  rw [ownAttribute?_of_none rfl] at hafter
  exact hafter.imp_right fun ⟨hmodule, _, hhas⟩ => ⟨hmodule, hhas⟩

end ModuleCache

end SymbolExport
