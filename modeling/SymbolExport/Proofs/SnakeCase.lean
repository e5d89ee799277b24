import Mathlib.Data.List.Chain
import SymbolExport.Naming

/-!
Where underscores are put into a name: behind each lower case letter with an upper case one right
after it, and nowhere else. Letters are those of `a` to `z` and of `A` to `Z`.
-/
namespace SymbolExport.Naming

/-- A lower case letter, and an upper case letter that follows it. -/
def IsBoundary (a b : Char) : Prop :=
  ('a' ≤ a ∧ a ≤ 'z') ∧ 'A' ≤ b ∧ b ≤ 'Z'

instance (a b : Char) : Decidable (IsBoundary a b) :=
  inferInstanceAs (Decidable (_ ∧ _))

/-- Decided by what the two options hold, and not by a search through all characters. -/
instance decidableExistsBoundary (first second : Option Char) :
    Decidable (∃ a ∈ first, ∃ b ∈ second, IsBoundary a b) :=
  @Option.decidableExistsMem _ _ (fun _ => Option.decidableExistsMem second) first

/-- The characters at position `i` and right behind it make a boundary. -/
def BreaksBehind (s : List Char) (i : Nat) : Prop :=
  ∃ a ∈ s[i]?, ∃ b ∈ s[i + 1]?, IsBoundary a b

instance (s : List Char) : DecidablePred (BreaksBehind s) := fun i =>
  decidableExistsBoundary s[i]? s[i + 1]?

/-- The last character of `s` and the first one of `t` make a boundary. -/
def MeetAtBoundary (s t : List Char) : Prop :=
  ∃ a ∈ s.getLast?, ∃ b ∈ t.head?, IsBoundary a b

instance (s t : List Char) : Decidable (MeetAtBoundary s t) :=
  decidableExistsBoundary s.getLast? t.head?

/-- The text with an underscore behind each position that `p` holds of. -/
def underscoredBehind (p : Nat → Prop) [DecidablePred p] (s : List Char) : List Char :=
  (s.mapIdx fun i c => if p i then [c, '_'] else [c]).flatten

/-- What stands between two texts that are put together. -/
def joint (s t : List Char) : List Char :=
  if MeetAtBoundary s t then ['_'] else []

variable {a b c : Char} {s t s' t' : List Char}

theorem isBoundary_iff : (isLowerLetter a && isUpperLetter b) = true ↔ IsBoundary a b := by
  simp [isLowerLetter, isUpperLetter, IsBoundary]

/-- Boundaries do not overlap: what ends one does not begin another. -/
theorem IsBoundary.not_isBoundary (h : IsBoundary a b) : ¬ IsBoundary b c := by
  intro hbc
  have hle : 'a' ≤ 'Z' := Char.le_trans hbc.1.1 h.2.2
  exact absurd hle (by decide)

theorem not_isBoundary_underscore_right (a : Char) : ¬ IsBoundary a '_' := fun h =>
  absurd h.2 (by decide)

theorem not_isBoundary_underscore_left (b : Char) : ¬ IsBoundary '_' b := fun h =>
  absurd h.1 (by decide)

@[simp]
theorem meetAtBoundary_cons_cons : MeetAtBoundary (a :: b :: s) t ↔ MeetAtBoundary (b :: s) t := by
  simp [MeetAtBoundary]

theorem meetAtBoundary_singleton : MeetAtBoundary [a] t ↔ ∃ b ∈ t.head?, IsBoundary a b := by
  simp [MeetAtBoundary]

@[simp]
theorem meetAtBoundary_singleton_cons : MeetAtBoundary [a] (b :: t) ↔ IsBoundary a b := by
  simp [MeetAtBoundary]

@[simp]
theorem not_meetAtBoundary_nil_left (t : List Char) : ¬ MeetAtBoundary [] t := by
  simp [MeetAtBoundary]

@[simp]
theorem not_meetAtBoundary_nil_right (s : List Char) : ¬ MeetAtBoundary s [] := by
  simp [MeetAtBoundary]

theorem isChain_cons_iff : ((a :: s).IsChain fun a b => ¬ IsBoundary a b) ↔
    ¬ MeetAtBoundary [a] s ∧ s.IsChain fun a b => ¬ IsBoundary a b := by
  rw [List.isChain_cons, meetAtBoundary_singleton]
  simp

theorem snakeCase_cons_of_not_meet (h : ¬ MeetAtBoundary [a] s) :
    snakeCase (a :: s) = a :: snakeCase s := by
  cases s with
  | nil => rfl
  | cons b s =>
    rw [meetAtBoundary_singleton_cons, ← isBoundary_iff] at h
    rw [snakeCase, if_neg h]

/-- A replaced pair takes nothing from the text behind it, for its upper case letter begins no
other pair. -/
theorem snakeCase_cons (a : Char) (s : List Char) :
    snakeCase (a :: s) = a :: (joint [a] s ++ snakeCase s) := by
  by_cases h : MeetAtBoundary [a] s
  · cases s with
    | nil => exact absurd h (not_meetAtBoundary_nil_right [a])
    | cons b s =>
      have hab : IsBoundary a b := meetAtBoundary_singleton_cons.mp h
      have hrest : ¬ MeetAtBoundary [b] s := by
        intro hmeet
        obtain ⟨c, -, hbc⟩ := meetAtBoundary_singleton.mp hmeet
        exact hab.not_isBoundary hbc
      rw [snakeCase, if_pos (isBoundary_iff.mpr hab), snakeCase_cons_of_not_meet hrest, joint,
        if_pos h]
      rfl
  · rw [snakeCase_cons_of_not_meet h, joint, if_neg h, List.nil_append]

theorem joint_congr (h : MeetAtBoundary s t ↔ MeetAtBoundary s' t') : joint s t = joint s' t' :=
  if_congr h rfl rfl

theorem snakeCase_append (s t : List Char) :
    snakeCase (s ++ t) = snakeCase s ++ joint s t ++ snakeCase t := by
  induction s with
  | nil =>
    have hjoint : joint [] t = [] := if_neg (not_meetAtBoundary_nil_left t)
    rw [hjoint]
    rfl
  | cons a s ih =>
    cases s with
    | nil => exact snakeCase_cons a t
    | cons b s =>
      -- A character in front of two or more changes neither side of the place where they meet.
      have hfront : joint [a] (b :: s ++ t) = joint [a] (b :: s) := joint_congr (by simp)
      have hback : joint (a :: b :: s) t = joint (b :: s) t :=
        joint_congr meetAtBoundary_cons_cons
      rw [List.cons_append, snakeCase_cons, snakeCase_cons a, ih, hfront, hback]
      simp only [List.append_assoc, List.cons_append]

theorem snakeCase_append_iff :
    snakeCase (s ++ t) = snakeCase s ++ snakeCase t ↔ ¬ MeetAtBoundary s t := by
  rw [snakeCase_append, joint]
  split
  case isTrue h => simp [h]
  case isFalse h => simp [h]

theorem breaksBehind_cons_zero : BreaksBehind (a :: s) 0 ↔ MeetAtBoundary [a] s := by
  simp [BreaksBehind, MeetAtBoundary, List.head?_eq_getElem?]

theorem breaksBehind_cons_succ (i : Nat) : BreaksBehind (a :: s) (i + 1) ↔ BreaksBehind s i := by
  simp [BreaksBehind]

theorem underscoredBehind_cons (a : Char) (s : List Char) :
    underscoredBehind (BreaksBehind (a :: s)) (a :: s) =
      a :: (joint [a] s ++ underscoredBehind (BreaksBehind s) s) := by
  simp only [underscoredBehind, List.mapIdx_cons, List.flatten_cons, breaksBehind_cons_zero,
    breaksBehind_cons_succ, joint]
  split <;> rfl

theorem snakeCase_eq_underscoredBehind (s : List Char) :
    snakeCase s = underscoredBehind (BreaksBehind s) s := by
  induction s with
  | nil => rfl
  | cons a s ih => rw [snakeCase_cons, ih, underscoredBehind_cons]

theorem head?_snakeCase (s : List Char) : (snakeCase s).head? = s.head? := by
  cases s with
  | nil => rfl
  | cons a s => rw [snakeCase_cons, List.head?_cons, List.head?_cons]

theorem meetAtBoundary_snakeCase : MeetAtBoundary [a] (snakeCase s) ↔ MeetAtBoundary [a] s := by
  rw [meetAtBoundary_singleton, head?_snakeCase, ← meetAtBoundary_singleton]

/-- No boundary is left, as an underscore belongs to none. -/
theorem isChain_snakeCase (s : List Char) :
    (snakeCase s).IsChain fun a b => ¬ IsBoundary a b := by
  induction s with
  | nil => exact List.isChain_nil
  | cons a s ih =>
    rw [snakeCase_cons, joint]
    split
    case isTrue =>
      have hmark : ('_' :: snakeCase s).IsChain fun a b => ¬ IsBoundary a b :=
        List.isChain_cons.mpr ⟨fun b _ => not_isBoundary_underscore_left b, ih⟩
      exact List.isChain_cons_cons.mpr ⟨not_isBoundary_underscore_right a, hmark⟩
    case isFalse h => exact isChain_cons_iff.mpr ⟨mt meetAtBoundary_snakeCase.mp h, ih⟩

theorem snakeCase_of_isChain (h : s.IsChain fun a b => ¬ IsBoundary a b) : snakeCase s = s := by
  induction s with
  | nil => rfl
  | cons a s ih =>
    obtain ⟨hmeet, hs⟩ := isChain_cons_iff.mp h
    rw [snakeCase_cons_of_not_meet hmeet, ih hs]

/-- A name gets an underscore behind every position where a boundary lies and behind no other. So
no boundary is left, a second time changes nothing, and two texts can be treated apart exactly if
no boundary lies where they meet. -/
theorem snakeCase_at_boundaries (s : List Char) :
    snakeCase s = underscoredBehind (BreaksBehind s) s ∧
      (snakeCase s).IsChain (fun a b => ¬ IsBoundary a b) ∧
      snakeCase (snakeCase s) = snakeCase s ∧
      ∀ t, snakeCase (s ++ t) = snakeCase s ++ snakeCase t ↔ ¬ MeetAtBoundary s t :=
  ⟨snakeCase_eq_underscoredBehind s, isChain_snakeCase s,
    snakeCase_of_isChain (isChain_snakeCase s), fun _ => snakeCase_append_iff⟩

/-- Boundaries two letters apart, and letters beyond `a` to `z`. -/
example : snakeCase ['a', 'B', 'c', 'D', 'é', 'F', 'g', 'É'] =
    ['a', '_', 'B', 'c', '_', 'D', 'é', 'F', 'g', 'É'] := by
  decide

end SymbolExport.Naming
