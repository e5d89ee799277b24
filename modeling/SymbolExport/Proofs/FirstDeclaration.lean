import SymbolExport.Proofs.TokenDepth

/-!
The first declaration of a source, said of the positions of its tokens: the least one at which the
keyword stands and, if bases are asked for, a base is listed in the parenthesis behind the name.
-/
namespace SymbolExport

/-- One of the given names, or a name that ends in `Enum`. -/
def Token.IsBase (bases : List String) (t : Token) : Prop :=
  t.kind = .name ∧ ((∃ base ∈ bases, base.toList = t.text) ∨ "Enum".toList <:+ t.text)

/-- The brackets opened less those closed among `n` tokens from `first` on. -/
def depthBehind (tokens : List Token) (first n : Nat) : Int :=
  bracketBalance ((tokens.drop first).take n)

/-- At `first` a parenthesis is opened, and before it is closed a base stands directly in it. -/
def ListsBaseAt (bases : List String) (tokens : List Token) (first : Nat) : Prop :=
  (∃ t, tokens[first]? = some t ∧ t.text = ['(']) ∧
    ∃ n t, tokens[first + n]? = some t ∧ t.IsBase bases ∧ depthBehind tokens first n = 1 ∧
      ∀ k, 0 < k → k ≤ n → 0 < depthBehind tokens first k

/-- At `i` stands the keyword of a declaration, one that lists a base if bases are asked for. -/
def DeclaresAt (bases? : Option (List String)) (tokens : List Token) (i : Nat) : Prop :=
  (∃ t, tokens[i]? = some t ∧ t.kind = .name ∧ t.text = "class".toList) ∧
    ∀ bases ∈ bases?, ListsBaseAt bases tokens (i + 2)

/-- From a depth on, a base is met at depth 1 before the depth falls to 0. -/
def ReachesBase (bases : List String) (depth : Int) (tokens : List Token) : Prop :=
  ∃ n t, tokens[n]? = some t ∧ t.IsBase bases ∧ depth + bracketBalance (tokens.take n) = 1 ∧
    ∀ k ≤ n, 0 < depth + bracketBalance (tokens.take k)

variable {bases : List String} {bases? : Option (List String)} {tokens rest : List Token}
  {t : Token} {depth : Int} {i first : Nat} {name : List Char}

theorem namesBase_iff : namesBase bases t ↔ t.IsBase bases := by
  simp [namesBase, Token.IsBase]

theorem opensBracket_iff : t.opensBracket ↔ t.depthChange = 1 := by
  unfold Token.opensBracket Token.depthChange
  by_cases hk : t.kind = .operator <;> simp [hk]

theorem closesBracket_iff : t.closesBracket ↔ t.depthChange = -1 := by
  unfold Token.closesBracket Token.depthChange
  by_cases hk : t.kind = .operator <;> simp [hk]

theorem depthChange_cases (t : Token) :
    t.depthChange = 1 ∨ t.depthChange = -1 ∨ t.depthChange = 0 := by
  unfold Token.depthChange
  split
  · unfold bracketStep
    split <;> simp
  · simp

theorem Token.IsBase.depthChange (h : t.IsBase bases) : t.depthChange = 0 := by
  simp [Token.depthChange, h.1]

theorem reachesBase_cons : ReachesBase bases depth (t :: rest) ↔
    0 < depth ∧ (depth = 1 ∧ t.IsBase bases ∨ ReachesBase bases (depth + t.depthChange) rest) := by
  constructor
  · rintro ⟨n, u, hu, hbase, hone, hdepth⟩
    refine ⟨by simpa using hdepth 0 (Nat.zero_le n), ?_⟩
    cases n with
    | zero =>
      obtain rfl : t = u := by simpa using hu
      exact Or.inl ⟨by simpa using hone, hbase⟩
    | succ n =>
      refine Or.inr ⟨n, u, by simpa using hu, hbase, by simpa [add_assoc] using hone, ?_⟩
      intro k hk
      simpa [add_assoc] using hdepth (k + 1) (by omega)
  · rintro ⟨hpos, ⟨rfl, hbase⟩ | ⟨n, u, hu, hbase, hone, hdepth⟩⟩
    · exact ⟨0, t, by simp, hbase, by simp, by simp⟩
    · refine ⟨n + 1, u, by simpa using hu, hbase, by simpa [add_assoc] using hone, ?_⟩
      intro k hk
      cases k with
      | zero => simpa using hpos
      | succ k => simpa [add_assoc] using hdepth k (by omega)

/-- Within a parenthesis the scan finds a base exactly if there is one. -/
theorem listsBase_iff (hd : 0 < depth) :
    listsBase bases depth tokens ↔ ReachesBase bases depth tokens := by
  induction tokens generalizing depth with
  | nil => simp [listsBase, ReachesBase]
  | cons t rest ih =>
    rw [reachesBase_cons, listsBase, and_iff_right hd]
    rcases depthChange_cases t with hopen | hclose | hflat
    · have hno : ¬ t.IsBase bases := fun hb => by simp [hb.depthChange] at hopen
      simp only [opensBracket_iff.mpr hopen, if_true, hno, and_false, false_or, hopen]
      exact ih (by omega)
    · have hno : ¬ t.IsBase bases := fun hb => by simp [hb.depthChange] at hclose
      have hopen : t.opensBracket = false := by
        rw [← Bool.not_eq_true, opensBracket_iff, hclose]
        decide
      simp only [hopen, closesBracket_iff.mpr hclose, if_true, hno, and_false, false_or, hclose,
        Bool.false_eq_true, if_false]
      split
      · rename_i hone
        simp only [Bool.false_eq_true, false_iff]
        rintro ⟨n, u, -, -, -, hdepth⟩
        have := hdepth 0 (Nat.zero_le n)
        simp [hone] at this
      · exact ih (by omega)
    · have hopen : t.opensBracket = false := by
        rw [← Bool.not_eq_true, opensBracket_iff, hflat]
        decide
      have hclose : t.closesBracket = false := by
        rw [← Bool.not_eq_true, closesBracket_iff, hflat]
        decide
      simp only [hopen, hclose, Bool.false_eq_true, if_false, hflat, add_zero]
      by_cases hbase : depth = 1 ∧ t.IsBase bases
      · simp [hbase, namesBase_iff.mpr hbase.2]
      · have hnames : (decide (depth = 1) && namesBase bases t) = false := by
          rw [← Bool.not_eq_true, Bool.and_eq_true, decide_eq_true_eq, namesBase_iff]
          exact hbase
        simp only [hnames, Bool.false_eq_true, if_false, hbase, false_or]
        exact ih hd

/-- What lists a base behind a parenthesis reaches one at the depth that the parenthesis opens. -/
theorem listsBaseAt_iff (ht : tokens.drop first = t :: rest) (hone : t.depthChange = 1) :
    ListsBaseAt bases tokens first ↔ t.text = ['('] ∧ ReachesBase bases 1 rest := by
  have hget (n : Nat) : tokens[first + n]? = (t :: rest)[n]? := by rw [← List.getElem?_drop, ht]
  have hdepth (n : Nat) : depthBehind tokens first (n + 1) = 1 + bracketBalance (rest.take n) := by
    rw [depthBehind, ht, List.take_succ_cons, bracketBalance_cons, hone]
  have hhead : (∃ u, tokens[first]? = some u ∧ u.text = ['(']) ↔ t.text = ['('] := by
    have h0 := hget 0
    simp only [add_zero, List.getElem?_cons_zero] at h0
    simp [h0]
  rw [ListsBaseAt, hhead]
  refine and_congr_right fun _ => ?_
  constructor
  · rintro ⟨n, u, hu, hbase, hbalance, hinside⟩
    cases n with
    | zero => simp [depthBehind] at hbalance
    | succ n =>
      rw [hget, List.getElem?_cons_succ] at hu
      rw [hdepth] at hbalance
      refine ⟨n, u, hu, hbase, hbalance, fun k hk => ?_⟩
      rw [← hdepth]
      exact hinside (k + 1) (Nat.succ_pos k) (by omega)
  · rintro ⟨n, u, hu, hbase, hbalance, hinside⟩
    refine ⟨n + 1, u, by rw [hget, List.getElem?_cons_succ, hu], hbase, by rw [hdepth, hbalance],
      fun k hpos hk => ?_⟩
    obtain ⟨k, rfl⟩ := Nat.exists_eq_add_one.mpr hpos
    rw [hdepth]
    exact hinside k (by omega)

theorem declaresBase_iff (hl : ∀ t ∈ tokens, t.IsLexed) (bases : List String) (first : Nat) :
    declaresBase bases (tokens.drop first) ↔ ListsBaseAt bases tokens first := by
  cases ht : tokens.drop first with
  | nil =>
    have hnone : tokens[first]? = none := by
      have h0 : tokens[first + 0]? = (tokens.drop first)[0]? := by rw [List.getElem?_drop]
      simpa [ht] using h0
    simp [declaresBase, ListsBaseAt, hnone]
  | cons t rest =>
    by_cases htext : t.text = ['(']
    · -- a parenthesis is a bracket, so the scan goes on behind it at depth 1
      have hmem : t ∈ tokens := List.mem_of_mem_drop (ht ▸ List.mem_cons_self)
      have hkind : t.kind = .operator := (hl t hmem).parenthesis (by simp [htext])
      have hone : t.depthChange = 1 := by simp [Token.depthChange, hkind, htext, bracketStep]
      rw [listsBaseAt_iff ht hone, ← listsBase_iff Int.one_pos]
      simp [declaresBase, listsBase, htext, opensBracket_iff.mpr hone]
    · have hno : ¬ ListsBaseAt bases tokens first := by
        rintro ⟨⟨u, hu, hut⟩, -⟩
        have h0 : tokens[first + 0]? = (tokens.drop first)[0]? := by rw [List.getElem?_drop]
        simp only [add_zero, hu, ht, List.getElem?_cons_zero, Option.some.injEq] at h0
        exact htext (h0 ▸ hut)
      simp [declaresBase, htext, hno]

theorem listsBaseAt_succ : ListsBaseAt bases (t :: rest) (first + 1) ↔
    ListsBaseAt bases rest first := by
  have hget (n : Nat) : (t :: rest)[first + 1 + n]? = rest[first + n]? := by
    rw [Nat.add_right_comm, List.getElem?_cons_succ]
  have hdepth (n : Nat) : depthBehind (t :: rest) (first + 1) n = depthBehind rest first n := rfl
  simp only [ListsBaseAt, hdepth, hget, List.getElem?_cons_succ]

theorem declaresAt_succ : DeclaresAt bases? (t :: rest) (i + 1) ↔ DeclaresAt bases? rest i := by
  simp only [DeclaresAt, List.getElem?_cons_succ, Nat.add_right_comm i 1 2, listsBaseAt_succ]

theorem declaresAt_zero (hl : ∀ u ∈ t :: rest, u.IsLexed) : DeclaresAt bases? (t :: rest) 0 ↔
    t.isKeyword && bases?.all (fun bases => declaresBase bases rest.tail) := by
  have hbase (bases : List String) : ListsBaseAt bases (t :: rest) 2 ↔
      declaresBase bases rest.tail := by
    rw [← declaresBase_iff hl, List.drop_succ_cons, List.drop_one]
  have hkeyword : (∃ u, (t :: rest)[0]? = some u ∧ u.kind = .name ∧ u.text = "class".toList) ↔
      t.isKeyword := by
    simp only [List.getElem?_cons_zero, Option.some.injEq, exists_eq_left', Token.isKeyword,
      Bool.and_eq_true, decide_eq_true_eq]
  rw [DeclaresAt, hkeyword, Bool.and_eq_true]
  cases bases? <;> simp [hbase]

theorem isLeast_succ {p : Nat → Prop} (h0 : ¬ p 0) {i : Nat} :
    IsLeast {i | p i} i ↔ ∃ j, i = j + 1 ∧ IsLeast {j | p (j + 1)} j := by
  constructor
  · rintro ⟨hi, hmin⟩
    cases i with
    | zero => exact absurd hi h0
    | succ j => exact ⟨j, rfl, hi, fun k hk => Nat.le_of_succ_le_succ (hmin hk)⟩
  · rintro ⟨j, rfl, hj, hmin⟩
    refine ⟨hj, fun k hk => ?_⟩
    cases k with
    | zero => exact absurd hk h0
    | succ k => exact Nat.succ_le_succ (hmin hk)

/-- The declared name is the one behind the first keyword that declares something. -/
theorem declaredName?_eq_some_iff (hl : ∀ t ∈ tokens, t.IsLexed) :
    declaredName? bases? tokens = some name ↔
      ∃ i, IsLeast {i | DeclaresAt bases? tokens i} i ∧
        tokens[i + 1]? = some ⟨.name, name⟩ := by
  induction tokens with
  | nil => simp [declaredName?]
  | cons t rest ih =>
    obtain ⟨-, hrest⟩ := List.forall_mem_cons.mp hl
    unfold declaredName?
    split
    · rename_i hdeclares
      have hzero : IsLeast {i | DeclaresAt bases? (t :: rest) i} 0 :=
        ⟨(declaresAt_zero hl).mpr hdeclares, fun _ _ => Nat.zero_le _⟩
      have hnext : (∃ i, IsLeast {i | DeclaresAt bases? (t :: rest) i} i ∧
          (t :: rest)[i + 1]? = some ⟨.name, name⟩) ↔ rest[0]? = some ⟨.name, name⟩ := by
        constructor
        · rintro ⟨i, hi, hname⟩
          rwa [hi.unique hzero, List.getElem?_cons_succ] at hname
        · exact fun h => ⟨0, hzero, h⟩
      rw [hnext]
      cases rest with
      | nil => simp
      | cons next more =>
        obtain ⟨kind, text⟩ := next
        by_cases hk : kind = .name <;> simp [hk]
    · rename_i hno
      rw [← declaresAt_zero hl] at hno
      rw [ih hrest]
      simp only [isLeast_succ hno, declaresAt_succ]
      constructor
      · rintro ⟨i, hi, hname⟩
        exact ⟨i + 1, ⟨i, rfl, hi⟩, hname⟩
      · rintro ⟨_, ⟨i, rfl, hi⟩, hname⟩
        exact ⟨i, hi, hname⟩

/-- A module with a name, and the name of what is declared first, joined by a dot. -/
theorem qualifiedName?_eq_some_iff (hl : ∀ t ∈ tokens, t.IsLexed) {moduleName? : Option String}
    {full : String} : qualifiedName? bases? moduleName? tokens = some full ↔
      ∃ moduleName name, moduleName? = some moduleName ∧ moduleName ≠ "" ∧
        declaredName? bases? tokens = some name ∧
        full = moduleName ++ "." ++ String.ofList name := by
  unfold qualifiedName?
  split
  · rename_i moduleName name hname
    have hne : name ≠ [] := by
      obtain ⟨i, -, hi⟩ := (declaredName?_eq_some_iff hl).mp hname
      exact (hl _ (List.mem_of_getElem? hi)).name rfl
    by_cases hm : moduleName = "" <;> simp [hm, hne, hname, @eq_comm _ full]
  · rename_i hno
    simp only [reduceCtorEq, false_iff]
    rintro ⟨moduleName, name, rfl, -, hname, -⟩
    exact hno moduleName name rfl hname

/-- A source has a full name exactly if it has tokens, and behind the first position at which
something is declared stands a name: the one that is joined to that of the module. -/
theorem World.extractName_eq_some_iff (w : World) (source : List Char)
    (moduleName? : Option String) (bases? : Option (List String)) (full : String) :
    (w.extractName source moduleName? bases?).1 = some full ↔
      ∃ moduleName tokens i name, moduleName? = some moduleName ∧ moduleName ≠ "" ∧
        tokenize source = .ok tokens ∧ IsLeast {i | DeclaresAt bases? tokens i} i ∧
        tokens[i + 1]? = some ⟨.name, name⟩ ∧
        full = moduleName ++ "." ++ String.ofList name := by
  unfold extractName
  cases ht : tokenize source with
  | error fault => simp
  | ok tokens =>
    have hl := isLexed_tokenize ht
    simp only [qualifiedName?_eq_some_iff hl, declaredName?_eq_some_iff hl, Except.ok.injEq]
    constructor
    · rintro ⟨moduleName, name, hmodule, hne, ⟨i, hi, hname⟩, rfl⟩
      exact ⟨moduleName, tokens, i, name, hmodule, hne, rfl, hi, hname, rfl⟩
    · rintro ⟨moduleName, _, i, name, hmodule, hne, rfl, hi, hname, rfl⟩
      exact ⟨moduleName, name, hmodule, hne, ⟨i, hi, hname⟩, rfl⟩

end SymbolExport
