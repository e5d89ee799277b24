import SymbolExport.Proofs.Extraction

/-!
Names of declarations. A name token holds word characters only, so the full name of a declaration
is cut again at the dot that joined it to its module.
-/
namespace SymbolExport

open SymbolExport.Text

/-- If the token is a name, it is a word. -/
def Token.IsWordIfName (t : Token) : Prop :=
  t.kind = .name → ∀ c ∈ t.text, isWordChar c

variable {cs source : List Char} {tokens : List Token} {t : Token} {s next : Scanner} {n : Nat}

theorem eq_length_of_stringOrWord (h : stringOrWord cs = .word n) :
    n = (cs.takeWhile isWordChar).length := by
  unfold stringOrWord at h
  dsimp only at h
  split at h
  · split at h
    · cases h
    · cases h
    · split at h
      · exact (Lexeme.word.inj h).symm
      · cases h
  · split at h
    · exact (Lexeme.word.inj h).symm
    · cases h

theorem stringOrWord_of_lexeme (h : lexeme cs = .word n) : stringOrWord cs = .word n := by
  unfold lexeme at h
  split at h
  all_goals try cases h
  split at h
  · rename_i triple htriple
    unfold tripleQuote? at htriple
    split at htriple
    · split at htriple
      · cases htriple
        cases h
      · cases htriple
    · cases htriple
  · dsimp only at h
    split at h
    · cases h
    · split at h
      · cases h
      · exact h

theorem eq_length_of_lexeme (h : lexeme cs = .word n) : n = (cs.takeWhile isWordChar).length :=
  eq_length_of_stringOrWord (stringOrWord_of_lexeme h)

theorem isWordChar_of_lexeme (h : lexeme cs = .word n) : ∀ c ∈ cs.take n, isWordChar c := by
  rw [eq_length_of_lexeme h, ← List.prefix_iff_eq_take.mp (List.takeWhile_prefix isWordChar)]
  exact fun c hc => List.all_eq_true.mp List.all_takeWhile c hc

theorem isWordIfName_of_kind (h : t.kind ≠ .name) : t.IsWordIfName :=
  fun hk => absurd hk h

theorem isWordIfName_cons {scan : LineScan} (ht : t.IsWordIfName)
    (h : ∀ u ∈ scan.tokens, u.IsWordIfName) : ∀ u ∈ (scan.cons t).tokens, u.IsWordIfName :=
  List.forall_mem_cons.mpr ⟨ht, h⟩

theorem isWordIfName_cons_of_kind {scan : LineScan} {kind : TokenKind} {text : List Char}
    (hk : kind ≠ .name) (h : ∀ u ∈ scan.tokens, u.IsWordIfName) :
    ∀ u ∈ (scan.cons ⟨kind, text⟩).tokens, u.IsWordIfName :=
  isWordIfName_cons (isWordIfName_of_kind hk) h

theorem isWordIfName_scanRest (line column : Nat) (depth : Int) (cs : List Char) :
    ∀ u ∈ (scanRest line column depth cs).tokens, u.IsWordIfName := by
  induction hn : cs.length using Nat.strong_induction_on generalizing column depth cs with
  | _ n ih =>
  subst hn
  cases cs with
  | nil => simp [scanRest]
  | cons c more =>
    have hrest (k column : Nat) (depth : Int) :
        ∀ u ∈ (scanRest line column depth (more.drop k)).tokens, u.IsWordIfName :=
      ih (more.drop k).length (by simp only [List.length_cons, List.length_drop]; omega) column
        depth _ rfl
    rw [scanRest]
    split
    · dsimp only
      split
      · exact isWordIfName_cons_of_kind (by decide) (hrest 0 _ _)
      · exact hrest 0 _ _
    · dsimp only
      split
      case h_1 | h_9 => simp
      case h_4 => exact isWordIfName_cons_of_kind (by split <;> decide) (hrest _ _ _)
      case h_7 hword =>
        exact isWordIfName_cons (fun _ => isWordChar_of_lexeme hword) (hrest _ _ _)
      case h_10 =>
        split
        · exact isWordIfName_cons_of_kind (by decide) (hrest _ _ _)
        · simp
      all_goals exact isWordIfName_cons_of_kind (by decide) (hrest _ _ _)

namespace Scanner

theorem isWordIfName_takeRest {before : List Token} (h : ∀ u ∈ before, u.IsWordIfName)
    (s : Scanner) (column : Nat) (rest : List Char) :
    ∀ u ∈ (s.takeRest before column rest).2, u.IsWordIfName :=
  List.forall_mem_append.mpr ⟨h, isWordIfName_scanRest _ _ _ _⟩

theorem isWordIfName_takeStatement (h : s.takeStatement cs = .ok (next, tokens)) :
    ∀ u ∈ tokens, u.IsWordIfName := by
  unfold takeStatement at h
  dsimp only at h
  split at h
  · cases h
    simp
  · cases h
    simp [Token.IsWordIfName]
  · cases h
    simp [Token.IsWordIfName]
  · cases h
    simp [Token.IsWordIfName]
  · split at h
    · cases h
      exact isWordIfName_takeRest (by simp [Token.IsWordIfName]) _ _ _
    · split at h
      · cases h
        exact isWordIfName_takeRest (by simp [Token.IsWordIfName]) _ _ _
      · cases h

theorem isWordIfName_takeInString (s : Scanner) (o : OpenString) (line : List Char) :
    ∀ u ∈ (s.takeInString o line).2, u.IsWordIfName := by
  unfold takeInString
  dsimp only
  split
  · exact isWordIfName_takeRest (by simp [Token.IsWordIfName]) _ _ _
  · split <;> simp [Token.IsWordIfName]

theorem isWordIfName_takeLine (h : s.takeLine cs = .ok (next, tokens)) :
    ∀ u ∈ tokens, u.IsWordIfName := by
  unfold takeLine at h
  dsimp only at h
  split at h
  · rename_i o _
    have hin := isWordIfName_takeInString { s with line := s.line + 1 } o cs
    rw [Except.ok.inj h] at hin
    exact hin
  · split at h
    · exact isWordIfName_takeStatement h
    · cases h
      exact isWordIfName_takeRest (by simp) _ _ _

/-- Lines are taken one after the other. -/
theorem takeLines_cons_eq_ok_iff {line : List Char} {rest : List (List Char)} :
    s.takeLines (line :: rest) = .ok (next, tokens) ↔ ∃ middle front back,
      s.takeLine line = .ok (middle, front) ∧ middle.takeLines rest = .ok (next, back) ∧
        tokens = front ++ back := by
  cases hl : s.takeLine line with
  | error fault => simp [takeLines, hl, bind, Except.bind]
  | ok first =>
    obtain ⟨middle, front⟩ := first
    cases hr : middle.takeLines rest with
    | error fault => simp [takeLines, hl, hr, bind, Except.bind]
    | ok last =>
      obtain ⟨last, back⟩ := last
      simp [takeLines, hl, hr, bind, Except.bind, pure, Except.pure, eq_comm]

theorem isWordIfName_takeLines {lines : List (List Char)}
    (h : s.takeLines lines = .ok (next, tokens)) : ∀ u ∈ tokens, u.IsWordIfName := by
  induction lines generalizing s tokens with
  | nil =>
    cases h
    simp
  | cons line rest ih =>
    obtain ⟨middle, front, back, hline, hrest, rfl⟩ := takeLines_cons_eq_ok_iff.mp h
    exact List.forall_mem_append.mpr ⟨isWordIfName_takeLine hline, ih hrest⟩

theorem isWordIfName_finish (h : s.finish = .ok tokens) : ∀ u ∈ tokens, u.IsWordIfName := by
  unfold finish at h
  split at h
  · cases h
  · split at h
    · cases h
      refine List.forall_mem_append.mpr ⟨List.forall_mem_append.mpr ⟨?_, ?_⟩, ?_⟩
      · split <;> simp [Token.IsWordIfName]
      · simp [Token.IsWordIfName]
      · simp [Token.IsWordIfName]
    · cases h

end Scanner

/-- The tokens of a source are those of its lines and what is added at the end. -/
theorem tokenize_eq_ok_iff : tokenize source = .ok tokens ↔ ∃ last front back,
    Scanner.start.takeLines (lines source) = .ok (last, front) ∧ last.finish = .ok back ∧
      tokens = front ++ back := by
  unfold tokenize
  cases hl : Scanner.start.takeLines (lines source) with
  | error fault => simp [bind, Except.bind]
  | ok scanned =>
    obtain ⟨last, front⟩ := scanned
    cases hf : last.finish with
    | error fault => simp [hf, bind, Except.bind]
    | ok back => simp [hf, bind, Except.bind, pure, Except.pure, eq_comm]

/-- The names in a source are words. -/
theorem isWordIfName_tokenize (h : tokenize source = .ok tokens) :
    ∀ u ∈ tokens, u.IsWordIfName := by
  obtain ⟨last, front, back, hlines, hfinish, rfl⟩ := tokenize_eq_ok_iff.mp h
  exact List.forall_mem_append.mpr
    ⟨Scanner.isWordIfName_takeLines hlines, Scanner.isWordIfName_finish hfinish⟩

theorem mem_of_declaredName? {bases? : Option (List String)} {name : List Char}
    (h : declaredName? bases? tokens = some name) :
    ∃ t ∈ tokens, t.kind = .name ∧ t.text = name := by
  induction tokens with
  | nil => cases h
  | cons t rest ih =>
    unfold declaredName? at h
    split at h
    · split at h
      · rename_i next more _
        split at h
        · rename_i hk
          exact ⟨next, by simp, hk, Option.some.inj h⟩
        · cases h
      · cases h
    · obtain ⟨u, hu, he⟩ := ih h
      exact ⟨u, List.mem_cons_of_mem t hu, he⟩

theorem dot_notMem_declaredName {bases? : Option (List String)} {name : List Char}
    (ht : tokenize source = .ok tokens) (h : declaredName? bases? tokens = some name) :
    '.' ∉ name := by
  obtain ⟨t, hm, hk, rfl⟩ := mem_of_declaredName? h
  intro hdot
  have hword := isWordIfName_tokenize ht t hm hk '.' hdot
  have hno : isWordChar '.' = false := by decide +kernel
  rw [hno] at hword
  cases hword

/-- A full name is cut where it was joined. -/
theorem ofQualified_append {moduleName : String} {name : List Char} (h : '.' ∉ name) :
    ResolvedType.ofQualified (moduleName ++ "." ++ String.ofList name) =
      ⟨moduleName, String.ofList name⟩ := by
  have hfull : (moduleName ++ "." ++ String.ofList name).toList.reverse =
      name.reverse ++ '.' :: moduleName.toList.reverse := by simp
  have htake : (name.reverse ++ '.' :: moduleName.toList.reverse).takeWhile (· ≠ '.') =
      name.reverse := by
    have hall : ∀ c ∈ name.reverse, decide (c ≠ '.') := by
      intro c hc
      refine decide_eq_true ?_
      rintro rfl
      exact h (List.mem_reverse.mp hc)
    rw [List.takeWhile_append_of_pos hall]
    simp
  have hdrop : (name.reverse ++ '.' :: moduleName.toList.reverse).drop (name.reverse.length + 1) =
      moduleName.toList.reverse := by
    rw [← List.drop_drop, List.drop_left]
    rfl
  simp only [ResolvedType.ofQualified, hfull, htake, hdrop, List.reverse_reverse,
    String.ofList_toList]

/-- The type of a file stands in the module that is named after the file. -/
theorem World.moduleName?_of_resolveType {w : World} {path importRoot : Path}
    {bases? : Option (List String)} {t : ResolvedType}
    (h : (w.resolveType path importRoot bases?).1 = .ok (some t)) :
    ∃ file root, w.resolve path = .ok file ∧ w.resolve importRoot = .ok root ∧
      moduleName? file root = .ok (some t.moduleName) := by
  unfold resolveType at h
  split at h
  · cases h
  · rename_i source _
    dsimp only at h
    cases hf : w.resolve path with
    | error failure => simp [hf, bind, Except.bind] at h
    | ok file =>
      cases hr : w.resolve importRoot with
      | error failure => simp [hf, hr, bind, Except.bind] at h
      | ok root =>
        cases hm : moduleName? file root with
        | error e => simp [hf, hr, hm, bind, Except.bind, Except.mapError] at h
        | ok name? =>
          refine ⟨file, root, rfl, rfl, ?_⟩
          simp only [hf, hr, hm, bind, Except.bind, Except.mapError, extractName] at h
          cases ht : tokenize source with
          | error fault => simp [ht] at h
          | ok tokens =>
            simp only [ht, Except.ok.injEq, Option.map_eq_some_iff] at h
            obtain ⟨full, hfull, rfl⟩ := h
            unfold qualifiedName? at hfull
            split at hfull
            · rename_i moduleName name hname
              split at hfull
              · cases hfull
              · cases hfull
                rw [ofQualified_append (dot_notMem_declaredName ht hname)]
                exact hm
            · cases hfull

end SymbolExport
