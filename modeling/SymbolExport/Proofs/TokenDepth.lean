import SymbolExport.Proofs.DeclaredName

/-!
The depth of a scan. It counts the brackets among the tokens so far, and a parenthesis that stands
at the head of a token is one of these brackets.
-/
namespace SymbolExport

open SymbolExport.Text

/-- What a token adds to the depth. -/
def Token.depthChange (t : Token) : Int :=
  if t.kind = .operator then bracketStep t.text else 0

/-- Brackets opened less brackets closed. -/
def bracketBalance (tokens : List Token) : Int :=
  (tokens.map Token.depthChange).sum

@[simp] theorem bracketBalance_nil : bracketBalance [] = 0 := rfl

@[simp] theorem bracketBalance_cons (t : Token) (tokens : List Token) :
    bracketBalance (t :: tokens) = t.depthChange + bracketBalance tokens := by
  simp [bracketBalance]

@[simp] theorem bracketBalance_append (front back : List Token) :
    bracketBalance (front ++ back) = bracketBalance front + bracketBalance back := by
  simp [bracketBalance]

/-- A name has characters, and what starts with a parenthesis is an operator. -/
structure Token.IsLexed (t : Token) : Prop where
  name : t.kind = .name → t.text ≠ []
  parenthesis : t.text.head? = some '(' → t.kind = .operator

/-- A token that is neither a name nor a bracket, and does not look like one. -/
structure Token.IsPlain (t : Token) : Prop where
  depthChange : t.depthChange = 0
  name : t.kind ≠ .name
  head : t.text.head? ≠ some '('

theorem Token.IsPlain.isLexed {t : Token} (h : t.IsPlain) : t.IsLexed :=
  ⟨fun hn => absurd hn h.name, fun hh => absurd hh h.head⟩

/-- Tokens that lead from one depth to another. -/
structure Deepens (before : Int) (tokens : List Token) (after : Int) : Prop where
  depth : after = before + bracketBalance tokens
  isLexed : ∀ t ∈ tokens, t.IsLexed

variable {cs more source : List Char} {tokens front back : List Token} {t : Token}
  {before depth after : Int} {s next : Scanner} {c : Char} {n : Nat}

theorem Deepens.nil (depth : Int) : Deepens depth [] depth :=
  ⟨by simp, by simp⟩

theorem Deepens.cons (ht : t.IsLexed) (h : Deepens (before + t.depthChange) tokens after) :
    Deepens before (t :: tokens) after :=
  ⟨by rw [h.depth, bracketBalance_cons]; ring, List.forall_mem_cons.mpr ⟨ht, h.isLexed⟩⟩

theorem Deepens.append (h : Deepens before front depth) (h' : Deepens depth back after) :
    Deepens before (front ++ back) after :=
  ⟨by rw [h'.depth, h.depth, bracketBalance_append]; ring,
    List.forall_mem_append.mpr ⟨h.isLexed, h'.isLexed⟩⟩

theorem Deepens.of_isPlain (h : ∀ t ∈ tokens, t.IsPlain) (depth : Int) :
    Deepens depth tokens depth := by
  induction tokens with
  | nil => exact .nil depth
  | cons t rest ih =>
    obtain ⟨ht, hrest⟩ := List.forall_mem_cons.mp h
    refine .cons ht.isLexed ?_
    rw [ht.depthChange, add_zero]
    exact ih hrest

theorem pos_of_stringOrWord (h : stringOrWord cs = .word n) : 0 < n := by
  unfold stringOrWord at h
  dsimp only at h
  split at h
  · split at h
    · cases h
    · cases h
    · split at h
      · rename_i hpos
        exact Lexeme.word.inj h ▸ hpos
      · cases h
  · split at h
    · rename_i hpos
      exact Lexeme.word.inj h ▸ hpos
    · cases h

/-! What a lexeme is not, by its first character. -/

theorem stringStart?_of_head (hq : isQuote c = false)
    (hm : ∀ mark ∈ stringMarks, mark.head? ≠ some c.toLower) (more : List Char) :
    stringStart? (c :: more) = none := by
  simp only [stringStart?, List.take_succ_cons, List.takeWhile_cons, hq, Bool.not_false,
    if_true, List.length_cons, List.map_cons, List.drop_succ_cons]
  split
  · rw [if_neg]
    rw [Bool.and_eq_true, decide_eq_true_eq]
    exact fun h => hm _ h.2 rfl
  · rfl

theorem numberLength_of_head (hd : isDecimal c = false) (hp : c ≠ '.') (hz : c ≠ '0')
    (more : List Char) : numberLength (c :: more) = 0 := by
  simp [numberLength, imaginaryLength, floatLength, integerLength, digitRun, hd, hp, hz]

theorem operatorLength_of_head (ho : ∀ o ∈ operators3 ++ operators2, o.head? ≠ some c)
    (h1 : c ∉ operators1) (more : List Char) : operatorLength (c :: more) = 0 := by
  obtain ⟨h3, h2⟩ := List.forall_mem_append.mp ho
  unfold operatorLength
  rw [if_neg fun h => h3 _ h rfl, if_neg fun h => h2 _ h rfl]
  exact if_neg h1

theorem exists_lexeme_parenthesis (more : List Char) :
    ∃ n > 0, lexeme ('(' :: more) = .operator n := by
  have hstart : stringStart? ('(' :: more) = none :=
    stringStart?_of_head (by decide) (by decide) more
  have hnumber : numberLength ('(' :: more) = 0 :=
    numberLength_of_head (by decide) (by decide) (by decide) more
  have hoperator : 0 < operatorLength ('(' :: more) := by
    unfold operatorLength
    split
    · decide
    · split
      · decide
      · have hmem : '(' ∈ operators1 := by decide
        simp [hmem]
  refine ⟨operatorLength ('(' :: more), hoperator, ?_⟩
  simp [lexeme, tripleQuote?, hstart, hnumber, hoperator]

theorem isWordChar_bracket (h : c ∈ ['(', ')', '[', ']', '\x7b', '\x7d']) :
    isWordChar c = false := by
  simp only [List.mem_cons, List.not_mem_nil, or_false] at h
  rcases h with rfl | rfl | rfl | rfl | rfl | rfl <;> decide +kernel

theorem bracketStep_of_isWordChar (h : ∀ c ∈ cs, isWordChar c) : bracketStep cs = 0 := by
  have hno (c : Char) (hb : c ∈ ['(', ')', '[', ']', '\x7b', '\x7d']) : cs ≠ [c] := by
    rintro rfl
    have hc := h c (List.mem_singleton_self c)
    rw [isWordChar_bracket hb] at hc
    cases hc
  unfold bracketStep
  split <;> simp_all

/-- What a word is read as: a name with characters, or an operator that is no bracket. -/
theorem isLexed_word (h : lexeme (c :: more) = .word n) :
    (⟨wordKind c, (c :: more).take n⟩ : Token).IsLexed ∧
      (⟨wordKind c, (c :: more).take n⟩ : Token).depthChange = 0 := by
  have hpos : 0 < n := pos_of_stringOrWord (stringOrWord_of_lexeme h)
  refine ⟨⟨fun _ => ?_, fun hh => ?_⟩, ?_⟩
  · simp [hpos.ne']
  · rw [List.head?_take, if_neg hpos.ne'] at hh
    obtain rfl : c = '(' := by simpa using hh
    obtain ⟨k, -, hk⟩ := exists_lexeme_parenthesis more
    rw [hk] at h
    cases h
  · unfold Token.depthChange
    split
    · exact bracketStep_of_isWordChar (isWordChar_of_lexeme h)
    · rfl

/-- A string that goes on does not start with a parenthesis. -/
def LineEnding.IsSound : LineEnding → Prop
  | inString o => o.text ≠ [] ∧ o.text.head? ≠ some '('
  | _ => True

theorem Deepens.cons_of_isPlain (ht : t.IsPlain) (h : Deepens before tokens after) :
    Deepens before (t :: tokens) after :=
  .cons ht.isLexed (by rwa [ht.depthChange, add_zero])

theorem deepens_scanRest (line column : Nat) (depth : Int) (cs : List Char) :
    Deepens depth (scanRest line column depth cs).tokens (scanRest line column depth cs).depth ∧
      (scanRest line column depth cs).ending.IsSound := by
  induction hn : cs.length using Nat.strong_induction_on generalizing column depth cs with
  | _ n ih =>
  subst hn
  cases cs with
  | nil =>
    rw [scanRest]
    exact ⟨.nil depth, trivial⟩
  | cons c more =>
    have hrest (k column : Nat) (depth : Int) := ih (more.drop k).length
      (by simp only [List.length_cons, List.length_drop]; omega) column depth _ rfl
    -- a lexeme of another kind than an operator starts with no parenthesis
    have hhead (hl : ∀ n, lexeme (c :: more) ≠ .operator n) : c ≠ '(' := by
      rintro rfl
      obtain ⟨n, -, hlex⟩ := exists_lexeme_parenthesis more
      exact hl n hlex
    have hplain (kind : TokenKind) (n : Nat) (hk : kind ≠ .operator ∧ kind ≠ .name)
        (hc : c ≠ '(') : (⟨kind, (c :: more).take n⟩ : Token).IsPlain := by
      refine ⟨by simp [Token.depthChange, hk.1], hk.2, ?_⟩
      rw [List.head?_take]
      split <;> simp [hc]
    rw [scanRest]
    split
    · rename_i hspacing
      have hc : c ≠ '(' := by
        rintro rfl
        exact absurd hspacing (by decide)
      dsimp only
      split
      · exact ⟨.cons_of_isPlain (hplain .error 1 (by decide) hc) (hrest 0 _ _).1,
          (hrest 0 _ _).2⟩
      · exact hrest 0 _ _
    · dsimp only
      split
      case h_1 => exact ⟨.nil depth, trivial⟩
      case h_5 n hlex =>
        refine ⟨.cons ⟨by simp, fun _ => rfl⟩ ?_, (hrest _ _ _).2⟩
        exact (hrest _ _ _).1
      case h_7 n hlex =>
        obtain ⟨hlexed, hdepth⟩ := isLexed_word hlex
        refine ⟨.cons hlexed ?_, (hrest _ _ _).2⟩
        rw [hdepth, add_zero]
        exact (hrest _ _ _).1
      case h_9 quote hlex =>
        have hc := hhead (by simp [hlex])
        exact ⟨.nil depth, by simp [LineEnding.IsSound, hc]⟩
      case h_10 n quote hlex =>
        have hc := hhead (by simp [hlex])
        split
        · exact ⟨.cons_of_isPlain (hplain .string _ (by decide) hc) (hrest _ _ _).1,
            (hrest _ _ _).2⟩
        · exact ⟨.nil depth, by simp [LineEnding.IsSound, hc]⟩
      all_goals
        rename_i hlex
        have hc := hhead (by simp [hlex])
        refine ⟨.cons_of_isPlain (hplain _ _ ?_ hc) (hrest _ _ _).1, (hrest _ _ _).2⟩
        first | decide | (split <;> decide)

namespace Scanner

/-- A string that is open does not start with a parenthesis. -/
def IsSound (s : Scanner) : Prop :=
  ∀ o, s.openString? = some o → (LineEnding.inString o).IsSound

/-- Tokens that lead a scanner from a depth to another state. -/
structure GoesOn (depth : Int) (tokens : List Token) (next : Scanner) : Prop where
  deepens : Deepens depth tokens next.depth
  isSound : next.IsSound

theorem goesOn_takeRest (hf : ∀ t ∈ front, t.IsPlain) {column : Nat} {rest : List Char}
    (h : s.takeRest front column rest = (next, tokens)) : GoesOn s.depth tokens next := by
  obtain ⟨hscan, hending⟩ := deepens_scanRest s.line column s.depth rest
  have htokens := (Deepens.of_isPlain hf s.depth).append hscan
  unfold takeRest at h
  dsimp only at h
  cases he : (scanRest s.line column s.depth rest).ending with
  | plain | continued =>
    rw [he] at h
    cases h
    exact ⟨htokens, by simp [IsSound]⟩
  | inString o =>
    rw [he] at h hending
    cases h
    refine ⟨htokens, ?_⟩
    rintro p hp
    exact Option.some.inj hp ▸ hending

theorem isPlain_of_head? {kind : TokenKind} (hk : kind ≠ .operator ∧ kind ≠ .name)
    (hc : cs.head? ≠ some '(') : (⟨kind, cs⟩ : Token).IsPlain :=
  ⟨by simp [Token.depthChange, hk.1], hk.2, hc⟩

theorem isPlain_indent (line : List Char) :
    (⟨.indent, line.take (line.length - (indentation 0 line).2.length)⟩ : Token).IsPlain := by
  refine isPlain_of_head? (by decide) ?_
  rw [List.head?_take]
  split
  · simp
  · rename_i hoffset
    intro hh
    obtain ⟨rest, rfl⟩ := List.head?_eq_some_iff.mp hh
    simp [indentation] at hoffset

theorem isPlain_comment (more : List Char) (p : Char → Bool) :
    (⟨.comment, ('#' :: more).rdropWhile p⟩ : Token).IsPlain := by
  refine isPlain_of_head? (by decide) ?_
  intro hh
  have hprefix := List.rdropWhile_prefix p ('#' :: more)
  obtain ⟨rest, hrest⟩ := List.head?_eq_some_iff.mp hh
  rw [hrest] at hprefix
  obtain ⟨tail, htail⟩ := hprefix
  exact absurd (List.cons.inj htail).1 (by decide)

theorem isPlain_lineBreak (rest : List Char) (p : Char → Bool) (hp : p '(' = false) :
    (⟨.lineBreak, rest.drop (rest.rdropWhile p).length⟩ : Token).IsPlain := by
  refine isPlain_of_head? (by decide) ?_
  have hdrop : rest.drop (rest.rdropWhile p).length = rest.rtakeWhile p :=
    calc
      rest.drop (rest.rdropWhile p).length =
          (rest.rdropWhile p ++ rest.rtakeWhile p).drop (rest.rdropWhile p).length := by
        rw [List.rdropWhile_append_rtakeWhile]
      _ = rest.rtakeWhile p := List.drop_left
  rw [hdrop]
  intro hh
  have hmem := List.mem_rtakeWhile_imp (List.mem_of_head? hh)
  rw [hp] at hmem
  cases hmem

theorem isPlain_dedent {n : Nat} : ∀ t ∈ List.replicate n (⟨.dedent, []⟩ : Token), t.IsPlain := by
  intro t ht
  rw [List.eq_of_mem_replicate ht]
  exact isPlain_of_head? (by decide) (by simp)

theorem goesOn_takeStatement (hs : s.IsSound) (h : s.takeStatement cs = .ok (next, tokens)) :
    GoesOn s.depth tokens next := by
  have hstay {t : Token} (ht : t.IsPlain) : Deepens s.depth [t] s.depth :=
    .of_isPlain (List.forall_mem_singleton.mpr ht) _
  unfold takeStatement at h
  dsimp only at h
  split at h
  · cases h
    exact ⟨.nil _, hs⟩
  · rename_i more hrest
    cases h
    rw [hrest]
    exact ⟨(hstay (isPlain_comment more _)).append (hstay (isPlain_lineBreak _ _ (by decide))), hs⟩
  · rename_i hrest
    cases h
    exact ⟨hstay (isPlain_of_head? (by decide) (by simp [hrest])), hs⟩
  · rename_i hrest
    cases h
    exact ⟨hstay (isPlain_of_head? (by decide) (by simp [hrest])), hs⟩
  · split at h
    · have hdeeper := goesOn_takeRest (List.forall_mem_singleton.mpr (isPlain_indent cs))
        (Except.ok.inj h)
      exact hdeeper
    · split at h
      · have hlevel := goesOn_takeRest isPlain_dedent (Except.ok.inj h)
        exact hlevel
      · cases h

theorem goesOn_takeInString {o : OpenString} (ho : (LineEnding.inString o).IsSound)
    (h : s.takeInString o cs = (next, tokens)) : GoesOn s.depth tokens next := by
  have htext (more : List Char) : o.text ++ more ≠ [] ∧ (o.text ++ more).head? ≠ some '(' := by
    obtain ⟨first, rest, hcons⟩ := List.exists_cons_of_ne_nil ho.1
    have hhead := ho.2
    simp_all
  have hplain (kind : TokenKind) (more : List Char) (hk : kind ≠ .operator ∧ kind ≠ .name) :
      ∀ t ∈ [(⟨kind, o.text ++ more⟩ : Token)], t.IsPlain :=
    List.forall_mem_singleton.mpr (isPlain_of_head? hk (htext more).2)
  unfold takeInString at h
  dsimp only at h
  split at h
  · have hclosed := goesOn_takeRest (hplain .string _ (by decide)) h
    exact hclosed
  · split at h
    · cases h
      exact ⟨.of_isPlain (hplain .error cs (by decide)) _, by simp [IsSound]⟩
    · cases h
      refine ⟨.nil _, ?_⟩
      rintro p hp
      cases hp
      exact htext cs

theorem goesOn_takeLine (hs : s.IsSound) (h : s.takeLine cs = .ok (next, tokens)) :
    GoesOn s.depth tokens next := by
  unfold takeLine at h
  dsimp only at h
  split at h
  · rename_i o ho
    have hstring := goesOn_takeInString (hs o ho) (Except.ok.inj h)
    exact hstring
  · split at h
    · have hstatement := goesOn_takeStatement (s := { s with line := s.line + 1 }) hs h
      exact hstatement
    · have hrest := goesOn_takeRest (by simp) (Except.ok.inj h)
      exact hrest

theorem goesOn_takeLines {lines : List (List Char)} (hs : s.IsSound)
    (h : s.takeLines lines = .ok (next, tokens)) : GoesOn s.depth tokens next := by
  induction lines generalizing s tokens with
  | nil =>
    cases h
    exact ⟨.nil _, hs⟩
  | cons line rest ih =>
    obtain ⟨middle, front, back, hline, hrest, rfl⟩ := takeLines_cons_eq_ok_iff.mp h
    have hfront := goesOn_takeLine hs hline
    have hback := ih hfront.isSound hrest
    exact ⟨hfront.deepens.append hback.deepens, hback.isSound⟩

/-- At the end nothing is open, and what is added is neither a name nor a bracket. -/
theorem finish_eq_ok (h : s.finish = .ok tokens) :
    s.openString? = none ∧ s.depth = 0 ∧ s.continued = false ∧ ∀ t ∈ tokens, t.IsPlain := by
  unfold finish at h
  split at h
  · cases h
  · rename_i hopen
    split at h
    · rename_i hrest
      cases h
      simp only [Bool.and_eq_true, decide_eq_true_eq, Bool.not_eq_true'] at hrest
      refine ⟨hopen, hrest.1, hrest.2, ?_⟩
      refine List.forall_mem_append.mpr ⟨List.forall_mem_append.mpr ⟨?_, isPlain_dedent⟩, ?_⟩
      · split
        · exact List.forall_mem_singleton.mpr (isPlain_of_head? (by decide) (by simp))
        · simp
      · exact List.forall_mem_singleton.mpr (isPlain_of_head? (by decide) (by simp))
    · cases h

end Scanner

theorem isSound_start : Scanner.start.IsSound := by
  simp [Scanner.IsSound, Scanner.start]

theorem isLexed_tokenize (h : tokenize source = .ok tokens) : ∀ t ∈ tokens, t.IsLexed := by
  obtain ⟨last, front, back, hlines, hfinish, rfl⟩ := tokenize_eq_ok_iff.mp h
  refine List.forall_mem_append.mpr ⟨?_, ?_⟩
  · exact (Scanner.goesOn_takeLines isSound_start hlines).deepens.isLexed
  · exact fun t ht => ((Scanner.finish_eq_ok hfinish).2.2.2 t ht).isLexed

end SymbolExport
