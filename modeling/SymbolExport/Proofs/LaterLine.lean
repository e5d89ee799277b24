import SymbolExport.Proofs.TokenDepth

/-!
A scan that starts one line further down. The number of a line is only kept for what is said of an
open string, so all tokens are the same and the state differs in the lines alone.
-/
namespace SymbolExport

open SymbolExport.Text

/-- What a scan does at a character, in whatever line that stands. -/
inductive ScansBy (column : Nat) (depth : Int) (c : Char) (more : List Char) : Prop
  | spacing (hc : isSpacing c)
      (h : ∀ line, scanRest line column depth (c :: more) = scanRest line (column + 1) depth more)
  | token (kind : TokenKind) (n next : Nat) (after : Int)
      (hkind : kind ≠ .name ∨ lexeme (c :: more) = .word n)
      (h : ∀ line, scanRest line column depth (c :: more) =
        (scanRest line next after (more.drop (n - 1))).cons ⟨kind, (c :: more).take n⟩)
  | continuation
      (h : ∀ line, scanRest line column depth (c :: more) = ⟨[], depth, .continued⟩)
  | openString (quote : Char) (isTriple : Bool)
      (h : ∀ line, scanRest line column depth (c :: more) =
        ⟨[], depth, .inString ⟨quote, isTriple, line, column, c :: more⟩⟩)

/-! A scan one line further down gives the same tokens. -/

def OpenString.later (o : OpenString) : OpenString :=
  { o with line := o.line + 1 }

def LineEnding.later : LineEnding → LineEnding
  | inString o => inString o.later
  | ending => ending

def LineScan.later (scan : LineScan) : LineScan :=
  { scan with ending := scan.ending.later }

def Scanner.later (s : Scanner) : Scanner :=
  { s with line := s.line + 1, openString? := s.openString?.map OpenString.later }

@[simp] theorem Scanner.later_depth (s : Scanner) : s.later.depth = s.depth := rfl

@[simp] theorem Scanner.later_continued (s : Scanner) : s.later.continued = s.continued := rfl

@[simp] theorem Scanner.later_indents (s : Scanner) : s.later.indents = s.indents := rfl

@[simp] theorem Scanner.later_needsMark (s : Scanner) : s.later.needsMark = s.needsMark := rfl

@[simp] theorem Scanner.later_endsOpen (s : Scanner) : s.later.endsOpen = s.endsOpen := rfl

@[simp] theorem Scanner.later_openString? (s : Scanner) :
    s.later.openString? = s.openString?.map OpenString.later := rfl

variable {line : List Char} {tokens : List Token} {s next : Scanner}

theorem scansBy (column : Nat) (depth : Int) (c : Char) (more : List Char) :
    ScansBy column depth c more := by
  have herror : TokenKind.error ≠ .name := by decide
  by_cases hc : isSpacing c
  · by_cases hu : !(more.dropWhile isSpacing).isEmpty &&
        lexeme (more.dropWhile isSpacing) = .unknown
    · exact .token .error 1 (column + 1) depth (.inl herror) fun line => by
        simp [scanRest, hc, hu]
    · exact .spacing hc fun line => by simp [scanRest, hc, hu]
  · cases hl : lexeme (c :: more) with
    | continuation => exact .continuation fun line => by simp [scanRest, hc, hl]
    | comment n =>
      exact .token .comment n _ depth (.inl (by decide)) fun line => by simp [scanRest, hc, hl]; rfl
    | number n =>
      exact .token .number n _ depth (.inl (by decide)) fun line => by simp [scanRest, hc, hl]; rfl
    | lineEnd n =>
      refine .token (if depth > 0 then .lineBreak else .newline) n _ depth ?_ fun line => by
        simp [scanRest, hc, hl]; rfl
      exact .inl (by split <;> decide)
    | operator n =>
      exact .token .operator n _ _ (.inl (by decide)) fun line => by simp [scanRest, hc, hl]; rfl
    | string n =>
      exact .token .string n _ depth (.inl (by decide)) fun line => by simp [scanRest, hc, hl]; rfl
    | word n =>
      exact .token (wordKind c) n _ depth (.inr hl) fun line => by simp [scanRest, hc, hl]; rfl
    | unknown =>
      exact .token .error 1 _ depth (.inl herror) fun line => by simp [scanRest, hc, hl]; rfl
    | openString quote => exact .openString quote false fun line => by simp [scanRest, hc, hl]
    | tripleQuote n quote =>
      cases ht : tripleClosingLength? quote ((c :: more).drop n) with
      | none => exact .openString quote true fun line => by simp [scanRest, hc, hl, ht]
      | some length =>
        exact .token .string (n + length) _ depth (.inl (by decide)) fun line => by
          simp [scanRest, hc, hl, ht]; rfl

theorem LineScan.later_cons (t : Token) (scan : LineScan) :
    (scan.cons t).later = scan.later.cons t := rfl

theorem scanRest_later (line column : Nat) (depth : Int) (cs : List Char) :
    scanRest (line + 1) column depth cs = (scanRest line column depth cs).later := by
  induction hn : cs.length using Nat.strong_induction_on generalizing column depth cs with
  | _ n ih =>
  subst hn
  cases cs with
  | nil => simp [scanRest, LineScan.later, LineEnding.later]
  | cons c more =>
    cases scansBy column depth c more with
    | spacing hc h => rw [h, h, ih more.length (by simp) _ _ _ rfl]
    | token kind n next after hkind h =>
      have hrest := ih (more.drop (n - 1)).length (by simp) next after _ rfl
      rw [h, h, hrest, LineScan.later_cons]
    | continuation h => rw [h, h]; rfl
    | openString quote isTriple h => rw [h, h]; rfl

namespace Scanner

theorem takeRest_later {before : List Token} {column : Nat} {rest : List Char}
    (h : s.takeRest before column rest = (next, tokens)) :
    s.later.takeRest before column rest = (next.later, tokens) := by
  have hscan : scanRest s.later.line column s.later.depth rest =
      (scanRest s.line column s.depth rest).later := scanRest_later _ _ _ _
  unfold takeRest at h ⊢
  dsimp only at h ⊢
  rw [hscan]
  dsimp only [LineScan.later]
  cases he : (scanRest s.line column s.depth rest).ending with
  | plain | continued | inString =>
    rw [he] at h
    cases h
    rfl

theorem takeStatement_later (h : s.takeStatement line = .ok (next, tokens)) :
    s.later.takeStatement line = .ok (next.later, tokens) := by
  unfold takeStatement at h ⊢
  dsimp only at h ⊢
  split at h
  case h_5 =>
    rw [later_indents]
    split at h
    · rename_i hdeeper
      rw [if_pos hdeeper]
      exact congrArg Except.ok (takeRest_later (Except.ok.inj h))
    · rename_i hdeeper
      rw [if_neg hdeeper]
      cases hd : dedentTo? (indentation 0 line).1 s.indents with
      | none =>
        rw [hd] at h
        cases h
      | some dedent =>
        rw [hd] at h
        exact congrArg Except.ok (takeRest_later (Except.ok.inj h))
  all_goals
    cases h
    rfl

theorem takeInString_later {o : OpenString} (h : s.takeInString o line = (next, tokens)) :
    s.later.takeInString o.later line = (next.later, tokens) := by
  have hclosing : (if o.later.isTriple then tripleClosingLength? o.later.quote line
      else closingLength? o.later.quote line) =
        if o.isTriple then tripleClosingLength? o.quote line else closingLength? o.quote line := rfl
  unfold takeInString at h ⊢
  dsimp -instances only at h ⊢
  rw [hclosing]
  split at h
  · exact takeRest_later h
  · rw [later_needsMark]
    split at h
    · rename_i hmark
      rw [if_pos hmark]
      cases h
      rfl
    · rename_i hmark
      rw [if_neg hmark]
      cases h
      rfl

theorem takeLine_of_openString {o : OpenString} (ho : s.openString? = some o) (line : List Char) :
    s.takeLine line = .ok ({ s with line := s.line + 1 }.takeInString o line) := by
  simp [takeLine, ho]

theorem takeLine_of_statement (ho : s.openString? = none) (hd : s.depth = 0)
    (hc : s.continued = false) (line : List Char) :
    s.takeLine line = { s with line := s.line + 1 }.takeStatement line := by
  simp [takeLine, ho, hd, hc]

theorem takeLine_of_not_statement (ho : s.openString? = none)
    (hs : ¬ (s.depth = 0 ∧ s.continued = false)) (line : List Char) :
    s.takeLine line = .ok ({ s with line := s.line + 1, endsOpen := lacksLineEnd line }.takeRest
      [] 0 line) := by
  simp [takeLine, ho, hs]

theorem takeLine_later (h : s.takeLine line = .ok (next, tokens)) :
    s.later.takeLine line = .ok (next.later, tokens) := by
  cases ho : s.openString? with
  | some o =>
    have hlater : s.later.openString? = some o.later := by simp [ho]
    rw [takeLine_of_openString ho] at h
    rw [takeLine_of_openString hlater]
    exact congrArg Except.ok (takeInString_later (Except.ok.inj h))
  | none =>
    have hlater : s.later.openString? = none := by simp [ho]
    by_cases hs : s.depth = 0 ∧ s.continued = false
    · rw [takeLine_of_statement ho hs.1 hs.2] at h
      rw [takeLine_of_statement hlater hs.1 hs.2]
      exact takeStatement_later h
    · rw [takeLine_of_not_statement ho hs] at h
      rw [takeLine_of_not_statement hlater hs]
      exact congrArg Except.ok (takeRest_later (Except.ok.inj h))

theorem takeLines_later {lines : List (List Char)} (h : s.takeLines lines = .ok (next, tokens)) :
    s.later.takeLines lines = .ok (next.later, tokens) := by
  induction lines generalizing s tokens with
  | nil =>
    cases h
    rfl
  | cons line rest ih =>
    obtain ⟨middle, front, back, hline, hrest, rfl⟩ := takeLines_cons_eq_ok_iff.mp h
    exact takeLines_cons_eq_ok_iff.mpr ⟨_, front, back, takeLine_later hline, ih hrest, rfl⟩

theorem finish_of_closed (ho : s.openString? = none) (hd : s.depth = 0)
    (hc : s.continued = false) : s.finish = .ok ((if s.endsOpen then [⟨.newline, []⟩] else []) ++
      List.replicate (s.indents.length - 1) ⟨.dedent, []⟩ ++ [⟨.endMarker, []⟩]) := by
  simp [finish, ho, hd, hc]

theorem finish_later (h : s.finish = .ok tokens) : s.later.finish = .ok tokens := by
  obtain ⟨ho, hd, hc, -⟩ := finish_eq_ok h
  have hlater : s.later.openString? = none := by simp [ho]
  rw [finish_of_closed ho hd hc] at h
  rw [finish_of_closed hlater hd hc]
  exact h

end Scanner

end SymbolExport
