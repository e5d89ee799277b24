import SymbolExport.Proofs.Alike
import SymbolExport.Proofs.LaterLine

/-!
A scan that starts at another column. The column is only kept for what is said of an open string, so
all tokens are the same, and there are tokens for both starts or for none.
-/
namespace SymbolExport

open SymbolExport.Text

/-! Scans that differ in columns alone. -/

def OpenString.unplaced (o : OpenString) : OpenString :=
  { o with column := 0 }

def LineEnding.unplaced : LineEnding → LineEnding
  | inString o => inString o.unplaced
  | ending => ending

def LineScan.unplaced (scan : LineScan) : LineScan :=
  { scan with ending := scan.ending.unplaced }

/-- A scanner without the column of its open string, and without what is only asked at the end. -/
def Scanner.unplaced (s : Scanner) : Scanner :=
  { s with openString? := s.openString?.map OpenString.unplaced, endsOpen := false }

/-- Two scanners that differ in columns alone, after the same tokens. -/
def Scanner.SameResult (r r' : Scanner × List Token) : Prop :=
  r.1.unplaced = r'.1.unplaced ∧ r.2 = r'.2

/-- The tokens of lines and of the end behind them. -/
def Scanner.takeAll (s : Scanner) (lines : List (List Char)) : Except TokenFault (List Token) :=
  (s.takeLines lines).bind fun r => r.1.finish.map (r.2 ++ ·)

variable {s s' : Scanner} {o o' : OpenString}

theorem LineScan.unplaced_cons (t : Token) (scan : LineScan) :
    (scan.cons t).unplaced = scan.unplaced.cons t := rfl

theorem scanRest_unplaced (line column column' : Nat) (depth : Int) (cs : List Char) :
    (scanRest line column depth cs).unplaced = (scanRest line column' depth cs).unplaced := by
  induction hn : cs.length using Nat.strong_induction_on generalizing column column' depth cs with
  | _ n ih =>
  subst hn
  cases cs with
  | nil => simp [scanRest]
  | cons c more =>
    have hrest (k column column' : Nat) (depth : Int) :
        (scanRest line column depth (more.drop k)).unplaced =
          (scanRest line column' depth (more.drop k)).unplaced :=
      ih (more.drop k).length (by simp only [List.length_cons, List.length_drop]; omega) _ _ _ _ rfl
    have hmore := hrest 0
    rw [List.drop_zero] at hmore
    rw [scanRest, scanRest]
    by_cases hc : isSpacing c
    · simp only [hc, if_true]
      split
      · rw [LineScan.unplaced_cons, LineScan.unplaced_cons, hmore]
      · exact hmore _ _ _
    · simp only [hc]
      cases lexeme (c :: more) with
      | tripleQuote n quote =>
        dsimp only
        cases tripleClosingLength? quote ((c :: more).drop n) with
        | none => rfl
        | some length => exact congrArg (LineScan.cons _) (hrest _ _ _ _)
      | continuation => rfl
      | openString quote => rfl
      | _ => exact congrArg (LineScan.cons _) (hrest _ _ _ _)

namespace Scanner

/-- What is left of a scanner when columns do not count. -/
theorem unplaced_eq_iff : s.unplaced = s'.unplaced ↔
    s.line = s'.line ∧ s.depth = s'.depth ∧ s.continued = s'.continued ∧
      s.indents = s'.indents ∧
      s.openString?.map OpenString.unplaced = s'.openString?.map OpenString.unplaced ∧
      s.needsMark = s'.needsMark := by
  simp [unplaced]

theorem takeRest_unplaced (h : s.unplaced = s'.unplaced) (before : List Token)
    (column column' : Nat) (rest : List Char) :
    SameResult (s.takeRest before column rest) (s'.takeRest before column' rest) := by
  obtain ⟨hline, hdepth, -, hindents, -, hmark⟩ := unplaced_eq_iff.mp h
  have hscan := scanRest_unplaced s.line column column' s.depth rest
  unfold takeRest
  rw [← hline, ← hdepth, ← hmark]
  generalize scanRest s.line column s.depth rest = scan at hscan ⊢
  generalize scanRest s.line column' s.depth rest = scan' at hscan ⊢
  obtain ⟨tokens, depth, ending⟩ := scan
  obtain ⟨tokens', depth', ending'⟩ := scan'
  simp only [LineScan.unplaced, LineScan.mk.injEq] at hscan
  obtain ⟨rfl, rfl, hending⟩ := hscan
  refine ⟨?_, rfl⟩
  cases ending <;> cases ending' <;>
    simp_all [LineEnding.unplaced, unplaced, OpenString.unplaced]

/-- Scanners that differ in columns alone agree in all but their open strings. -/
theorem exists_of_unplaced (h : s.unplaced = s'.unplaced) : ∃ openString? endsOpen,
    s' = { s with openString? := openString?, endsOpen := endsOpen } ∧
      s.openString?.map OpenString.unplaced = openString?.map OpenString.unplaced := by
  obtain ⟨hline, hdepth, hcontinued, hindents, ho, hmark⟩ := unplaced_eq_iff.mp h
  refine ⟨s'.openString?, s'.endsOpen, ?_, ho⟩
  rw [hline, hdepth, hcontinued, hindents, hmark]

theorem unplaced_mk {openString? openString?' : Option OpenString}
    (ho : openString?.map OpenString.unplaced = openString?'.map OpenString.unplaced) (line : Nat)
    (depth : Int) (continued : Bool) (indents : List Nat) (needsMark endsOpen endsOpen' : Bool) :
    (Scanner.mk line depth continued indents openString? needsMark endsOpen).unplaced =
      (Scanner.mk line depth continued indents openString?' needsMark endsOpen').unplaced := by
  simp only [unplaced, ho]

theorem takeStatement_unplaced (h : s.unplaced = s'.unplaced) (line : List Char) :
    Alike SameResult (s.takeStatement line) (s'.takeStatement line) := by
  obtain ⟨openString?, endsOpen, rfl, ho⟩ := exists_of_unplaced h
  unfold takeStatement
  dsimp only
  split
  case h_1 => exact .ok ⟨h, rfl⟩
  case h_5 =>
    split
    · exact .ok (takeRest_unplaced (unplaced_mk ho ..) _ _ _ _)
    · split
      · exact .ok (takeRest_unplaced (unplaced_mk ho ..) _ _ _ _)
      · exact .error _
  all_goals exact .ok ⟨unplaced_mk ho .., rfl⟩

theorem takeInString_unplaced (h : s.unplaced = s'.unplaced) (ho : o.unplaced = o'.unplaced)
    (line : List Char) : SameResult (s.takeInString o line) (s'.takeInString o' line) := by
  obtain ⟨openString?, endsOpen, rfl, hopen⟩ := exists_of_unplaced h
  obtain ⟨quote, isTriple, first, column, text⟩ := o
  obtain ⟨quote', isTriple', first', column', text'⟩ := o'
  simp only [OpenString.unplaced, OpenString.mk.injEq] at ho
  obtain ⟨rfl, rfl, rfl, -, rfl⟩ := ho
  unfold takeInString
  dsimp only
  cases (if isTriple then tripleClosingLength? quote line else closingLength? quote line) with
  | some n => exact takeRest_unplaced (unplaced_mk hopen ..) _ _ _ _
  | none =>
    dsimp only
    split <;> exact ⟨rfl, rfl⟩

theorem takeLine_unplaced (h : s.unplaced = s'.unplaced) (line : List Char) :
    Alike SameResult (s.takeLine line) (s'.takeLine line) := by
  obtain ⟨hline, hdepth, hcontinued, hindents, ho, hmark⟩ := unplaced_eq_iff.mp h
  have hnext (endsOpen endsOpen' : Bool) :
      ({ s with line := s.line + 1, endsOpen := endsOpen } : Scanner).unplaced =
        ({ s' with line := s'.line + 1, endsOpen := endsOpen' } : Scanner).unplaced := by
    rw [unplaced_eq_iff]
    exact ⟨congrArg (· + 1) hline, hdepth, hcontinued, hindents, ho, hmark⟩
  cases hopen : s.openString? with
  | some o =>
    rw [hopen, Option.map_some] at ho
    obtain ⟨o', hopen', hstring⟩ := Option.map_eq_some_iff.mp ho.symm
    rw [takeLine_of_openString hopen, takeLine_of_openString hopen']
    exact .ok (takeInString_unplaced (hnext _ _) hstring.symm line)
  | none =>
    rw [hopen, Option.map_none] at ho
    have hopen' := Option.map_eq_none_iff.mp ho.symm
    by_cases hs : s.depth = 0 ∧ s.continued = false
    · rw [takeLine_of_statement hopen hs.1 hs.2,
        takeLine_of_statement hopen' (hdepth ▸ hs.1) (hcontinued ▸ hs.2)]
      exact takeStatement_unplaced (hnext _ _) line
    · rw [takeLine_of_not_statement hopen hs,
        takeLine_of_not_statement hopen' (by rwa [← hdepth, ← hcontinued])]
      exact .ok (takeRest_unplaced (hnext _ _) _ _ _ _)

theorem takeLines_unplaced (h : s.unplaced = s'.unplaced) (lines : List (List Char)) :
    Alike SameResult (s.takeLines lines) (s'.takeLines lines) := by
  induction lines generalizing s s' with
  | nil => exact .ok ⟨h, rfl⟩
  | cons line rest ih =>
    refine (takeLine_unplaced h line).bind fun r r' hline => ?_
    refine (ih hline.1).bind fun last last' hrest => ?_
    exact .ok ⟨hrest.1, congrArg₂ (· ++ ·) hline.2 hrest.2⟩

/-- At the end a string is open for both or for none, wherever it started. -/
theorem finish_unplaced (h : s.unplaced = s'.unplaced) :
    (∃ tokens tokens', s.finish = .ok tokens ∧ s'.finish = .ok tokens') ∨
      ∃ fault fault', s.finish = .error fault ∧ s'.finish = .error fault' := by
  obtain ⟨-, hdepth, hcontinued, -, ho, -⟩ := unplaced_eq_iff.mp h
  unfold finish
  cases hopen : s.openString? with
  | some o =>
    rw [hopen, Option.map_some] at ho
    obtain ⟨o', hopen', -⟩ := Option.map_eq_some_iff.mp ho.symm
    rw [hopen']
    exact Or.inr ⟨_, _, rfl, rfl⟩
  | none =>
    rw [hopen, Option.map_none] at ho
    rw [Option.map_eq_none_iff.mp ho.symm, ← hdepth, ← hcontinued]
    dsimp only
    split
    · exact Or.inl ⟨_, _, rfl, rfl⟩
    · exact Or.inr ⟨_, _, rfl, rfl⟩

/-- What follows from two scanners that differ in columns alone has the same tokens up to the last
line, or no tokens. -/
theorem takeAll_unplaced (h : s.unplaced = s'.unplaced) (lines : List (List Char)) :
    (∃ tokens back back', s.takeAll lines = .ok (tokens ++ back) ∧
      s'.takeAll lines = .ok (tokens ++ back') ∧ ∀ t ∈ back ++ back', t.IsPlain) ∨
    ∃ fault fault', s.takeAll lines = .error fault ∧ s'.takeAll lines = .error fault' := by
  have hlines := takeLines_unplaced h lines
  unfold takeAll
  generalize s.takeLines lines = result at hlines ⊢
  generalize s'.takeLines lines = result' at hlines ⊢
  obtain fault | @⟨⟨last, tokens⟩, ⟨last', tokens'⟩, hlast, htokens⟩ := hlines
  · exact Or.inr ⟨fault, fault, rfl, rfl⟩
  · obtain rfl : tokens = tokens' := htokens
    obtain ⟨back, back', hback, hback'⟩ | ⟨fault, fault', hf, hf'⟩ := finish_unplaced hlast
    · refine Or.inl ⟨tokens, back, back', ?_, ?_, List.forall_mem_append.mpr
        ⟨(finish_eq_ok hback).2.2.2, (finish_eq_ok hback').2.2.2⟩⟩
      · simp [Except.bind, hback, Except.map]
      · simp [Except.bind, hback', Except.map]
    · exact Or.inr ⟨fault, fault', by simp [Except.bind, hf, Except.map],
        by simp [Except.bind, hf', Except.map]⟩

end Scanner

end SymbolExport
