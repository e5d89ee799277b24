import SymbolExport.Proofs.EarlierDeclaration
import SymbolExport.Proofs.LaterLine

/-!
Lines that hold a comment alone. Where no string is open and no backslash lets the line before go
on, such a line may stand between any two others: its own tokens are added, and the declaration that
is found is the same.
-/
namespace SymbolExport

open SymbolExport.Text

/-- Spacing, a comment, and the end of the line. -/
def IsCommentLine (line : List Char) : Prop :=
  ∃ spacing text ending, line = spacing ++ '#' :: text ++ ending ∧ (∀ c ∈ spacing, isSpacing c) ∧
    (∀ c ∈ text, c ≠ '\r' ∧ c ≠ '\n') ∧ (ending = ['\n'] ∨ ending = ['\r', '\n'])

/-- A text of whole lines behind which no string is open and which no backslash lets go on. -/
structure EndsLine (front : List Char) : Prop where
  lineFeed : front = [] ∨ front.getLast? = some '\n'
  state : ∃ s tokens, Scanner.start.takeLines (lines front) = .ok (s, tokens) ∧
    s.openString? = none ∧ s.continued = false

/-- Behind every keyword stands a name. -/
def NamesFollowKeywords (tokens : List Token) : Prop :=
  ∀ (i : Nat) (t : Token), tokens[i]? = some t → t.isKeyword →
    ∃ next, tokens[i + 1]? = some next ∧ next.kind = .name

instance (tokens : List Token) : Decidable (NamesFollowKeywords tokens) :=
  decidable_of_iff
    (∀ i : Fin tokens.length, tokens[i].isKeyword → tokens[i.val + 1]?.any (·.kind = .name))
    (by simp [NamesFollowKeywords, Fin.forall_iff, List.getElem?_eq_some_iff, Option.any_eq_true])

variable {front line back source text rest : List Char} {tokens body extra tail : List Token}
  {s next : Scanner} {t : Token} {bases : List String} {bases? : Option (List String)}

/-! The line of a comment adds the tokens of the comment, and nothing else comes of it. -/

theorem lexeme_hash (rest : List Char) : lexeme ('#' :: rest) =
    .comment (('#' :: rest).takeWhile fun c => c ≠ '\r' ∧ c ≠ '\n').length := by
  rfl

theorem scanRest_spacing {spacing : List Char} (hs : ∀ c ∈ spacing, isSpacing c)
    (line column : Nat) (depth : Int) (rest : List Char) :
    ∃ next, scanRest line column depth (spacing ++ '#' :: rest) =
      scanRest line next depth ('#' :: rest) := by
  induction spacing generalizing column with
  | nil => exact ⟨column, rfl⟩
  | cons c more ih =>
    obtain ⟨hc, hmore⟩ := List.forall_mem_cons.mp hs
    obtain ⟨next, hnext⟩ := ih hmore (column + 1)
    refine ⟨next, ?_⟩
    have hahead : (more ++ '#' :: rest).dropWhile isSpacing = '#' :: rest := by
      rw [List.dropWhile_append_of_pos hmore]
      rfl
    rw [List.cons_append, scanRest]
    simp [hc, hahead, lexeme_hash, hnext]

theorem indentation_spacing {spacing : List Char} (hs : ∀ c ∈ spacing, isSpacing c)
    (column : Nat) (rest : List Char) :
    (indentation column (spacing ++ '#' :: rest)).2 = '#' :: rest := by
  induction spacing generalizing column with
  | nil => rfl
  | cons c more ih =>
    obtain ⟨hc, hmore⟩ := List.forall_mem_cons.mp hs
    simp only [isSpacing, Bool.or_eq_true, decide_eq_true_eq] at hc
    rcases hc with (rfl | rfl) | rfl <;> exact ih hmore _

theorem scanRest_ending {ending : List Char} (he : ending = ['\n'] ∨ ending = ['\r', '\n'])
    (line column : Nat) (depth : Int) : scanRest line column depth ending =
      ⟨[⟨if depth > 0 then .lineBreak else .newline, ending⟩], depth, .plain⟩ := by
  rcases he with rfl | rfl
  · have hlex : lexeme ['\n'] = .lineEnd 1 := rfl
    simp [scanRest, isSpacing, hlex, LineScan.cons]
  · have hlex : lexeme ['\r', '\n'] = .lineEnd 2 := rfl
    simp [scanRest, isSpacing, hlex, LineScan.cons]

/-- A comment reaches up to the end of its line. -/
theorem scanRest_hash {ending : List Char} (ht : ∀ c ∈ text, c ≠ '\r' ∧ c ≠ '\n')
    (he : ∀ c, ending.head? = some c → c = '\r' ∨ c = '\n') (line column : Nat) (depth : Int) :
    scanRest line column depth ('#' :: text ++ ending) =
      (scanRest line (column + (text.length + 1)) depth ending).cons ⟨.comment, '#' :: text⟩ := by
  have htake : ('#' :: text ++ ending).takeWhile (fun c => c ≠ '\r' ∧ c ≠ '\n') = '#' :: text := by
    rw [List.takeWhile_append_of_pos (by simpa using ht)]
    cases ending with
    | nil => simp
    | cons c rest => rcases he c rfl with rfl | rfl <;> simp
  have hlex : lexeme ('#' :: text ++ ending) = .comment (text.length + 1) := by
    rw [List.cons_append, lexeme_hash, ← List.cons_append, htake, List.length_cons]
  have hspacing : isSpacing '#' = false := by decide
  rw [List.cons_append] at hlex ⊢
  rw [scanRest]
  simp [hspacing, hlex]

theorem scanRest_comment {ending : List Char} (ht : ∀ c ∈ text, c ≠ '\r' ∧ c ≠ '\n')
    (he : ending = ['\n'] ∨ ending = ['\r', '\n']) (line column : Nat) (depth : Int) :
    scanRest line column depth ('#' :: text ++ ending) =
      ⟨[⟨.comment, '#' :: text⟩, ⟨if depth > 0 then .lineBreak else .newline, ending⟩], depth,
        .plain⟩ := by
  rw [scanRest_hash ht (by rcases he with rfl | rfl <;> simp), scanRest_ending he]
  rfl

theorem lacksLineEnd_of_lineFeed (h : line.getLast? = some '\n') : lacksLineEnd line = false := by
  simp [lacksLineEnd, h]

theorem getLast?_ending {ending : List Char} (he : ending = ['\n'] ∨ ending = ['\r', '\n'])
    (text : List Char) : (text ++ ending).getLast? = some '\n' := by
  rcases he with rfl | rfl <;> simp

theorem IsCommentLine.getLast? (h : IsCommentLine line) : line.getLast? = some '\n' := by
  obtain ⟨spacing, text, ending, rfl, -, -, hending⟩ := h
  exact getLast?_ending hending _

namespace Scanner

/-- A comment leaves the scanner as it was, one line further down. -/
theorem takeLine_comment (hline : IsCommentLine line) (ho : s.openString? = none)
    (hc : s.continued = false) (he : s.endsOpen = false) :
    ∃ tokens, s.takeLine line = .ok (s.later, tokens) ∧ ∀ t ∈ tokens, t.IsPlain := by
  have hlacks : lacksLineEnd line = false := lacksLineEnd_of_lineFeed hline.getLast?
  obtain ⟨spacing, text, ending, rfl, hspacing, htext, hending⟩ := hline
  obtain ⟨n, depth, continued, indents, openString?, needsMark, endsOpen⟩ := s
  dsimp only at ho hc he
  subst ho hc he
  rw [List.append_assoc, List.cons_append] at hlacks ⊢
  by_cases hs : depth = 0
  · have hrest := indentation_spacing hspacing 0 (text ++ ending)
    rw [takeLine_of_statement rfl hs rfl]
    unfold takeStatement
    dsimp only
    rw [hrest, hlacks]
    exact ⟨_, rfl, List.forall_mem_cons.mpr ⟨isPlain_comment _ _,
      List.forall_mem_singleton.mpr (isPlain_lineBreak _ _ (by decide))⟩⟩
  · obtain ⟨next, hnext⟩ := scanRest_spacing hspacing (n + 1) 0 depth (text ++ ending)
    rw [takeLine_of_not_statement rfl (by simp [hs]), hlacks]
    unfold takeRest
    dsimp only
    rw [hnext, ← List.cons_append, scanRest_comment htext hending]
    refine ⟨_, rfl, List.forall_mem_cons.mpr ⟨isPlain_of_head? (by decide) (by simp),
      List.forall_mem_singleton.mpr (isPlain_of_head? ?_ ?_)⟩⟩
    · split <;> decide
    · rcases hending with rfl | rfl <;> simp

end Scanner

/-! Where nothing is left open behind a line, the last token of the line is no name. -/

/-- There is a last token, and it is no name. -/
def EndsWithoutName (tokens : List Token) : Prop :=
  ∃ t, tokens.getLast? = some t ∧ t.kind ≠ .name

theorem EndsWithoutName.append (h : EndsWithoutName tail) (body : List Token) :
    EndsWithoutName (body ++ tail) := by
  obtain ⟨t, ht, hkind⟩ := h
  exact ⟨t, by simp [List.getLast?_append, ht], hkind⟩

theorem endsWithoutName_singleton {kind : TokenKind} (h : kind ≠ .name) (text : List Char) :
    EndsWithoutName [⟨kind, text⟩] :=
  ⟨_, rfl, h⟩

theorem endsWithoutName_scanRest {cs : List Char} (hcs : cs.getLast? = some '\n')
    (line column : Nat) (depth : Int) (h : (scanRest line column depth cs).ending = .plain) :
    EndsWithoutName (scanRest line column depth cs).tokens := by
  induction hn : cs.length using Nat.strong_induction_on generalizing column depth cs with
  | _ n ih =>
  subst hn
  cases cs with
  | nil => cases hcs
  | cons c more =>
    cases scansBy column depth c more with
    | spacing hc hscan =>
      rw [hscan] at h ⊢
      have hmore : more ≠ [] := by
        rintro rfl
        obtain rfl : c = '\n' := by simpa using hcs
        exact absurd hc (by decide)
      rw [List.getLast?_cons_of_ne_nil hmore] at hcs
      exact ih more.length (by simp) hcs _ _ h rfl
    | token kind n next after hkind hscan =>
      rw [hscan] at h ⊢
      by_cases hrest : more.drop (n - 1) = []
      · -- a name that reaches up to the end would hold the line feed
        rw [hrest]
        simp only [scanRest, LineScan.cons]
        refine endsWithoutName_singleton (fun hname => ?_) _
        have hword := hkind.resolve_left (not_not_intro hname)
        have hpos := pos_of_stringOrWord (stringOrWord_of_lexeme hword)
        have hlength := List.drop_eq_nil_iff.mp hrest
        have hall : (c :: more).take n = c :: more :=
          List.take_of_length_le (by rw [List.length_cons]; omega)
        have hfeed := isWordChar_of_lexeme hword '\n' (by
          rw [hall]
          exact List.mem_of_getLast? hcs)
        have hno : isWordChar '\n' = false := by decide +kernel
        rw [hno] at hfeed
        cases hfeed
      · have hmore : more ≠ [] := by
          rintro rfl
          simp at hrest
        rw [List.getLast?_cons_of_ne_nil hmore] at hcs
        have hlast : (more.drop (n - 1)).getLast? = some '\n' := by
          rw [List.getLast?_drop, if_neg (by simpa using hrest), hcs]
        exact (ih _ (by simp) hlast _ _ h rfl).append [_]
    | continuation hscan =>
      rw [hscan] at h
      cases h
    | openString quote isTriple hscan =>
      rw [hscan] at h
      cases h

theorem getLast?_indentation (h : line.getLast? = some '\n') (column : Nat) :
    (indentation column line).2.getLast? = some '\n' := by
  have htail {c : Char} {rest : List Char} (hc : c ≠ '\n')
      (h : (c :: rest).getLast? = some '\n') : rest.getLast? = some '\n' := by
    cases rest with
    | nil => exact absurd (by simpa using h) hc
    | cons d rest => rwa [List.getLast?_cons_cons] at h
  fun_induction indentation column line with
  | case1 column rest ih | case2 column rest ih | case3 column rest ih =>
    exact ih (htail (by decide) h)
  | case4 => exact h

namespace Scanner

/-- What a whole line leaves behind it. -/
structure EndsWith (next : Scanner) (tokens : List Token) : Prop where
  endsOpen : next.endsOpen = false
  last : next.openString? = none → next.continued = false → EndsWithoutName tokens

theorem EndsWith.append (h : next.EndsWith tail) (body : List Token) :
    next.EndsWith (body ++ tail) :=
  ⟨h.endsOpen, fun ho hc => (h.last ho hc).append body⟩

theorem endsWith_takeRest {before : List Token} {column : Nat} (hs : s.endsOpen = false)
    (hr : rest.getLast? = some '\n') (h : s.takeRest before column rest = (next, tokens)) :
    next.EndsWith tokens := by
  have hscan := endsWithoutName_scanRest hr s.line column s.depth
  unfold takeRest at h
  dsimp only at h
  cases he : (scanRest s.line column s.depth rest).ending with
  | plain =>
    rw [he] at h
    cases h
    exact ⟨hs, fun _ _ => (hscan he).append before⟩
  | continued =>
    rw [he] at h
    cases h
    exact ⟨hs, fun _ hc => absurd hc (by simp)⟩
  | inString o =>
    rw [he] at h
    cases h
    exact ⟨hs, fun ho _ => absurd ho (by simp)⟩

theorem endsWith_takeInString {o : OpenString} (hl : line.getLast? = some '\n')
    (h : s.takeInString o line = (next, tokens)) : next.EndsWith tokens := by
  have hlacks : lacksLineEnd line = false := lacksLineEnd_of_lineFeed hl
  unfold takeInString at h
  dsimp only at h
  split at h
  · rename_i n _
    by_cases hrest : line.drop n = []
    · rw [hrest] at h
      simp only [takeRest, scanRest] at h
      cases h
      exact ⟨hlacks, fun _ _ => endsWithoutName_singleton (by decide) _⟩
    · have hlast : (line.drop n).getLast? = some '\n' := by
        rw [List.getLast?_drop, if_neg (by simpa using hrest), hl]
      exact endsWith_takeRest hlacks hlast h
  · split at h
    · cases h
      exact ⟨hlacks, fun _ _ => endsWithoutName_singleton (by decide) _⟩
    · cases h
      exact ⟨hlacks, fun ho _ => absurd ho (by simp)⟩

theorem endsWith_takeStatement (hl : line.getLast? = some '\n')
    (h : s.takeStatement line = .ok (next, tokens)) : next.EndsWith tokens := by
  have hlacks : lacksLineEnd line = false := lacksLineEnd_of_lineFeed hl
  have hlast := getLast?_indentation hl 0
  unfold takeStatement at h
  dsimp only at h
  split at h
  · rename_i hnil
    rw [hnil] at hlast
    cases hlast
  · cases h
    exact ⟨hlacks, fun _ _ => (endsWithoutName_singleton (by decide) _).append [_]⟩
  · cases h
    exact ⟨hlacks, fun _ _ => endsWithoutName_singleton (by decide) _⟩
  · cases h
    exact ⟨hlacks, fun _ _ => endsWithoutName_singleton (by decide) _⟩
  · split at h
    · exact endsWith_takeRest hlacks hlast (Except.ok.inj h)
    · split at h
      · exact endsWith_takeRest hlacks hlast (Except.ok.inj h)
      · cases h

theorem endsWith_takeLine (hl : line.getLast? = some '\n')
    (h : s.takeLine line = .ok (next, tokens)) : next.EndsWith tokens := by
  cases ho : s.openString? with
  | some o =>
    rw [takeLine_of_openString ho] at h
    exact endsWith_takeInString hl (Except.ok.inj h)
  | none =>
    by_cases hs : s.depth = 0 ∧ s.continued = false
    · rw [takeLine_of_statement ho hs.1 hs.2] at h
      exact endsWith_takeStatement hl h
    · rw [takeLine_of_not_statement ho hs] at h
      exact endsWith_takeRest (lacksLineEnd_of_lineFeed hl) hl (Except.ok.inj h)

theorem endsWith_takeLines {lines : List (List Char)} (hne : lines ≠ [])
    (hl : ∀ line ∈ lines, line.getLast? = some '\n')
    (h : s.takeLines lines = .ok (next, tokens)) : next.EndsWith tokens := by
  induction lines generalizing s tokens with
  | nil => exact absurd rfl hne
  | cons line rest ih =>
    obtain ⟨middle, front, back, hline, hrest, rfl⟩ := takeLines_cons_eq_ok_iff.mp h
    obtain ⟨hfirst, hothers⟩ := List.forall_mem_cons.mp hl
    by_cases hr : rest = []
    · subst hr
      cases hrest
      rw [List.append_nil]
      exact endsWith_takeLine hfirst hline
    · exact (ih hr hothers hrest).append front

end Scanner

theorem getLast?_of_mem_lines (h : source = [] ∨ source.getLast? = some '\n') :
    ∀ line ∈ lines source, line.getLast? = some '\n' := by
  induction source with
  | nil => simp [lines]
  | cons c rest ih =>
    have hlast : (c :: rest).getLast? = some '\n' := h.resolve_left (List.cons_ne_nil c rest)
    by_cases hr : rest = []
    · subst hr
      obtain rfl : c = '\n' := by simpa using hlast
      simp [lines]
    · rw [List.getLast?_cons_of_ne_nil hr] at hlast
      have hrest := ih (Or.inr hlast)
      by_cases hc : c = '\n'
      · subst hc
        simpa [lines] using hrest
      · unfold lines
        rw [if_neg hc]
        split
        · rename_i hlines
          rw [← flatten_lines rest, hlines] at hr
          exact absurd rfl hr
        · rename_i line others hlines
          obtain ⟨hline, hothers⟩ := List.forall_mem_cons.mp (hlines ▸ hrest)
          refine List.forall_mem_cons.mpr ⟨?_, hothers⟩
          simp [List.getLast?_cons, hline]

/-! Tokens that are neither names nor brackets may stand anywhere but behind a name. -/

theorem listsBase_cons_of_isPlain (h : t.IsPlain) (depth : Int) (rest : List Token) :
    listsBase bases depth (t :: rest) = listsBase bases depth rest := by
  have hopen : t.opensBracket = false := by
    rw [← Bool.not_eq_true, opensBracket_iff, h.depthChange]
    decide
  have hclose : t.closesBracket = false := by
    rw [← Bool.not_eq_true, closesBracket_iff, h.depthChange]
    decide
  have hbase : namesBase bases t = false := by simp [namesBase, h.name]
  simp [listsBase, hopen, hclose, hbase]

theorem listsBase_append_of_isPlain (hp : ∀ t ∈ extra, t.IsPlain) (depth : Int) :
    listsBase bases depth (extra ++ tail) = listsBase bases depth tail := by
  induction extra with
  | nil => rfl
  | cons t rest ih =>
    obtain ⟨ht, hrest⟩ := List.forall_mem_cons.mp hp
    rw [List.cons_append, listsBase_cons_of_isPlain ht, ih hrest]

theorem listsBase_insert (hp : ∀ t ∈ extra, t.IsPlain) (depth : Int) :
    listsBase bases depth (body ++ (extra ++ tail)) = listsBase bases depth (body ++ tail) := by
  induction body generalizing depth with
  | nil => exact listsBase_append_of_isPlain hp depth
  | cons t rest ih => simp only [List.cons_append, listsBase, ih]

theorem declaresBase_insert (hbody : body ≠ []) (hp : ∀ t ∈ extra, t.IsPlain) :
    declaresBase bases (body ++ (extra ++ tail)) = declaresBase bases (body ++ tail) := by
  obtain ⟨t, rest, rfl⟩ := List.exists_cons_of_ne_nil hbody
  simp only [List.cons_append, declaresBase]
  rw [← List.cons_append, listsBase_insert hp, List.cons_append]

theorem declaredName?_cons_of_not_keyword (ht : t.isKeyword = false) (rest : List Token) :
    declaredName? bases? (t :: rest) = declaredName? bases? rest := by
  simp [declaredName?.eq_def bases? (t :: rest), ht]

theorem declaredName?_cons_of_keyword {next : Token} (ht : t.isKeyword) (hn : next.kind = .name)
    (rest : List Token) : declaredName? bases? (t :: next :: rest) =
      if bases?.all fun bases => declaresBase bases rest then some next.text
      else declaredName? bases? (next :: rest) := by
  simp [declaredName?.eq_def bases? (t :: next :: rest), ht, hn]

theorem declaredName?_append_of_isPlain (hp : ∀ t ∈ extra, t.IsPlain) :
    declaredName? bases? (extra ++ tail) = declaredName? bases? tail := by
  induction extra with
  | nil => rfl
  | cons t rest ih =>
    obtain ⟨ht, hrest⟩ := List.forall_mem_cons.mp hp
    have hkeyword : t.isKeyword = false := by simp [Token.isKeyword, ht.name]
    rw [List.cons_append, declaredName?_cons_of_not_keyword hkeyword, ih hrest]

theorem NamesFollowKeywords.of_cons (h : NamesFollowKeywords (t :: tokens)) :
    NamesFollowKeywords tokens :=
  fun i u hu => h (i + 1) u (by simpa using hu)

theorem NamesFollowKeywords.head (h : NamesFollowKeywords (t :: tokens)) (ht : t.isKeyword) :
    ∃ next rest, tokens = next :: rest ∧ next.kind = .name := by
  obtain ⟨next, hnext, hkind⟩ := h 0 t rfl ht
  cases tokens with
  | nil => cases hnext
  | cons u rest => exact ⟨u, rest, rfl, by simp_all⟩

theorem EndsWithoutName.cons_iff : EndsWithoutName (t :: body) ↔
    body = [] ∧ t.kind ≠ .name ∨ EndsWithoutName body := by
  cases body <;> simp [EndsWithoutName, List.getLast?_cons_cons]

/-- What is declared first does not depend on tokens that are neither names nor brackets, unless
they part a keyword from its name or a name from its parenthesis. -/
theorem declaredName?_insert (hbody : body = [] ∨ EndsWithoutName body)
    (hp : ∀ t ∈ extra, t.IsPlain) (hk : NamesFollowKeywords (body ++ tail)) :
    declaredName? bases? (body ++ (extra ++ tail)) = declaredName? bases? (body ++ tail) := by
  induction body with
  | nil => exact declaredName?_append_of_isPlain hp
  | cons t rest ih =>
    have hlast := EndsWithoutName.cons_iff.mp (hbody.resolve_left (List.cons_ne_nil t rest))
    have hrest := ih (hlast.imp_left And.left) hk.of_cons
    by_cases ht : t.isKeyword
    · -- the keyword and its name are names, so at least one more token stands before the new ones
      have hname : t.kind = .name := by
        simp only [Token.isKeyword, Bool.and_eq_true, decide_eq_true_eq] at ht
        exact ht.1
      have hlater := hlast.resolve_left fun hend => hend.2 hname
      obtain ⟨next, others, hnext, hkind⟩ := hk.head ht
      cases rest with
      | nil => simp [EndsWithoutName] at hlater
      | cons u more =>
        obtain rfl : u = next := (List.cons.inj hnext).1
        have hmore : more ≠ [] := by
          rintro rfl
          simp [EndsWithoutName, hkind] at hlater
        simp only [List.cons_append] at hrest ⊢
        rw [declaredName?_cons_of_keyword ht hkind, declaredName?_cons_of_keyword ht hkind, hrest]
        simp only [declaresBase_insert hmore hp]
    · rw [Bool.not_eq_true] at ht
      rw [List.cons_append, List.cons_append, declaredName?_cons_of_not_keyword ht,
        declaredName?_cons_of_not_keyword ht, hrest]

theorem lines_of_notMem {cs : List Char} (h : '\n' ∉ cs) :
    lines (cs ++ ['\n']) = [cs ++ ['\n']] := by
  induction cs with
  | nil => simp [lines]
  | cons c rest ih =>
    obtain ⟨hc, hrest⟩ := not_or.mp (mt List.mem_cons.mpr h)
    simp [lines, Ne.symm hc, ih hrest]

theorem IsCommentLine.lines_eq (h : IsCommentLine line) : lines line = [line] := by
  obtain ⟨spacing, text, ending, rfl, hspacing, htext, hending⟩ := h
  have hfeed : '\n' ∉ spacing ++ '#' :: text := by
    intro hm
    rcases List.mem_append.mp hm with hm | hm
    · exact absurd (hspacing _ hm) (by decide)
    · rcases List.mem_cons.mp hm with hm | hm
      · exact absurd hm (by decide)
      · exact (htext _ hm).2 rfl
  rcases hending with rfl | rfl
  · exact lines_of_notMem hfeed
  · have hreturn : '\n' ∉ spacing ++ '#' :: text ++ ['\r'] := by simpa using hfeed
    simpa using lines_of_notMem hreturn

/-- The tokens of a comment come between those of the lines before and behind. -/
theorem exists_tokenize_insert (hf : EndsLine front) (hl : IsCommentLine line)
    (h : tokenize (front ++ back) = .ok tokens) :
    ∃ body extra tail, tokens = body ++ tail ∧ (body = [] ∨ EndsWithoutName body) ∧
      (∀ t ∈ extra, t.IsPlain) ∧
      tokenize (front ++ line ++ back) = .ok (body ++ (extra ++ tail)) := by
  obtain ⟨hfeed, s, body, hfront, hopen, hcontinued⟩ := hf
  obtain ⟨last, all, ending, hlines, hfinish, rfl⟩ := tokenize_eq_ok_iff.mp h
  rw [lines_append hfeed, Scanner.takeLines_append_eq_ok_iff] at hlines
  obtain ⟨middle, body', tail, hbody, htail, rfl⟩ := hlines
  obtain ⟨rfl, rfl⟩ : s = middle ∧ body = body' := by simpa [hfront] using hbody
  have hbehind : s.endsOpen = false ∧ (body = [] ∨ EndsWithoutName body) := by
    by_cases hnil : lines front = []
    · rw [hnil] at hfront
      cases hfront
      exact ⟨rfl, Or.inl rfl⟩
    · have hends := Scanner.endsWith_takeLines hnil (getLast?_of_mem_lines hfeed) hfront
      exact ⟨hends.endsOpen, Or.inr (hends.last hopen hcontinued)⟩
  obtain ⟨extra, hcomment, hplain⟩ := Scanner.takeLine_comment hl hopen hcontinued hbehind.1
  refine ⟨body, extra, tail ++ ending, List.append_assoc _ _ _, hbehind.2, hplain, ?_⟩
  refine tokenize_eq_ok_iff.mpr ⟨last.later, body ++ (extra ++ tail), ending, ?_,
    Scanner.finish_later hfinish, by simp⟩
  rw [List.append_assoc, lines_append hfeed, lines_append (Or.inr hl.getLast?), hl.lines_eq,
    Scanner.takeLines_append_eq_ok_iff]
  exact ⟨s, body, extra ++ tail, hfront, Scanner.takeLines_cons_eq_ok_iff.mpr
    ⟨s.later, extra, tail, hcomment, Scanner.takeLines_later htail, rfl⟩, rfl⟩

/-- A line that holds a comment alone may stand between any two lines: there still are tokens, and
the full name that is found among them is the same. -/
theorem World.extractName_insert_comment (w : World) (hf : EndsLine front)
    (hl : IsCommentLine line) (h : tokenize (front ++ back) = .ok tokens)
    (hk : NamesFollowKeywords tokens) :
    (∃ more, tokenize (front ++ line ++ back) = .ok more) ∧
      ∀ (moduleName? : Option String) (bases? : Option (List String)),
        w.extractName (front ++ line ++ back) moduleName? bases? =
          w.extractName (front ++ back) moduleName? bases? := by
  obtain ⟨body, extra, tail, rfl, hbody, hplain, hmore⟩ := exists_tokenize_insert hf hl h
  refine ⟨⟨_, hmore⟩, fun moduleName? bases? => ?_⟩
  simp only [extractName, h, hmore, qualifiedName?, declaredName?_insert hbody hplain hk]

def levelFront : List Char :=
  "class Level(\n".toList

def levelComment : List Char :=
  "\t# class Size(Enum): '\"( \\\n".toList

def levelBack : List Char :=
  "    Enum):\n    pass\n".toList

def levelTokens : List Token :=
  [⟨.name, "class".toList⟩, ⟨.name, "Level".toList⟩, ⟨.operator, ['(']⟩, ⟨.lineBreak, ['\n']⟩,
    ⟨.name, "Enum".toList⟩, ⟨.operator, [')']⟩, ⟨.operator, [':']⟩, ⟨.newline, ['\n']⟩,
    ⟨.indent, "    ".toList⟩, ⟨.name, "pass".toList⟩, ⟨.newline, ['\n']⟩, ⟨.dedent, []⟩,
    ⟨.endMarker, []⟩]

theorem endsLine_levelFront : EndsLine levelFront :=
  ⟨Or.inr (by decide), ⟨1, 1, false, [0], none, false, false⟩, levelTokens.take 4,
    by decide +kernel, rfl, rfl⟩

theorem isCommentLine_levelComment : IsCommentLine levelComment :=
  ⟨['\t'], " class Size(Enum): '\"( \\".toList, ['\n'], by decide, by simp [isSpacing],
    by simp, Or.inl rfl⟩

theorem tokenize_level : tokenize (levelFront ++ levelBack) = .ok levelTokens := by
  decide +kernel

theorem World.extractName_insert_comment_level : EndsLine levelFront ∧
    IsCommentLine levelComment ∧ tokenize (levelFront ++ levelBack) = .ok levelTokens ∧
    NamesFollowKeywords levelTokens ∧
    (∃ more, tokenize (levelFront ++ levelComment ++ levelBack) = .ok more) ∧
    (colorWorld.extractName (levelFront ++ levelComment ++ levelBack) (some "sizes")
      (some ["Enum"])).1 = some "sizes.Level" := by
  have hkeywords : NamesFollowKeywords levelTokens := by decide
  obtain ⟨hmore, hname⟩ := colorWorld.extractName_insert_comment endsLine_levelFront
    isCommentLine_levelComment tokenize_level hkeywords
  refine ⟨endsLine_levelFront, isCommentLine_levelComment, tokenize_level, hkeywords, hmore, ?_⟩
  rw [hname, World.extractName, tokenize_level]
  decide

end SymbolExport
