import SymbolExport.Proofs.CommentLine
import SymbolExport.Proofs.Encoding
import SymbolExport.Proofs.ModuleNaming
import SymbolExport.Proofs.OtherColumn
import SymbolExport.Proofs.Overwriting

/-!
Byte order marks. A mark at the head of a source is a token that nothing knows. It makes its line one
that is read as code, also where that is blank or a comment, and moves it by a column. Neither is
seen by the lines behind it, and no name comes or goes.
-/
namespace SymbolExport

open SymbolExport.Text

def byteOrderMark : Char :=
  '\ufeff'

/-- The mark as it stands at the head of a file. -/
def markBytes : List UInt8 :=
  [0xef, 0xbb, 0xbf]

/-- At most one line feed, at the end. -/
def IsOneLine (line : List Char) : Prop :=
  ∃ body ending, line = body ++ ending ∧ '\n' ∉ body ∧ (ending = [] ∨ ending = ['\n'])

/-- A line without code or indentation. -/
inductive IsQuiet : List Char → Prop
  | blank {ending : List Char} (he : ending = [] ∨ ending = ['\n']) : IsQuiet ending
  | comment {text ending : List Char} (ht : ∀ c ∈ text, c ≠ '\r' ∧ c ≠ '\n')
      (he : ending = [] ∨ ending = ['\n']) : IsQuiet ('#' :: text ++ ending)

/-- Nothing is open in the first line. -/
def Scanner.inFirstLine (endsOpen : Bool) : Scanner :=
  ⟨1, 0, false, [0], none, false, endsOpen⟩

/-- The same tokens between others that are neither names nor brackets. -/
def SameBetween (tokens others : List Token) : Prop :=
  ∃ front front' body back back', tokens = front ++ body ++ back ∧
    others = front' ++ body ++ back' ∧ (∀ t ∈ front ++ front', t.IsPlain) ∧
    ∀ t ∈ back ++ back', t.IsPlain

variable {cs line source text : List Char} {tokens others body back : List Token}
  {bases : List String} {bases? : Option (List String)} {c : Char}

/-! The mark is a token by itself. -/

theorem lexeme_mark (cs : List Char) : lexeme (byteOrderMark :: cs) = .unknown := by
  have hstart : stringStart? (byteOrderMark :: cs) = none :=
    stringStart?_of_head (by decide) (by decide) cs
  have hnumber : numberLength (byteOrderMark :: cs) = 0 :=
    numberLength_of_head (by decide) (by decide) (by decide) cs
  have hoperator : operatorLength (byteOrderMark :: cs) = 0 :=
    operatorLength_of_head (by decide) (by decide) cs
  have hword : isWordChar byteOrderMark = false := by decide +kernel
  have hquote : tripleQuote? (byteOrderMark :: cs) = none := by simp [tripleQuote?, hstart]
  unfold lexeme
  split
  case h_6 => simp [hquote, stringOrWord, hstart, hnumber, hoperator, hword]
  all_goals
    rename_i h
    cases h

theorem scanRest_mark (line column : Nat) (depth : Int) (cs : List Char) :
    scanRest line column depth (byteOrderMark :: cs) =
      (scanRest line (column + 1) depth cs).cons ⟨.error, [byteOrderMark]⟩ := by
  have hspacing : isSpacing byteOrderMark = false := by decide
  rw [scanRest]
  simp [hspacing, lexeme_mark]

theorem isPlain_mark : (⟨.error, [byteOrderMark]⟩ : Token).IsPlain :=
  Scanner.isPlain_of_head? (by decide) (by decide)

/-! A line without code, once by itself and once as code. -/

theorem exists_scanRest_ending {ending : List Char} (he : ending = [] ∨ ending = ['\n'])
    (line column : Nat) : ∃ tokens, scanRest line column 0 ending = ⟨tokens, 0, .plain⟩ ∧
      ∀ t ∈ tokens, t.IsPlain := by
  rcases he with rfl | rfl
  · exact ⟨[], by rw [scanRest], by simp⟩
  · exact ⟨_, scanRest_ending (Or.inl rfl) line column 0,
      List.forall_mem_singleton.mpr (Scanner.isPlain_of_head? (by decide) (by decide))⟩

theorem IsQuiet.exists_scanRest (h : IsQuiet cs) (line column : Nat) :
    ∃ tokens, scanRest line column 0 cs = ⟨tokens, 0, .plain⟩ ∧ ∀ t ∈ tokens, t.IsPlain := by
  cases h with
  | blank he => exact exists_scanRest_ending he line column
  | @comment text ending ht he =>
    obtain ⟨tokens, hscan, hplain⟩ :=
      exists_scanRest_ending he line (column + (text.length + 1))
    refine ⟨⟨.comment, '#' :: text⟩ :: tokens, ?_, List.forall_mem_cons.mpr ⟨?_, hplain⟩⟩
    · rw [scanRest_hash ht (by rcases he with rfl | rfl <;> simp), hscan]
      rfl
    · exact Scanner.isPlain_of_head? (by decide) (by simp)

theorem exists_cons_of_not_quiet (h : ¬ IsQuiet line) (hr : '\r' ∉ line) (hl : IsOneLine line) :
    ∃ c rest, line = c :: rest ∧ c ≠ '#' ∧ c ≠ '\n' := by
  obtain ⟨body, ending, rfl, hbody, he⟩ := hl
  cases body with
  | nil => exact absurd (.blank he) h
  | cons c more =>
    rw [List.mem_cons, not_or] at hbody
    refine ⟨c, more ++ ending, rfl, ?_, Ne.symm hbody.1⟩
    rintro rfl
    refine h (.comment (fun c hc => ⟨?_, ?_⟩) he)
    · rintro rfl
      exact hr (by simp [hc])
    · rintro rfl
      exact hbody.2 hc

namespace Scanner

theorem indentation_of_head (hc : isSpacing c = false) (rest : List Char) :
    indentation 0 (c :: rest) = (0, c :: rest) := by
  have h1 : c ≠ ' ' := by rintro rfl; exact absurd hc (by decide)
  have h2 : c ≠ '\t' := by rintro rfl; exact absurd hc (by decide)
  have h3 : c ≠ '\x0c' := by rintro rfl; exact absurd hc (by decide)
  simp [indentation, h1, h2, h3]

theorem exists_takeLine_quiet (h : IsQuiet line) : ∃ endsOpen tokens,
    start.takeLine line = .ok (inFirstLine endsOpen, tokens) ∧ ∀ t ∈ tokens, t.IsPlain := by
  rw [takeLine_of_statement rfl rfl rfl]
  cases h with
  | blank he =>
    rcases he with rfl | rfl
    · exact ⟨false, [], rfl, by simp⟩
    · exact ⟨_, _, rfl, List.forall_mem_singleton.mpr (isPlain_of_head? (by decide) (by decide))⟩
  | comment ht he =>
    unfold takeStatement
    rw [List.cons_append, indentation_of_head (by decide)]
    exact ⟨_, _, rfl, List.forall_mem_cons.mpr ⟨isPlain_comment _ _,
      List.forall_mem_singleton.mpr (isPlain_lineBreak _ _ (by decide))⟩⟩

/-- A first line of code is read from its head. -/
theorem takeLine_of_code (hc : isSpacing c = false) (hh : c ≠ '#') (hr : c ≠ '\r') (hf : c ≠ '\n')
    (rest : List Char) : start.takeLine (c :: rest) =
      .ok ((inFirstLine (lacksLineEnd (c :: rest))).takeRest [] 0 (c :: rest)) := by
  rw [takeLine_of_statement rfl rfl rfl]
  unfold takeStatement
  rw [indentation_of_head hc]
  simp [hh, hr, hf, start, dedentTo?, inFirstLine]

theorem takeRest_mark (s : Scanner) (column : Nat) (rest : List Char) :
    s.takeRest [] column (byteOrderMark :: rest) =
      ((s.takeRest [] (column + 1) rest).1,
        ⟨.error, [byteOrderMark]⟩ :: (s.takeRest [] (column + 1) rest).2) := by
  unfold takeRest
  rw [scanRest_mark]
  rfl

theorem takeRest_quiet (h : IsQuiet line) (endsOpen : Bool) (column : Nat) : ∃ tokens,
    (inFirstLine endsOpen).takeRest [] column line = (inFirstLine endsOpen, tokens) ∧
      ∀ t ∈ tokens, t.IsPlain := by
  obtain ⟨tokens, hscan, hplain⟩ := h.exists_scanRest 1 column
  refine ⟨tokens, ?_, hplain⟩
  simp [takeRest, inFirstLine, hscan]

/-- In front of a line the mark is one more token, and the scanner is left as it would be. -/
theorem exists_takeLine_mark (hc : ∀ c, line.head? = some c → isSpacing c = false)
    (hr : '\r' ∉ line) (hl : IsOneLine line) : ∃ next next' front front' body,
    start.takeLine line = .ok (next, front ++ body) ∧
      start.takeLine (byteOrderMark :: line) = .ok (next', front' ++ body) ∧
      next.unplaced = next'.unplaced ∧ ∀ t ∈ front ++ front', t.IsPlain := by
  have hmark := takeLine_of_code (c := byteOrderMark) (by decide) (by decide) (by decide)
    (by decide) line
  rw [takeRest_mark] at hmark
  by_cases hq : IsQuiet line
  · -- read as code, a blank line or a comment gives other tokens, but no names or brackets
    obtain ⟨endsOpen, front, hline, hfront⟩ := exists_takeLine_quiet hq
    obtain ⟨more, hrest, hmore⟩ := takeRest_quiet hq (lacksLineEnd (byteOrderMark :: line)) 1
    rw [hrest] at hmark
    refine ⟨inFirstLine endsOpen, inFirstLine (lacksLineEnd (byteOrderMark :: line)), front,
      ⟨.error, [byteOrderMark]⟩ :: more, [], by simpa using hline, by simpa using hmark, rfl,
      List.forall_mem_append.mpr ⟨hfront, List.forall_mem_cons.mpr ⟨isPlain_mark, hmore⟩⟩⟩
  · -- code is read as code in both, one column apart
    obtain ⟨c, rest, rfl, hhash, hfeed⟩ := exists_cons_of_not_quiet hq hr hl
    have hreturn : c ≠ '\r' := by
      rintro rfl
      exact hr List.mem_cons_self
    have hline := takeLine_of_code (hc c rfl) hhash hreturn hfeed rest
    have hsame : (inFirstLine (lacksLineEnd (c :: rest))).unplaced =
      (inFirstLine (lacksLineEnd (byteOrderMark :: c :: rest))).unplaced := rfl
    obtain ⟨hnext, htokens⟩ := takeRest_unplaced hsame [] 0 1 (c :: rest)
    rw [← htokens] at hmark
    exact ⟨_, _, [], [⟨.error, [byteOrderMark]⟩], _, hline, hmark, hnext,
      by simpa using isPlain_mark⟩

end Scanner

/-! The tokens behind the first line, and what is declared. -/

theorem isOneLine_of_mem_lines (h : line ∈ lines source) : IsOneLine line := by
  induction source generalizing line with
  | nil => simp [lines] at h
  | cons c rest ih =>
    unfold lines at h
    split at h
    · rename_i hc
      rcases List.mem_cons.mp h with rfl | h
      · exact ⟨[], ['\n'], by simp [hc], by simp, Or.inr rfl⟩
      · exact ih h
    · rename_i hc
      split at h
      · obtain rfl := List.mem_singleton.mp h
        exact ⟨[c], [], rfl, by simpa [eq_comm] using hc, Or.inl rfl⟩
      · rename_i first more hlines
        rcases List.mem_cons.mp h with rfl | h
        · obtain ⟨body, ending, rfl, hbody, he⟩ := ih (hlines ▸ List.mem_cons_self)
          exact ⟨c :: body, ending, rfl, by simp [hbody, Ne.symm hc], he⟩
        · exact ih (hlines ▸ List.mem_cons_of_mem _ h)

theorem lines_mark (source : List Char) : lines (byteOrderMark :: source) =
    (byteOrderMark :: (lines source).headD []) :: (lines source).tail := by
  have hfeed : byteOrderMark ≠ '\n' := by decide
  cases h : lines source <;> simp [lines, hfeed, h]

theorem declaresBase_of_isPlain (hp : ∀ t ∈ back, t.IsPlain) : declaresBase bases back = false := by
  cases back with
  | nil => rfl
  | cons t rest =>
    have hopen : t.text ≠ ['('] := fun h => (hp t List.mem_cons_self).head (by simp [h])
    simp [declaresBase, hopen]

theorem declaresBase_append_of_isPlain (hp : ∀ t ∈ back, t.IsPlain) :
    declaresBase bases (body ++ back) = declaresBase bases body := by
  by_cases hbody : body = []
  · subst hbody
    exact declaresBase_of_isPlain hp
  · rw [← List.append_nil back, declaresBase_insert hbody hp, List.append_nil]

/-- No declaration stands in what is neither a name nor a bracket, and none needs it. -/
theorem declaredName?_of_isPlain_behind (hp : ∀ t ∈ back, t.IsPlain) :
    declaredName? bases? (body ++ back) = declaredName? bases? body := by
  induction body with
  | nil => rw [List.nil_append, ← List.append_nil back, declaredName?_append_of_isPlain hp]
  | cons t rest ih =>
    have htail (bases : List String) :
        declaresBase bases (rest ++ back).tail = declaresBase bases rest.tail := by
      cases rest with
      | nil => exact declaresBase_of_isPlain fun t ht => hp t (List.mem_of_mem_tail ht)
      | cons u more => exact declaresBase_append_of_isPlain hp
    rw [List.cons_append, declaredName?.eq_def bases? (t :: (rest ++ back)),
      declaredName?.eq_def bases? (t :: rest)]
    simp only [htail, ih]
    cases rest with
    | cons u more => rfl
    | nil =>
      cases back with
      | nil => rfl
      | cons u more => simp [(hp u List.mem_cons_self).name]

theorem SameBetween.declaredName?_eq (h : SameBetween tokens others) :
    declaredName? bases? others = declaredName? bases? tokens := by
  obtain ⟨front, front', body, back, back', rfl, rfl, hfront, hback⟩ := h
  obtain ⟨hfront, hfront'⟩ := List.forall_mem_append.mp hfront
  obtain ⟨hback, hback'⟩ := List.forall_mem_append.mp hback
  simp only [List.append_assoc, declaredName?_append_of_isPlain hfront,
    declaredName?_append_of_isPlain hfront', declaredName?_of_isPlain_behind hback,
    declaredName?_of_isPlain_behind hback']

theorem tokenize_eq {next : Scanner} {front : List Token} {more : List (List Char)}
    (hlines : lines source = line :: more)
    (hline : Scanner.start.takeLine line = .ok (next, front)) :
    tokenize source = (next.takeAll more).map (front ++ ·) := by
  unfold tokenize Scanner.takeAll
  rw [hlines, Scanner.takeLines, hline]
  simp only [bind, Except.bind, pure, Except.pure]
  cases next.takeLines more with
  | error fault => rfl
  | ok r =>
    dsimp only
    cases r.1.finish <;> simp [Except.map]

theorem tokenize_onlyMark : tokenize [byteOrderMark] =
    .ok [⟨.error, [byteOrderMark]⟩, ⟨.newline, []⟩, ⟨.endMarker, []⟩] := by
  decide +kernel

theorem sameBetween_onlyMark : SameBetween [⟨.endMarker, []⟩]
    [⟨.error, [byteOrderMark]⟩, ⟨.newline, []⟩, ⟨.endMarker, []⟩] := by
  refine ⟨[], [⟨.error, [byteOrderMark]⟩], [], [⟨.endMarker, []⟩],
    [⟨.newline, []⟩, ⟨.endMarker, []⟩], rfl, rfl, by simpa using isPlain_mark, ?_⟩
  simp only [List.singleton_append, List.forall_mem_cons]
  refine ⟨?_, ?_, ?_, by simp⟩ <;> exact Scanner.isPlain_of_head? (by decide) (by simp)

/-- With the mark there are tokens exactly if there are some without it, and the same ones but for
some at both ends. -/
theorem tokenize_mark (hc : ∀ c, source.head? = some c → isSpacing c = false) (hr : '\r' ∉ source) :
    (∃ tokens others, tokenize source = .ok tokens ∧
      tokenize (byteOrderMark :: source) = .ok others ∧ SameBetween tokens others) ∨
    ∃ fault fault', tokenize source = .error fault ∧
      tokenize (byteOrderMark :: source) = .error fault' := by
  have hsource := flatten_lines source
  cases hlines : lines source with
  | nil =>
    rw [hlines, List.flatten_nil] at hsource
    subst hsource
    exact Or.inl ⟨_, _, rfl, tokenize_onlyMark, sameBetween_onlyMark⟩
  | cons line more =>
    rw [hlines, List.flatten_cons] at hsource
    have hhead : ∀ c, line.head? = some c → isSpacing c = false := by
      intro c hline
      exact hc c (by rw [← hsource, List.head?_append, hline, Option.some_or])
    have hreturn : '\r' ∉ line := fun h => hr (hsource ▸ List.mem_append_left _ h)
    have hone : IsOneLine line := isOneLine_of_mem_lines (hlines ▸ List.mem_cons_self)
    obtain ⟨next, next', front, front', body, hline, hmark, hnext, hplain⟩ :=
      Scanner.exists_takeLine_mark hhead hreturn hone
    have hmarked : lines (byteOrderMark :: source) = (byteOrderMark :: line) :: more := by
      rw [lines_mark, hlines]
      rfl
    rw [tokenize_eq hlines hline, tokenize_eq hmarked hmark]
    obtain ⟨tail, back, back', hback, hback', hplain'⟩ | ⟨fault, fault', hf, hf'⟩ :=
      Scanner.takeAll_unplaced hnext more
    · rw [hback, hback']
      exact Or.inl ⟨_, _, rfl, rfl, front, front', body ++ tail, back, back', by simp, by simp,
        hplain, hplain'⟩
    · rw [hf, hf']
      exact Or.inr ⟨fault, fault', rfl, rfl⟩

/-! A mark in a file. -/

theorem unifyLineEnds_mark (text : List Char) :
    unifyLineEnds (byteOrderMark :: text) = byteOrderMark :: unifyLineEnds text := by
  rfl

theorem return_notMem_unifyLineEnds (text : List Char) : '\r' ∉ unifyLineEnds text := by
  fun_induction unifyLineEnds text with
  | case1 rest ih => simp [ih]
  | case2 rest h ih => simp [ih]
  | case3 c rest h1 h2 ih =>
    have hc : c ≠ '\r' := by simpa using h2
    simp [hc.symm, ih]
  | case4 => simp

theorem not_isSpacing_unifyLineEnds (hc : ∀ c, text.head? = some c → isSpacing c = false) :
    ∀ c, (unifyLineEnds text).head? = some c → isSpacing c = false := by
  fun_cases unifyLineEnds text with
  | case1 rest => simp; decide
  | case2 rest h => simp; decide
  | case3 c rest h1 h2 => simpa using hc
  | case4 => simp

theorem encodeUtf8_mark (text : List Char) :
    encodeUtf8 (byteOrderMark :: text) = markBytes ++ encodeUtf8 text := by
  rfl

namespace World

variable {w : World} {path : Path}

theorem fst_extractName_mark (w : World) (hc : ∀ c, source.head? = some c → isSpacing c = false)
    (hr : '\r' ∉ source) (moduleName? : Option String) (bases? : Option (List String)) :
    (w.extractName (byteOrderMark :: source) moduleName? bases?).1 =
      (w.extractName source moduleName? bases?).1 := by
  obtain ⟨tokens, others, htokens, hothers, hsame⟩ | ⟨fault, fault', hf, hf'⟩ := tokenize_mark hc hr
  · simp only [extractName, htokens, hothers, qualifiedName?, hsame.declaredName?_eq]
  · simp only [extractName, hf, hf']

/-- A byte order mark hides nothing. Written in front of a file whose text does not start with
spacing, it is read as a character of the text, and changes neither whether a class is found there
nor which one. -/
theorem resolveType_mark (importRoot : Path) (bases? : Option (List String))
    (hread : w.tree.read w.cwd path = .ok (encodeUtf8 text))
    (hc : ∀ c, text.head? = some c → isSpacing c = false) :
    ∃ marked, w.tree.write (fun _ => none) w.cwd path (markBytes ++ encodeUtf8 text) = .ok marked ∧
      marked.read w.cwd path = .ok (markBytes ++ encodeUtf8 text) ∧
      { w with tree := marked }.readSource path = .ok (byteOrderMark :: unifyLineEnds text) ∧
      ({ w with tree := marked }.resolveType path importRoot bases?).1 =
        (w.resolveType path importRoot bases?).1 := by
  obtain ⟨marked, hwrite, hways, hmarked⟩ :=
    Tree.exists_write_of_read hread (fun _ _ => rfl) (markBytes ++ encodeUtf8 text)
  have hsource : ({ w with tree := marked } : World).readSource path =
      .ok (byteOrderMark :: unifyLineEnds text) := by
    rw [← encodeUtf8_mark] at hmarked
    rw [readSource_of_read { w with tree := marked } hmarked, unifyLineEnds_mark]
  refine ⟨marked, hwrite, hmarked, hsource, ?_⟩
  have hplace (p : Path) : ({ w with tree := marked } : World).resolve p = w.resolve p := by
    rw [resolve, hways.resolve_eq]
    rfl
  have hname : ({ w with tree := marked } : World).moduleNameOf? path importRoot =
      w.moduleNameOf? path importRoot := by
    simp only [moduleNameOf?, hplace]
  have hfull (moduleName? : Option String) :
      (({ w with tree := marked } : World).extractName (byteOrderMark :: unifyLineEnds text)
        moduleName? bases?).1 = (w.extractName (unifyLineEnds text) moduleName? bases?).1 := by
    rw [fst_extractName_mark _ (not_isSpacing_unifyLineEnds hc) (return_notMem_unifyLineEnds text),
      extractName_fst _ w]
  rw [fst_resolveType_eq, fst_resolveType_eq, hsource, readSource_of_read w hread, hname]
  simp only [hfull]

/-- A class below a comment, which is a line of code with a mark in front of it. -/
def sizeText : List Char :=
  "# Sizes of shirts.\nclass Size(Enum):\n    SMALL = 1\n".toList

def sizeProject : World where
  tree := .directory [("size.py", .file (encodeUtf8 sizeText) {})]
  cwd := []
  home := []

theorem resolveType_mark_sizeProject :
    sizeProject.tree.read sizeProject.cwd (.ofLocation ["size.py"]) = .ok (encodeUtf8 sizeText) ∧
      (∀ c, sizeText.head? = some c → isSpacing c = false) ∧
      (sizeProject.resolveType (.ofLocation ["size.py"]) (.ofLocation []) (some ["Enum"])).1 =
        .ok (some ⟨"size", "Size"⟩) ∧
      ∃ marked, sizeProject.tree.write (fun _ => none) sizeProject.cwd (.ofLocation ["size.py"])
          (markBytes ++ encodeUtf8 sizeText) = .ok marked ∧
        marked.read sizeProject.cwd (.ofLocation ["size.py"]) =
          .ok (markBytes ++ encodeUtf8 sizeText) ∧
        { sizeProject with tree := marked }.readSource (.ofLocation ["size.py"]) =
          .ok (byteOrderMark :: unifyLineEnds sizeText) ∧
        ({ sizeProject with tree := marked }.resolveType (.ofLocation ["size.py"])
          (.ofLocation []) (some ["Enum"])).1 =
        (sizeProject.resolveType (.ofLocation ["size.py"]) (.ofLocation []) (some ["Enum"])).1 := by
  have hfresh : sizeProject.IsFresh :=
    ⟨rfl, by simp [sizeProject, Node.isLinkFree, Node.areLinkFree], by simp [sizeProject]⟩
  have hread : sizeProject.tree.read sizeProject.cwd (.ofLocation ["size.py"]) =
      .ok (encodeUtf8 sizeText) :=
    Tree.read_ofLocation hfresh.linkFree (by decide) rfl
  have hfirst : sizeText.head? = some '#' := by decide
  have hhead : ∀ c, sizeText.head? = some c → isSpacing c = false := by
    intro c hc
    obtain rfl : '#' = c := Option.some.inj (hfirst.symm.trans hc)
    rfl
  have htype : (sizeProject.resolveType (.ofLocation ["size.py"]) (.ofLocation [])
      (some ["Enum"])).1 = .ok (some ⟨"size", "Size"⟩) :=
    hfresh.resolveType_of_file (by decide) (by decide) rfl rfl rfl (by decide +kernel)
      (by decide +kernel)
  exact ⟨hread, hhead, htype, resolveType_mark (.ofLocation []) (some ["Enum"]) hread hhead⟩

end World

end SymbolExport
