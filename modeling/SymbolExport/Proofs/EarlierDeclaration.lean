import SymbolExport.Proofs.FirstDeclaration

/-!
A declaration stays the first one when its source goes on. The lines so far have the same tokens
then, and a parenthesis that is opened among these is closed among them, so no search for a base that
starts there runs on into the rest.
-/
namespace SymbolExport

open SymbolExport.Text

/-- At no point more brackets are closed than were opened. -/
def ClosesOnlyOpened (tokens : List Token) : Prop :=
  ∀ front, front <+: tokens → 0 ≤ bracketBalance front

instance (tokens : List Token) : Decidable (ClosesOnlyOpened tokens) :=
  decidable_of_iff (∀ front ∈ tokens.inits, 0 ≤ bracketBalance front)
    (by simp [ClosesOnlyOpened])

/-- Every bracket that is opened is closed, and none is closed before it is opened. -/
structure ClosesAll (tokens : List Token) : Prop where
  closesOnlyOpened : ClosesOnlyOpened tokens
  balance : bracketBalance tokens = 0

variable {source more : List Char} {body ending tail tokens : List Token} {s next : Scanner}
  {bases : List String} {bases? : Option (List String)} {name : List Char} {i first k : Nat}

theorem lines_append (h : source = [] ∨ source.getLast? = some '\n') (more : List Char) :
    lines (source ++ more) = lines source ++ lines more := by
  induction source with
  | nil => rfl
  | cons c rest ih =>
    have hlast : (c :: rest).getLast? = some '\n' := h.resolve_left (List.cons_ne_nil c rest)
    by_cases hc : c = '\n'
    · have hrest : rest = [] ∨ rest.getLast? = some '\n' := by
        rcases List.eq_nil_or_concat rest with rfl | ⟨front, last, rfl⟩
        · exact Or.inl rfl
        · exact Or.inr (by simpa [List.getLast?_cons] using hlast)
      simp [lines, hc, ih hrest]
    · -- the line that starts here goes on, so that it is not the appended text that ends it
      have hne : rest ≠ [] := by
        rintro rfl
        exact hc (by simpa using hlast)
      have hrest : rest.getLast? = some '\n' := by
        rwa [List.getLast?_cons_of_ne_nil hne] at hlast
      have hlines : lines rest ≠ [] := by
        intro hnil
        exact hne (by rw [← flatten_lines rest, hnil, List.flatten_nil])
      obtain ⟨line, others, hcons⟩ := List.exists_cons_of_ne_nil hlines
      simp [lines, hc, ih (Or.inr hrest), hcons]

theorem Scanner.takeLines_append_eq_ok_iff {front back : List (List Char)} :
    s.takeLines (front ++ back) = .ok (next, tokens) ↔ ∃ middle body tail,
      s.takeLines front = .ok (middle, body) ∧ middle.takeLines back = .ok (next, tail) ∧
        tokens = body ++ tail := by
  induction front generalizing s tokens with
  | nil => simp [takeLines, eq_comm]
  | cons line rest ih =>
    simp only [List.cons_append, takeLines_cons_eq_ok_iff, ih]
    constructor
    · rintro ⟨middle, head, _, hline, ⟨last, body, tail, hrest, hback, rfl⟩, rfl⟩
      exact ⟨last, head ++ body, tail, ⟨middle, head, body, hline, hrest, rfl⟩, hback,
        (List.append_assoc _ _ _).symm⟩
    · rintro ⟨last, _, tail, ⟨middle, head, body, hline, hrest, rfl⟩, hback, rfl⟩
      exact ⟨middle, head, body ++ tail, hline, ⟨last, body, tail, hrest, hback, rfl⟩,
        List.append_assoc _ _ _⟩

theorem depthBehind_append (h : first + k ≤ body.length) :
    depthBehind (body ++ tail) first k = depthBehind body first k := by
  have hdrop : first ≤ body.length := by omega
  have htake : k ≤ (body.drop first).length := by rw [List.length_drop]; omega
  rw [depthBehind, List.drop_append_of_le_length hdrop, List.take_append_of_le_length htake,
    depthBehind]

/-- Behind a position the rest closes at least as many brackets as it opens. -/
theorem ClosesAll.depthBehind_nonpos (h : ClosesAll body) (hk : first + k = body.length) :
    depthBehind body first k ≤ 0 := by
  have hall : (body.drop first).take k = body.drop first :=
    List.take_of_length_le (by rw [List.length_drop]; omega)
  have hsum : bracketBalance (body.take first) + bracketBalance (body.drop first) = 0 := by
    rw [← bracketBalance_append, List.take_append_drop, h.balance]
  have hfront := h.closesOnlyOpened _ (List.take_prefix first body)
  rw [depthBehind, hall]
  omega

/-- A base that is listed among tokens that close all brackets stands among these. -/
theorem ClosesAll.listsBaseAt_append (h : ClosesAll body) (hfirst : first < body.length) :
    ListsBaseAt bases (body ++ tail) first ↔ ListsBaseAt bases body first := by
  rw [ListsBaseAt, ListsBaseAt, List.getElem?_append_left hfirst]
  refine and_congr_right fun _ => ?_
  constructor
  · rintro ⟨n, t, ht, hbase, hone, hinside⟩
    have hn : first + n < body.length := by
      by_contra hlong
      have hclosed := h.depthBehind_nonpos (Nat.add_sub_of_le hfirst.le)
      have hopen := hinside (body.length - first) (by omega) (by omega)
      rw [depthBehind_append (by omega)] at hopen
      omega
    rw [List.getElem?_append_left hn] at ht
    rw [depthBehind_append hn.le] at hone
    refine ⟨n, t, ht, hbase, hone, fun k hpos hk => ?_⟩
    rw [← depthBehind_append (by omega)]
    exact hinside k hpos hk
  · rintro ⟨n, t, ht, hbase, hone, hinside⟩
    have hn : first + n < body.length := (List.getElem?_eq_some_iff.mp ht).1
    refine ⟨n, t, by rw [List.getElem?_append_left hn, ht], hbase, ?_, fun k hpos hk => ?_⟩
    · rw [depthBehind_append hn.le, hone]
    · rw [depthBehind_append (by omega)]
      exact hinside k hpos hk

theorem ClosesAll.declaresAt_append (h : ClosesAll body) (hi : i + 2 < body.length) :
    DeclaresAt bases? (body ++ tail) i ↔ DeclaresAt bases? body i := by
  simp only [DeclaresAt, List.getElem?_append_left (show i < body.length by omega),
    h.listsBaseAt_append hi]

/-- What stands behind the tokens does not have to change for a declaration among them to stay. -/
theorem ClosesAll.declaresAt_of_append (h : ClosesAll body) (hending : ∀ t ∈ ending, t.IsPlain)
    (hi : i + 1 < body.length) (hd : DeclaresAt bases? (body ++ ending) i) :
    DeclaresAt bases? (body ++ tail) i := by
  obtain ⟨⟨t, ht, hkeyword⟩, hbases⟩ := hd
  have hhere : i < body.length := by omega
  refine ⟨⟨t, ?_, hkeyword⟩, fun bases hmem => ?_⟩
  · rwa [List.getElem?_append_left hhere] at ht ⊢
  · have hlists := hbases bases hmem
    obtain ⟨u, hu, htext⟩ := hlists.1
    have hfirst : i + 2 < body.length := by
      by_contra hlong
      rw [List.getElem?_append_right (by omega)] at hu
      exact (hending u (List.mem_of_getElem? hu)).head (by simp [htext])
    exact (h.listsBaseAt_append hfirst).mpr ((h.listsBaseAt_append hfirst).mp hlists)

/-- A declaration that is the first one stays the first one, however the tokens go on. -/
theorem ClosesAll.declaredName?_append (h : ClosesAll body) (hending : ∀ t ∈ ending, t.IsPlain)
    (hlexed : ∀ t ∈ body ++ ending, t.IsLexed) (hlexed' : ∀ t ∈ body ++ tail, t.IsLexed)
    (hname : declaredName? bases? (body ++ ending) = some name) :
    declaredName? bases? (body ++ tail) = some name := by
  rw [declaredName?_eq_some_iff hlexed] at hname
  rw [declaredName?_eq_some_iff hlexed']
  obtain ⟨i, ⟨hdeclares, hleast⟩, hnext⟩ := hname
  have hi : i + 1 < body.length := by
    by_contra hlong
    rw [List.getElem?_append_right (by omega)] at hnext
    exact (hending _ (List.mem_of_getElem? hnext)).name rfl
  refine ⟨i, ⟨h.declaresAt_of_append hending hi hdeclares, fun j hj => ?_⟩, ?_⟩
  · -- an earlier keyword has its parenthesis, and thus all of its bases, before the end
    by_contra hearlier
    have hbehind : j + 2 < body.length := by omega
    have hdeclares' : DeclaresAt bases? (body ++ ending) j :=
      (h.declaresAt_append hbehind).mpr ((h.declaresAt_append hbehind).mp hj)
    exact hearlier (hleast hdeclares')
  · rwa [List.getElem?_append_left hi] at hnext ⊢

/-- If a text goes on behind a line end, its tokens go on behind those of its lines. -/
theorem exists_body_of_tokenize_append (hline : source = [] ∨ source.getLast? = some '\n')
    {all : List Token} (h : tokenize source = .ok tokens)
    (hall : tokenize (source ++ more) = .ok all) :
    ∃ body ending tail, tokens = body ++ ending ∧ all = body ++ tail ∧
      (∀ t ∈ ending, t.IsPlain) ∧ bracketBalance body = 0 := by
  obtain ⟨last, body, ending, hlines, hfinish, rfl⟩ := tokenize_eq_ok_iff.mp h
  obtain ⟨last', front, back, hlines', hfinish', rfl⟩ := tokenize_eq_ok_iff.mp hall
  rw [lines_append hline, Scanner.takeLines_append_eq_ok_iff] at hlines'
  obtain ⟨middle, body', tail, hbody, -, rfl⟩ := hlines'
  obtain ⟨rfl, rfl⟩ : last = middle ∧ body = body' := by simpa [hlines] using hbody
  obtain ⟨-, hdepth, -, hplain⟩ := Scanner.finish_eq_ok hfinish
  have hbalance := (Scanner.goesOn_takeLines isSound_start hlines).deepens.depth
  refine ⟨body, ending, tail ++ back, rfl, List.append_assoc _ _ _, hplain, ?_⟩
  simpa [hdepth, Scanner.start] using hbalance.symm

/-- The full name that a source has, if it ends with a line, is also that of every longer source. -/
theorem World.extractName_append (w : World) {moduleName? : Option String} {full : String}
    (hline : source = [] ∨ source.getLast? = some '\n') (htokens : tokenize source = .ok tokens)
    (hbrackets : ClosesOnlyOpened tokens)
    (hname : (w.extractName source moduleName? bases?).1 = some full)
    (hmore : (tokenize (source ++ more)).isOk) :
    (w.extractName (source ++ more) moduleName? bases?).1 = some full := by
  cases hall : tokenize (source ++ more) with
  | error fault =>
    rw [hall] at hmore
    cases hmore
  | ok all =>
    have hlexed := isLexed_tokenize htokens
    have hlexed' := isLexed_tokenize hall
    obtain ⟨body, ending, tail, rfl, rfl, hplain, hbalance⟩ :=
      exists_body_of_tokenize_append hline htokens hall
    have hclosed : ClosesAll body := by
      refine ⟨fun front hfront => ?_, hbalance⟩
      exact hbrackets front (hfront.trans (List.prefix_append body ending))
    simp only [extractName, htokens, hall] at hname ⊢
    rw [qualifiedName?_eq_some_iff hlexed] at hname
    rw [qualifiedName?_eq_some_iff hlexed']
    obtain ⟨moduleName, name, hmodule, hne, hdeclared, hfull⟩ := hname
    exact ⟨moduleName, name, hmodule, hne,
      hclosed.declaredName?_append hplain hlexed hlexed' hdeclared, hfull⟩

def colorSource : List Char :=
  "class Shape: pass\nclass Color(Enum): pass\n".toList

def sizeSource : List Char :=
  "class Size(Enum): pass\n".toList

def colorTokens : List Token :=
  [⟨.name, "class".toList⟩, ⟨.name, "Shape".toList⟩, ⟨.operator, [':']⟩, ⟨.name, "pass".toList⟩,
    ⟨.newline, ['\n']⟩, ⟨.name, "class".toList⟩, ⟨.name, "Color".toList⟩, ⟨.operator, ['(']⟩,
    ⟨.name, "Enum".toList⟩, ⟨.operator, [')']⟩, ⟨.operator, [':']⟩, ⟨.name, "pass".toList⟩,
    ⟨.newline, ['\n']⟩, ⟨.endMarker, []⟩]

def colorWorld : World :=
  { tree := .empty, cwd := [], home := [] }

theorem tokenize_colorSource : tokenize colorSource = .ok colorTokens := by
  decide +kernel

theorem isOk_tokenize_sizeSource : (tokenize (colorSource ++ sizeSource)).isOk := by
  decide +kernel

theorem extractName_colorSource :
    (colorWorld.extractName colorSource (some "shapes") (some ["Enum"])).1 =
      some "shapes.Color" := by
  rw [World.extractName, tokenize_colorSource]
  decide

theorem World.extractName_append_colorSource : colorSource.getLast? = some '\n' ∧
    tokenize colorSource = .ok colorTokens ∧ ClosesOnlyOpened colorTokens ∧
    (colorWorld.extractName colorSource (some "shapes") (some ["Enum"])).1 =
      some "shapes.Color" ∧
    (tokenize (colorSource ++ sizeSource)).isOk ∧
    (colorWorld.extractName (colorSource ++ sizeSource) (some "shapes") (some ["Enum"])).1 =
      some "shapes.Color" := by
  have hlast : colorSource.getLast? = some '\n' := by decide
  have hbrackets : ClosesOnlyOpened colorTokens := by decide
  exact ⟨hlast, tokenize_colorSource, hbrackets, extractName_colorSource, isOk_tokenize_sizeSource,
    extractName_append colorWorld (Or.inr hlast) tokenize_colorSource hbrackets
      extractName_colorSource isOk_tokenize_sizeSource⟩

end SymbolExport
