import SymbolExport.Proofs.ConstantOrigin
import SymbolExport.Proofs.Script.Agreement

/-!
The lines of the declarations of constants. The name of a constant is in capitals, but one line feed
may stand behind them. A member without it stands on one line, and one with it on two; so there is
one line for each member exactly if no name ends in a line feed.
-/
namespace SymbolExport

/-- A capital, and behind it capitals, digits and underscores. -/
def IsCapitalName (cs : List Char) : Prop :=
  ∃ first rest, cs = first :: rest ∧ ('A' ≤ first ∧ first ≤ 'Z') ∧
    ∀ c ∈ rest, ('A' ≤ c ∧ c ≤ 'Z') ∨ ('0' ≤ c ∧ c ≤ '9') ∨ c = '_'

/-- A line that declares a member with a name in capitals. -/
def IsMemberLine (line : List Char) : Prop :=
  ∃ name type, IsCapitalName name ∧ (type = "number" ∨ type = "string") ∧
    line = "  ".toList ++ name ++ ": ".toList ++ type.toList ++ ";".toList

/-- A header, one line for each member, a closing bracket and an empty line. -/
def IsEntryBlock (entry : String × MemberTable) (lines : List (List Char)) : Prop :=
  ∃ members, lines = headerLine entry.1 :: members ++ ["\x7d;".toList, []] ∧
    members.length = entry.2.length ∧ ∀ line ∈ members, IsMemberLine line

/-- A text whose lines are the blocks of its entries, with nothing behind the last line. -/
def IsLinedUp (exports : ExportTable) (text : List Char) : Prop :=
  ∃ blocks, text.splitOn '\n' = blocks.flatten ++ [[]] ∧ List.Forall₂ IsEntryBlock exports blocks

/-- The lines on which the declaration of a member stands. -/
def declaredLines (member : String × Value) : List (List Char) :=
  (memberLine false (member.1, declaredType member.2)).splitOn '\n'

/-- The lines of a member with a name in capitals: one, or two if a line feed ends the name. -/
inductive StandsOn (member : String × Value) : List (List Char) → Prop
  | whole (h : IsCapitalName member.1.toList) : StandsOn member
      ["  ".toList ++ member.1.toList ++ ": ".toList ++ (declaredType member.2).toList ++ ";".toList]
  | broken {name : List Char} (h : IsCapitalName name) (hn : member.1.toList = name ++ ['\n']) :
      StandsOn member
        ["  ".toList ++ name, ": ".toList ++ (declaredType member.2).toList ++ ";".toList]

def entryLines (entry : String × MemberTable) : List (List Char) :=
  headerLine entry.1 :: entry.2.flatMap declaredLines ++ ["\x7d;".toList, []]

variable {name : String} {cs : List Char} {member : String × Value} {found : List Member}
  {c : Class} {p : Policy} {exports : ExportTable} {lines : List (List Char)}

theorem isConstantChar_iff {c : Char} : isConstantChar c ↔
    ('A' ≤ c ∧ c ≤ 'Z') ∨ ('0' ≤ c ∧ c ≤ '9') ∨ c = '_' := by
  simp [isConstantChar, or_assoc]

theorem isConstantTail_iff : isConstantTail cs ↔
    ∃ front, (∀ c ∈ front, isConstantChar c) ∧ (cs = front ∨ cs = front ++ ['\n']) := by
  fun_induction isConstantTail cs with
  | case1 => simp
  | case2 =>
    refine iff_of_true rfl ⟨[], by simp, Or.inr rfl⟩
  | case3 c rest hne ih =>
    rw [Bool.and_eq_true, ih]
    constructor
    · rintro ⟨hc, front, hfront, hrest⟩
      refine ⟨c :: front, List.forall_mem_cons.mpr ⟨hc, hfront⟩, ?_⟩
      exact hrest.imp (fun h => by rw [h]) fun h => by rw [h, List.cons_append]
    · rintro ⟨front, hfront, hcs⟩
      cases front with
      | nil =>
        rcases hcs with hcs | hcs
        · cases hcs
        · obtain ⟨rfl, rfl⟩ := List.cons.inj hcs
          exact absurd rfl (hne rfl)
      | cons d more =>
        obtain ⟨hd, hmore⟩ := List.forall_mem_cons.mp hfront
        rcases hcs with hcs | hcs
        · obtain ⟨rfl, rfl⟩ := List.cons.inj hcs
          exact ⟨hd, rest, hmore, Or.inl rfl⟩
        · obtain ⟨rfl, rfl⟩ := List.cons.inj hcs
          exact ⟨hd, more, hmore, Or.inr rfl⟩

/-- The names of constants are those in capitals, and those that one line feed follows. -/
theorem isConstantName_iff : isConstantName name ↔
    ∃ front, IsCapitalName front ∧ (name.toList = front ∨ name.toList = front ++ ['\n']) := by
  unfold isConstantName
  cases name.toList with
  | nil => simp [IsCapitalName]
  | cons first rest =>
    simp only [Bool.and_eq_true, decide_eq_true_eq, isConstantTail_iff]
    constructor
    · rintro ⟨hfirst, front, hfront, hrest⟩
      refine ⟨first :: front, ⟨first, front, rfl, hfirst, fun c hc => ?_⟩, ?_⟩
      · exact isConstantChar_iff.mp (hfront c hc)
      · exact hrest.imp (fun h => by rw [h]) fun h => by rw [h, List.cons_append]
    · rintro ⟨_, ⟨c, front, rfl, hc, hfront⟩, hcs⟩
      have hall : ∀ d ∈ front, isConstantChar d := fun d hd => isConstantChar_iff.mpr (hfront d hd)
      rcases hcs with hcs | hcs
      · obtain ⟨rfl, rfl⟩ := List.cons.inj hcs
        exact ⟨hc, rest, hall, Or.inl rfl⟩
      · obtain ⟨rfl, rfl⟩ := List.cons.inj hcs
        exact ⟨hc, front, hall, Or.inr rfl⟩

theorem IsCapitalName.lineFeed_notMem (h : IsCapitalName cs) : '\n' ∉ cs := by
  obtain ⟨first, rest, rfl, hfirst, hrest⟩ := h
  intro hm
  rcases List.mem_cons.mp hm with rfl | hm
  · exact absurd hfirst (by decide)
  · exact absurd (hrest _ hm) (by decide)

theorem Policy.isConstantName_normalize (h : member ∈ p.normalize c.constants) :
    isConstantName member.1 := by
  obtain ⟨m, hm, rfl⟩ := List.mem_map.mp (Table.mem_ofEntries h)
  have hall : ∀ m ∈ c.constants, isConstantName m.name :=
    Class.forall_mem_constants fun _ _ hname _ => hname
  exact hall m (List.mem_filter.mp hm).1

/-- Parts that may be several lines themselves are split where they stand. -/
theorem splitOn_flatMap_lineFeed (parts : List (List Char)) :
    (parts.flatMap (· ++ ['\n'])).splitOn '\n' = parts.flatMap (List.splitOn '\n') ++ [[]] := by
  induction parts with
  | nil => rfl
  | cons part rest ih =>
    rw [List.flatMap_cons, List.append_assoc, List.singleton_append, List.splitOn_append_cons_self,
      ih, List.flatMap_cons, List.append_assoc]

theorem memberLine_eq (member : String × Value) :
    memberLine false (member.1, declaredType member.2) = "  ".toList ++ member.1.toList ++
      ": ".toList ++ (declaredType member.2).toList ++ ";".toList := by
  simp [memberLine, memberStart]

theorem standsOn_declaredLines (h : isConstantName member.1) :
    StandsOn member (declaredLines member) := by
  have htype := (declaredType_notMem member.2).2
  obtain ⟨front, hfront, hname | hname⟩ := isConstantName_iff.mp h
  · have hline : '\n' ∉ "  ".toList ++ member.1.toList ++ ": ".toList ++
        (declaredType member.2).toList ++ ";".toList := by
      simp [hname, hfront.lineFeed_notMem, htype]
    rw [declaredLines, memberLine_eq, List.splitOn_eq_singleton hline]
    exact .whole (hname ▸ hfront)
  · have hfirst : '\n' ∉ "  ".toList ++ front := by
      simp [hfront.lineFeed_notMem]
    have hsecond : '\n' ∉ ": ".toList ++ (declaredType member.2).toList ++ ";".toList := by
      simp [htype]
    have hcut : "  ".toList ++ member.1.toList ++ ": ".toList ++ (declaredType member.2).toList ++
          ";".toList = ("  ".toList ++ front) ++
        '\n' :: (": ".toList ++ (declaredType member.2).toList ++ ";".toList) := by
      simp [hname]
    rw [declaredLines, memberLine_eq, hcut, List.splitOn_append_cons_self_of_not_mem hfirst,
      List.splitOn_eq_singleton hsecond]
    exact .broken hfront hname

/-- The declarations are the lines of their entries, and nothing stands behind the last of them. -/
theorem splitOn_renderDeclarations (h : ∀ entry ∈ exports, '\n' ∉ entry.1.toList) :
    (renderDeclarations false exports).splitOn '\n' = exports.flatMap entryLines ++ [[]] := by
  have hends : '\n' ∉ headerStart ∧ '\n' ∉ [':', ' ', '\x7b'] ∧ '\n' ∉ ['\x7d', ';'] := by decide
  have hentry : ∀ entry ∈ exports,
      (blockLines false (entry.1, MemberTable.types entry.2)).flatMap (List.splitOn '\n') =
        entryLines entry := by
    intro entry hentry
    have hheader : '\n' ∉ headerLine entry.1 := by
      simp only [headerLine, List.mem_append, not_or]
      exact ⟨⟨hends.1, h entry hentry⟩, hends.2.1⟩
    have hmembers : ((MemberTable.types entry.2).map (memberLine false)).flatMap
        (List.splitOn '\n') = entry.2.flatMap declaredLines := by
      rw [List.flatMap_map, MemberTable.types, List.flatMap_map]
      rfl
    rw [blockLines, List.flatMap_append, List.flatMap_cons, hmembers,
      List.splitOn_eq_singleton hheader]
    simp [entryLines, List.splitOn_eq_singleton hends.2.2]
  rw [renderDeclarations_eq_declarationsText, declarationsText, splitOn_flatMap_lineFeed,
    ExportTable.types, List.flatMap_map, List.flatMap_assoc, List.flatMap_congr hentry]

/-! Lines are counted to tell whether there is one for each member. -/

theorem StandsOn.length_pos (h : StandsOn member lines) : 1 ≤ lines.length := by
  cases h <;> simp

theorem StandsOn.eq_singleton (h : StandsOn member lines) (hn : '\n' ∉ member.1.toList) :
    ∃ line, lines = [line] ∧ IsMemberLine line := by
  cases h with
  | whole hcapital =>
    refine ⟨_, rfl, member.1.toList, declaredType member.2, hcapital, ?_, rfl⟩
    unfold declaredType
    split
    · exact Or.inl rfl
    · exact Or.inr rfl
  | broken _ hname => simp [hname] at hn

theorem StandsOn.length_eq_two (h : StandsOn member lines) (hn : '\n' ∈ member.1.toList) :
    lines.length = 2 := by
  cases h with
  | whole hcapital => exact absurd hn hcapital.lineFeed_notMem
  | broken => rfl

theorem IsEntryBlock.length_eq {entry : String × MemberTable} (h : IsEntryBlock entry lines) :
    lines.length = entry.2.length + 3 := by
  obtain ⟨members, rfl, hlength, -⟩ := h
  simp [hlength]

theorem length_flatten_of_isEntryBlock {blocks : List (List (List Char))}
    (h : List.Forall₂ IsEntryBlock exports blocks) :
    blocks.flatten.length = (exports.map fun entry => entry.2.length + 3).sum := by
  induction h with
  | nil => rfl
  | cons hblock _ ih => rw [List.flatten_cons, List.length_append, ih, hblock.length_eq]; rfl

theorem length_entryLines (entry : String × MemberTable) :
    (entryLines entry).length = (entry.2.map fun m => (declaredLines m).length).sum + 3 := by
  simp [entryLines, List.length_flatMap]

/-- Members whose names are without a line feed have one line each. -/
theorem isEntryBlock_entryLines {entry : String × MemberTable}
    (h : ∀ member ∈ entry.2, isConstantName member.1 ∧ '\n' ∉ member.1.toList) :
    IsEntryBlock entry (entryLines entry) := by
  have hline : ∀ member ∈ entry.2, ∃ line, declaredLines member = [line] ∧ IsMemberLine line :=
    fun member hm => (standsOn_declaredLines (h member hm).1).eq_singleton (h member hm).2
  refine ⟨entry.2.flatMap declaredLines, rfl, ?_, ?_⟩
  · have hone : entry.2.map (fun m => (declaredLines m).length) = entry.2.map fun _ => 1 := by
      refine List.map_congr_left fun member hm => ?_
      obtain ⟨line, hlines, -⟩ := hline member hm
      rw [hlines, List.length_singleton]
    rw [List.length_flatMap, hone]
    simp
  · intro line hl
    obtain ⟨member, hm, hin⟩ := List.mem_flatMap.mp hl
    obtain ⟨own, hlines, hown⟩ := hline member hm
    rw [hlines, List.mem_singleton] at hin
    exact hin ▸ hown

/-- A member that stands on two lines makes its entry too long for a block. -/
theorem length_lt_entryLines {entry : String × MemberTable}
    (h : ∀ member ∈ entry.2, isConstantName member.1) (hm : member ∈ entry.2)
    (hn : '\n' ∈ member.1.toList) : entry.2.length + 3 < (entryLines entry).length := by
  have hpos : ∀ m ∈ entry.2, 1 ≤ (declaredLines m).length :=
    fun m hm => (standsOn_declaredLines (h m hm)).length_pos
  have htwo : (declaredLines member).length = 2 :=
    (standsOn_declaredLines (h member hm)).length_eq_two hn
  have hsum := List.sum_lt_sum (fun _ => 1) (fun m => (declaredLines m).length) hpos
    ⟨member, hm, by omega⟩
  rw [length_entryLines]
  simp at hsum
  omega

theorem length_le_entryLines {entry : String × MemberTable}
    (h : ∀ member ∈ entry.2, isConstantName member.1) :
    entry.2.length + 3 ≤ (entryLines entry).length := by
  by_cases hn : ∃ member ∈ entry.2, '\n' ∈ member.1.toList
  · obtain ⟨member, hm, hn⟩ := hn
    exact (length_lt_entryLines h hm hn).le
  · have hwhole : ∀ member ∈ entry.2, isConstantName member.1 ∧ '\n' ∉ member.1.toList :=
      fun member hm => ⟨h member hm, fun hc => hn ⟨member, hm, hc⟩⟩
    exact (isEntryBlock_entryLines hwhole).length_eq.ge

/-- There is one line for each member exactly if no name holds a line feed. -/
theorem isLinedUp_iff (h : ∀ entry ∈ exports, '\n' ∉ entry.1.toList)
    (hnames : ∀ entry ∈ exports, ∀ member ∈ entry.2, isConstantName member.1) :
    IsLinedUp exports (renderDeclarations false exports) ↔
      ∀ entry ∈ exports, ∀ member ∈ entry.2, '\n' ∉ member.1.toList := by
  have hlines := splitOn_renderDeclarations h
  constructor
  · rintro ⟨blocks, hblocks, hforall⟩ entry hentry member hm hn
    -- the blocks have as many lines as the text, and the entry with this member has too many
    have hcount := congrArg List.length (hlines.symm.trans hblocks)
    simp only [List.length_append, List.length_flatMap, length_flatten_of_isEntryBlock hforall]
      at hcount
    have hlt := List.sum_lt_sum (fun e => e.2.length + 3) (fun e => (entryLines e).length)
      (fun e he => length_le_entryLines (hnames e he))
      ⟨entry, hentry, length_lt_entryLines (hnames entry hentry) hm hn⟩
    omega
  · intro hwhole
    refine ⟨exports.map entryLines, by rw [hlines, List.flatMap_def], ?_⟩
    rw [List.forall₂_map_right_iff, List.forall₂_same]
    exact fun entry hentry => isEntryBlock_entryLines fun member hm =>
      ⟨hnames entry hentry member hm, hwhole entry hentry member hm⟩

/-- The declarations of constants are the lines of their entries, where a member stands on one line,
or on two if a line feed ends its name. So they line up exactly if no name ends in one. -/
theorem lines_of_constantDeclarations (h : ∀ entry ∈ exports, '\n' ∉ entry.1.toList ∧
      ∃ (p : Policy) (c : Class), entry.2 = p.normalize (ExportMode.constants.members c)) :
    (renderDeclarations false exports).splitOn '\n' = exports.flatMap entryLines ++ [[]] ∧
    (∀ entry ∈ exports, ∀ member ∈ entry.2, StandsOn member (declaredLines member)) ∧
    (IsLinedUp exports (renderDeclarations false exports) ↔
      ∀ entry ∈ exports, ∀ member ∈ entry.2, '\n' ∉ member.1.toList) := by
  have hfree : ∀ entry ∈ exports, '\n' ∉ entry.1.toList := fun entry hentry => (h entry hentry).1
  have hnames : ∀ entry ∈ exports, ∀ member ∈ entry.2, isConstantName member.1 := by
    intro entry hentry member hm
    obtain ⟨-, p, c, hmembers⟩ := h entry hentry
    rw [hmembers] at hm
    exact Policy.isConstantName_normalize hm
  refine ⟨splitOn_renderDeclarations hfree, ?_, isLinedUp_iff hfree hnames⟩
  intro entry hentry member hm
  exact standsOn_declaredLines (hnames entry hentry member hm)

theorem lines_of_constantDeclarations_limits :
    Policy.normalize {} (ExportMode.constants.members derivedLimits) =
      [("SIZES", .list [.int 2]), ("LIMIT", .int 1)] ∧
    IsLinedUp [("Derived", Policy.normalize {} (ExportMode.constants.members derivedLimits))]
      (renderDeclarations false
        [("Derived", Policy.normalize {} (ExportMode.constants.members derivedLimits))]) := by
  have hmembers : Policy.normalize {} (ExportMode.constants.members derivedLimits) =
      [("SIZES", .list [.int 2]), ("LIMIT", .int 1)] := rfl
  refine ⟨hmembers, (lines_of_constantDeclarations ?_).2.2.mpr ?_⟩
  · intro entry hentry
    obtain rfl := List.mem_singleton.mp hentry
    exact ⟨by decide, {}, derivedLimits, rfl⟩
  · intro entry hentry member hm
    obtain rfl := List.mem_singleton.mp hentry
    rw [hmembers] at hm
    rcases List.mem_cons.mp hm with rfl | hm
    · decide
    · obtain rfl := List.mem_singleton.mp hm
      decide

/-- A class with a constant whose name ends in a line feed. -/
def brokenClass : Class :=
  ⟨⟨10, "Broken", [("A\n", .int 1), ("B", .int 2)]⟩, [.object], none⟩

def brokenMembers : MemberTable :=
  Policy.normalize {} (ExportMode.constants.members brokenClass)

/-- The declaration of such a constant takes two lines. -/
theorem not_isLinedUp_brokenClass :
    defineAll? [⟨"Broken", [], [("A\n", .given (.int 1)), ("B", .given (.int 2))]⟩] =
      some [brokenClass] ∧
    String.ofList (renderDeclarations false [("Broken", brokenMembers)]) =
      "export declare const Broken: \x7b\n  A\n: number;\n  B: number;\n\x7d;\n\n" ∧
    ¬ IsLinedUp [("Broken", brokenMembers)]
      (renderDeclarations false [("Broken", brokenMembers)]) := by
  have hmembers : brokenMembers = [("A\n", .int 1), ("B", .int 2)] := rfl
  refine ⟨rfl, by decide +kernel, ?_⟩
  have hfree : ∀ entry ∈ [("Broken", brokenMembers)], '\n' ∉ entry.1.toList := by decide
  have hnames : ∀ entry ∈ [("Broken", brokenMembers)], ∀ member ∈ entry.2,
      isConstantName member.1 := by
    intro entry hentry member hm
    obtain rfl := List.mem_singleton.mp hentry
    exact Policy.isConstantName_normalize hm
  rw [isLinedUp_iff hfree hnames]
  intro hwhole
  have hfirst : ("A\n", .int 1) ∈ brokenMembers := by simp [hmembers]
  exact hwhole _ (List.mem_singleton_self _) _ hfirst (by decide)

end SymbolExport
