import SymbolExport.Proofs.ConstantOrigin

/-!
Which constants a class has, and in what order. Its own come first, then those of the classes that it
inherits from, one class after the other and each in the order of its body. A name is listed once,
where it is met first, and no name with an exportable value is left out.
-/
namespace SymbolExport

/-- The names in capitals of a body with exportable values, in the order of the body. -/
def constantsIn (attributes : List (String × Value)) : List Member :=
  (attributes.filter fun (name, value) => isConstantName name && value.isExportable).map
    fun (name, value) => ⟨name, value.plain⟩

def memberNames (members : List Member) : List String :=
  members.map Member.name

namespace ClassLevel

/-- The constants of one class by itself. -/
def ownConstants (level : ClassLevel) : List Member :=
  constantsIn level.own

/-- The constants that a class adds to those of the classes before it. -/
def constantsBehind (level : ClassLevel) (front : List ClassLevel) : List Member :=
  level.ownConstants.filter fun m => ∀ earlier ∈ front, m.name ∉ memberNames earlier.ownConstants

end ClassLevel

/-- The constants of classes, one class after the other; `front` are the classes before them. -/
def constantsAlong (front : List ClassLevel) : List ClassLevel → List Member
  | [] => []
  | level :: rest => level.constantsBehind front ++ constantsAlong (front ++ [level]) rest

variable {found : List Member} {attributes : Table Value} {name : String} {level : ClassLevel}
  {front back : List ClassLevel} {c : Class}

theorem mem_names_constantsIn : name ∈ memberNames (constantsIn attributes) ↔
    isConstantName name ∧ ∃ v, (name, v) ∈ attributes ∧ v.isExportable := by
  simp only [memberNames, constantsIn, List.map_map, List.mem_map, List.mem_filter,
    Bool.and_eq_true]
  constructor
  · rintro ⟨⟨name, v⟩, ⟨hm, hname, hv⟩, rfl⟩
    exact ⟨hname, v, hm, hv⟩
  · rintro ⟨hname, v, hm, hv⟩
    exact ⟨(name, v), ⟨hm, hname, hv⟩, rfl⟩

theorem nodup_names_constantsIn (h : attributes.names.Nodup) :
    (memberNames (constantsIn attributes)).Nodup := by
  have hsub : (memberNames (constantsIn attributes)).Sublist attributes.names := by
    rw [memberNames, constantsIn, List.map_map]
    exact List.filter_sublist.map Prod.fst
  exact hsub.nodup h

/-- What is found stays in front, and the body of one class adds its constants with new names. -/
theorem addConstants_eq (h : attributes.names.Nodup) (found : List Member) :
    addConstants found attributes =
      found ++ (constantsIn attributes).filter fun m => m.name ∉ memberNames found := by
  induction attributes generalizing found with
  | nil => simp [addConstants, constantsIn]
  | cons entry rest ih =>
    obtain ⟨name, value⟩ := entry
    obtain ⟨hnew, hrest⟩ : name ∉ Table.names rest ∧ (Table.names rest).Nodup := by
      simpa [Table.names] using h
    have hfree : (∀ k ∈ found, k.name ≠ name) ↔ name ∉ memberNames found := by
      simp [memberNames]
    rw [addConstants_cons, ih hrest]
    by_cases hc : isConstantName name ∧ value.isExportable
    · have hcons : constantsIn ((name, value) :: rest) =
          ⟨name, value.plain⟩ :: constantsIn rest := by
        simp [constantsIn, hc.1, hc.2]
      rw [hcons]
      by_cases hf : name ∈ memberNames found
      · rw [if_neg fun hall => hfree.mp hall.1 hf, List.filter_cons_of_neg (by simpa using hf)]
      · -- the rest of the body does not have the name again, so it adds the same as before
        have hsame : ∀ m ∈ constantsIn rest, m.name ≠ name := by
          rintro m hm rfl
          obtain ⟨-, v, hv, -⟩ := mem_names_constantsIn.mp (List.mem_map_of_mem hm)
          exact hnew (List.mem_map_of_mem hv)
        have hadded : (constantsIn rest).filter
              (fun m => m.name ∉ memberNames (found ++ [⟨name, value.plain⟩])) =
            (constantsIn rest).filter fun m => m.name ∉ memberNames found := by
          refine List.filter_congr fun m hm => ?_
          simp [memberNames, hsame m hm]
        rw [if_pos ⟨hfree.mpr hf, hc⟩, hadded, List.filter_cons_of_pos (by simpa using hf)]
        simp
    · have hcons : constantsIn ((name, value) :: rest) = constantsIn rest := by
        rw [constantsIn, List.filter_cons_of_neg (by simpa using hc)]
        rfl
      rw [if_neg fun hall => hc hall.2, hcons]

theorem constantsAlong_concat (front : List ClassLevel) (levels : List ClassLevel)
    (level : ClassLevel) : constantsAlong front (levels ++ [level]) =
      constantsAlong front levels ++ level.constantsBehind (front ++ levels) := by
  induction levels generalizing front with
  | nil => simp [constantsAlong]
  | cons first rest ih => simp [constantsAlong, ih]

theorem mem_names_constantsBehind : name ∈ memberNames (level.constantsBehind front) ↔
    name ∈ memberNames level.ownConstants ∧
      ∀ earlier ∈ front, name ∉ memberNames earlier.ownConstants := by
  simp only [ClassLevel.constantsBehind, memberNames, List.mem_map, List.mem_filter,
    decide_eq_true_eq]
  constructor
  · rintro ⟨m, ⟨hm, hfront⟩, rfl⟩
    exact ⟨⟨m, hm, rfl⟩, hfront⟩
  · rintro ⟨⟨m, hm, rfl⟩, hfront⟩
    exact ⟨m, ⟨hm, hfront⟩, rfl⟩

/-- A name that one of the classes has is not left out. -/
theorem mem_names_constantsAlong (levels : List ClassLevel) :
    name ∈ memberNames (constantsAlong [] levels) ↔
      ∃ level ∈ levels, name ∈ memberNames level.ownConstants := by
  induction levels using List.reverseRecOn with
  | nil => simp [constantsAlong, memberNames]
  | append_singleton front level ih =>
    have happend : name ∈ memberNames (constantsAlong [] (front ++ [level])) ↔
        name ∈ memberNames (constantsAlong [] front) ∨
          name ∈ memberNames (level.constantsBehind front) := by
      rw [constantsAlong_concat, memberNames, List.map_append, List.mem_append]
      rfl
    rw [happend, ih, mem_names_constantsBehind]
    by_cases hfront : ∃ earlier ∈ front, name ∈ memberNames earlier.ownConstants
    · obtain ⟨earlier, hm, hname⟩ := hfront
      exact iff_of_true (Or.inl ⟨earlier, hm, hname⟩)
        ⟨earlier, List.mem_append_left [level] hm, hname⟩
    · have hnone : ∀ earlier ∈ front, name ∉ memberNames earlier.ownConstants :=
        fun earlier hm hname => hfront ⟨earlier, hm, hname⟩
      rw [or_iff_right hfront, and_iff_left hnone]
      constructor
      · intro hlevel
        exact ⟨level, by simp, hlevel⟩
      · rintro ⟨earlier, hm, hname⟩
        rcases List.mem_append.mp hm with hm | hm
        · exact absurd hname (hnone earlier hm)
        · exact List.mem_singleton.mp hm ▸ hname

/-- The search of a lineage gives what its classes have one after the other. -/
theorem constantsOf_eq_constantsAlong {levels : List ClassLevel}
    (h : ∀ level ∈ levels, level.attributes.names.Nodup) :
    constantsOf levels = constantsAlong [] levels := by
  rw [constantsOf_eq]
  induction levels using List.reverseRecOn with
  | nil => rfl
  | append_singleton front level ih =>
    have hfront := ih fun earlier hm => h earlier (List.mem_append_left [level] hm)
    have hlevel : level.own.names.Nodup := nodup_own (h level (by simp))
    rw [List.map_append, List.foldl_append, hfront, List.map_singleton, List.foldl_cons,
      List.foldl_nil, addConstants_eq hlevel, constantsAlong_concat]
    congr 1
    refine List.filter_congr fun m _ => ?_
    simp [mem_names_constantsAlong]

theorem nodup_names_constantsAlong {levels : List ClassLevel}
    (h : ∀ level ∈ levels, level.attributes.names.Nodup) :
    (memberNames (constantsAlong [] levels)).Nodup := by
  induction levels using List.reverseRecOn with
  | nil => simp [constantsAlong, memberNames]
  | append_singleton front level ih =>
    have hfront := ih fun earlier hm => h earlier (List.mem_append_left [level] hm)
    have hlevel : (memberNames (level.constantsBehind front)).Nodup := by
      have hown : (memberNames level.ownConstants).Nodup :=
        nodup_names_constantsIn (nodup_own (h level (by simp)))
      exact (List.filter_sublist.map Member.name).nodup hown
    rw [constantsAlong_concat, memberNames, List.map_append, List.nodup_append]
    refine ⟨hfront, hlevel, ?_⟩
    rintro name hname _ hbehind rfl
    obtain ⟨earlier, hm, hown⟩ := (mem_names_constantsAlong front).mp hname
    exact (mem_names_constantsBehind.mp hbehind).2 earlier hm hown

theorem ClassLevel.constantsBehind_nil (level : ClassLevel) :
    level.constantsBehind [] = level.ownConstants := by
  simp [constantsBehind]

/-- A class other than the root has the constants of its body. -/
theorem mem_names_ownConstants : name ∈ memberNames level.ownConstants ↔ isConstantName name ∧
    level.serial ≠ ClassLevel.object.serial ∧
      ∃ v, (name, v) ∈ level.attributes ∧ v.isExportable := by
  rw [ClassLevel.ownConstants, mem_names_constantsIn, ClassLevel.own]
  by_cases hs : level.serial = ClassLevel.object.serial <;> simp [hs]

/-- The constants of a class: each name is listed once; it is listed if and only if some class of the
lineage, other than the root of all classes, has an exportable value of it; and the class's own come
first, then the others class by class, in the order of each body. -/
theorem Class.constants_in_order (h : c.IsTabled) :
    (memberNames c.constants).Nodup ∧
    (∀ name, name ∈ memberNames c.constants ↔ isConstantName name ∧
      ∃ level ∈ c.lineage, level.serial ≠ ClassLevel.object.serial ∧
        ∃ v, (name, v) ∈ level.attributes ∧ v.isExportable) ∧
    c.constants = c.level.ownConstants ++ constantsAlong [c.level] c.ancestors := by
  have halong : c.constants = constantsAlong [] c.lineage := constantsOf_eq_constantsAlong h
  refine ⟨halong ▸ nodup_names_constantsAlong h, fun name => ?_, ?_⟩
  · rw [halong, mem_names_constantsAlong]
    constructor
    · rintro ⟨level, hl, hown⟩
      obtain ⟨hname, hvalue⟩ := mem_names_ownConstants.mp hown
      exact ⟨hname, level, hl, hvalue⟩
    · rintro ⟨hname, level, hl, hvalue⟩
      exact ⟨level, hl, mem_names_ownConstants.mpr ⟨hname, hvalue⟩⟩
  · rw [halong, lineage, constantsAlong, ClassLevel.constantsBehind_nil, List.nil_append]

/-- Two classes with one base, and a class that joins them. A name is set on both sides, and one is
set anew where its value is not exportable. -/
def joinedDefinitions : List ClassDefinition :=
  [⟨"Base", [], [("LIMIT", .given (.int 1)), ("SIZES", .given (.list [.int 1]))]⟩,
   ⟨"Left", ["Base"], [("LIMIT", .given (.object .property)), ("MODE", .given (.str "left"))]⟩,
   ⟨"Right", ["Base"], [("MODE", .given (.str "right")), ("LEVEL", .given (.tuple [.int 2]))]⟩,
   ⟨"Joined", ["Left", "Right"], [("SIZES", .given (.int 3)), ("size", .given (.int 4)),
     ("LAST", .given .null)]⟩]

def leftOfJoined : ClassLevel :=
  ⟨11, "Left", [("LIMIT", .object .property), ("MODE", .str "left")]⟩

def rightOfJoined : ClassLevel :=
  ⟨12, "Right", [("MODE", .str "right"), ("LEVEL", .tuple [.int 2])]⟩

def joinedClass : Class :=
  ⟨⟨13, "Joined", [("SIZES", .int 3), ("size", .int 4), ("LAST", .null)]⟩,
    [leftOfJoined, rightOfJoined, baseOfLimits, .object], none⟩

theorem defineAll?_joinedDefinitions : defineAll? joinedDefinitions =
    some [joinedClass, ⟨rightOfJoined, [baseOfLimits, .object], none⟩,
      ⟨leftOfJoined, [baseOfLimits, .object], none⟩, ⟨baseOfLimits, [.object], none⟩] := by
  rfl

theorem constants_in_order_joined : joinedClass.IsTabled ∧
    joinedClass.constants = [⟨"SIZES", .int 3⟩, ⟨"LAST", .null⟩, ⟨"MODE", .str "left"⟩,
      ⟨"LEVEL", .list [.int 2]⟩, ⟨"LIMIT", .int 1⟩] ∧
    (memberNames joinedClass.constants).Nodup ∧
    (∀ name, name ∈ memberNames joinedClass.constants ↔ isConstantName name ∧
      ∃ level ∈ joinedClass.lineage, level.serial ≠ ClassLevel.object.serial ∧
        ∃ v, (name, v) ∈ level.attributes ∧ v.isExportable) ∧
    joinedClass.constants = joinedClass.level.ownConstants ++
      constantsAlong [joinedClass.level] joinedClass.ancestors := by
  have htabled : joinedClass.IsTabled :=
    isTabled_of_defineAll? defineAll?_joinedDefinitions _ List.mem_cons_self
  exact ⟨htabled, rfl, Class.constants_in_order htabled⟩

end SymbolExport
