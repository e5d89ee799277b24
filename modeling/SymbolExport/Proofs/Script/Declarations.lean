import SymbolExport.Proofs.Script.Reading
import SymbolExport.Script.Declarations

/-!
The declarations that go with a script module read back. They are blocks of lines: a name, its
members with a type for each of them, a closing bracket and a blank line.
-/
namespace SymbolExport

/-- The types that are declared for members. -/
def MemberTable.types (members : MemberTable) : List (String × String) :=
  members.map fun (name, value) => (name, declaredType value)

def ExportTable.types (exports : ExportTable) : List (String × List (String × String)) :=
  exports.map fun (outputName, members) => (outputName, members.types)

def memberStart (isReadonly : Bool) : List Char :=
  "  ".toList ++ if isReadonly then "readonly ".toList else []

def memberLine (isReadonly : Bool) (member : String × String) : List Char :=
  memberStart isReadonly ++ (member.1.toList ++ ": ".toList ++ member.2.toList) ++ [';']

def headerStart : List Char :=
  "export declare const ".toList

def headerLine (outputName : String) : List Char :=
  headerStart ++ outputName.toList ++ [':', ' ', '\x7b']

def blockLines (isReadonly : Bool) (block : String × List (String × String)) : List (List Char) :=
  headerLine block.1 :: block.2.map (memberLine isReadonly) ++ [['\x7d', ';'], []]

def declarationsText (isReadonly : Bool) (types : List (String × List (String × String))) :
    List Char :=
  (types.flatMap (blockLines isReadonly)).flatMap (· ++ ['\n'])

theorem renderDeclarations_eq_declarationsText (isReadonly : Bool) (exports : ExportTable) :
    renderDeclarations isReadonly exports = declarationsText isReadonly exports.types := by
  have hmember : ∀ name value, memberDeclaration isReadonly name value =
      memberLine isReadonly (name, declaredType value) ++ ['\n'] := by
    intro name value
    have hend : ";\n".toList = [';'] ++ ['\n'] := rfl
    unfold memberDeclaration memberLine memberStart
    simp only [hend, List.append_assoc]
  have hentry : ∀ entry : String × MemberTable, entryDeclaration isReadonly entry.1 entry.2 =
      (blockLines isReadonly (entry.1, entry.2.types)).flatMap (· ++ ['\n']) := by
    intro entry
    have hheader : ": \x7b\n".toList = [':', ' ', '\x7b', '\n'] := by decide
    have hend : "\x7d;\n\n".toList = ['\x7d', ';', '\n', '\n'] := by decide
    unfold entryDeclaration
    rw [hheader, hend]
    change headerStart ++ _ ++ _ ++ _ ++ _ = _
    simp [blockLines, headerLine, hmember, MemberTable.types, List.flatMap_map]
  simp only [renderDeclarations, declarationsText, ExportTable.types, hentry, List.flatMap_map,
    List.flatMap_assoc]

namespace Reading

/-- What stands between a start and an end. -/
def between? (start close cs : List Char) : Option (List Char) := do
  let rest ← start.isPrefixOf? cs
  close.isSuffixOf? rest

/-- A member and its type, which stands behind the last blank. -/
def readMemberLine (isReadonly : Bool) (line : List Char) : Option (String × String) := do
  let cs ← between? (memberStart isReadonly) [';'] line
  let backwards := cs.reverse
  let name ← " :".toList.isPrefixOf? (backwards.dropWhile (· ≠ ' '))
  return (String.ofList name.reverse, String.ofList (backwards.takeWhile (· ≠ ' ')).reverse)

/-- Reads lines block by block; inside of a block there are its name and the members so far. -/
def readBlocks (isReadonly : Bool) : Option (String × List (String × String)) →
    List (List Char) → Option (List (String × List (String × String)))
  | none, [] => some []
  | none, line :: rest => do
    let name ← between? headerStart [':', ' ', '\x7b'] line
    readBlocks isReadonly (some (String.ofList name, [])) rest
  | some _, [] => none
  | some (name, members), line :: rest =>
    if line = ['\x7d', ';'] then
      match rest with
      | [] :: more => (readBlocks isReadonly none more).map ((name, members) :: ·)
      | _ => none
    else do
      let member ← readMemberLine isReadonly line
      readBlocks isReadonly (some (name, members ++ [member])) rest

def readDeclarations (isReadonly : Bool) (cs : List Char) :
    Option (List (String × List (String × String))) :=
  let lines := cs.splitOn '\n'
  if lines.getLast? = some [] then readBlocks isReadonly none lines.dropLast else none

theorem between?_append (start close cs : List Char) :
    between? start close (start ++ cs ++ close) = some cs := by
  rw [between?, List.append_assoc, isPrefixOf?_append]
  simp [List.isSuffixOf?, isPrefixOf?_append]

theorem readMemberLine_memberLine (isReadonly : Bool) (name : String) {type : String}
    (h : ' ' ∉ type.toList) :
    readMemberLine isReadonly (memberLine isReadonly (name, type)) = some (name, type) := by
  have htype : ∀ c ∈ type.toList.reverse, decide (c ≠ ' ') := by
    rintro c hc
    rw [List.mem_reverse] at hc
    exact decide_eq_true fun he => h (he ▸ hc)
  have hrest : ∀ c ∈ (" :".toList ++ name.toList.reverse).head?, decide (c ≠ ' ') = false := by
    rintro c ⟨⟩
    rfl
  obtain ⟨htake, hdrop⟩ := span_append htype hrest
  have hback : (name.toList ++ ": ".toList ++ type.toList).reverse =
      type.toList.reverse ++ (" :".toList ++ name.toList.reverse) := by
    simp
  rw [readMemberLine, memberLine, between?_append]
  simp only [Option.bind_eq_bind, Option.bind_some, hback, htake, hdrop, isPrefixOf?_append]
  simp

theorem readBlocks_memberLines (isReadonly : Bool) (name : String)
    {members : List (String × String)} (h : ∀ m ∈ members, ' ' ∉ m.2.toList)
    (before : List (String × String)) (rest : List (List Char)) :
    readBlocks isReadonly (some (name, before)) (members.map (memberLine isReadonly) ++ rest) =
      readBlocks isReadonly (some (name, before ++ members)) rest := by
  induction members generalizing before with
  | nil => simp
  | cons m more ih =>
    have hne : memberLine isReadonly m ≠ ['\x7d', ';'] := fun he => by cases he
    rw [List.map_cons, List.cons_append, readBlocks.eq_def]
    simp only [hne, if_false, readMemberLine_memberLine isReadonly m.1 (h m List.mem_cons_self)]
    simpa using ih (fun m' hm => h m' (List.mem_cons_of_mem m hm)) (before ++ [m])

theorem readBlocks_blockLines (isReadonly : Bool) {block : String × List (String × String)}
    (h : ∀ m ∈ block.2, ' ' ∉ m.2.toList) (rest : List (List Char)) :
    readBlocks isReadonly none (blockLines isReadonly block ++ rest) =
      (readBlocks isReadonly none rest).map (block :: ·) := by
  have hheader : between? headerStart [':', ' ', '\x7b'] (headerLine block.1) =
      some block.1.toList := between?_append _ _ _
  rw [blockLines, List.cons_append, List.cons_append, readBlocks, hheader]
  simp only [Option.bind_eq_bind, Option.bind_some, List.append_assoc, String.ofList_toList]
  rw [readBlocks_memberLines isReadonly block.1 h]
  rfl

theorem readBlocks_flatMap (isReadonly : Bool) {types : List (String × List (String × String))}
    (h : ∀ block ∈ types, ∀ m ∈ block.2, ' ' ∉ m.2.toList) :
    readBlocks isReadonly none (types.flatMap (blockLines isReadonly)) = some types := by
  induction types with
  | nil => rfl
  | cons block rest ih =>
    rw [List.flatMap_cons, readBlocks_blockLines isReadonly (h block List.mem_cons_self),
      ih fun b hb => h b (List.mem_cons_of_mem block hb)]
    rfl

theorem splitOn_lines {lines : List (List Char)} (h : ∀ line ∈ lines, '\n' ∉ line) :
    (lines.flatMap (· ++ ['\n'])).splitOn '\n' = lines ++ [[]] := by
  induction lines with
  | nil => rfl
  | cons line rest ih =>
    rw [List.flatMap_cons, List.append_assoc, List.singleton_append,
      List.splitOn_append_cons_self_of_not_mem (h line List.mem_cons_self),
      ih fun l hl => h l (List.mem_cons_of_mem line hl)]
    rfl

/-- A name that stands on one line, and types each of which is one word. -/
structure IsBlock (block : String × List (String × String)) : Prop where
  name : '\n' ∉ block.1.toList
  members : ∀ m ∈ block.2, '\n' ∉ m.1.toList
  types : ∀ m ∈ block.2, ' ' ∉ m.2.toList ∧ '\n' ∉ m.2.toList

theorem notMem_blockLines {block : String × List (String × String)} (h : IsBlock block)
    (isReadonly : Bool) : ∀ line ∈ blockLines isReadonly block, '\n' ∉ line := by
  have hheader : '\n' ∉ headerStart ∧ '\n' ∉ [':', ' ', '\x7b'] := by decide
  have hstart : '\n' ∉ memberStart isReadonly := by cases isReadonly <;> decide
  have hcolon : '\n' ∉ ": ".toList := by decide
  intro line hline
  simp only [blockLines, List.cons_append, List.mem_cons, List.mem_append, List.mem_map,
    List.not_mem_nil, or_false] at hline
  rcases hline with hline | ⟨m, hm, hline⟩ | hline | hline
  · simp only [hline, headerLine, List.mem_append, not_or]
    exact ⟨⟨hheader.1, h.name⟩, hheader.2⟩
  · simp only [← hline, memberLine, List.mem_append, not_or]
    exact ⟨⟨hstart, ⟨h.members m hm, hcolon⟩, (h.types m hm).2⟩, by decide⟩
  · rw [hline]
    decide
  · rw [hline]
    decide

theorem readDeclarations_declarationsText {types : List (String × List (String × String))}
    (h : ∀ block ∈ types, IsBlock block) (isReadonly : Bool) :
    readDeclarations isReadonly (declarationsText isReadonly types) = some types := by
  have hlines : ∀ line ∈ types.flatMap (blockLines isReadonly), '\n' ∉ line := by
    intro line hline
    obtain ⟨block, hblock, hline⟩ := List.mem_flatMap.mp hline
    exact notMem_blockLines (h block hblock) isReadonly line hline
  have hwords : ∀ block ∈ types, ∀ m ∈ block.2, ' ' ∉ m.2.toList := fun block hblock m hm =>
    ((h block hblock).types m hm).1
  rw [readDeclarations, declarationsText, splitOn_lines hlines]
  simp [readBlocks_flatMap isReadonly hwords]

end Reading

end SymbolExport
