import SymbolExport.Proofs.Surface

/-!
Writing over a file. What a file holds decides no way through a tree, so every path leads to the
place that it led to before, by whatever links.
-/
namespace SymbolExport

/-- What a node is to somebody who passes by. -/
inductive NodeKind
  | file
  | link (target : String)
  | directory

def Node.kind : Node → NodeKind
  | .file .. => .file
  | .link target => .link target
  | .directory _ => .directory

namespace Tree

/-- Trees with nodes of the same kinds in the same places. -/
def SameWays (tree other : Tree) : Prop :=
  ∀ q, (other.at? q).map Node.kind = (tree.at? q).map Node.kind

variable {tree other : Tree} {content old : List UInt8} {body : ModuleBody} {place q : Location}
  {cwd : Location} {p : Path} {target : String} {entries : List (String × Node)}

theorem SameWays.symm (h : tree.SameWays other) : other.SameWays tree :=
  fun q => (h q).symm

theorem SameWays.of_none (h : tree.SameWays other) (ha : tree.at? q = none) : other.at? q = none := by
  have hq := h q
  rw [ha] at hq
  exact Option.map_eq_none_iff.mp hq

theorem SameWays.of_some {node : Node} (h : tree.SameWays other) (ha : tree.at? q = some node) :
    ∃ node', other.at? q = some node' ∧ node'.kind = node.kind := by
  have hq := h q
  rw [ha] at hq
  exact Option.map_eq_some_iff.mp hq

theorem SameWays.of_link (h : tree.SameWays other) (ha : tree.at? q = some (.link target)) :
    other.at? q = some (.link target) := by
  obtain ⟨node, hnode, hkind⟩ := h.of_some ha
  cases node <;> simp_all [Node.kind]

theorem SameWays.of_directory (h : tree.SameWays other)
    (ha : tree.at? q = some (.directory entries)) :
    ∃ entries', other.at? q = some (.directory entries') := by
  obtain ⟨node, hnode, hkind⟩ := h.of_some ha
  cases node <;> simp_all [Node.kind]

/-- Nothing but a directory is passed through. -/
theorem SameWays.of_notDirectory {node : Node} (h : tree.SameWays other)
    (hn : ∀ entries, node ≠ .directory entries) (ha : tree.at? q = some node) :
    ∃ node', other.at? q = some node' ∧ ∀ entries, node' ≠ .directory entries := by
  obtain ⟨node', hnode, hkind⟩ := h.of_some ha
  refine ⟨node', hnode, ?_⟩
  rintro entries rfl
  cases node <;> simp_all [Node.kind]

/-- Nothing but a link leads elsewhere. -/
theorem SameWays.of_notLink {node : Node} (h : tree.SameWays other)
    (hn : ∀ target, node ≠ .link target) (ha : tree.at? q = some node) :
    ∃ node', other.at? q = some node' ∧ ∀ target, node' ≠ .link target := by
  obtain ⟨node', hnode, hkind⟩ := h.of_some ha
  refine ⟨node', hnode, ?_⟩
  rintro target rfl
  cases node <;> simp_all [Node.kind]

theorem SameWays.locate_eq (h : tree.SameWays other) (followLast : Bool) (links : Nat)
    (here : Location) (names : List String) :
    other.locate followLast links here names = tree.locate followLast links here names := by
  fun_induction locate tree followLast links here names with
  | case1 links here => rw [locate]
  | case2 links here rest entries hd ih =>
    obtain ⟨entries', hd'⟩ := h.of_directory hd
    simp only [locate, hd', if_true, ih]
  | case3 links here name rest entries hd hn target hlink hlast =>
    obtain ⟨entries', hd'⟩ := h.of_directory hd
    simp only [locate, hd', hn, if_false, h.of_link hlink, hlast, if_true]
  | case4 here name rest entries hd hn target hlink hlast =>
    obtain ⟨entries', hd'⟩ := h.of_directory hd
    simp only [locate, hd', hn, if_false, h.of_link hlink, hlast, Bool.false_eq_true]
  | case5 here name rest entries hd hn target hlink hlast links goal ih =>
    obtain ⟨entries', hd'⟩ := h.of_directory hd
    simp only [locate, hd', hn, if_false, h.of_link hlink, hlast]
    exact ih
  | case6 links here name rest entries hd hn node hnode ha ih =>
    obtain ⟨entries', hd'⟩ := h.of_directory hd
    obtain ⟨node', ha', hnode'⟩ := h.of_notLink hnode ha
    simp only [locate, hd', hn, if_false, ha', ih]
  | case7 links here name rest entries hd hn hnone hlast =>
    obtain ⟨entries', hd'⟩ := h.of_directory hd
    simp only [locate, hd', hn, if_false, h.of_none hnone, hlast, if_true]
  | case8 links here name rest entries hd hn hnone hlast =>
    obtain ⟨entries', hd'⟩ := h.of_directory hd
    simp only [locate, hd', hn, if_false, h.of_none hnone, hlast, Bool.false_eq_true]
  | case9 links here name rest node hnode ha =>
    obtain ⟨node', ha', hnode'⟩ := h.of_notDirectory hnode ha
    simp only [locate, ha']
  | case10 links here name rest hnone => simp only [locate, h.of_none hnone]

theorem SameWays.stat_eq (h : tree.SameWays other) (cwd : Location) (p : Path) :
    (other.stat cwd p).map Node.kind = (tree.stat cwd p).map Node.kind := by
  unfold stat find
  rw [h.locate_eq]
  cases tree.locate true maxLinks (if p.isAbsolute then [] else cwd) p.parts with
  | error fault => rfl
  | ok place =>
    have hplace := h place
    cases ha : tree.at? place <;> cases ha' : other.at? place <;>
      simp_all [bind, Except.bind, Except.map]

theorem SameWays.follow_eq (h : tree.SameWays other) (depth : Nat) (pending : List Location)
    (here : Location) (names : List String) :
    other.follow depth pending here names = tree.follow depth pending here names := by
  fun_induction follow tree depth pending here names with
  | case1 depth pending here => rw [follow]
  | case2 depth pending here rest ih => rw [follow, if_pos rfl, ih]
  | case3 pending here name rest hn target hlink =>
    simp only [follow, hn, if_false, h.of_link hlink]
  | case4 pending here name rest hn target hlink depth hpending =>
    simp only [follow, hn, if_false, h.of_link hlink, hpending, if_true]
  | case5 pending here name rest hn target hlink depth hpending goal start place hinner ihInner ih =>
    simp only [follow, hn, if_false, h.of_link hlink, hpending]
    rw [show other.follow depth ((here ++ [name]) :: pending)
      (if (Path.ofString target).isAbsolute then [] else here) (Path.ofString target).parts =
        .ok place from ihInner.trans hinner]
    exact ih
  | case6 pending here name rest hn target hlink depth hpending goal start loop hinner ihInner =>
    simp only [follow, hn, if_false, h.of_link hlink, hpending]
    rw [show other.follow depth ((here ++ [name]) :: pending)
      (if (Path.ofString target).isAbsolute then [] else here) (Path.ofString target).parts =
        .error loop from ihInner.trans hinner]
  | case7 depth pending here name rest hn hnot ih =>
    rw [follow, if_neg hn]
    split
    · rename_i target ha
      exact absurd (h.symm.of_link ha) (hnot target)
    · exact ih

theorem SameWays.resolve_eq (h : tree.SameWays other) (cwd : Location) (p : Path) :
    other.resolve cwd p = tree.resolve cwd p := by
  unfold resolve
  rw [h.follow_eq]
  split
  · rfl
  · rename_i loop _
    have hstat := h.stat_eq [] (.ofLocation (normalize [] loop.stuck))
    dsimp only
    cases hs : tree.stat [] (.ofLocation (normalize [] loop.stuck)) <;>
      cases ho : other.stat [] (.ofLocation (normalize [] loop.stuck)) <;>
        simp_all [Except.map]

theorem sameWays_put (ha : tree.at? place = some (.file old body)) (content : List UInt8) :
    tree.SameWays (tree.put (.file content body) place) := by
  induction place generalizing tree with
  | nil =>
    obtain rfl : tree = .file old body := by simpa [Node.at?] using ha
    intro q
    cases q <;> rfl
  | cons first rest ih =>
    obtain ⟨child, hc, hr⟩ := Option.bind_eq_some_iff.mp ha
    cases tree with
    | directory entries =>
      intro q
      cases q with
      | nil => rfl
      | cons name more =>
        simp only [Node.entry?] at hc
        rw [Node.put_cons, Node.at?_insert, hc, Option.getD_some]
        split
        · rename_i hname
          subst hname
          have hmore := ih hr more
          simp only [Node.at?, Node.entry?, hc, Option.bind_some]
          exact hmore
        · rfl
    | file | link => simp [Node.entry?] at hc

theorem read_eq_ok_iff : tree.read cwd p = .ok content ↔
    ∃ place body, tree.find cwd p true = .ok place ∧
      tree.at? place = some (.file content body) := by
  unfold read stat
  cases tree.find cwd p true with
  | error fault => simp [bind, Except.bind]
  | ok place =>
    simp only [bind, Except.bind, Except.ok.injEq, exists_and_left, exists_eq_left']
    cases tree.at? place with
    | none => simp
    | some node => cases node <;> simp

/-- A file that can be read can be written over if that is not refused, and then has the new bytes;
all ways are the same. -/
theorem exists_write_of_read {refusal? : Location → Option PathFault}
    (h : tree.read cwd p = .ok old)
    (hr : ∀ place, tree.find cwd p true = .ok place → refusal? place = none)
    (content : List UInt8) :
    ∃ changed, tree.write refusal? cwd p content = .ok changed ∧ tree.SameWays changed ∧
      changed.read cwd p = .ok content := by
  obtain ⟨place, body, hf, ha⟩ := read_eq_ok_iff.mp h
  have hways := sameWays_put ha content
  have hnew : Node.at? (tree.put (.file content body) place) place =
      some (.file content body) := by
    simpa [Node.put] using Node.at?_put_front ha (.file content body) []
  have hfind : Tree.find (tree.put (.file content body) place) cwd p true = .ok place := by
    rw [find, hways.locate_eq, ← find, hf]
  refine ⟨tree.put (.file content body) place, ?_, hways,
    read_eq_ok_iff.mpr ⟨place, body, hfind, hnew⟩⟩
  exact write_eq_ok_iff.mpr ⟨place, body, hf, Or.inr ⟨old, ha⟩, hr place hf, rfl⟩

end Tree

end SymbolExport
