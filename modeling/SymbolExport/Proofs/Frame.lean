import SymbolExport.Proofs.Bodies
import SymbolExport.Proofs.ModuleCache
import SymbolExport.Session

/-! What the actions of a process leave as it was, whether they fail or not. -/
namespace SymbolExport

namespace World

/-- The process stays where it is, and what was refused to be written is refused. -/
structure Keeps (before after : World) : Prop where
  cwd : after.cwd = before.cwd
  home : after.home = before.home
  refusal? : after.refusal? = before.refusal?
  encodeFault? : after.encodeFault? = before.encodeFault?

/-- The files stay, modules are searched where they were, and of those that are loaded holds what the
steps of imports obey. -/
structure Reads (before after : World) : Prop extends Keeps before after where
  searchPath : after.searchPath = before.searchPath
  tree : after.tree = before.tree
  obeys : ∀ {root R}, before.searchPath.head? = some root →
    ModuleCache.IsObeyed before.tree root R → R before.modules after.modules

/-- In the end the same modules are loaded as before and are searched where they were; no link is
made, and no module that tells another file for its own. -/
structure Restores (before after : World) : Prop extends Keeps before after where
  searchPath : after.searchPath = before.searchPath
  modules : after.modules = before.modules
  linkFree : before.tree.isLinkFree → after.tree.isLinkFree
  tellsOwnFiles : before.tree.TellsOwnFiles → after.tree.TellsOwnFiles

variable {w before middle after : World}

theorem Keeps.trans (h : before.Keeps middle) (h' : middle.Keeps after) : before.Keeps after :=
  ⟨h'.cwd.trans h.cwd, h'.home.trans h.home, h'.refusal?.trans h.refusal?,
    h'.encodeFault?.trans h.encodeFault?⟩

theorem Reads.refl (w : World) : w.Reads w :=
  ⟨⟨rfl, rfl, rfl, rfl⟩, rfl, rfl, fun _ h => h.refl w.modules⟩

theorem Reads.trans (h : before.Reads middle) (h' : middle.Reads after) : before.Reads after where
  toKeeps := h.toKeeps.trans h'.toKeeps
  searchPath := h'.searchPath.trans h.searchPath
  tree := h'.tree.trans h.tree
  obeys hr ho := ho.trans (h.obeys hr ho)
    (h'.obeys (by rw [h.searchPath, hr]) (by rwa [h.tree]))

theorem Reads.note (h : before.Reads after) (level : LogLevel) (source : LogSource)
    (message : String) : before.Reads (after.note level source message) :=
  ⟨⟨h.cwd, h.home, h.refusal?, h.encodeFault?⟩, h.searchPath, h.tree, h.obeys⟩

theorem Reads.debug (h : before.Reads after) (source : LogSource) (message : String) :
    before.Reads (after.debug source message) :=
  h.note .debug source message

theorem reads_importModule (w : World) (name : String) : w.Reads (w.importModule name).2 := by
  unfold importModule
  split
  · exact .refl w
  · rename_i root rest hp
    refine ⟨⟨rfl, rfl, rfl, rfl⟩, rfl, rfl, ?_⟩
    intro front R hf ho
    rw [hp, List.head?_cons, Option.some.injEq] at hf
    subst hf
    exact ho.importNamed w.modules name

theorem reads_loadType (w : World) (t : ResolvedType) : w.Reads (w.loadType t).2 := by
  have h := reads_importModule w t.moduleName
  unfold loadType
  generalize w.importModule t.moduleName = imported at h ⊢
  obtain ⟨result, after⟩ := imported
  cases result with
  | error fault =>
    dsimp only
    split
    · split
      · exact h
      · exact h.debug _ _
    · exact h.debug _ _
  | ok m =>
    dsimp only
    split
    · exact h
    · exact h.debug _ _

theorem reads_loadTypes (w : World) (types : List ResolvedType) :
    w.Reads (w.loadTypes types).2 := by
  induction types generalizing w with
  | nil => exact .refl w
  | cons t rest ih =>
    have h := reads_loadType w t
    unfold loadTypes
    generalize w.loadType t = loaded at h ⊢
    obtain ⟨result, after⟩ := loaded
    cases result with
    | error r => exact h
    | ok symbol? =>
      have hr := h.trans (ih after)
      dsimp only at hr ⊢
      generalize after.loadTypes rest = others at hr ⊢
      obtain ⟨result, last⟩ := others
      cases result <;> exact hr

theorem reads_extractName (w : World) (source : List Char) (moduleName? : Option String)
    (bases? : Option (List String)) : w.Reads (w.extractName source moduleName? bases?).2 := by
  unfold extractName
  split
  · exact (Reads.refl w).debug _ _
  · exact .refl w

theorem reads_resolveType (w : World) (path importRoot : Path) (bases? : Option (List String)) :
    w.Reads (w.resolveType path importRoot bases?).2 := by
  unfold resolveType
  split
  · exact (Reads.refl w).debug _ _
  · dsimp only
    split
    · exact .refl w
    · exact reads_extractName w _ _ _

theorem reads_extract (w : World) (mode : ExportMode) (policy : Policy) (importRoot : Path)
    (unit : SourceUnit) : w.Reads (w.extract mode policy importRoot unit).2 := by
  have h := reads_resolveType w (.ofLocation unit.path) importRoot mode.baseNames?
  unfold extract
  generalize w.resolveType (.ofLocation unit.path) importRoot mode.baseNames? = resolved at h ⊢
  obtain ⟨result, after⟩ := resolved
  match result with
  | .error failure => exact h
  | .ok none => exact h
  | .ok (some t) =>
    have hl := h.trans (reads_loadType after t)
    dsimp only at hl ⊢
    generalize after.loadType t = loaded at hl ⊢
    obtain ⟨result, last⟩ := loaded
    cases result <;> exact hl

theorem Reads.logOutcome (h : before.Reads after) (report : ExportReport) (e : Extraction) :
    before.Reads (after.logOutcome report e) := by
  unfold World.logOutcome
  dsimp only
  split
  · exact h.debug _ _
  · split
    · exact h.debug _ _
    · exact h

theorem reads_extractAll (w : World) (mode : ExportMode) (policy : Policy) (importRoot : Path)
    (report : ExportReport) (units : List SourceUnit) :
    w.Reads (w.extractAll mode policy importRoot report units).2 := by
  induction units generalizing w report with
  | nil => exact .refl w
  | cons unit rest ih =>
    have h := reads_extract w mode policy importRoot unit
    unfold extractAll
    generalize w.extract mode policy importRoot unit = extracted at h ⊢
    obtain ⟨result, after⟩ := extracted
    cases result with
    | error failure => exact h
    | ok e => exact (h.logOutcome report e).trans (ih _ _)

/-- The state in which a block of imports for a root starts. -/
def opened (w : World) (root : Location) : World :=
  { w with searchPath := root :: w.searchPath }

/-- A block of imports leaves the process where it is, if its action only reads. -/
theorem keeps_importingFrom {α : Type} (w : World) (root : Location)
    {action : World → Except Failure α × World} (ha : ∀ v : World, v.Reads (action v).2) :
    w.Keeps (w.importingFrom root action).2 ∧ (w.importingFrom root action).2.tree = w.tree := by
  have h := ha (w.opened root)
  unfold importingFrom
  generalize hblock : action (w.opened root) = block at h
  obtain ⟨result, after⟩ := block
  rw [opened] at hblock
  simp only [hblock]
  split <;> exact ⟨⟨h.cwd, h.home, h.refusal?, h.encodeFault?⟩, h.tree⟩

/-- Collecting leaves the process where it is, and its files as they are. -/
theorem keeps_collect (x : Exporter) (o : ExportOptions) (w : World) :
    w.Keeps (x.collect o w).2 ∧ (x.collect o w).2.tree = w.tree := by
  unfold Exporter.collect
  split
  · exact ⟨⟨rfl, rfl, rfl, rfl⟩, rfl⟩
  · rename_i units _
    split
    · exact ⟨⟨rfl, rfl, rfl, rfl⟩, rfl⟩
    · rename_i root _
      have h := w.keeps_importingFrom root fun v =>
        reads_extractAll v x.mode (x.policyFor o) o.importRoot {} units
      generalize w.importingFrom root _ = block at h ⊢
      obtain ⟨result, after⟩ := block
      cases result with
      | error failure => exact h
      | ok report => exact ⟨⟨h.1.cwd, h.1.home, h.1.refusal?, h.1.encodeFault?⟩, h.2⟩

theorem Restores.refl (w : World) : w.Restores w :=
  ⟨⟨rfl, rfl, rfl, rfl⟩, rfl, rfl, id, id⟩

theorem Restores.trans (h : before.Restores middle) (h' : middle.Restores after) :
    before.Restores after :=
  ⟨h.toKeeps.trans h'.toKeeps, h'.searchPath.trans h.searchPath, h'.modules.trans h.modules,
    h'.linkFree ∘ h.linkFree, h'.tellsOwnFiles ∘ h.tellsOwnFiles⟩

theorem Restores.note (h : before.Restores after) (level : LogLevel) (source : LogSource)
    (message : String) : before.Restores (after.note level source message) :=
  ⟨⟨h.cwd, h.home, h.refusal?, h.encodeFault?⟩, h.searchPath, h.modules, h.linkFree,
    h.tellsOwnFiles⟩

theorem restores_tree {tree : Tree} (hl : w.tree.isLinkFree → tree.isLinkFree)
    (ht : w.tree.TellsOwnFiles → tree.TellsOwnFiles) : w.Restores { w with tree := tree } :=
  ⟨⟨rfl, rfl, rfl, rfl⟩, rfl, rfl, hl, ht⟩

theorem restores_put {new : Node} (hl : new.isLinkFree) (ht : new.TellsOwnFiles)
    (place : Location) : w.Restores { w with tree := w.tree.put new place } :=
  restores_tree (fun h => Node.isLinkFree_put h hl place) fun h => h.put ht place

theorem restores_requireDirectory (w : World) (p : Path) (fault : PathFault) :
    w.Restores (w.requireDirectory p fault).2 := by
  unfold requireDirectory
  split <;> exact .refl w

theorem restores_made {p : Path} {made : Tree}
    (h : w.tree.makeDirectory w.refusal? w.cwd p = .ok made) :
    w.Restores { w with tree := made } := by
  obtain ⟨place, -, -, -, rfl⟩ := Tree.makeDirectory_eq_ok_iff.mp h
  refine restores_put rfl ?_ place
  simp [Node.TellsOwnFiles, Node.empty, Node.bodies, Node.bodiesIn]

theorem restores_makeDirectory (w : World) (p : Path) : w.Restores (w.makeDirectory p).2 := by
  unfold makeDirectory
  split
  · rename_i tree hm
    exact restores_made hm
  · exact restores_requireDirectory w p _

theorem restores_makeDirectories (w : World) (anchor : PathAnchor) (names : List String) :
    w.Restores (w.makeDirectories anchor names).2 := by
  induction names generalizing w with
  | nil => exact restores_makeDirectory w _
  | cons name outer ih =>
    unfold makeDirectories
    dsimp only
    split
    · have h := ih w
      generalize w.makeDirectories anchor outer = made at h ⊢
      obtain ⟨result, after⟩ := made
      cases result with
      | error failure => exact h
      | ok => exact h.trans (restores_makeDirectory after _)
    · exact restores_requireDirectory w _ _
    · rename_i tree hm
      exact restores_made hm

theorem restores_written {p : Path} {content : List UInt8} {written : Tree}
    (h : w.tree.write w.refusal? w.cwd p content = .ok written) :
    w.Restores { w with tree := written } := by
  obtain ⟨place, body, -, hbody, -, rfl⟩ := Tree.write_eq_ok_iff.mp h
  refine restores_tree (fun hl => Node.isLinkFree_put hl rfl place) fun ht => ht.put ?_ place
  intro other ho
  rw [Node.bodies, List.mem_singleton] at ho
  subst ho
  rcases hbody with ⟨-, rfl⟩ | ⟨old, ha⟩
  · rfl
  · exact ht other (Node.mem_bodies_of_at? ha (by simp [Node.bodies]))

theorem restores_writeBytes (w : World) (path : Path) (bytes : List UInt8) :
    w.Restores (w.writeBytes path bytes).2 := by
  have h := restores_makeDirectories w path.parent.anchor path.parent.parts.reverse
  unfold writeBytes
  generalize w.makeDirectories path.parent.anchor path.parent.parts.reverse = made at h ⊢
  obtain ⟨result, after⟩ := made
  cases result with
  | error failure => exact h
  | ok =>
    dsimp only
    split
    · rename_i tree hw
      exact h.trans (restores_written hw)
    · exact h

theorem restores_writeFile (w : World) (path : Path) (content : List Char) :
    w.Restores (w.writeFile path content).2 := by
  unfold writeFile
  split
  · exact restores_writeBytes w path _
  · have h := restores_writeBytes w path []
    generalize w.writeBytes path [] = written at h ⊢
    obtain ⟨result, after⟩ := written
    cases result <;> exact h

theorem restores_writeReport (x : Exporter) (o : ExportOptions) (report : ExportReport)
    (w : World) : w.Restores (x.writeReport o report w).2 := by
  unfold Exporter.writeReport
  split
  · exact .refl w
  · split
    · exact .refl w
    · rename_i text _
      have h := restores_writeFile w o.outputPath text
      generalize w.writeFile o.outputPath text = written at h ⊢
      obtain ⟨result, after⟩ := written
      cases result with
      | error failure => exact h
      | ok =>
        dsimp only
        split
        · unfold Exporter.writeDeclarations
          split
          · exact h
          · rename_i path _
            dsimp only
            have hd := h.trans (restores_writeFile after path
              (renderDeclarations x.isReadonly report.entries))
            generalize after.writeFile path _ = last at hd ⊢
            obtain ⟨result, last⟩ := last
            cases result <;> exact hd
        · exact h

theorem restores_place (w : World) (path : Path) {node : Node} (hl : node.isLinkFree)
    (ht : node.TellsOwnFiles) : w.Restores (w.place path node) := by
  have h := restores_makeDirectories w path.parent.anchor path.parent.parts.reverse
  unfold place
  generalize w.makeDirectories path.parent.anchor path.parent.parts.reverse = made at h ⊢
  obtain ⟨result, after⟩ := made
  dsimp only at h ⊢
  split
  · rename_i place _
    exact h.trans (restores_put hl ht place)
  · exact h

theorem restores_discard (w : World) (path : Path) : w.Restores (w.discard path) := by
  unfold discard
  split
  · rename_i place _
    exact restores_tree (fun hl => Node.isLinkFree_remove hl place) fun ht => ht.remove place
  · exact .refl w

end World

end SymbolExport
