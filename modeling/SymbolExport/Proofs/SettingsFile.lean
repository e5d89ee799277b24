import SymbolExport.Proofs.Resolution
import SymbolExport.Settings

/-!
What the bytes of a settings file lead to. A file that is no text, no document, or a document of
another form should be reported as a fault of its form. Four kinds of contents escape this rule,
whatever reader makes the documents.
-/
namespace SymbolExport

open SymbolExport.Text SymbolExport.Yaml

/-- The text in the bytes of a file, with line feeds at the line ends. -/
def fileText? (bytes : List UInt8) : Option (List Char) :=
  (decodeUtf8 bytes).toOption.map unifyLineEnds

/-- Whether a content has the form of settings: null is none, and a table has entries. -/
def Yaml.Content.isSettings : Content → Bool
  | .scalar .null | .table _ => true
  | _ => false

/-- Whether a fault is told as one of the form of the settings file. -/
def SettingsFault.isOfForm : SettingsFault → Bool
  | failed _ | undecodable _ => false
  | unparsable _ f => f = .malformed
  | notTable _ => true

/-- The rule: there are settings only for a text that is blank or of their form, and every other
content is a fault of form. -/
def FollowsForm (read : DocumentReader) (bytes : List UInt8) : Except SettingsFault Settings → Prop
  | .error fault => fault.isOfForm
  | .ok _ => ∃ text, fileText? bytes = some text ∧
      (allBlank text ∨ ∃ d, read text = .ok d ∧ d.root.isSettings)

/-- The contents that escape the rule: bytes that are no text, texts on which the reader fails though
they are well-formed, as on an ill-formed scalar, documents of another form that count as nothing,
and settings with a number that is too long to be written out. -/
inductive EscapesForm (read : DocumentReader) (bytes : List UInt8) : Prop
  | undecodable (h : fileText? bytes = none)
  | unreadable {text : List Char} {fault : Fault} (h : fileText? bytes = some text)
      (hb : ¬ allBlank text) (hd : read text = .error fault) (hf : fault ≠ .malformed)
  | nothing {text : List Char} {d : Document} (h : fileText? bytes = some text)
      (hb : ¬ allBlank text) (hd : read text = .ok d) (hn : d.root.isNothing)
      (hs : ¬ d.root.isSettings)
  | overlong {text : List Char} {d : Document} {entries : List (ScalarValue × Nat)}
      {v : ScalarValue} (h : fileText? bytes = some text) (hb : ¬ allBlank text)
      (hd : read text = .ok d) (ht : d.root = .table entries)
      (hv : v ∈ d.settingTexts entries) (hl : isOverlong v)

variable {w : World} {read : DocumentReader} {p : Path} {file : Location} {bytes : List UInt8}

/-- Of a settings file that is there its bytes decide. -/
theorem World.loadSettings_of_read (read : DocumentReader) (hf : w.settingsFile p = .ok file)
    (hr : w.tree.read w.cwd (.ofLocation file) = .ok bytes) :
    ∃ root, w.loadSettings read p =
      match decodeUtf8 bytes with
      | .error e => .error (.undecodable e)
      | .ok cs => Settings.ofText read root (Path.ofLocation file).name (unifyLineEnds cs) := by
  have hstat : ∃ body, w.tree.stat w.cwd (.ofLocation file) = .ok (.file bytes body) := by
    unfold Tree.read at hr
    split at hr
    · rename_i content body hs
      cases hr
      exact ⟨body, hs⟩
    · cases hr
    · cases hr
  obtain ⟨body, hstat⟩ := hstat
  obtain ⟨root, hroot⟩ := Tree.resolve_parent_of_stat hstat
  have hexists : w.tree.exists? w.cwd (.ofLocation file) := by
    simp [Tree.exists?, hstat, Except.isOk, Except.toBool]
  refine ⟨root, ?_⟩
  simp only [loadSettings, hf, hr, hexists, resolve, hroot, Except.mapError, bind, Except.bind]
  cases decodeUtf8 bytes <;> rfl

/-- Whether a text escapes the rule is seen from what is read from it. -/
theorem escapesForm_iff {text : List Char} (h : fileText? bytes = some text) :
    EscapesForm read bytes ↔ ¬ allBlank text ∧
      match read text with
      | .error fault => fault ≠ .malformed
      | .ok d => (d.root.isNothing ∧ ¬ d.root.isSettings) ∨
          ∃ entries, d.root = .table entries ∧ (d.settingTexts entries).any isOverlong := by
  constructor
  · rintro (hnone | ⟨htext, hb, hd, hf⟩ | ⟨htext, hb, hd, hn, hs⟩ | ⟨htext, hb, hd, ht, hv, hl⟩)
    · rw [h] at hnone
      cases hnone
    · obtain rfl := Option.some.inj (h.symm.trans htext)
      rw [hd]
      exact ⟨hb, hf⟩
    · obtain rfl := Option.some.inj (h.symm.trans htext)
      rw [hd]
      exact ⟨hb, Or.inl ⟨hn, hs⟩⟩
    · obtain rfl := Option.some.inj (h.symm.trans htext)
      rw [hd]
      exact ⟨hb, Or.inr ⟨_, ht, List.any_eq_true.mpr ⟨_, hv, hl⟩⟩⟩
  · rintro ⟨hb, hread⟩
    cases hd : read text with
    | error fault =>
      rw [hd] at hread
      exact .unreadable h hb hd hread
    | ok d =>
      rw [hd] at hread
      obtain ⟨hn, hs⟩ | ⟨entries, ht, hany⟩ := hread
      · exact .nothing h hb hd hn hs
      · obtain ⟨v, hv, hl⟩ := List.any_eq_true.mp hany
        exact .overlong h hb hd ht hv hl

/-- A document that counts as nothing has no texts of settings. -/
theorem Yaml.Document.settingTexts_of_isNothing {d : Document} {entries : List (ScalarValue × Nat)}
    (hn : d.root.isNothing) (ht : d.root = .table entries) : d.settingTexts entries = [] := by
  rw [ht, Content.isNothing, List.isEmpty_iff] at hn
  rw [hn]
  rfl

/-- The settings in a text follow the rule unless the text is one of those that escape it. -/
theorem followsForm_ofText_iff {text : List Char} (h : fileText? bytes = some text)
    (root : Location) (name : String) :
    FollowsForm read bytes (Settings.ofText read root name text) ↔ ¬ EscapesForm read bytes := by
  rw [escapesForm_iff h, Settings.ofText]
  by_cases hb : allBlank text
  · simp [FollowsForm, h, hb]
  · rw [if_neg hb]
    cases hd : read text with
    | error fault => simp [FollowsForm, SettingsFault.isOfForm, hb]
    | ok d =>
      dsimp only
      by_cases hn : d.root.isNothing
      · have hnone : ∀ entries, d.root = .table entries → d.settingTexts entries = [] :=
          fun entries ht => Document.settingTexts_of_isNothing hn ht
        rw [if_pos hn]
        simp +contextual [FollowsForm, h, hb, hd, hn, hnone]
      · rw [if_neg hn]
        cases hroot : d.root with
        | table entries =>
          dsimp only
          cases hl : (d.settingTexts entries).any isOverlong with
          | true => simp_all [FollowsForm, SettingsFault.isOfForm]
          | false => simp_all [FollowsForm, Content.isSettings]
        | _ => simp_all [FollowsForm, SettingsFault.isOfForm]

/-- With every reader, a settings file follows the rule of its form exactly if its content is none of
those that escape it. -/
theorem World.followsForm_loadSettings_iff (hf : w.settingsFile p = .ok file)
    (hr : w.tree.read w.cwd (.ofLocation file) = .ok bytes) :
    FollowsForm read bytes (w.loadSettings read p) ↔ ¬ EscapesForm read bytes := by
  obtain ⟨root, hload⟩ := World.loadSettings_of_read read hf hr
  rw [hload]
  cases hdecode : decodeUtf8 bytes with
  | error e =>
    have hescapes : EscapesForm read bytes :=
      .undecodable (by simp [fileText?, hdecode, Except.toOption])
    simp [FollowsForm, SettingsFault.isOfForm, hescapes]
  | ok cs =>
    have htext : fileText? bytes = some (unifyLineEnds cs) := by
      simp [fileText?, hdecode, Except.toOption]
    exact followsForm_ofText_iff htext root _

/-- A project with an empty list for its settings. -/
def listSettings : World where
  tree := .directory [(settingsFileName, .file (encodeUtf8 "[]\n".toList) {})]
  cwd := []
  home := []

theorem settingsFile_listSettings :
    listSettings.settingsFile (.ofLocation []) = .ok [settingsFileName] := by
  cbv

theorem read_listSettings :
    listSettings.tree.read listSettings.cwd (.ofLocation [settingsFileName]) =
      .ok (encodeUtf8 "[]\n".toList) := by
  cbv

theorem followsForm_loadSettings_iff_listSettings :
    listSettings.settingsFile (.ofLocation []) = .ok [settingsFileName] ∧
      listSettings.tree.read listSettings.cwd (.ofLocation [settingsFileName]) =
        .ok (encodeUtf8 "[]\n".toList) ∧
      (FollowsForm Document.read (encodeUtf8 "[]\n".toList)
          (listSettings.loadSettings Document.read (.ofLocation [])) ↔
        ¬ EscapesForm Document.read (encodeUtf8 "[]\n".toList)) :=
  ⟨settingsFile_listSettings, read_listSettings,
    World.followsForm_loadSettings_iff settingsFile_listSettings read_listSettings⟩

theorem isNothing_emptyList :
    (Document.read "[]\n".toList).map (fun d => (d.root.isNothing, d.root.isSettings)) =
      .ok (true, false) := by
  decide +kernel

/-- An empty list is silently taken for no settings. -/
theorem loadSettings_listSettings :
    listSettings.settingsFile (.ofLocation []) = .ok [settingsFileName] ∧
      listSettings.tree.read listSettings.cwd (.ofLocation [settingsFileName]) =
        .ok (encodeUtf8 "[]\n".toList) ∧
      (∃ root, listSettings.loadSettings Document.read (.ofLocation []) = .ok { root := root }) ∧
      ¬ FollowsForm Document.read (encodeUtf8 "[]\n".toList)
        (listSettings.loadSettings Document.read (.ofLocation [])) := by
  have hdecode : decodeUtf8 (encodeUtf8 "[]\n".toList) = .ok "[]\n".toList := by rfl
  have hlines : unifyLineEnds "[]\n".toList = "[]\n".toList := by rfl
  have hblank : allBlank "[]\n".toList = false := by decide +kernel
  cases hd : Document.read "[]\n".toList with
  | error fault =>
    have := isNothing_emptyList
    rw [hd] at this
    cases this
  | ok d =>
    have hroot := isNothing_emptyList
    simp only [hd, Except.map, Except.ok.injEq, Prod.mk.injEq] at hroot
    obtain ⟨root, hload⟩ :=
      World.loadSettings_of_read Document.read settingsFile_listSettings read_listSettings
    simp only [hdecode, hlines, Settings.ofText, hblank, hd, hroot.1] at hload
    refine ⟨settingsFile_listSettings, read_listSettings, ⟨root, hload⟩, ?_⟩
    rw [hload]
    rintro ⟨text, htext, hform⟩
    simp only [fileText?, hdecode, Except.toOption, Option.map_some, hlines,
      Option.some.injEq] at htext
    rw [← htext, hblank, hd] at hform
    obtain hblanks | ⟨d', hread, hs⟩ := hform
    · cases hblanks
    · cases hread
      rw [hroot.2] at hs
      cases hs

end SymbolExport
