import Mathlib.Data.List.Induction
import Mathlib.Data.List.Nodup
import SymbolExport.Request
import SymbolExport.Proofs.Alike

/-!
Which commands are found. The first plugin that is no command ends the search with its fault. If
there is none, each name has the first command that comes with it, so no name is ambiguous on the
command line.
-/
namespace SymbolExport

/-- Why a plugin gives no command. What cannot be caught passes as it is. -/
inductive Plugin.HasFault (p : Plugin) : PluginFault → Prop
  | notLoaded {r : Raised} (hp : p.content = .raises r) (hr : r.isAbort = false) :
      HasFault p (.notLoaded p.name r)
  | aborted {r : Raised} (hp : p.content = .raises r) (hr : r.isAbort) : HasFault p (.aborted r)
  | noCommand {s : Symbol} (hp : p.content = .other s) : HasFault p (.noCommand p.name)

/-- A fault of a plugin behind others that all are commands. -/
def Installation.FailsFirst (i : Installation) (fault : PluginFault) : Prop :=
  ∃ front p back, i.plugins = front ++ p :: back ∧
    (∀ q ∈ front, ∃ c, q.content = .command c) ∧ p.HasFault fault

/-- Adds a command unless its name is taken. -/
def addCommand (commands : List Command) (c : Command) : List Command :=
  if c.name ∈ commands.map Command.name then commands else commands ++ [c]

/-- The commands with a name that is not taken, neither from the start nor by one before them. -/
def firstOfEachName (taken : List String) (loaded : List Command) : List Command :=
  (loaded.zipIdx.filter fun entry =>
    entry.1.name ∉ taken ++ (loaded.take entry.2).map Command.name).map Prod.fst

/-- Adds a name to those that a command line takes, with its help. No name may come twice. -/
def addChoice (choices : List (String × String)) (c : Command) :
    Option (List (String × String)) :=
  if c.name ∈ choices.map Prod.fst then none else some (choices ++ [(c.name, c.help)])

def Installation.givenCommands (i : Installation) : List Command :=
  [.enums i.minimumVersion, .constants]

/-- What is found where all plugins are commands. -/
structure Installation.Finds (i : Installation) (commands : List Command) : Prop where
  found : ∃ loaded : List Command, i.plugins.map Plugin.content = loaded.map PluginContent.command ∧
    commands = i.givenCommands ++ firstOfEachName (i.givenCommands.map Command.name) loaded
  names : (commands.map Command.name).Nodup
  line : ∃ choices, commands.foldlM addChoice [] = some choices ∧
    (mainLine commands).operand = .command "command" choices

variable {i : Installation} {p : Plugin} {plugins : List Plugin} {fault : PluginFault}
  {c : Command} {commands loaded : List Command} {taken : List String} {name : String}

/-! One plugin. -/

theorem Plugin.command_eq_ok_iff : p.command = .ok c ↔ p.content = .command c := by
  unfold command
  split <;> simp_all

theorem Plugin.command_eq_error_iff : p.command = .error fault ↔ p.HasFault fault := by
  constructor
  · intro h
    unfold command at h
    split at h
    · cases h
    · rename_i s hp
      cases h
      exact .noCommand hp
    · rename_i r hp
      cases h
      split
      · exact .aborted hp ‹_›
      · exact .notLoaded hp (by simp_all)
  · rintro (⟨hp, hr⟩ | ⟨hp, hr⟩ | hp) <;> simp [command, *]

theorem Plugin.HasFault.not_command (h : p.HasFault fault) : p.content ≠ .command c := by
  cases h <;> simp_all

/-! All plugins in order. -/

theorem addPlugins_cons (commands : List Command) (p : Plugin) (rest : List Plugin) :
    addPlugins commands (p :: rest) =
      p.command.bind fun c => addPlugins (addCommand commands c) rest := rfl

theorem addPlugins_eq_ok_iff {all : List Command} : addPlugins commands plugins = .ok all ↔
    ∃ loaded : List Command, plugins.map Plugin.content = loaded.map PluginContent.command ∧
      all = loaded.foldl addCommand commands := by
  induction plugins generalizing commands with
  | nil =>
    simp [addPlugins, eq_comm]
  | cons p rest ih =>
    rw [addPlugins_cons]
    constructor
    · intro h
      obtain ⟨c, hc, hrest⟩ := exists_of_bind_eq_ok h
      obtain ⟨loaded, hloaded, rfl⟩ := ih.mp hrest
      exact ⟨c :: loaded, by simp [Plugin.command_eq_ok_iff.mp hc, hloaded], rfl⟩
    · rintro ⟨loaded, hloaded, rfl⟩
      cases loaded with
      | nil => cases hloaded
      | cons c loaded =>
        obtain ⟨hp, hrest⟩ := List.cons.inj hloaded
        rw [Plugin.command_eq_ok_iff.mpr hp]
        exact ih.mpr ⟨loaded, hrest, rfl⟩

theorem addPlugins_eq_error_iff : addPlugins commands plugins = .error fault ↔
    ∃ front p back, plugins = front ++ p :: back ∧
      (∀ q ∈ front, ∃ c, q.content = .command c) ∧ p.HasFault fault := by
  induction plugins generalizing commands with
  | nil => simp [addPlugins]
  | cons p rest ih =>
    rw [addPlugins_cons]
    constructor
    · intro h
      cases hp : p.command with
      | error f =>
        rw [hp] at h
        cases h
        exact ⟨[], p, rest, rfl, by simp, Plugin.command_eq_error_iff.mp hp⟩
      | ok c =>
        rw [hp] at h
        obtain ⟨front, q, back, rfl, hfront, hq⟩ := ih.mp h
        exact ⟨p :: front, q, back, rfl,
          List.forall_mem_cons.mpr ⟨⟨c, Plugin.command_eq_ok_iff.mp hp⟩, hfront⟩, hq⟩
    · rintro ⟨front, q, back, hplugins, hfront, hq⟩
      cases front with
      | nil =>
        obtain ⟨rfl, rfl⟩ := List.cons.inj hplugins
        rw [Plugin.command_eq_error_iff.mpr hq]
        rfl
      | cons first front =>
        obtain ⟨rfl, rfl⟩ := List.cons.inj hplugins
        obtain ⟨⟨c, hc⟩, hfront⟩ := List.forall_mem_cons.mp hfront
        rw [Plugin.command_eq_ok_iff.mpr hc]
        exact ih.mpr ⟨front, q, back, rfl, hfront, hq⟩

/-! The names among the commands. -/

theorem mem_names_addCommand : name ∈ (addCommand commands c).map Command.name ↔
    name ∈ commands.map Command.name ∨ name = c.name := by
  unfold addCommand
  split
  · refine ⟨Or.inl, ?_⟩
    rintro (h | rfl)
    · exact h
    · assumption
  · simp

theorem mem_names_foldl : name ∈ (loaded.foldl addCommand commands).map Command.name ↔
    name ∈ commands.map Command.name ++ loaded.map Command.name := by
  induction loaded generalizing commands with
  | nil => simp
  | cons c rest ih =>
    rw [List.foldl_cons, ih, List.mem_append, mem_names_addCommand, List.map_cons,
      List.mem_append, List.mem_cons, or_assoc]

theorem nodup_addCommand (h : (commands.map Command.name).Nodup) :
    ((addCommand commands c).map Command.name).Nodup := by
  unfold addCommand
  split
  · exact h
  · rename_i hc
    rw [List.map_append, List.nodup_append]
    refine ⟨h, List.nodup_singleton _, fun name hm other ho => ?_⟩
    rw [List.mem_singleton.mp ho]
    rintro rfl
    exact hc hm

theorem nodup_foldl (loaded : List Command) (h : (commands.map Command.name).Nodup) :
    ((loaded.foldl addCommand commands).map Command.name).Nodup := by
  induction loaded generalizing commands with
  | nil => exact h
  | cons c rest ih => exact ih (nodup_addCommand h)

theorem firstOfEachName_concat : firstOfEachName taken (loaded ++ [c]) =
    firstOfEachName taken loaded ++
      if c.name ∈ taken ++ loaded.map Command.name then [] else [c] := by
  -- what stands before a command is the same in the longer list
  have hfront : (loaded.zipIdx.filter fun entry => entry.1.name ∉
        taken ++ ((loaded ++ [c]).take entry.2).map Command.name) =
      loaded.zipIdx.filter fun entry =>
        entry.1.name ∉ taken ++ (loaded.take entry.2).map Command.name := by
    refine List.filter_congr fun entry hentry => ?_
    have hlt := List.snd_lt_of_mem_zipIdx hentry
    rw [List.take_append_of_le_length (by omega)]
  unfold firstOfEachName
  have hall : (loaded ++ [c]).take loaded.length = loaded := List.take_left
  rw [List.zipIdx_append, List.filter_append, List.map_append, hfront]
  congr 1
  simp only [List.zipIdx_singleton, Nat.zero_add, List.filter_cons, hall, List.filter_nil]
  by_cases hc : c.name ∈ taken ++ loaded.map Command.name <;> simp only [hc] <;> rfl

/-- Adding one after the other leaves those with a new name, in their order. -/
theorem foldl_addCommand (commands loaded : List Command) : loaded.foldl addCommand commands =
    commands ++ firstOfEachName (commands.map Command.name) loaded := by
  induction loaded using List.reverseRecOn with
  | nil => simp [firstOfEachName]
  | append_singleton front c ih =>
    rw [List.foldl_append, List.foldl_cons, List.foldl_nil, addCommand, firstOfEachName_concat]
    simp only [mem_names_foldl]
    split
    · rw [ih, List.append_nil]
    · rw [ih, List.append_assoc]

/-- Names are refused only where one comes twice. -/
theorem foldlM_addChoice (choices : List (String × String))
    (h : (choices.map Prod.fst ++ commands.map Command.name).Nodup) :
    commands.foldlM addChoice choices =
      some (choices ++ commands.map fun c => (c.name, c.help)) := by
  induction commands generalizing choices with
  | nil => simp
  | cons c rest ih =>
    have hc : c.name ∉ choices.map Prod.fst := by
      intro hm
      rw [List.nodup_append] at h
      exact h.2.2 _ hm c.name (by simp) rfl
    rw [List.foldlM_cons, addChoice, if_neg hc]
    have hmore : ((choices ++ [(c.name, c.help)]).map Prod.fst ++
        rest.map Command.name).Nodup := by simpa using h
    refine (ih _ hmore).trans ?_
    simp

namespace Installation

theorem nodup_givenCommands (i : Installation) :
    (i.givenCommands.map Command.name).Nodup := by
  simp [givenCommands, Command.enums, Command.constants]

theorem commands_eq_ok_iff : i.commands = .ok commands ↔ i.Finds commands := by
  refine addPlugins_eq_ok_iff.trans ⟨?_, ?_⟩
  · rintro ⟨loaded, hloaded, rfl⟩
    have hnames := nodup_foldl loaded i.nodup_givenCommands
    exact ⟨⟨loaded, hloaded, foldl_addCommand _ _⟩, hnames, _, foldlM_addChoice [] hnames, rfl⟩
  · rintro ⟨⟨loaded, hloaded, rfl⟩, -, -⟩
    exact ⟨loaded, hloaded, (foldl_addCommand _ _).symm⟩

theorem commands_eq_error_iff : i.commands = .error fault ↔ i.FailsFirst fault :=
  addPlugins_eq_error_iff

theorem FailsFirst.exists_mem (h : i.FailsFirst fault) : ∃ p ∈ i.plugins, p.HasFault fault := by
  obtain ⟨front, p, back, hplugins, -, hp⟩ := h
  exact ⟨p, by simp [hplugins], hp⟩

theorem Finds.exists_command (h : i.Finds commands) (hp : p ∈ i.plugins) :
    ∃ c, p.content = .command c := by
  obtain ⟨loaded, hloaded, -⟩ := h.found
  have hm : p.content ∈ loaded.map PluginContent.command := hloaded ▸ List.mem_map_of_mem hp
  obtain ⟨c, -, hc⟩ := List.mem_map.mp hm
  exact ⟨c, hc.symm⟩

/-- The first plugin that is no command ends the search with its fault, whatever follows. If there
is none, the given commands are found and behind them, in order, the first one of each other name.
No two of them share a name, so that the command line takes them all. -/
theorem commands_decided (i : Installation) :
    (∀ fault, i.commands = .error fault ↔ i.FailsFirst fault) ∧
      ((∃ fault, i.commands = .error fault) ↔ ∃ p ∈ i.plugins, ∃ fault, p.HasFault fault) ∧
      ((∃ commands, i.commands = .ok commands) ↔
        ∀ p ∈ i.plugins, ∃ c, p.content = .command c) ∧
      ∀ commands, i.commands = .ok commands ↔ i.Finds commands := by
  refine ⟨fun _ => commands_eq_error_iff, ⟨?_, ?_⟩, ⟨?_, ?_⟩, fun _ => commands_eq_ok_iff⟩
  · rintro ⟨fault, h⟩
    obtain ⟨p, hm, hp⟩ := (commands_eq_error_iff.mp h).exists_mem
    exact ⟨p, hm, fault, hp⟩
  · rintro ⟨p, hm, fault, hp⟩
    cases h : i.commands with
    | error other => exact ⟨other, rfl⟩
    | ok commands =>
      obtain ⟨c, hc⟩ := (commands_eq_ok_iff.mp h).exists_command hm
      exact absurd hc hp.not_command
  · rintro ⟨commands, h⟩ p hm
    exact (commands_eq_ok_iff.mp h).exists_command hm
  · intro hall
    cases h : i.commands with
    | ok commands => exact ⟨commands, rfl⟩
    | error fault =>
      obtain ⟨p, hm, hp⟩ := (commands_eq_error_iff.mp h).exists_mem
      obtain ⟨c, hc⟩ := hall p hm
      exact absurd hc hp.not_command

/-- What is raised to leave the interpreter. -/
def farewell : Raised where
  kind := "SystemExit"
  argument := .text "bye"
  isAbort := true

/-- A plugin that leaves the interpreter when it is loaded. -/
def leaving : Installation where
  plugins := [⟨"leaving", .raises farewell⟩]

/-- There are no commands, though no plugin fails in a way that can be caught and none is anything
else than a command. -/
theorem commands_leaving :
    leaving.commands = .error (.aborted farewell) ∧
    ¬ ∃ p ∈ leaving.plugins, (∃ r, p.content = .raises r ∧ r.isAbort = false) ∨
      ∃ s, p.content = .other s := by
  refine ⟨rfl, ?_⟩
  rintro ⟨p, hm, hp⟩
  obtain rfl := List.mem_singleton.mp hm
  rcases hp with ⟨r, hr, habort⟩ | ⟨s, hs⟩
  · cases hr
    exact absurd habort (by decide)
  · cases hs

end Installation

end SymbolExport
