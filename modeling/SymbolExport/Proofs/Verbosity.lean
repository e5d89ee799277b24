import SymbolExport.Proofs.LineReading
import SymbolExport.Proofs.Session

/-!
A verbose log is all that verbosity changes. It is asked for by a switch that both lines have, and
nothing but the logger looks at it.
-/
namespace SymbolExport

/-- The flag that asks for a verbose log. -/
def verboseFlag : String := "-v"

/-- Two requests for the same export, which may differ in how much they log. -/
structure Request.AsksSame (q q' : Request) : Prop where
  command : q'.command = q.command
  before : q'.before.texts = q.before.texts
  behind : q'.behind.texts = q.behind.texts
  operand : q'.behind.operand? = q.behind.operand?
  declarations : q'.behind.switches.get? Command.declarationsName =
    q.behind.switches.get? Command.declarationsName

variable {w : World} {q q' q₁ q₂ : Request} {commands : List Command} {arguments : List String}

theorem LineReading.text?_eq {r r' : LineReading} (h : r'.texts = r.texts) (name : String) :
    r'.text? name = r.text? name := by
  rw [text?, text?, h]

namespace World

theorem prepare_eq (h : q.AsksSame q') : w.prepare q' = w.prepare q := by
  have hroot : w.projectRoot q'.before = w.projectRoot q.before := by
    rw [projectRoot, projectRoot, h.before]
  have hsettings : ∀ root, w.settingsFor q'.before root = w.settingsFor q.before root := by
    intro root
    rw [settingsFor, settingsFor, LineReading.text?_eq h.before]
  have hoptions : ∀ c s directory project,
      Command.exportOptions c q'.behind s directory project =
        Command.exportOptions c q.behind s directory project := by
    intro c s directory project
    simp only [Command.exportOptions, LineReading.text?_eq h.behind, h.operand, h.declarations]
  simp only [prepare, hroot, hsettings, hoptions, h.command]

theorem perform_eq (h : q.AsksSame q') : w.perform q' = w.perform q := by
  simp only [perform, prepare_eq h, h.command]

theorem fulfil_eq (h : q.AsksSame q') (logger : Logger) :
    w.fulfil logger q' = w.fulfil logger q := by
  simp only [fulfil, perform_eq h, h.command]

/-- The logger writes to the log of errors alone. -/
theorem fulfil_logger (w : World) (logger logger' : Logger) (q : Request) :
    (w.fulfil logger' q).1.ending = (w.fulfil logger q).1.ending ∧
      (w.fulfil logger' q).1.output = (w.fulfil logger q).1.output ∧
      (w.fulfil logger' q).2 = (w.fulfil logger q).2 := by
  unfold fulfil
  cases w.perform q with
  | mk result after =>
    cases result with
    | error f =>
      dsimp only
      split <;> exact ⟨rfl, rfl, rfl⟩
    | ok report => exact ⟨rfl, rfl, rfl⟩

end World

/-! The switch stands in both lines. -/

theorem isSwitch_mainLine (commands : List Command) :
    (mainLine commands).IsSwitch verboseFlag verboseOption := by
  refine ⟨rfl, rfl, ⟨'v', [], rfl⟩, by decide⟩

theorem isSwitch_line (c : Command) :
    (c.line [verboseOption]).IsSwitch verboseFlag verboseOption := by
  refine ⟨rfl, rfl, ⟨'v', [], rfl⟩, by decide⟩

theorem neverOff_mainLine (commands : List Command) :
    (mainLine commands).NeverOff verboseName := by
  intro o ho hk
  simp only [mainLine, List.mem_cons, List.not_mem_nil, or_false] at ho
  rcases ho with rfl | rfl | rfl | rfl <;> cases hk

/-- The switch for declarations can be turned off, but has another name. -/
theorem neverOff_line (c : Command) : (c.line [verboseOption]).NeverOff verboseName := by
  intro o ho hk
  simp only [Command.line, Command.options, List.cons_append, List.nil_append, List.mem_cons] at ho
  rcases ho with rfl | rfl | rfl | rfl | ho
  · cases hk
  · cases hk
  · cases hk
  · decide
  · split at ho
    · rw [List.mem_singleton.mp ho] at hk
      cases hk
    · cases ho

/-- What a request is read from: the two parts of the line, without anything extra. -/
theorem readRequest_eq_ok_iff : readRequest commands arguments = .ok q ↔
    (mainLine commands).readPart arguments = .ok q.before ∧
      ∃ name behind, q.before.command? = some (name, behind) ∧
        commands.find? (fun c => c.name = name) = some q.command ∧
        (q.command.line [verboseOption]).readPart behind = .ok q.behind ∧
        q.before.extras ++ q.behind.extras = [] := by
  unfold readRequest
  constructor
  · intro h
    obtain ⟨before, hbefore, h⟩ := exists_of_bind_eq_ok h
    split at h
    · cases h
    · rename_i name behind hc
      split at h
      · cases h
      · rename_i c hfind
        obtain ⟨inner, hinner, h⟩ := exists_of_bind_eq_ok h
        dsimp only at h
        split at h
        · rename_i hextras
          cases h
          exact ⟨eq_ok_of_mapError hbefore, name, behind, hc, hfind, eq_ok_of_mapError hinner,
            List.isEmpty_iff.mp hextras⟩
        · cases h
  · rintro ⟨hbefore, name, behind, hc, hfind, hbehind, hextras⟩
    simp only [hbefore, Except.mapError, bind, Except.bind, hc, hfind, hbehind, hextras,
      List.isEmpty_nil, if_true]
    rfl

/-- In front of all arguments the switch changes neither what is read nor how it is refused. -/
theorem alike_readRequest (commands : List Command) (arguments : List String) :
    Alike Request.AsksSame (readRequest commands arguments)
      (readRequest commands (verboseFlag :: arguments)) := by
  unfold readRequest
  refine (((isSwitch_mainLine commands).alike_readPart (neverOff_mainLine commands)
    arguments).mapError _).bind ?_
  intro before before' h
  rw [h.command]
  split
  · exact .error _
  · split
    · exact .error _
    · rename_i name behind _ _ c _
      refine (Alike.refl (R := Eq) (fun _ => rfl) _).bind ?_
      rintro inner _ rfl
      dsimp only
      rw [h.extras]
      split
      · exact .ok ⟨rfl, h.texts, rfl, rfl, rfl⟩
      · exact .error _

/-- Around the name of the command the switch is read on either side, and the rest as without it. -/
theorem exists_readRequest (hq : readRequest commands arguments = .ok q) :
    ∃ front behind q₁ q₂, arguments = front ++ q.command.name :: behind ∧
      q.before.command? = some (q.command.name, behind) ∧
      readRequest commands (front ++ verboseFlag :: q.command.name :: behind) = .ok q₁ ∧
      readRequest commands (front ++ q.command.name :: verboseFlag :: behind) = .ok q₂ ∧
      q.AsksSame q₁ ∧ q.AsksSame q₂ ∧ q₁.isVerbose ∧ q₂.isVerbose := by
  obtain ⟨hbefore, name, behind, hc, hfind, hbehind, hextras⟩ := readRequest_eq_ok_iff.mp hq
  obtain rfl : q.command.name = name := by simpa using List.find?_some hfind
  obtain ⟨front, hfront, hfirst, hsecond⟩ :=
    (isSwitch_mainLine commands).exists_readPart rfl hbefore hc
  have halike := (isSwitch_line q.command).alike_readPart (neverOff_line q.command) behind
  rw [hbehind] at halike
  cases hinner : (q.command.line [verboseOption]).readPart (verboseFlag :: behind) with
  | error e =>
    rw [hinner] at halike
    cases halike
  | ok inner =>
    rw [hinner] at halike
    cases halike with
    | ok h =>
      refine ⟨front, behind, ⟨q.command, _, q.behind⟩, ⟨q.command, _, inner⟩, hfront, hc,
        readRequest_eq_ok_iff.mpr ⟨hfirst, _, behind, hc, hfind, hbehind, hextras⟩,
        readRequest_eq_ok_iff.mpr ⟨hsecond, _, _, rfl, hfind, hinner, ?_⟩, ?_, ?_, ?_, ?_⟩
      · rw [h.extras]
        exact hextras
      · exact ⟨rfl, rfl, rfl, rfl, rfl⟩
      · exact ⟨rfl, rfl, h.texts, h.operand, h.others _ (by decide)⟩
      · simp [Request.isVerbose, LineReading.isOn, verboseOption]
      · have hon : inner.switches.get? verboseName = some true := h.on
        simp [Request.isVerbose, LineReading.isOn, hon]

namespace Runtime

/-- A verbose log changes nothing but the errors: asked for in front of the arguments, it leaves the
end of the run, its output and the world as they are. Of arguments that are read it may be asked
directly before the name of the command or directly behind it. -/
theorem run_verbose (p : Runtime) (installation : Installation) (arguments : List String) :
    ((p.run installation (verboseFlag :: arguments)).1.ending =
        (p.run installation arguments).1.ending ∧
      (p.run installation (verboseFlag :: arguments)).1.output =
        (p.run installation arguments).1.output ∧
      (p.run installation (verboseFlag :: arguments)).2.world =
        (p.run installation arguments).2.world) ∧
      ∀ commands q, installation.commands = .ok commands → readRequest commands arguments = .ok q →
        ∃ front behind, arguments = front ++ q.command.name :: behind ∧
          q.before.command? = some (q.command.name, behind) ∧
          p.run installation (front ++ verboseFlag :: q.command.name :: behind) =
            p.run installation (front ++ q.command.name :: verboseFlag :: behind) := by
  constructor
  · cases hc : installation.commands with
    | error f => simp only [run, hc, and_self]
    | ok commands =>
      have halike := alike_readRequest commands arguments
      cases hq : readRequest commands arguments with
      | error e =>
        rw [hq] at halike
        generalize hq' : readRequest commands (verboseFlag :: arguments) = read at halike
        cases halike
        simp only [run, hc, hq, hq', and_self]
      | ok q =>
        rw [hq] at halike
        generalize hq' : readRequest commands (verboseFlag :: arguments) = read at halike
        cases halike with
        | ok h =>
          rw [run_of_request hc hq, run_of_request hc hq', World.fulfil_eq h]
          exact World.fulfil_logger _ _ _ q
  · intro commands q hc hq
    obtain ⟨front, behind, q₁, q₂, harguments, hcommand, hq₁, hq₂, h₁, h₂, hon₁, hon₂⟩ :=
      exists_readRequest hq
    refine ⟨front, behind, harguments, hcommand, ?_⟩
    rw [run_of_request hc hq₁, run_of_request hc hq₂, hon₁, hon₂, World.fulfil_eq h₁,
      World.fulfil_eq h₂]

/-- The settings of a project for enumerations, in a file that has the name of the command. -/
def enumsRequest : Request where
  command := .enums [3, 11]
  before := { texts := [(configName, some "enums")], command? := some ("enums", []) }
  behind := {}

theorem run_verbose_enums :
    Installation.commands {} = .ok [.enums [3, 11], .constants] ∧
      readRequest [.enums [3, 11], .constants] ["--config", "enums", "enums"] = .ok enumsRequest ∧
      (newRuntime.run {} ["-v", "--config", "enums", "enums"]).2.world =
        (newRuntime.run {} ["--config", "enums", "enums"]).2.world ∧
      newRuntime.run {} ["--config", "enums", "-v", "enums"] =
        newRuntime.run {} ["--config", "enums", "enums", "-v"] := by
  have hc : Installation.commands {} = .ok [.enums [3, 11], .constants] := rfl
  have hq : readRequest [.enums [3, 11], .constants] ["--config", "enums", "enums"] =
      .ok enumsRequest := by cbv
  obtain ⟨⟨-, -, hworld⟩, hrequest⟩ := run_verbose newRuntime {} ["--config", "enums", "enums"]
  obtain ⟨front, behind, harguments, hcommand, hrun⟩ := hrequest _ _ hc hq
  obtain rfl : [] = behind := congrArg Prod.snd (Option.some.inj hcommand)
  obtain rfl : ["--config", "enums"] = front := (List.append_inj' harguments rfl).1
  exact ⟨hc, hq, hworld, hrun⟩

end Runtime

end SymbolExport
