/-
# ModalInput.Proofs.KnownLines -- lines that only the engine could know

A line of the command line is looked at twice: to tell whose it is, and to run it.
Where the host knows no line, a line should do what the commands make of it: the
same changes of the configuration, the same output, a failure where they fail and
one error for it (`KeepsTo`).

This is so of every line with a name in it, be it a command's name or not.  On a
line without one the two looks part: for the commands there is nothing to do, but
no command is named, so that the engine takes the line for the host's, which does
not know it either (`colon_refused`).

* `executeLine_of_known`, `executeLine_of_unknown` -- what a line leaves.
* `keepsTo_iff` -- the lines of which the above is true.
-/
import ModalInput.Proofs.Turns

namespace ModalInput

set_option autoImplicit false

namespace ExCommands

variable {commands : ExCommands} {line : String}

/-- A line whose name is no command's changes nothing, and fails. -/
theorem run_of_unknown {parts : ExLine} (named : ExLine.ofText? line.toList = some parts)
    (unknown : commands.isCommand line = false) (state : ExState) :
    (commands.run line state).2.state = state ∧
      ∃ error, (commands.run line state).2.result = .error error := by
  have missing : commands.get? parts.name = none := by
    simpa [isCommand, named] using unknown
  have refused : ∃ error, commands.resolve parts = .error error := by
    unfold resolve
    by_cases apart : parts.argumentsApart
    · exact ⟨.notACommand parts.name, by simp [apart, get, missing]⟩
    · exact ⟨.trailingCharacters (String.ofList parts.arguments), by simp [apart]⟩
  obtain ⟨error, refused⟩ := refused
  simp [run, named, refused]

/-- A line without a name names no command, and there is nothing to do. -/
theorem run_of_nameless (commands : ExCommands) (nameless : ExLine.ofText? line.toList = none)
    (state : ExState) :
    commands.isCommand line = false ∧ commands.run line state = (commands, ⟨state, .ok []⟩) := by
  simp [isCommand, run, nameless]

end ExCommands

/-- No line is the host's. -/
def Host.KnowsNoLine {σ κ : Type} (host : Host σ κ) : Prop :=
  ∀ line world, (host.runLine line world).1 = false

theorem Host.KnowsNoLine.logged {σ κ : Type} {host : Host σ κ} (strange : host.KnowsNoLine) :
    host.logged.KnowsNoLine :=
  fun line world => strange line world.1

namespace Engine

variable {σ κ : Type} {host : Host σ κ}

/-! ## What a line leaves -/

/-- The engine with lines shown, one after the other. -/
theorem showAll_log (host : Host σ κ) (engine : Engine (σ × List (HostCall κ)))
    (shown : List String) :
    (engine.tell fun world =>
        shown.foldl (fun world text => host.logged.showMessage text world) world).world.2 =
      engine.world.2 ++ shown.map .showMessage := by
  unfold tell
  dsimp only
  generalize engine.world = world
  induction shown generalizing world with
  | nil => simp
  | cons text rest ih =>
      have first : (host.logged.showMessage text world).2 = world.2 ++ [.showMessage text] := rfl
      rw [List.foldl_cons, ih, first, List.map_cons, List.append_assoc]
      rfl

/-- A known line does what the commands make of it. -/
theorem executeLine_of_known (host : Host σ κ) {engine : Engine σ} {line : String}
    (known : engine.commands.isCommand line = true) :
    engine.executeLine host line =
      match (engine.lineOutcome line).2.result with
      | .ok shown => (true, (engine.configured line).tell fun world =>
          shown.foldl (fun world text => host.showMessage text world) world)
      | .error error => (false, (engine.configured line).report host error) := by
  unfold executeLine
  rw [runLine_of_known host known]
  cases (engine.lineOutcome line).2.result <;> rfl

/-- An unknown line is offered to the host, which does not know it. -/
theorem executeLine_of_unknown (strange : host.KnowsNoLine) {engine : Engine σ} {line : String}
    (unknown : engine.commands.isCommand line = false) :
    engine.executeLine host line =
      (false, (engine.tell fun world => (host.runLine line world).2).report host
        (.command (.notACommand (lineName line)))) := by
  have refused := strange line engine.world
  unfold executeLine runLine
  rw [if_neg (by simp [unknown])]
  unfold ask
  rw [refused]
  rfl

/-! ## Keeping to the commands -/

/-- What the host is told of a failure: a line that is unknown was offered to it. -/
def failureCalls (engine : Engine σ) (line : String) (error : EngineError) : List (HostCall κ) :=
  if engine.commands.isCommand line then [.reportError error]
  else [.runLine line, .reportError (.command (.notACommand (lineName line)))]

/-- An engine does with a line what the commands make of it. -/
structure KeepsTo (host : Host σ κ) (engine : Engine (σ × List (HostCall κ))) (line : String) :
    Prop where
  /-- The configuration changes as they change it. -/
  options : (engine.executeLine host.logged line).2.options =
    (engine.lineOutcome line).2.state.options
  mappings : (engine.executeLine host.logged line).2.resolver.mappings =
    (engine.lineOutcome line).2.state.mappings
  /-- Their output is shown, and nothing is reported. -/
  shows : ∀ shown, (engine.lineOutcome line).2.result = .ok shown →
    (engine.executeLine host.logged line).1 = true ∧
      (engine.executeLine host.logged line).2.world.2 =
        engine.world.2 ++ shown.map .showMessage
  /-- Their failure is one error, and nothing is shown. -/
  fails : ∀ error, (engine.lineOutcome line).2.result = .error error →
    (engine.executeLine host.logged line).1 = false ∧
      (engine.executeLine host.logged line).2.world.2 =
        engine.world.2 ++ engine.failureCalls line error

theorem keepsTo_of_known {engine : Engine (σ × List (HostCall κ))} {line : String}
    (known : engine.commands.isCommand line = true) : engine.KeepsTo host line := by
  have done := executeLine_of_known host.logged known
  cases came : (engine.lineOutcome line).2.result with
  | ok shown =>
      rw [came] at done
      have log := showAll_log host (engine.configured line) shown
      refine ⟨by rw [done]; rfl, by rw [done]; rfl, ?_, fun error fails => by simp [came] at fails⟩
      intro other same
      cases came.symm.trans same
      rw [done]
      exact ⟨rfl, log⟩
  | error error =>
      rw [came] at done
      refine ⟨by rw [done]; rfl, by rw [done]; rfl, fun shown shows => by simp [came] at shows, ?_⟩
      intro other same
      cases came.symm.trans same
      rw [done, failureCalls, if_pos known]
      exact ⟨rfl, rfl⟩

/-- The two calls that an unknown line comes to. -/
theorem unknown_log (strange : host.KnowsNoLine) {engine : Engine (σ × List (HostCall κ))}
    {line : String} (unknown : engine.commands.isCommand line = false) :
    (engine.executeLine host.logged line).2.world.2 = engine.world.2 ++
      [.runLine line, .reportError (.command (.notACommand (lineName line)))] := by
  rw [executeLine_of_unknown strange.logged unknown]
  show (engine.world.2 ++ [.runLine line]) ++ [.reportError _] = _
  rw [List.append_assoc]
  rfl

theorem keepsTo_of_unknown (strange : host.KnowsNoLine) {engine : Engine (σ × List (HostCall κ))}
    {line : String} {parts : ExLine} (named : ExLine.ofText? line.toList = some parts)
    (unknown : engine.commands.isCommand line = false) : engine.KeepsTo host line := by
  have done := executeLine_of_unknown strange.logged unknown
  have log := unknown_log strange unknown
  obtain ⟨kept, error, failed⟩ := ExCommands.run_of_unknown named unknown
    ⟨engine.options, engine.resolver.mappings, engine.editor⟩
  have kept : (engine.lineOutcome line).2.state =
    ⟨engine.options, engine.resolver.mappings, engine.editor⟩ := kept
  have failed : (engine.lineOutcome line).2.result = .error error := failed
  refine ⟨by rw [done, kept]; rfl, by rw [done, kept]; rfl,
    fun shown shows => by simp [failed] at shows, ?_⟩
  intro other _
  rw [log, failureCalls, if_neg (by simp [unknown]), done]
  exact ⟨rfl, rfl⟩

/-- An engine adds a failure of its own where the commands have nothing to do. -/
structure Strays (host : Host σ κ) (engine : Engine (σ × List (HostCall κ))) (line : String) :
    Prop where
  nothing : (engine.lineOutcome line).2.result = .ok []
  fails : (engine.executeLine host.logged line).1 = false
  options : (engine.executeLine host.logged line).2.options = engine.options
  resolver : (engine.executeLine host.logged line).2.resolver = engine.resolver
  reports : (engine.executeLine host.logged line).2.world.2 = engine.world.2 ++
    [.runLine line, .reportError (.command (.notACommand (lineName line)))]

theorem strays_of_nameless (strange : host.KnowsNoLine) {engine : Engine (σ × List (HostCall κ))}
    {line : String} (nameless : ExLine.ofText? line.toList = none) : engine.Strays host line := by
  obtain ⟨unknown, nothing⟩ := ExCommands.run_of_nameless engine.commands nameless
    ⟨engine.options, engine.resolver.mappings, engine.editor⟩
  have done := executeLine_of_unknown strange.logged unknown
  exact {
    nothing := by rw [lineOutcome, nothing]
    fails := by rw [done]
    options := by rw [done]; rfl
    resolver := by rw [done]; rfl
    reports := unknown_log strange unknown }

theorem Strays.not_keepsTo {engine : Engine (σ × List (HostCall κ))} {line : String}
    (strays : engine.Strays host line) : ¬ engine.KeepsTo host line := by
  intro keeps
  have succeeds := (keeps.shows [] strays.nothing).1
  rw [strays.fails] at succeeds
  cases succeeds

/-- Where the host knows no line, the engine keeps to the commands on the lines that
have a name, and strays on the others. -/
theorem keepsTo_iff (strange : host.KnowsNoLine) (engine : Engine (σ × List (HostCall κ)))
    (line : String) :
    (engine.KeepsTo host line ↔ (ExLine.ofText? line.toList).isSome = true) ∧
      (engine.Strays host line ↔ ExLine.ofText? line.toList = none) := by
  cases named : ExLine.ofText? line.toList with
  | some parts =>
      have keeps : engine.KeepsTo host line := by
        by_cases known : engine.commands.isCommand line = true
        · exact keepsTo_of_known known
        · exact keepsTo_of_unknown strange named (Bool.eq_false_iff.mpr known)
      exact ⟨⟨fun _ => rfl, fun _ => keeps⟩,
        ⟨fun strays => absurd keeps strays.not_keepsTo, fun none => by cases none⟩⟩
  | none =>
      have strays : engine.Strays host line := strays_of_nameless strange named
      exact ⟨⟨fun keeps => absurd keeps strays.not_keepsTo, fun some => by cases some⟩,
        ⟨fun _ => rfl, fun _ => strays⟩⟩

/-- A command cut short, behind colons and blanks. -/
theorem shortSet_keepsTo :
    plainHost.KnowsNoLine ∧ KeepsTo plainHost { world := ((), []) } ": :se sw=4" := by
  have strange : plainHost.KnowsNoLine := fun _ _ => rfl
  exact ⟨strange, (keepsTo_iff strange { world := ((), []) } ": :se sw=4").1.mpr (by decide)⟩

/-- The commands have nothing to do on a lone colon, and the engine refuses it. -/
theorem colon_refused :
    plainHost.KnowsNoLine ∧
      (lineOutcome ({ world := ((), []) } : Engine (Unit × List (HostCall Unit))) ":").2.result =
        .ok [] ∧
      (executeLine plainHost.logged { world := ((), []) } ":").1 = false ∧
      (executeLine plainHost.logged { world := ((), []) } ":").2.world.2 =
        [.runLine ":", .reportError (.command (.notACommand ""))] :=
  ⟨fun _ _ => rfl, by rfl, by rfl, by rfl⟩

end Engine

end ModalInput
