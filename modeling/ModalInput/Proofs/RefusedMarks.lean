/-
# ModalInput.Proofs.RefusedMarks -- commands whose mark is not set

A command that names a mark is refused where the mark is not set: one error is reported,
the host runs nothing, and no changes are grouped.  The refusal comes when the command is
acted on.  The mode has gone by then to where the command leads, and no refusal takes it
back: `c'x` with no mark `x` ends in Insert mode, with nothing changed.  Nor is every
command refused.  The commands of the engine itself are run without a look at the marks,
so that `!'x` asks for a filter.

Typing is followed turn by turn, with the events that are acted on (`acted`).  As long as
no command among them runs, the calls of the host and the lowest mode follow from these
events alone (`Since`).

* `execute_unset` -- what is refused; `execute_hasMark` -- what no mark plays a role for.
* `Since.run` -- the calls and the lowest mode along a run.
* `unset_mark` -- typing that comes to one command whose mark is not set.
-/
import ModalInput.Proofs.AlikeHosts
import ModalInput.Proofs.LowestMode
import ModalInput.Proofs.Turns

namespace ModalInput

set_option autoImplicit false

/-- The calls but for those that tell of a change of the mode. -/
def HostCall.besidesNotices {κ : Type} (calls : List (HostCall κ)) : List (HostCall κ) :=
  calls.filter fun call => !call.isNotice

/-- A change of the mode leaves the lowest mode that commands have led to. -/
theorem reckoned_changes (options : OptionView) (mode : ModeState) (events : List EngineEvent) :
    reckoned options mode (events.filter fun event => !event.isChange) =
      reckoned options mode events := by
  induction events generalizing mode with
  | nil => rfl
  | cons event rest ih =>
      cases event with
      | modeChanged step => exact ih mode
      | command resolved => exact ih _
      | failed error => exact ih mode

namespace Engine

variable {σ κ : Type}

/-! ## What is refused, and what is not -/

/-- The mark that a command names. -/
def namedMark? (command : Command) : Option Char :=
  match (target command).argument with
  | some (.character mark) => if (target command).flags.mark then some mark else none
  | _ => none

/-- A command that has its argument, and names a mark that is not set. -/
structure NamesUnset (host : Host σ κ) (command : Command) (mark : Char) : Prop where
  complete : command.isComplete = true
  named : namedMark? command = some mark
  unset : ∀ world, host.hasMark mark world = false

theorem NamesUnset.logged {host : Host σ κ} {command : Command} {mark : Char}
    (names : NamesUnset host command mark) : NamesUnset host.logged command mark :=
  ⟨names.complete, names.named, fun world => names.unset world.1⟩

/-- A mark is missing if it is named and not set. -/
theorem missingMark?_eq (host : Host σ κ) (world : σ) (command : Command) :
    missingMark? host world command =
      (namedMark? command).filter fun mark => !host.hasMark mark world := by
  unfold missingMark? namedMark?
  generalize (target command).argument = argument
  cases argument with
  | none => rfl
  | some argument =>
      cases argument with
      | character mark =>
          cases (target command).flags.mark <;> cases set : host.hasMark mark world <;>
            simp [set, Option.filter]
      | _ => rfl

theorem NamesUnset.missing {host : Host σ κ} {command : Command} {mark : Char}
    (names : NamesUnset host command mark) (world : σ) :
    missingMark? host world command = some mark := by
  rw [missingMark?_eq, names.named]
  simp [names.unset world]

/-- A command of the host is refused. -/
theorem execute_unset {host : Host σ κ} {resolved : ResolvedCommand} {mark : Char}
    (plain : resolved.command.action.builtin = none)
    (names : NamesUnset host resolved.command mark) (engine : Engine σ) :
    engine.execute host resolved = (false, engine.report host (.markNotSet mark)) := by
  simp only [execute, plain, names.complete, names.missing, Bool.not_true, Bool.false_and,
    Bool.false_eq_true, if_false]
  rfl

section
variable (host : Host σ κ) (hasMark : Char → σ → Bool)

/-- Command lines name no marks. -/
theorem repeatLine_hasMark (line : String) (times : Nat) (engine : Engine σ) :
    engine.repeatLine { host with hasMark } line times = engine.repeatLine host line times := by
  induction times generalizing engine with
  | zero => rfl
  | succ times ih =>
      have once : engine.executeLine { host with hasMark } line = engine.executeLine host line :=
        rfl
      simp only [repeatLine, once, ih]

theorem runRegister_hasMark (register : Register) (times : Count) (engine : Engine σ) :
    engine.runRegister { host with hasMark } register times =
      engine.runRegister host register times := by
  simp only [runRegister, repeatLine_hasMark]
  rfl

theorem runLast_hasMark (times : Count) (engine : Engine σ) :
    engine.runLast { host with hasMark } times = engine.runLast host times := by
  simp only [runLast, runRegister_hasMark]
  rfl

/-- A command of the engine itself is run alike, whatever marks are set. -/
theorem execute_hasMark {resolved : ResolvedCommand}
    (own : resolved.command.action.builtin ≠ none) (engine : Engine σ) :
    engine.execute { host with hasMark } resolved = engine.execute host resolved := by
  obtain ⟨builtin, kind⟩ := Option.ne_none_iff_exists'.mp own
  simp only [execute, kind]
  cases builtin with
  | toggleRecording => rfl
  | executeMacro =>
      simp only [runBuiltin, runLast_hasMark, runRegister_hasMark]
      rfl
  | repeatMacro => exact runLast_hasMark host hasMark _ engine
  | filter => rfl

end

/-! ## What is acted on -/

/-- Typing: keys, the news that no key came in time, offsets, and the steps that these
lead to. -/
def Turn.isTyping : Turn → Bool
  | .key _ | .timeout | .offsets _ | .step => true
  | _ => false

/-- The event that a turn acts on. -/
def Turn.actsOn? (turn : Turn) (engine : Engine σ) : Option EngineEvent :=
  match turn with
  | .step => engine.resolver.events.head?
  | _ => none

section
variable (host : Host σ κ)

/-- The events that some turns act on, in order. -/
def acted : List Turn → Engine σ → List EngineEvent
  | [], _ => []
  | turn :: rest, engine => (turn.actsOn? engine).toList ++ acted rest (turn.take host engine)

/-- The same of typed keys and steps, where each key has so many looks. -/
def actedWithin (looks : Nat) : List Turn → Engine σ → Option (List EngineEvent)
  | [], _ => some []
  | turn :: rest, engine =>
      (engine.takeWithin host looks turn).bind fun next =>
        (actedWithin looks rest next).map ((turn.actsOn? engine).toList ++ ·)

theorem acted_of_within {looks : Nat} {turns : List Turn} {engine : Engine σ}
    {events : List EngineEvent} (within : actedWithin host looks turns engine = some events) :
    acted host turns engine = events := by
  induction turns generalizing engine events with
  | nil => exact Option.some.inj within
  | cons turn rest ih =>
      obtain ⟨next, first, within⟩ := Option.bind_eq_some_iff.mp within
      obtain ⟨more, others, rfl⟩ := Option.map_eq_some_iff.mp within
      rw [acted, take_of_within host first, ih others]

/-- Typing comes to one command, and to nothing else but changes of the mode; it begins
and ends where no event waits. -/
structure ComesTo (turns : List Turn) (engine : Engine σ) (resolved : ResolvedCommand) : Prop where
  typing : ∀ turn ∈ turns, turn.isTyping = true
  quiet : engine.resolver.events = []
  acted : (acted host turns engine).filter (fun event => !event.isChange) = [.command resolved]
  settled : (engine.run host turns).resolver.events = []

variable {host}

/-- Typing that can be computed. -/
theorem ComesTo.of_within {looks : Nat} {turns : List Turn} {engine : Engine σ}
    {events : List EngineEvent} {resolved : ResolvedCommand}
    (typing : ∀ turn ∈ turns, turn.isTyping = true) (quiet : engine.resolver.events = [])
    (within : actedWithin host looks turns engine = some events)
    (only : events.filter (fun event => !event.isChange) = [.command resolved])
    (settled : (engine.runWithin host looks turns).map (fun engine => engine.resolver.events) =
      some []) : ComesTo host turns engine resolved :=
  ⟨typing, quiet, by rw [acted_of_within host within, only], eq_of_runWithin host settled⟩

end

/-! ## What the host is called for -/

/-- The resolver stays, the options are read as before, and besides notices this is what the
host is called for. -/
structure Calls (said : List (HostCall κ)) (engine next : Engine (σ × List (HostCall κ))) :
    Prop where
  resolver : next.resolver = engine.resolver
  view : next.view = engine.view
  log : ∃ calls, next.world.2 = engine.world.2 ++ calls ∧ HostCall.besidesNotices calls = said

namespace Calls

variable {host : Host σ κ} {a b c engine next : Engine (σ × List (HostCall κ))}

theorem silent (resolver : next.resolver = engine.resolver) (view : next.view = engine.view)
    (log : next.world.2 = engine.world.2) : Calls [] engine next :=
  ⟨resolver, view, [], by simp [log], rfl⟩

theorem trans {said more : List (HostCall κ)} (first : Calls said a b) (second : Calls more b c) :
    Calls (said ++ more) a c := by
  obtain ⟨calls, log, same⟩ := first.log
  obtain ⟨others, log', same'⟩ := second.log
  refine ⟨second.resolver.trans first.resolver, second.view.trans first.view, calls ++ others,
    ?_, ?_⟩
  · rw [log', log, List.append_assoc]
  · rw [HostCall.besidesNotices, List.filter_append]
    exact congrArg₂ _ same same'

/-- One call. -/
theorem call (engine : Engine (σ × List (HostCall κ))) (call : HostCall κ) (change : σ → σ) :
    Calls (HostCall.besidesNotices [call]) engine (engine.tell (call.noted change)) :=
  ⟨rfl, rfl, [call], rfl, rfl⟩

/-- A change of the mode gives notices only. -/
theorem modeChanged (engine : Engine (σ × List (HostCall κ))) (step : ModeStep) :
    Calls [] engine (engine.modeChanged host.logged step) := by
  have selects (selection : Option ShownSelection) :
      Calls [] engine (engine.showSelection host.logged selection) := by
    unfold Engine.showSelection
    split
    · exact .silent rfl rfl rfl
    · have noted : Calls [] engine { engine with selection } := .silent rfl rfl rfl
      cases selection with
      | some shown =>
          exact noted.trans (call _ (.enterVisual shown.shape shown.select)
            (host.enterVisual shown.shape shown.select))
      | none => exact noted.trans (call _ .exitVisual host.exitVisual)
  have closes (shown : Engine (σ × List (HostCall κ))) :
      Calls [] shown (shown.closeUndo host.logged step) := by
    unfold Engine.closeUndo
    split
    · have noted : Calls [] shown { shown with undoOpen := false } := .silent rfl rfl rfl
      exact noted.trans (call _ .finishUndo host.finishUndo)
    · exact .silent rfl rfl rfl
  exact ((selects _).trans (closes _)).trans (call _ (.modeChanged step) (host.modeChanged step))

end Calls

/-- The complaint about an event, if no command runs. -/
def complaint : EngineEvent → List (HostCall κ)
  | .failed error => [.reportError error]
  | .command resolved =>
      ((namedMark? resolved.command).map fun mark => .reportError (.markNotSet mark)).toList
  | .modeChanged _ => []

/-- Changes of the mode are no reason to complain. -/
theorem complaint_changes (events : List EngineEvent) :
    (events.filter fun event => !event.isChange).flatMap complaint =
      (events.flatMap complaint : List (HostCall κ)) := by
  induction events with
  | nil => rfl
  | cons event rest ih =>
      cases event with
      | modeChanged step => exact ih
      | command resolved => exact congrArg (complaint (.command resolved) ++ ·) ih
      | failed error => exact congrArg (complaint (.failed error) ++ ·) ih

/-- The command is one of the host, and names a mark that is not set. -/
def Refused (host : Host σ κ) (resolved : ResolvedCommand) : Prop :=
  resolved.command.action.builtin = none ∧ ∃ mark, NamesUnset host resolved.command mark

/-- Acting on an event that runs no command. -/
theorem dispatch_calls {host : Host σ κ} {event : EngineEvent}
    (refused : ∀ resolved, event = .command resolved → Refused host resolved)
    (engine : Engine (σ × List (HostCall κ))) :
    Calls (complaint event) engine (engine.dispatch host.logged event) := by
  cases event with
  | modeChanged step => exact .modeChanged engine step
  | failed error =>
      have stopped : Calls [] engine engine.stopKeys := .silent rfl rfl rfl
      exact stopped.trans (.call _ (.reportError error) (host.reportError error))
  | command resolved =>
      obtain ⟨plain, mark, names⟩ := refused resolved rfl
      have complains : (complaint (.command resolved) : List (HostCall κ)) =
          [.reportError (.markNotSet mark)] := by
        rw [complaint, names.named]
        rfl
      have reported := Calls.call engine (.reportError (.markNotSet mark))
        (host.reportError (.markNotSet mark))
      simp only [complains, Engine.dispatch, execute_unset plain names.logged, Bool.false_eq_true,
        if_false]
      exact reported.trans (.silent rfl rfl rfl)

/-! ## Along a run -/

/-- What has happened to an engine since some moment, with the events that were acted on:
the options are read as they were, the lowest mode follows from these events and those
that wait, and the host was called for complaints besides notices. -/
structure Since (start now : Engine (σ × List (HostCall κ))) (events : List EngineEvent) :
    Prop where
  view : now.view = start.view
  mode : now.resolver.modes.base =
    reckoned start.view start.resolver.modes.base (events ++ now.resolver.events)
  log : ∃ calls, now.world.2 = start.world.2 ++ calls ∧
    HostCall.besidesNotices calls = events.flatMap complaint

namespace Since

variable {host : Host σ κ} {start engine next : Engine (σ × List (HostCall κ))}
  {events : List EngineEvent}

theorem refl (quiet : engine.resolver.events = []) : Since engine engine [] :=
  ⟨rfl, by rw [quiet]; rfl, [], by simp, rfl⟩

/-- The resolver does something, and the host is called for nothing. -/
theorem reckons (since : Since start engine events) (view : next.view = engine.view)
    (log : next.world.2 = engine.world.2)
    (reckons : Resolver.Reckons engine.view engine.resolver next.resolver) :
    Since start next events := by
  obtain ⟨told, added, base⟩ := reckons
  refine ⟨view.trans since.view, ?_, by rw [log]; exact since.log⟩
  rw [base, since.mode, since.view, ← reckoned_append, added, List.append_assoc]

/-- The resolver looks at keys, and expressions are evaluated. -/
theorem resolving (since : Since start engine events)
    {change : Resolver → σ × List (HostCall κ) → Resolver × σ × List (HostCall κ)}
    (moves : Resolver.Moves engine.view engine.resolver (change engine.resolver engine.world).1)
    (unlogged : Answers (fun a b => a = b ∧ a.2 = engine.world.2) (change engine.resolver)
      (change engine.resolver)) : Since start (engine.resolving change) events :=
  since.reckons rfl (unlogged _ _ ⟨rfl, rfl⟩).2.2 (.moves moves)

theorem resolveKey (since : Since start engine events) (key : Key) :
    Since start (engine.resolveKey host.logged key) events :=
  since.resolving (Resolver.inputKey_moves _ _ _ _ _)
    (Resolver.inputKey_alike _ (Host.evaluate_unlogged _) _ _)

/-- An event is acted on. -/
theorem dispatch (since : Since start engine events) {event : EngineEvent}
    {rest : List EngineEvent} (waits : engine.resolver.events = event :: rest)
    (refused : ∀ resolved, event = .command resolved → Refused host resolved) :
    Since start ((engine.withEvents rest).dispatch host.logged event) (events ++ [event]) := by
  have acts := dispatch_calls refused (engine.withEvents rest)
  obtain ⟨calls, log, complaints⟩ := since.log
  obtain ⟨more, added, same⟩ := acts.log
  refine ⟨acts.view.trans since.view, ?_, calls ++ more, ?_, ?_⟩
  · rw [acts.resolver]
    show engine.resolver.modes.base = reckoned _ _ (events ++ [event] ++ rest)
    rw [since.mode, waits, List.append_assoc]
    rfl
  · rw [added, ← List.append_assoc, ← log]
    rfl
  · rw [HostCall.besidesNotices, List.filter_append, List.flatMap_append, List.flatMap_singleton]
    exact congrArg₂ _ complaints same

/-- A step acts on the event that waits first. -/
theorem step (since : Since start engine events)
    (refused : ∀ resolved, Turn.step.actsOn? engine = some (.command resolved) →
      Refused host resolved) :
    Since start (Turn.step.take host.logged engine)
      (events ++ (Turn.step.actsOn? engine).toList) := by
  show Since start ((engine.advance? host.logged).getD engine)
    (events ++ engine.resolver.events.head?.toList)
  have nothing (quiet : engine.resolver.events = []) :
      events ++ engine.resolver.events.head?.toList = events := by simp [quiet]
  cases advanced : engine.advance? host.logged with
  | none =>
      rw [nothing ((advance?_eq_none_iff host.logged engine).mp advanced).1]
      exact since
  | some next =>
      rw [Option.getD_some]
      cases advance?_stride host.logged advanced with
      | dispatches event rest waits =>
          have first : engine.resolver.events.head? = some event := by simp [waits]
          rw [first]
          exact since.dispatch waits fun resolved same =>
            refused resolved (by rw [← same]; exact first)
      | replays key rest quiet queue =>
          rw [nothing quiet]
          have asked : Since start ((engine.polled host.logged).withQueue rest) events :=
            since.reckons rfl rfl (.of_same rfl rfl)
          exact asked.resolveKey key
      | interrupts quiet stops =>
          rw [nothing quiet]
          exact since.reckons rfl rfl (.cancel engine.resolver)

/-- Every turn of typing. -/
theorem take (since : Since start engine events) {turn : Turn} (typing : turn.isTyping = true)
    (refused : ∀ resolved, turn.actsOn? engine = some (.command resolved) →
      Refused host resolved) :
    Since start (turn.take host.logged engine) (events ++ (turn.actsOn? engine).toList) := by
  cases turn with
  | step => exact since.step refused
  | key key =>
      have typed : Since start { engine with recorder := engine.recorder.typed key } events :=
        since.reckons rfl rfl (.of_same rfl rfl)
      exact (List.append_nil events).symm ▸ typed.resolveKey key
  | timeout =>
      have expired : Since start (engine.resolving fun resolver world =>
          resolver.timeoutExpired engine.view host.logged.evaluate world) events :=
        since.resolving (Resolver.timeoutExpired_moves _ _ _ _)
          (Resolver.timeoutExpired_alike _ (Host.evaluate_unlogged _) _)
      exact (List.append_nil events).symm ▸ expired
  | offsets values =>
      have supplied : Since start (engine.resolving fun resolver world =>
          (resolver.supplyOffsets engine.view host.logged.evaluate world values).getD
            (resolver, world)) events :=
        since.resolving (Resolver.supplyOffsets_moves _ _ _ _ _)
          (Resolver.supplyOffsets_alike _ (Host.evaluate_unlogged _) _ _)
      exact (List.append_nil events).symm ▸ supplied
  | _ => cases typing

/-- Typing that comes to no command that runs. -/
theorem run {turns : List Turn} (since : Since start engine events)
    (typing : ∀ turn ∈ turns, turn.isTyping = true)
    (refused : ∀ resolved, .command resolved ∈ acted host.logged turns engine →
      Refused host resolved) :
    Since start (engine.run host.logged turns) (events ++ acted host.logged turns engine) := by
  induction turns generalizing engine events with
  | nil => exact (List.append_nil events).symm ▸ since
  | cons turn rest ih =>
      have first := since.take (typing turn (.head _)) fun resolved acts =>
        refused resolved (List.mem_append_left _ (by rw [acts]; exact .head _))
      have others := ih first (fun later member => typing later (.tail _ member))
        fun resolved member => refused resolved (List.mem_append_right _ member)
      rw [acted, ← List.append_assoc]
      exact others

end Since

/-- Typing that comes to a refused command: one error is reported, and nothing else is
asked of the host; the lowest mode is the one that the command leads to. -/
theorem ComesTo.refused {host : Host σ κ} {turns : List Turn}
    {engine : Engine (σ × List (HostCall κ))} {resolved : ResolvedCommand} {mark : Char}
    (comes : ComesTo host.logged turns engine resolved)
    (plain : resolved.command.action.builtin = none)
    (names : NamesUnset host resolved.command mark) :
    (∃ calls, (engine.run host.logged turns).world.2 = engine.world.2 ++ calls ∧
      HostCall.besidesNotices calls = [.reportError (.markNotSet mark)]) ∧
    (engine.run host.logged turns).resolver.modes.base =
      resolved.modeLeft engine.view engine.resolver.modes.base := by
  have only (other : ResolvedCommand)
      (member : .command other ∈ Engine.acted host.logged turns engine) : other = resolved := by
    have kept : EngineEvent.command other ∈
        (Engine.acted host.logged turns engine).filter fun event => !event.isChange :=
      List.mem_filter.mpr ⟨member, rfl⟩
    rw [comes.acted, List.mem_singleton] at kept
    exact EngineEvent.command.inj kept
  have since : Since engine (engine.run host.logged turns)
      (Engine.acted host.logged turns engine) :=
    (Since.refl comes.quiet).run comes.typing fun other member => by
      rw [only other member]
      exact ⟨plain, mark, names⟩
  refine ⟨?_, ?_⟩
  · obtain ⟨calls, log, complaints⟩ := since.log
    refine ⟨calls, log, ?_⟩
    rw [complaints, ← complaint_changes, comes.acted, List.flatMap_singleton, complaint,
      names.named]
    rfl
  · rw [since.mode, comes.settled, List.append_nil, ← reckoned_changes, comes.acted]
    rfl

/-- Typing that comes to one command, which names a mark that is not set.

A command of the host is refused: the one error is all that the host is called for besides
notices, so that nothing runs and no group of changes begins.  The lowest mode is the one
that the command leads to as if it had run.  For an operator with its motion that is the
mode from before exactly if the operator asks for none that lies elsewhere.

A command of the engine itself is run, and would be run alike if the mark were set. -/
theorem unset_mark {host : Host σ κ} {turns : List Turn}
    {engine : Engine (σ × List (HostCall κ))} {resolved : ResolvedCommand} {mark : Char}
    (comes : ComesTo host.logged turns engine resolved)
    (names : NamesUnset host resolved.command mark) :
    let final := engine.run host.logged turns
    let before := engine.resolver.modes.base
    (resolved.command.action.builtin = none →
      (∃ calls, final.world.2 = engine.world.2 ++ calls ∧
        HostCall.besidesNotices calls = [.reportError (.markNotSet mark)]) ∧
      final.resolver.modes.base = resolved.modeLeft engine.view before ∧
      (resolved.arguments.operatorPending = true → before.mode.isSelecting = false →
        (final.resolver.modes.base = before ↔
          (⟨before, []⟩ : ModeStack).target engine.view resolved.command.action.modeChange =
            before))) ∧
    (resolved.command.action.builtin ≠ none →
      ∀ (hasMark : Char → σ × List (HostCall κ) → Bool) (now : Engine (σ × List (HostCall κ))),
        now.execute { host.logged with hasMark } resolved = now.execute host.logged resolved) := by
  intro final before
  refine ⟨?_, fun own hasMark now => execute_hasMark host.logged hasMark own now⟩
  intro plain
  obtain ⟨log, mode⟩ := comes.refused plain names
  refine ⟨log, mode, ?_⟩
  intro pending outside
  rw [mode, ResolvedCommand.modeLeft_of_motion engine.view pending outside]

/-! ## Operators and a mark that is not set -/

/-- A delete operator. -/
def deletes : Action := .ofOperator .delete "operator.delete"

/-- A change operator: insert mode is where it leads. -/
def changes : Action :=
  { Action.ofOperator .change "operator.change" with
    flags := { multikeyUndo := true, noRepeatInsert := true }, modeChange := .insert }

/-- A filter operator. -/
def filters : Action :=
  { Action.ofOperator .otherWritable "operator.filter" with builtin := some .filter }

/-- The motion to the line of a mark. -/
def goesToMark : Action :=
  .ofCharacterMotion { linewise := true, saveJump := true, mark := true } "motion.goto-mark-line"

/-- A table with three operators and the motion to a mark. -/
def markTable : CommandKeys :=
  (((CommandKeys.empty.bind { normal := true } [.char 'd'] deletes).bind { normal := true }
    [.char 'c'] changes).bind { normal := true } [.char '!'] filters).bind
    { operatorPending := true } [.char '\''] goesToMark

/-- An engine with this table. -/
def markEngine : Engine (Unit × List (HostCall Unit)) :=
  { world := ((), []), resolver := { keys := markTable } }

/-- An operator with the motion to the mark `x`. -/
def toMark (operator : Action) : ResolvedCommand :=
  Resolver.toldOperator (.new operator 0) ((Command.new goesToMark 0).withArgument (.character 'x'))

/-- An operator is typed, and the motion to the mark `x`; at most three events are left to
act on then. -/
def typesToMark (operator : Char) : List Turn :=
  [.key (.char operator), .step, .key (.char '\''), .key (.char 'x'), .step, .step, .step]

theorem typesToMark_typing (operator : Char) :
    ∀ turn ∈ typesToMark operator, turn.isTyping = true := by
  simp [typesToMark, Turn.isTyping]

/-- The keys `d'x` are refused, and leave Normal mode. -/
theorem deletesToMark_refused :
    ComesTo plainHost.logged (typesToMark 'd') markEngine (toMark deletes) ∧
      NamesUnset plainHost (toMark deletes).command 'x' ∧
      (∃ calls, (markEngine.run plainHost.logged (typesToMark 'd')).world.2 =
          markEngine.world.2 ++ calls ∧
        HostCall.besidesNotices calls = [.reportError (.markNotSet 'x')]) ∧
      (markEngine.run plainHost.logged (typesToMark 'd')).resolver.modes.base =
        .ofMode .normal := by
  have within : actedWithin plainHost.logged 3 (typesToMark 'd') markEngine =
      some [.modeChanged ⟨.ofMode .normal, .ofMode .operatorPending⟩,
        .modeChanged ⟨.ofMode .operatorPending, .ofMode .normal⟩, .command (toMark deletes)] := rfl
  have comes : ComesTo plainHost.logged (typesToMark 'd') markEngine (toMark deletes) :=
    .of_within (typesToMark_typing 'd') rfl within rfl rfl
  have names : NamesUnset plainHost (toMark deletes).command 'x' := ⟨rfl, rfl, fun _ => rfl⟩
  obtain ⟨log, mode, back⟩ := (unset_mark comes names).1 rfl
  exact ⟨comes, names, log, mode⟩

/-- The keys `c'x` are refused, too, and lead to Insert mode all the same.  The keys `!'x`
are not: the host is asked for a filter, and runs it. -/
theorem changesToMark_inserts :
    (ComesTo plainHost.logged (typesToMark 'c') markEngine (toMark changes) ∧
      NamesUnset plainHost (toMark changes).command 'x' ∧
      HostCall.besidesNotices (markEngine.run plainHost.logged (typesToMark 'c')).world.2 =
        [.reportError (.markNotSet 'x')] ∧
      markEngine.resolver.modes.state = .ofMode .normal ∧
      (markEngine.run plainHost.logged (typesToMark 'c')).resolver.modes.state =
        .ofMode .insert) ∧
    ComesTo plainHost.logged (typesToMark '!') markEngine (toMark filters) ∧
      NamesUnset plainHost (toMark filters).command 'x' ∧
      HostCall.besidesNotices (markEngine.run plainHost.logged (typesToMark '!')).world.2 =
        [.startFilter (toMark filters).arguments,
          .execute (toMark filters).command (toMark filters).arguments] := by
  have changing : actedWithin plainHost.logged 3 (typesToMark 'c') markEngine =
      some [.modeChanged ⟨.ofMode .normal, .ofMode .operatorPending⟩,
        .modeChanged ⟨.ofMode .operatorPending, .ofMode .normal⟩, .command (toMark changes),
        .modeChanged ⟨.ofMode .normal, .ofMode .insert⟩] := rfl
  have filtering : actedWithin plainHost.logged 3 (typesToMark '!') markEngine =
      some [.modeChanged ⟨.ofMode .normal, .ofMode .operatorPending⟩,
        .modeChanged ⟨.ofMode .operatorPending, .ofMode .normal⟩, .command (toMark filters)] := rfl
  have refuses : (markEngine.runWithin plainHost.logged 3 (typesToMark 'c')).map
      (fun engine => HostCall.besidesNotices engine.world.2) =
        some [.reportError (.markNotSet 'x')] := rfl
  have inserts : (markEngine.runWithin plainHost.logged 3 (typesToMark 'c')).map
      (fun engine => engine.resolver.modes.state) = some (.ofMode .insert) := rfl
  have runs : (markEngine.runWithin plainHost.logged 3 (typesToMark '!')).map
      (fun engine => HostCall.besidesNotices engine.world.2) =
        some [.startFilter (toMark filters).arguments,
          .execute (toMark filters).command (toMark filters).arguments] := rfl
  refine ⟨⟨?_, ⟨rfl, rfl, fun _ => rfl⟩, eq_of_runWithin _ refuses, rfl,
    eq_of_runWithin _ inserts⟩, ?_, ⟨rfl, rfl, fun _ => rfl⟩, eq_of_runWithin _ runs⟩
  · exact .of_within (typesToMark_typing 'c') rfl changing rfl rfl
  · exact .of_within (typesToMark_typing '!') rfl filtering rfl rfl

end Engine

end ModalInput
