/-
# ModalInput.Proofs.HostCalls -- what the host is called for

A host with a log writes down every call that may change its state, in order, and
otherwise does what the host does (`Host.logged`); what it is merely asked for is
not written down.

A command that runs is a few acts: the host is called, a line of the command line
changes the configuration, something is remembered (`Act`).  None of them touches
the recorder, the selection, or more of the resolver than its mappings, and changes
are grouped by those acts only that are asked to.  Recording keys and running
recorded ones are not such acts; `Executed` lists all that a command can come to.

* `Acts` -- acts one after the other; `Acts.frame`, `Acts.log` -- what they leave.
* `execute_cases` -- every command is one of the cases of `Executed`.
-/
import Mathlib.Logic.Relation
import ModalInput.Engine.Input

namespace ModalInput

set_option autoImplicit false

/-! ## A host with a log -/

/-- A call of the host that may change its state. -/
inductive HostCall (κ : Type) where
  | execute (command : Command) (arguments : OperatorArguments)
  | executeForCaret (caret : κ) (command : Command) (arguments : OperatorArguments)
  | setRegister (register : Register) (text : String) (append : Bool)
  | startFilter (arguments : OperatorArguments)
  | enterVisual (shape : SubMode) (select : Bool)
  | exitVisual
  | modeChanged (step : ModeStep)
  | startUndo
  | finishUndo
  | reportError (error : EngineError)
  | showMessage (text : String)
  | runLine (line : String)

namespace HostCall

variable {σ κ : Type}

/-- The host is told of a change of the mode. -/
def isNotice : HostCall κ → Bool
  | .enterVisual _ _ | .exitVisual | .modeChanged _ | .finishUndo => true
  | _ => false

/-- The host is told where changes that are undone together begin or end. -/
def isGrouping : HostCall κ → Bool
  | .startUndo | .finishUndo => true
  | _ => false

/-- Change a state, and write the call down. -/
def noted (call : HostCall κ) (change : σ → σ) (world : σ × List (HostCall κ)) :
    σ × List (HostCall κ) :=
  (change world.1, world.2 ++ [call])

/-- Answer a request, and write the call down. -/
def answered (call : HostCall κ) (request : σ → Bool × σ) (world : σ × List (HostCall κ)) :
    Bool × σ × List (HostCall κ) :=
  ((request world.1).1, call.noted (fun state => (request state).2) world)

end HostCall

/-- A host that writes its calls down. -/
def Host.logged {σ κ : Type} (host : Host σ κ) : Host (σ × List (HostCall κ)) κ where
  execute := fun command arguments =>
    (HostCall.execute command arguments).answered (host.execute command arguments)
  carets := fun world => host.carets world.1
  executeForCaret := fun caret command arguments =>
    (HostCall.executeForCaret caret command arguments).answered
      (host.executeForCaret caret command arguments)
  register? := fun register world => host.register? register world.1
  setRegister := fun register text append =>
    (HostCall.setRegister register text append).noted (host.setRegister register text append)
  hasMark := fun mark world => host.hasMark mark world.1
  startFilter := fun arguments => (HostCall.startFilter arguments).noted (host.startFilter arguments)
  enterVisual := fun shape select =>
    (HostCall.enterVisual shape select).noted (host.enterVisual shape select)
  exitVisual := HostCall.exitVisual.noted host.exitVisual
  modeChanged := fun step => (HostCall.modeChanged step).noted (host.modeChanged step)
  startUndo := HostCall.startUndo.noted host.startUndo
  finishUndo := HostCall.finishUndo.noted host.finishUndo
  reportError := fun error => (HostCall.reportError error).noted (host.reportError error)
  showMessage := fun text => (HostCall.showMessage text).noted (host.showMessage text)
  runLine := fun line => (HostCall.runLine line).answered (host.runLine line)
  shouldInterrupt := fun world =>
    ((host.shouldInterrupt world.1).1, (host.shouldInterrupt world.1).2, world.2)
  evaluate := fun source world =>
    ((host.evaluate source world.1).1, (host.evaluate source world.1).2, world.2)

/-- What a call that is no notice and groups no changes makes of the state of a
host. -/
inductive Host.Serves {σ κ : Type} (host : Host σ κ) : (σ → σ) → Prop where
  | execute (command : Command) (arguments : OperatorArguments) :
      Serves host fun world => (host.execute command arguments world).2
  | executeForCaret (caret : κ) (command : Command) (arguments : OperatorArguments) :
      Serves host fun world => (host.executeForCaret caret command arguments world).2
  | setRegister (register : Register) (text : String) (append : Bool) :
      Serves host (host.setRegister register text append)
  | startFilter (arguments : OperatorArguments) : Serves host (host.startFilter arguments)
  | reportError (error : EngineError) : Serves host (host.reportError error)
  | showMessage (text : String) : Serves host (host.showMessage text)
  | runLine (line : String) : Serves host fun world => (host.runLine line world).2

/-- A host with a log writes one call down, and it neither is a notice nor groups
changes. -/
theorem Host.Serves.log {σ κ : Type} {host : Host σ κ}
    {change : σ × List (HostCall κ) → σ × List (HostCall κ)} (serves : host.logged.Serves change)
    (world : σ × List (HostCall κ)) :
    ∃ call, call.isNotice = false ∧ call.isGrouping = false ∧
      (change world).2 = world.2 ++ [call] := by
  cases serves with
  | execute command arguments => exact ⟨.execute command arguments, rfl, rfl, rfl⟩
  | executeForCaret caret command arguments =>
      exact ⟨.executeForCaret caret command arguments, rfl, rfl, rfl⟩
  | setRegister register text append => exact ⟨.setRegister register text append, rfl, rfl, rfl⟩
  | startFilter arguments => exact ⟨.startFilter arguments, rfl, rfl, rfl⟩
  | reportError error => exact ⟨.reportError error, rfl, rfl, rfl⟩
  | showMessage text => exact ⟨.showMessage text, rfl, rfl, rfl⟩
  | runLine line => exact ⟨.runLine line, rfl, rfl, rfl⟩

namespace Engine

variable {σ κ : Type} (host : Host σ κ)

/-! ## Acts -/

/-- What a line that the engine knows comes to. -/
def lineOutcome (engine : Engine σ) (line : String) : ExCommands × ExOutcome :=
  engine.commands.run line ⟨engine.options, engine.resolver.mappings, engine.editor⟩

/-- The engine with the configuration that a line leaves. -/
def configured (engine : Engine σ) (line : String) : Engine σ :=
  { engine with
    commands := (engine.lineOutcome line).1
    options := (engine.lineOutcome line).2.state.options
    resolver := { engine.resolver with
      mappings := (engine.lineOutcome line).2.state.mappings } }

/-- One thing that running a command does; changes are grouped only where this is
asked for. -/
inductive Act (asked : Prop) (engine : Engine σ) : Engine σ → Prop where
  /-- The host is called. -/
  | calls {change : σ → σ} (serves : host.Serves change) : Act asked engine (engine.tell change)
  /-- A line changes the configuration. -/
  | configures (line : String) : Act asked engine (engine.configured line)
  /-- The changes from here on are undone together. -/
  | groups (asks : asked) (closed : engine.undoOpen = false) :
      Act asked engine ({ engine with undoOpen := true }.tell host.startUndo)
  /-- The register that was run is remembered. -/
  | remembers (register : Register) : Act asked engine { engine with lastRun := some register }

/-- Acts one after the other. -/
abbrev Acts (asked : Prop) : Engine σ → Engine σ → Prop := Relation.ReflTransGen (Act host asked)

/-- What no act changes. -/
structure Frame (engine next : Engine σ) : Prop where
  recorder : next.recorder = engine.recorder
  selection : next.selection = engine.selection
  resolver : next.resolver = { engine.resolver with mappings := next.resolver.mappings }

theorem Frame.trans {a b c : Engine σ} (first : Frame a b) (second : Frame b c) : Frame a c :=
  ⟨second.recorder.trans first.recorder, second.selection.trans first.selection,
    by rw [second.resolver, first.resolver]⟩

variable {asked : Prop}

variable {host} in
theorem Act.frame {engine next : Engine σ} (act : Act host asked engine next) : Frame engine next := by
  cases act <;> exact ⟨rfl, rfl, rfl⟩

variable {host} in
theorem Acts.frame {engine next : Engine σ} (acts : Acts host asked engine next) :
    Frame engine next := by
  induction acts with
  | refl => exact ⟨rfl, rfl, rfl⟩
  | tail before act ih => exact ih.trans act.frame

/-- With a log, calls are added, and none of them is a notice. -/
theorem Acts.log {host : Host σ κ} {engine next : Engine (σ × List (HostCall κ))}
    (acts : Acts host.logged asked engine next) :
    ∃ calls : List (HostCall κ), next.world.2 = engine.world.2 ++ calls ∧
      ∀ call ∈ calls, call.isNotice = false := by
  induction acts with
  | refl => exact ⟨[], by simp, by simp⟩
  | @tail before next acts act ih =>
      obtain ⟨calls, log, plain⟩ := ih
      have noted (call : HostCall κ) (quiet : call.isNotice = false)
          (added : next.world.2 = before.world.2 ++ [call]) :
          ∃ calls : List (HostCall κ), next.world.2 = engine.world.2 ++ calls ∧
            ∀ call ∈ calls, call.isNotice = false := by
        refine ⟨calls ++ [call], added.trans (by rw [log, List.append_assoc]), ?_⟩
        intro other member
        rcases List.mem_append.mp member with early | last
        · exact plain other early
        · rw [List.mem_singleton.mp last]
          exact quiet
      cases act with
      | calls serves =>
          obtain ⟨call, quiet, _, added⟩ := serves.log before.world
          exact noted call quiet added
      | configures line => exact ⟨calls, log, plain⟩
      | groups asks closed => exact noted .startUndo rfl rfl
      | remembers register => exact ⟨calls, log, plain⟩

/-! ## Lines -/

theorem report_acts (engine : Engine σ) (error : EngineError) :
    Acts host asked engine (engine.report host error) :=
  .single (.calls (.reportError error))

theorem showAll_acts (engine : Engine σ) (shown : List String) :
    Acts host asked engine (engine.tell fun world =>
      shown.foldl (fun world text => host.showMessage text world) world) := by
  induction shown generalizing engine with
  | nil => exact .refl
  | cons text rest ih =>
      have first : Acts host asked engine (engine.tell (host.showMessage text)) :=
        .single (.calls (.showMessage text))
      exact first.trans (ih _)

/-- A line that the engine knows changes the configuration, and its output is shown. -/
theorem runLine_of_known {engine : Engine σ} {line : String}
    (known : engine.commands.isCommand line = true) :
    engine.runLine host line =
      match (engine.lineOutcome line).2.result with
      | .ok shown => (.ok (), (engine.configured line).tell fun world =>
          shown.foldl (fun world text => host.showMessage text world) world)
      | .error error => (.error error, engine.configured line) := by
  unfold runLine
  rw [if_pos known]
  rfl

theorem runLine_acts (engine : Engine σ) (line : String) :
    Acts host asked engine (engine.runLine host line).2 := by
  by_cases known : engine.commands.isCommand line
  · have configured : Acts host asked engine (engine.configured line) := .single (.configures line)
    rw [runLine_of_known host known]
    split
    · exact configured.trans (showAll_acts host _ _)
    · exact configured
  · have asked : Acts host asked engine (engine.ask (host.runLine line)).2 :=
      .single (.calls (.runLine line))
    unfold runLine
    rw [if_neg known]
    split <;> rename_i next same <;> rw [same] at asked <;> exact asked

theorem executeLine_acts (engine : Engine σ) (line : String) :
    Acts host asked engine (engine.executeLine host line).2 := by
  have ran : Acts host asked engine (engine.runLine host line).2 := runLine_acts host engine line
  unfold executeLine
  split <;> rename_i next same <;> rw [same] at ran
  · exact ran
  · exact ran.trans (report_acts host _ _)

theorem repeatLine_acts (line : String) (times : Nat) (engine : Engine σ) :
    Acts host asked engine (engine.repeatLine host line times).2 := by
  induction times generalizing engine with
  | zero => exact .refl
  | succ times ih =>
      have ran : Acts host asked engine (engine.executeLine host line).2 :=
        executeLine_acts host engine line
      unfold repeatLine
      split <;> rename_i next same <;> rw [same] at ran
      · exact ran.trans (ih next)
      · exact ran

theorem source_acts (engine : Engine σ) (text : String) :
    Acts host asked engine (engine.source host text).2 := by
  unfold source
  refine List.foldlRecOn (motive := fun now : Except EngineError Unit × Engine σ =>
    Acts host asked engine now.2) (sourceLines text) _ .refl ?_
  intro now before line _
  have ran := before.trans (runLine_acts host now.2 line)
  dsimp only
  split <;> rename_i next same <;> rw [same] at ran
  · exact ran
  · exact ran.trans (report_acts host _ _)

/-! ## Commands of the host -/

theorem executeForCarets_acts (engine : Engine σ) (resolved : ResolvedCommand) (carets : List κ)
    (succeeded : Bool) :
    Acts host asked engine (engine.tell fun world => (carets.foldl
      (fun (now : Bool × σ) caret =>
        let ran := host.executeForCaret caret resolved.command resolved.arguments now.2
        (now.1 && ran.1, ran.2)) (succeeded, world)).2) := by
  induction carets generalizing engine succeeded with
  | nil => exact .refl
  | cons caret rest ih =>
      have first : Acts host asked engine (engine.tell fun world =>
          (host.executeForCaret caret resolved.command resolved.arguments world).2) :=
        .single (.calls (.executeForCaret caret resolved.command resolved.arguments))
      exact first.trans (ih _ (succeeded &&
        (host.executeForCaret caret resolved.command resolved.arguments engine.world).1))

theorem hand_acts (engine : Engine σ) (resolved : ResolvedCommand) :
    Acts host (resolved.command.flags.multikeyUndo = true) engine
      (engine.hand host resolved).2 := by
  have grouped : Acts host (resolved.command.flags.multikeyUndo = true) engine
      (if resolved.command.flags.multikeyUndo && !engine.undoOpen then
        { engine with undoOpen := true }.tell host.startUndo
      else engine) := by
    split
    · rename_i both
      rw [Bool.and_eq_true, Bool.not_eq_true'] at both
      exact .single (.groups both.1 both.2)
    · exact .refl
  unfold hand
  dsimp only
  generalize (if resolved.command.flags.multikeyUndo && !engine.undoOpen then
    { engine with undoOpen := true }.tell host.startUndo else engine) = now at grouped ⊢
  split
  · exact grouped.trans (.single (.calls (.execute resolved.command resolved.arguments)))
  · exact grouped.trans (executeForCarets_acts host now resolved _ true)

/-! ## Changes of the mode -/

@[simp] theorem showSelection_selection (engine : Engine σ) (selection : Option ShownSelection) :
    (engine.showSelection host selection).selection = selection := by
  unfold showSelection
  split
  · rename_i same
    exact same
  · rfl

@[simp] theorem showSelection_resolver (engine : Engine σ) (selection : Option ShownSelection) :
    (engine.showSelection host selection).resolver = engine.resolver := by
  unfold showSelection
  split <;> rfl

@[simp] theorem showSelection_undoOpen (engine : Engine σ) (selection : Option ShownSelection) :
    (engine.showSelection host selection).undoOpen = engine.undoOpen := by
  unfold showSelection
  split <;> rfl

theorem modeChanged_resolver (engine : Engine σ) (step : ModeStep) :
    (engine.modeChanged host step).resolver = engine.resolver := by
  have closed (shown : Engine σ) : (shown.closeUndo host step).resolver = shown.resolver := by
    unfold closeUndo
    split <;> rfl
  exact (closed _).trans (showSelection_resolver host engine _)

end Engine

/-! ## Every command -/

/-- The commands that record keys or run recorded ones. -/
def Action.isMacro (action : Action) : Bool :=
  match action.builtin with
  | some .toggleRecording | some .executeMacro | some .repeatMacro => true
  | some .filter | none => false

namespace Engine

variable {σ κ : Type} (host : Host σ κ)

/-- What running a command comes to, with whether it succeeded. -/
inductive Executed (engine : Engine σ) (resolved : ResolvedCommand) : Bool × Engine σ → Prop where
  /-- Only acts: it does not end a recording. -/
  | acts {succeeded : Bool} {next : Engine σ}
      (acts : Acts host (resolved.command.flags.multikeyUndo = true) engine next)
      (off : resolved.command.action.builtin = some .toggleRecording →
        engine.recorder.recording = none) :
      Executed engine resolved (succeeded, next)
  /-- What was recorded goes into its register. -/
  | stops (register : Register) (append : Bool)
      (toggles : resolved.command.action.builtin = some .toggleRecording)
      (running : engine.recorder.recording = some (register, append)) :
      Executed engine resolved (true,
        ({ engine with
            recorder := engine.recorder.finish.1
            resolver := engine.resolver.setRecording false } : Engine σ).tell
          (host.setRegister register (Key.textAll engine.recorder.committed) append))
  | starts (register : Register) (append : Bool)
      (toggles : resolved.command.action.builtin = some .toggleRecording)
      (off : engine.recorder.recording = none) :
      Executed engine resolved (true, { engine with
        recorder := engine.recorder.start register append
        resolver := engine.resolver.setRecording true })
  /-- The keys that a register holds are to be run. -/
  | reruns (register : Register) (times : Nat) (replays : resolved.command.action.isMacro = true)
      (other : resolved.command.action.builtin ≠ some .toggleRecording) :
      Executed engine resolved (true, { engine with
        lastRun := some register
        recorder := (engine.recorder.execute
          (Key.ofText ((host.register? register engine.world).getD "")) times).1 })
  /-- Runs lead into each other too often. -/
  | overruns {next : Engine σ} (register : Register)
      (replays : resolved.command.action.isMacro = true)
      (other : resolved.command.action.builtin ≠ some .toggleRecording)
      (acts : Acts host (resolved.command.flags.multikeyUndo = true) { engine with
        lastRun := some register, recorder := engine.recorder.interrupt } next) :
      Executed engine resolved (false, next)

theorem refuse_acts {asked : Prop} (engine : Engine σ) (error : EngineError) :
    Acts host asked engine (engine.refuse host error).2 := report_acts host engine error

variable {host} in
/-- Acts, of a command that is not about recording. -/
theorem Executed.of_acts {engine : Engine σ} {resolved : ResolvedCommand}
    {outcome : Bool × Engine σ}
    (acts : Acts host (resolved.command.flags.multikeyUndo = true) engine outcome.2)
    (other : resolved.command.action.builtin ≠ some .toggleRecording) :
    Executed host engine resolved outcome :=
  .acts acts fun toggles => absurd toggles other

theorem runRegister_executed {resolved : ResolvedCommand}
    (replays : resolved.command.action.isMacro = true)
    (other : resolved.command.action.builtin ≠ some .toggleRecording) (engine : Engine σ)
    (register : Register) (times : Count) :
    Executed host engine resolved (engine.runRegister host register times) := by
  unfold runRegister
  dsimp only
  split
  · exact .of_acts (refuse_acts host engine _) other
  · split
    · have remembered : Acts host (resolved.command.flags.multikeyUndo = true) engine
          { engine with lastRun := some register } :=
        .single (.remembers register)
      exact .of_acts (remembered.trans (repeatLine_acts host _ times.toNat _)) other
    · split
      · rename_i recorder started
        have same := congrArg Prod.fst started
        dsimp only at same
        rw [← same]
        exact .reruns register times.toNat replays other
      · rename_i recorder error refused
        have interrupted : recorder = engine.recorder.interrupt := by
          unfold Recorder.execute at refused
          split at refused
          · exact (congrArg Prod.fst refused).symm
          · cases congrArg Prod.snd refused
        rw [interrupted]
        exact .overruns register replays other (refuse_acts host _ _)

theorem runLast_executed {resolved : ResolvedCommand}
    (replays : resolved.command.action.isMacro = true)
    (other : resolved.command.action.builtin ≠ some .toggleRecording) (engine : Engine σ)
    (times : Count) : Executed host engine resolved (engine.runLast host times) := by
  unfold runLast
  split
  · exact runRegister_executed host replays other engine _ times
  · exact .of_acts (refuse_acts host engine _) other

theorem toggleRecording_executed {resolved : ResolvedCommand}
    (toggles : resolved.command.action.builtin = some .toggleRecording) (engine : Engine σ) :
    Executed host engine resolved (engine.runBuiltin host .toggleRecording resolved) := by
  unfold runBuiltin
  dsimp only
  cases running : engine.recorder.recording with
  | some target =>
      have finished : engine.recorder.finish = (engine.recorder.finish.1,
          some ⟨target.1, target.2, engine.recorder.committed⟩) := by
        simp only [Recorder.finish, running]
      rw [finished]
      exact .stops target.1 target.2 toggles running
  | none =>
      have idle : engine.recorder.finish = (engine.recorder, none) := by
        simp only [Recorder.finish, running]
      rw [idle]
      split
      · rename_i ended
        cases congrArg Prod.snd ended
      · unfold startRecording
        split
        · split
          · exact .starts _ _ toggles running
          · exact .acts (refuse_acts host engine _) fun _ => running
        · exact .acts (refuse_acts host engine _) fun _ => running
      · exact .acts .refl fun _ => running

theorem runBuiltin_executed {resolved : ResolvedCommand} {builtin : BuiltinAction}
    (kind : resolved.command.action.builtin = some builtin) (engine : Engine σ) :
    Executed host engine resolved (engine.runBuiltin host builtin resolved) := by
  have replays (plays : builtin = .executeMacro ∨ builtin = .repeatMacro) :
      resolved.command.action.isMacro = true := by
    unfold Action.isMacro
    rw [kind]
    rcases plays with rfl | rfl <;> rfl
  have other (differs : builtin ≠ .toggleRecording) :
      resolved.command.action.builtin ≠ some .toggleRecording := by
    rw [kind]
    simpa using differs
  cases builtin with
  | toggleRecording => exact toggleRecording_executed host kind engine
  | executeMacro =>
      have replays := replays (.inl rfl)
      have other := other (by simp)
      unfold runBuiltin
      dsimp only
      split
      · split
        · exact runLast_executed host replays other engine _
        · split
          · exact runRegister_executed host replays other engine _ _
          · exact .of_acts (refuse_acts host engine _) other
      · exact .of_acts .refl other
  | repeatMacro => exact runLast_executed host (replays (.inr rfl)) (other (by simp)) engine _
  | filter =>
      have asked : Acts host (resolved.command.flags.multikeyUndo = true) engine
          (engine.runBuiltin host .filter resolved).2 :=
        .tail (.single (.calls (.startFilter resolved.arguments)))
          (.calls (.execute resolved.command resolved.arguments))
      exact .of_acts asked (other (by simp))

/-- Running a command is one of these things. -/
theorem execute_cases (engine : Engine σ) (resolved : ResolvedCommand) :
    Executed host engine resolved (engine.execute host resolved) := by
  unfold execute
  dsimp only
  split
  · rename_i builtin kind
    exact runBuiltin_executed host kind engine
  · rename_i plain
    have other : resolved.command.action.builtin ≠ some .toggleRecording := by simp [plain]
    split
    · exact .of_acts .refl other
    · split
      · exact .of_acts (refuse_acts host engine _) other
      · split
        · split
          · rename_i line _ _
            have told : Acts host (resolved.command.flags.multikeyUndo = true) engine
                (engine.tell (host.setRegister .lastCommand line false)) :=
              .single (.calls (.setRegister .lastCommand line false))
            exact .of_acts (told.trans (executeLine_acts host _ line)) other
          · rename_i line _ _
            have told : Acts host (resolved.command.flags.multikeyUndo = true) engine
                (engine.tell (host.setRegister .lastSearch line false)) :=
              .single (.calls (.setRegister .lastSearch line false))
            exact .of_acts (told.trans (hand_acts host _ resolved)) other
        · exact .of_acts (hand_acts host engine resolved) other

end Engine

end ModalInput
