/-
# ModalInput.Proofs.RecordingToggles -- who knows whether keys are recorded

The command that starts a recording names a register, and the one that ends it names
none.  The same keys stand for both, and the resolver tells them apart by a flag of its
own, when the keys are resolved; the recorder decides when the command runs.  The flag
is always the recorder's state, so what is resolved under it agrees with the recorder as
long as no recording starts or ends.

One does start or end while commands wait that were resolved before: keys that a mapping
stands for are resolved in one go.  Then each toggle that waits does what its keys were
not resolved to do (`Overtakes`); where no turn overtakes a toggle, all of them agree.

* `Suited`, `Suited.moves` -- the states of the recorder in which what waits was resolved,
  whatever the resolver does.
* `Toggling.take` -- any turn leaves the flag at the recorder's state, and what waits as it
  was resolved.
* `toggles_agree` -- in every run: the flag is right, toggles agree while none is overtaken,
  and one that is overtaken does not.
-/
import ModalInput.Proofs.CompleteCommands
import ModalInput.Proofs.Recordings
import ModalInput.Proofs.ToldActions

namespace ModalInput

set_option autoImplicit false

/-! ## Toggles -/

namespace Command

/-- Starts or ends a recording, with a register to be named. -/
def Toggles (command : Command) : Prop :=
  command.action.builtin = some .toggleRecording ∧ command.action.argument = .character

/-- A register is named exactly if nothing is recorded. -/
def Agrees (recording : Bool) (command : Command) : Prop :=
  if recording then command.argument = none else ∃ c, command.argument = some (.character c)

/-- If it is a toggle, it was resolved in one of some states of the recorder. -/
def Suits (states : Bool → Prop) (command : Command) : Prop :=
  command.Toggles → ∃ recording, states recording ∧ command.Agrees recording

variable {command : Command} {states : Bool → Prop}

theorem not_toggles (kind : command.action.argument ≠ .character) : ¬ command.Toggles :=
  fun toggles => kind toggles.2

theorem Suits.of_not (other : ¬ command.Toggles) : command.Suits states :=
  fun toggles => absurd toggles other

/-- What agrees with one state of the recorder does not agree with the other. -/
theorem Agrees.not_other {recording : Bool} (agrees : command.Agrees recording) :
    ¬ command.Agrees (!recording) := by
  intro too
  cases recording with
  | true =>
      obtain ⟨c, named⟩ : ∃ c, command.argument = some (.character c) := too
      rw [show command.argument = none from agrees] at named
      cases named
  | false =>
      obtain ⟨c, named⟩ : ∃ c, command.argument = some (.character c) := agrees
      rw [show command.argument = none from too] at named
      cases named

end Command

/-- The toggle that is told was resolved in one of some states. -/
def EngineEvent.Suits (states : Bool → Prop) : EngineEvent → Prop
  | .command resolved => resolved.command.Suits states
  | .modeChanged _ | .failed _ => True

/-- No toggle is an operator, and one that waits for its register was resolved while
nothing was recorded. -/
structure PendingCommand.Suits (states : Bool → Prop) (pending : PendingCommand) : Prop where
  operator : ∀ operator, pending.operator = some operator → ¬ operator.command.Toggles
  awaits : ∀ awaiting command, pending.awaiting = some awaiting →
    awaiting.command? = some command → pending.operator = none → command.Toggles →
      states false ∧ awaiting = .character command

namespace PendingCommand.Suits

variable {states : Bool → Prop}

theorem empty : PendingCommand.Suits states {} := ⟨by simp, by simp⟩

variable {pending pending' : PendingCommand} (suits : pending.Suits states)
include suits

/-- The parts that count are the same. -/
theorem of_same (operator : pending'.operator = pending.operator)
    (awaiting : pending'.awaiting = pending.awaiting) : pending'.Suits states :=
  ⟨by rw [operator]; exact suits.operator, by rw [operator, awaiting]; exact suits.awaits⟩

/-- Another argument is awaited. -/
theorem await (awaiting : Awaiting)
    (waits : ∀ command, awaiting.command? = some command → pending.operator = none →
      command.Toggles → states false ∧ awaiting = .character command) :
    PendingCommand.Suits states { pending with awaiting := some awaiting } := by
  refine ⟨suits.operator, ?_⟩
  intro other command same
  cases same
  exact waits command

theorem answered : PendingCommand.Suits states { pending with awaiting := none } :=
  ⟨suits.operator, by simp⟩

end PendingCommand.Suits

namespace Resolver

variable (options : OptionView)

/-- While keys are recorded, a toggle waits for no register. -/
theorem commandResolved_toggle {r : Resolver} {action : Action}
    (toggles : action.builtin = some .toggleRecording) (kind : action.argument = .character)
    (recording : r.recording = true) (keys : List Key) :
    r.commandResolved options action keys = r.counted.argumentDone options (r.commandOf action) := by
  have plain : action.isOperator = false := by simp [Action.isOperator, kind]
  have collected : r.counted.collectArgument options (r.commandOf action) keys =
      r.counted.argumentDone options (r.commandOf action) := by
    simp [collectArgument, commandOf_action, kind, toggles, recording]
  rw [← collected]
  by_cases pending : r.modes.mode = .operatorPending
  · simp [commandResolved, motionResolved, counted, commandOf, pending]
  · simp [commandResolved, counted, commandOf, pending, plain]

/-- What is pending was resolved in some states, and so was every toggle that is told. -/
structure Heeds (states : Bool → Prop) (r next : Resolver) : Prop where
  pending : next.pending.Suits states
  told : Emits (EngineEvent.Suits states) r next

namespace Heeds

variable {states : Bool → Prop}

/-- What is pending changes, and nothing is told. -/
theorem silent {r next : Resolver} (pending : next.pending.Suits states)
    (events : next.events = r.events) : Heeds states r next :=
  ⟨pending, .of_events events⟩

/-- Nothing was told before. -/
theorem of_events {a b c : Resolver} (heeds : Heeds states b c) (same : b.events = a.events) :
    Heeds states a c :=
  ⟨heeds.pending, (Emits.of_events same).trans heeds.told⟩

theorem abort (r : Resolver) : Heeds states r r.abort :=
  ⟨.empty, .abort (fun _ => trivial) r⟩

/-- The argument of a command is there; as a motion it brings an operator, which is no
toggle. -/
theorem argumentDone {r : Resolver} (suits : r.pending.Suits states) {command : Command}
    (alone : r.pending.operator = none → command.Suits states) :
    Heeds states r (r.argumentDone options command) := by
  refine ⟨by rw [pending_argumentDone]; exact .empty, ?_⟩
  apply Emits.argumentDone (fun _ => trivial)
  · exact alone
  · intro operator waiting
    exact .of_not (suits.operator operator waiting)

/-- Keys that are known to be an action: the flag decides what a toggle waits for. -/
theorem commandResolved {r : Resolver} (suits : r.pending.Suits states) (now : states r.recording)
    (action : Action) (keys : List Key) :
    Heeds states r (r.commandResolved options action keys) := by
  have counted : r.counted.pending.Suits states :=
    suits.of_same (operator_counted r) (awaiting_counted r)
  have same := events_counted r
  have bare := commandOf_argument r action
  have other (kind : action.argument ≠ .character) : ¬ (r.commandOf action).Toggles :=
    Command.not_toggles (by rw [commandOf_action]; exact kind)
  by_cases stops : (r.commandOf action).Toggles ∧ r.recording = true
  · obtain ⟨⟨toggles, kind⟩, on⟩ := stops
    rw [commandOf_action] at toggles kind
    rw [commandResolved_toggle options toggles kind on]
    exact (argumentDone options counted fun _ _ => ⟨true, on ▸ now, bare⟩).of_events same
  · have step := commandResolved_step options r action keys
    generalize r.commandResolved options action keys = after at step ⊢
    cases step with
    | starts starts =>
        have operator : action.argument = .motion := by simpa [Action.isOperator] using starts.2.1
        refine ⟨⟨?_, by simp [pushMode, emitSteps]⟩, ?_⟩
        · intro waiting waits
          cases waits
          exact other (by simp [operator])
        · exact (Emits.of_events same).trans (.pushMode (fun _ => trivial) _ _)
    | finishes noOperator ready =>
        refine (argumentDone options counted fun _ => .of_not ?_).of_events same
        rcases ready with none | motion | ⟨_, on, _⟩
        · exact other (by simp [none])
        · exact other (by simp [motion])
        · exact fun toggles => stops ⟨toggles, on⟩
    | awaitsCharacter kind =>
        refine silent (counted.await _ fun command waits _ toggles => ?_) same
        cases waits
        have off : r.recording = false := by simpa using fun on => stops ⟨toggles, on⟩
        exact ⟨off ▸ now, rfl⟩
    | opensLine kind =>
        refine ⟨counted.await _ fun command waits _ toggles => ?_, ?_⟩
        · cases waits
          exact absurd toggles (other (by simp [kind]))
        · exact ((Emits.of_events same).trans
            (.pushMode (fun _ => trivial) r.counted .commandLine)).trans (.of_events rfl)
    | awaitsOffsets kind =>
        refine silent (counted.await _ fun command waits _ toggles => ?_) same
        cases waits
        exact absurd toggles (other (by simp [kind]))

/-- The held command runs. -/
theorem fireHeld {r : Resolver} (suits : r.pending.Suits states) (now : states r.recording) :
    Heeds states r (r.fireHeld options) := by
  unfold Resolver.fireHeld
  split
  · exact silent suits rfl
  · rename_i held holding
    let released : Resolver :=
      ({ r with pending := { r.pending with held := none, keys := [] } } : Resolver).requeue
        ((r.pending.keys.drop held.length).map .literal)
    have free : released.pending.Suits states := suits.of_same rfl rfl
    exact (commandResolved options (r := released) free now held.value _).of_events rfl

/-- A key of the command layer. -/
theorem commandKey {r : Resolver} (suits : r.pending.Suits states) (now : states r.recording)
    (key : Key) : Heeds states r (r.commandKey options key) := by
  have step := commandKey_step options r key
  have answered : r.answered.pending.Suits states := suits.answered
  have gathered : (r.gathered key).pending.Suits states := suits.of_same rfl rfl
  have other {awaiting : Awaiting} {command : Command}
      (awaits : r.pending.awaiting = some awaiting) (waits : awaiting.command? = some command)
      (differs : awaiting ≠ .character command) (alone : r.pending.operator = none) :
      ¬ command.Toggles := fun toggles =>
    differs (suits.awaits awaiting command awaits waits alone toggles).2
  generalize r.commandKey options key = after at step ⊢
  cases step with
  | drops => exact abort r
  | refuses c awaits => exact ⟨.empty, (abort r).told.trans (.emit _ trivial)⟩
  | names register awaits named => exact silent (answered.of_same rfl rfl) rfl
  | supplies command c awaits types =>
      refine (argumentDone options answered fun alone toggles => ?_).of_events rfl
      exact ⟨false, (suits.awaits _ command awaits rfl alone toggles).1, c, rfl⟩
  | enters command prompt typed awaits confirms =>
      have popped : Emits (EngineEvent.Suits states) r r.answered.popMode :=
        .popMode (fun _ => trivial) r.answered
      have confirmed (alone : r.answered.popMode.pending.operator = none) :
          (command.withArgument (.line (String.ofList typed))).Suits states :=
        .of_not (show ¬ command.Toggles from other awaits rfl (by simp) alone)
      have done := argumentDone options (r := r.answered.popMode) answered confirmed
      exact ⟨done.pending, popped.trans done.told⟩
  | edits command prompt typed awaits =>
      refine silent (answered.await _ fun command waits alone toggles => ?_) rfl
      cases waits
      exact absurd toggles (other awaits rfl (by simp) alone)
  | waits command awaits =>
      refine silent (answered.await _ fun command waits alone toggles => ?_) rfl
      cases waits
      exact absurd toggles (other awaits rfl (by simp) alone)
  | counts count idle first mode digit =>
      refine silent ?_ rfl
      show ((r.noted key).pending.withCurrentCount count).Suits states
      unfold PendingCommand.withCurrentCount
      split <;> exact suits.of_same rfl rfl
  | asksRegister idle first mode sign =>
      have shown : (r.noted key).pending.Suits states := suits.of_same rfl rfl
      exact silent (shown.await _ (by simp [Awaiting.command?])) rfl
  | repeats operator idle waiting again =>
      have doubled : (r.gathered key).doubled.pending.Suits states :=
        gathered.of_same rfl rfl
      refine (argumentDone options doubled fun alone => ?_).of_events rfl
      cases waiting.symm.trans alone
  | gathers idle found => exact silent gathered rfl
  | holds action idle found => exact silent (gathered.of_same rfl rfl) rfl
  | resolves action idle found =>
      have released : (r.gathered key).released.pending.Suits states :=
        gathered.of_same rfl rfl
      exact (commandResolved options (r := (r.gathered key).released) released now action
        _).of_events rfl
  | fires held idle holding =>
      exact (fireHeld options (r := r.gathered key) gathered now).of_events rfl
  | parts first second idle single nothing apart => exact silent (suits.of_same rfl rfl) rfl
  | types action c idle single nothing typing typed =>
      refine ⟨.empty, Emits.complete (fun _ => trivial) options _ _ (.of_not ?_)⟩
      rintro ⟨toggles, _⟩
      unfold typingAction? at typing
      split at typing <;> cases typing <;> cases toggles

end Heeds

/-! ## The resolver -/

/-- Every toggle that waits was resolved in one of some states of the recorder. -/
structure Suited (states : Bool → Prop) (r : Resolver) : Prop where
  pending : r.pending.Suits states
  events : ∀ event ∈ r.events, event.Suits states

/-- A toggle waits to be run, or for the register that it names. -/
def OwesToggle (r : Resolver) : Prop :=
  (∃ resolved : ResolvedCommand, .command resolved ∈ r.events ∧ resolved.command.Toggles) ∨
    ∃ awaiting command, r.pending.awaiting = some awaiting ∧
      awaiting.command? = some command ∧ r.pending.operator = none ∧ command.Toggles

namespace Suited

variable {states : Bool → Prop} {r next : Resolver}

theorem heeds (suited : Suited states r) (heeds : Heeds states r next) : Suited states next := by
  refine ⟨heeds.pending, ?_⟩
  intro event member
  obtain ⟨more, added, all⟩ := heeds.told
  rw [added] at member
  rcases List.mem_append.mp member with early | late
  · exact suited.events event early
  · exact all event late

/-- Where no toggle waits, nothing has to be known. -/
theorem of_clear (suited : Suited states r) (clear : ¬ r.OwesToggle) (others : Bool → Prop) :
    Suited others r := by
  refine ⟨⟨suited.pending.operator, ?_⟩, ?_⟩
  · intro awaiting command awaits waits alone toggles
    exact absurd (.inr ⟨awaiting, command, awaits, waits, alone, toggles⟩) clear
  · intro event member
    cases event with
    | command resolved =>
        exact fun toggles => absurd (.inl ⟨resolved, member, toggles⟩) clear
    | modeChanged step => trivial
    | failed error => trivial

theorem move (suited : Suited states r) (now : states r.recording) (options : OptionView)
    (move : Move options r next) : Suited states next := by
  have pending := suited.pending
  cases move with
  | queue typeahead => exact suited.heeds (.silent pending rfl)
  | joins key maps => exact suited.heeds (.silent pending rfl)
  | reaches key mapping maps found => exact suited.heeds (.silent pending rfl)
  | leaves => exact suited.heeds (.silent pending rfl)
  | acts mapping action found target =>
      exact suited.heeds ((Heeds.commandResolved options (r := r.withoutTrail) pending now action
        []).of_events rfl)
  | key key empty => exact suited.heeds (Heeds.commandKey options pending now key)
  | fires => exact suited.heeds (Heeds.fireHeld options pending now)
  | supplies command values awaits =>
      refine suited.heeds (Heeds.argumentDone options pending fun alone => .of_not fun toggles => ?_)
      cases (pending.awaits _ command awaits rfl alone toggles).2
  | cancels => exact suited.heeds ⟨.empty, .cancel (fun _ => trivial) r⟩
  | fails error => exact suited.heeds ⟨pending, .emit r trivial⟩

/-- Whatever the resolver does, if its flag is one of the states. -/
theorem moves (suited : Suited states r) (now : states r.recording) {options : OptionView}
    (moves : Moves options r next) : Suited states next := by
  induction moves with
  | refl => exact suited
  | step before last ih =>
      have flag := before.tables.2.2
      exact ih.move (flag ▸ now) options last

theorem setMode (suited : Suited states r) (state : ModeState) :
    Suited states (r.setMode state) :=
  suited.heeds ⟨.empty, .setMode (fun _ => trivial) r state⟩

end Suited

end Resolver

/-! ## Engines -/

namespace Engine

variable {σ κ : Type} (host : Host σ κ)

/-- The flag is the recorder's state, and every toggle that waits was resolved in one of
some states. -/
structure Toggling (states : Bool → Prop) (engine : Engine σ) : Prop where
  flag : engine.resolver.recording = engine.recorder.recording.isSome
  suited : engine.resolver.Suited states

/-- Every toggle that waits was resolved in the state that the recorder is in. -/
def Attuned (engine : Engine σ) : Prop :=
  engine.Toggling fun recording => recording = engine.resolver.recording

/-- A turn starts or ends a recording while a toggle waits that was resolved before. -/
def Overtakes (engine : Engine σ) (turn : Turn) : Prop :=
  (turn.take host engine).recorder.recording.isSome ≠ engine.recorder.recording.isSome ∧
    (turn.take host engine).resolver.OwesToggle

/-- No turn of a run overtakes a toggle. -/
def Orderly : Engine σ → List Turn → Prop
  | _, [] => True
  | engine, turn :: rest =>
      ¬ engine.Overtakes host turn ∧ Orderly (turn.take host engine) rest

variable {host} {engine next : Engine σ} {states : Bool → Prop}

namespace Toggling

/-- The resolver does something, and the recorder records the same. -/
theorem resolving (toggling : Toggling states engine) (now : states engine.resolver.recording)
    {options : OptionView} {change : Resolver → σ → Resolver × σ}
    (moves : Resolver.Moves options engine.resolver (change engine.resolver engine.world).1) :
    Toggling states (engine.resolving change) :=
  ⟨moves.tables.2.2.trans toggling.flag, toggling.suited.moves now moves⟩

theorem resolveKey (toggling : Toggling states engine) (now : states engine.resolver.recording)
    (key : Key) : Toggling states (engine.resolveKey host key) :=
  toggling.resolving now (Resolver.inputKey_moves _ _ _ _ _)

theorem acts (toggling : Toggling states engine) {asked : Prop}
    (acts : Acts host asked engine next) : Toggling states next := by
  have frame := acts.frame
  refine ⟨?_, ?_, ?_⟩
  · rw [frame.recorder, frame.resolver]
    exact toggling.flag
  · rw [frame.resolver]
    exact toggling.suited.pending
  · rw [frame.resolver]
    exact toggling.suited.events

/-- A command runs; where it starts or ends a recording, the flag follows. -/
theorem execute (toggling : Toggling states engine) (resolved : ResolvedCommand) :
    Toggling states (engine.execute host resolved).2 := by
  have suited := toggling.suited
  have ran := execute_cases host engine resolved
  generalize engine.execute host resolved = outcome at ran
  cases ran with
  | acts acts off => exact toggling.acts acts
  | stops register append toggles running =>
      refine ⟨?_, suited.pending, suited.events⟩
      show false = engine.recorder.finish.1.recording.isSome
      simp [Recorder.finish, running]
  | starts register append toggles off => exact ⟨rfl, suited.pending, suited.events⟩
  | reruns register times replays other =>
      refine ⟨?_, suited.pending, suited.events⟩
      rw [(Recorder.execute_tape _ _ _).recording]
      exact toggling.flag
  | overruns register replays other acts =>
      let interrupted : Engine σ :=
        { engine with lastRun := some register, recorder := engine.recorder.interrupt }
      have stopped : Toggling states interrupted := ⟨toggling.flag, suited.pending, suited.events⟩
      exact stopped.acts acts

/-- The first event that waits is acted on. -/
theorem dispatch (toggling : Toggling states engine) {event : EngineEvent}
    {rest : List EngineEvent} (waits : engine.resolver.events = event :: rest) :
    Toggling states ((engine.withEvents rest).dispatch host event) := by
  have taken : Toggling states (engine.withEvents rest) := by
    refine ⟨toggling.flag, toggling.suited.pending, ?_⟩
    intro later member
    apply toggling.suited.events
    rw [waits]
    exact .tail _ member
  cases event with
  | modeChanged step =>
      refine ⟨?_, ?_⟩
      · rw [modeChanged_recorder]
        exact (congrArg Resolver.recording (modeChanged_resolver host _ step)).trans taken.flag
      · exact (modeChanged_resolver host (engine.withEvents rest) step).symm ▸ taken.suited
  | failed error =>
      have stopped : Toggling states (engine.withEvents rest).stopKeys :=
        ⟨taken.flag, taken.suited⟩
      have reported : Acts host False _ _ := report_acts host (engine.withEvents rest).stopKeys error
      exact stopped.acts reported
  | command resolved =>
      have ran : Toggling states ((engine.withEvents rest).execute host resolved).2 :=
        taken.execute resolved
      unfold Engine.dispatch
      dsimp only
      split <;> exact ⟨ran.flag, ran.suited⟩

theorem stride (toggling : Toggling states engine) (now : states engine.resolver.recording)
    (stride : Stride host engine next) : Toggling states next := by
  cases stride with
  | dispatches event rest waits => exact toggling.dispatch waits
  | replays key rest quiet queue =>
      have asked : Toggling states ((engine.polled host).withQueue rest) :=
        ⟨toggling.flag, toggling.suited⟩
      exact asked.resolveKey now key
  | interrupts quiet stops =>
      have cancels : Resolver.Moves ⟨{}, .everywhere⟩ engine.resolver engine.resolver.cancel :=
        .single .cancels
      exact ⟨toggling.flag, toggling.suited.moves now cancels⟩

/-- Every turn leaves the flag at the recorder's state; and until the recorder changes,
toggles are resolved in the state that it is in. -/
theorem take (toggling : Toggling states engine) (now : states engine.resolver.recording)
    (turn : Turn) : Toggling states (turn.take host engine) := by
  have suited := toggling.suited
  have cancels : Resolver.Moves ⟨{}, .everywhere⟩ engine.resolver engine.resolver.cancel :=
    .single .cancels
  cases turn with
  | key key =>
      let typed : Engine σ := { engine with recorder := engine.recorder.typed key }
      have recorded : Toggling states typed := by
        refine ⟨toggling.flag.trans ?_, suited⟩
        show _ = (engine.recorder.typed key).recording.isSome
        unfold Recorder.typed
        dsimp only
        split
        · split <;> rfl
        · rfl
      exact recorded.resolveKey now key
  | timeout => exact toggling.resolving now (Resolver.timeoutExpired_moves _ _ _ _)
  | offsets values =>
      show Toggling _ (engine.resolving fun resolver world =>
        (resolver.supplyOffsets engine.view host.evaluate world values).getD (resolver, world))
      exact toggling.resolving now (Resolver.supplyOffsets_moves _ _ _ _ _)
  | cancel => exact ⟨toggling.flag, suited.moves now cancels⟩
  | setMode state => exact ⟨toggling.flag, suited.setMode state⟩
  | line line =>
      have acted : Acts host False engine _ := executeLine_acts host engine line
      exact toggling.acts acted
  | source text =>
      have acted : Acts host False engine _ := source_acts host engine text
      exact toggling.acts acted
  | setKeys keys => exact ⟨toggling.flag, suited.pending, suited.events⟩
  | setMappings mappings => exact ⟨toggling.flag, suited.pending, suited.events⟩
  | setOptions options => exact ⟨toggling.flag, suited⟩
  | setEditor editor => exact ⟨toggling.flag, suited⟩
  | step =>
      show Toggling _ ((engine.advance? host).getD engine)
      cases advanced : engine.advance? host with
      | none => exact toggling
      | some next => exact toggling.stride now (advance?_stride host advanced)

/-- Whatever happens, the flag stays at the recorder's state. -/
theorem run (toggling : Toggling (fun _ => True) engine) (turns : List Turn) :
    Toggling (fun _ => True) (engine.run host turns) :=
  run_kept host (fun turn _ _ toggling => toggling.take trivial turn) toggling

end Toggling

namespace Attuned

theorem take (attuned : Attuned engine) {turn : Turn} (follows : ¬ engine.Overtakes host turn) :
    Attuned (turn.take host engine) := by
  have taken : Toggling (· = engine.resolver.recording) (turn.take host engine) :=
    Toggling.take attuned rfl turn
  refine ⟨taken.flag, ?_⟩
  by_cases same : (turn.take host engine).recorder.recording.isSome =
      engine.recorder.recording.isSome
  · rw [taken.flag, same, ← attuned.flag]
    exact taken.suited
  · exact taken.suited.of_clear (fun owes => follows ⟨same, owes⟩) _

theorem run {turns : List Turn} (attuned : Attuned engine) (orderly : Orderly host engine turns) :
    Attuned (engine.run host turns) := by
  induction turns generalizing engine with
  | nil => exact attuned
  | cons turn rest ih => exact ih (attuned.take orderly.1) orderly.2

theorem agrees (attuned : Attuned engine) {resolved : ResolvedCommand}
    (waits : .command resolved ∈ engine.resolver.events) (toggles : resolved.command.Toggles) :
    resolved.command.Agrees engine.recorder.recording.isSome := by
  obtain ⟨recording, rfl, agrees⟩ := attuned.suited.events _ waits toggles
  rw [← attuned.flag]
  exact agrees

/-- A toggle that is overtaken does what its keys were not resolved to do. -/
theorem overtaken (attuned : Attuned engine) {turn : Turn} (overtakes : engine.Overtakes host turn)
    {resolved : ResolvedCommand} (waits : .command resolved ∈ (turn.take host engine).resolver.events)
    (toggles : resolved.command.Toggles) :
    ¬ resolved.command.Agrees (turn.take host engine).recorder.recording.isSome := by
  have taken : Toggling (· = engine.resolver.recording) (turn.take host engine) :=
    Toggling.take attuned rfl turn
  obtain ⟨recording, rfl, agrees⟩ := taken.suited.events _ waits toggles
  rw [Bool.eq_not.mpr overtakes.1, ← attuned.flag]
  exact agrees.not_other

end Attuned

/-- An engine with any tables, mappings and options, whatever happens to it: the resolver
knows whether keys are recorded.  From a moment on in which no toggle waits, and as long
as no turn overtakes one, each toggle that is to be run next agrees with the recorder;
and those that wait after a turn that does overtake them do not. -/
theorem toggles_agree (host : Host σ κ) (world : σ) (options : OptionStore) (keys : CommandKeys)
    (mappings : MappingStore) (before after : List Turn) :
    let start : Engine σ := { world, options, resolver := { keys, mappings } }
    let engine := start.run host (before ++ after)
    engine.resolver.recording = engine.recorder.recording.isSome ∧
      (¬ (start.run host before).resolver.OwesToggle →
        Orderly host (start.run host before) after →
          (∀ resolved rest, engine.resolver.events = .command resolved :: rest →
            resolved.command.Toggles →
              resolved.command.Agrees engine.recorder.recording.isSome) ∧
          ∀ turn, engine.Overtakes host turn → ∀ resolved,
            .command resolved ∈ (turn.take host engine).resolver.events →
              resolved.command.Toggles →
                ¬ resolved.command.Agrees (turn.take host engine).recorder.recording.isSome) := by
  intro start engine
  have begun : Toggling (fun _ => True) start :=
    ⟨rfl, .empty, fun event member => by cases member⟩
  have ended : Toggling (fun _ => True) engine := begun.run (before ++ after)
  refine ⟨ended.flag, ?_⟩
  intro clear orderly
  have reached : Toggling (fun _ => True) (start.run host before) := begun.run before
  have settled : Attuned (start.run host before) := ⟨reached.flag, reached.suited.of_clear clear _⟩
  have joined : engine = (start.run host before).run host after := List.foldl_append
  have attuned : Attuned engine := joined ▸ settled.run orderly
  refine ⟨?_, fun turn overtakes resolved waits toggles => attuned.overtaken overtakes waits toggles⟩
  intro resolved rest waits toggles
  exact attuned.agrees (by rw [waits]; exact .head _) toggles

/-! ## Toggles that wait for each other, and toggles that do not -/

/-- The keys `qaq`: the second toggle is resolved when the first one has run, and ends what
it has started. -/
theorem recordTyped_agrees :
    let before := [.key (.char 'q'), .key (.char 'a'), .step]
    let after := [.key (.char 'q')]
    let toggle := Command.new recordAction 0
    ¬ (recordingEngine.run plainHost.logged before).resolver.OwesToggle ∧
      Orderly plainHost.logged (recordingEngine.run plainHost.logged before) after ∧
      (recordingEngine.run plainHost.logged (before ++ after)).resolver.events =
        [.command ⟨toggle, { count := 0 }⟩] ∧
      toggle.Toggles ∧ toggle.Agrees
        (recordingEngine.run plainHost.logged (before ++ after)).recorder.recording.isSome := by
  intro before after toggle
  have started : recordingEngine.run plainHost.logged before =
      recordingAt (recordingA [] [] true) [] [] := by
    have within : recordingEngine.runWithin plainHost.logged 3 before = some _ := rfl
    exact run_of_within _ within
  have waits : (recordingEngine.run plainHost.logged (before ++ after)).resolver.events =
      [.command ⟨toggle, { count := 0 }⟩] := by
    have within : (recordingEngine.runWithin plainHost.logged 3 (before ++ after)).map
        (fun engine => engine.resolver.events) = some _ := rfl
    exact eq_of_runWithin _ within
  have clear : ¬ (recordingEngine.run plainHost.logged before).resolver.OwesToggle := by
    rw [started]
    rintro (⟨_, member, _⟩ | ⟨_, _, awaits, _⟩)
    · cases member
    · cases awaits
  have orderly : Orderly plainHost.logged (recordingEngine.run plainHost.logged before) after := by
    rw [started]
    exact ⟨fun overtakes => overtakes.1 rfl, trivial⟩
  have toggles : toggle.Toggles := ⟨rfl, rfl⟩
  obtain ⟨_, agree⟩ := toggles_agree plainHost.logged ((), []) {} recordingEngine.resolver.keys {}
    before after
  exact ⟨clear, orderly, waits, toggles, (agree clear orderly).1 _ _ waits toggles⟩

/-- The key `Q` stands for `qaqb`. -/
def twiceMapping : Mapping where
  lhs := [.char 'Q']
  rhs := .keys [.char 'q', .char 'a', .char 'q', .char 'b']
  modes := { normal := true }
  noremap := true

def twiceEngine : Engine (Unit × List (HostCall Unit)) :=
  recordingEngine.withMappings
    { table := KeyTable.empty.insert .normal [.char 'Q'] ⟨0, twiceMapping⟩ }

/-- Both toggles of `qaqb` are resolved before the first one runs.  The second names a
register, runs while keys are recorded, and ends the recording. -/
theorem twice_disagrees :
    let toggle := (Command.new recordAction 0).withArgument (.character 'b')
    let engine := twiceEngine.run plainHost.logged [.key (.char 'Q'), .step]
    engine.resolver.events = [.command ⟨toggle, { count := 0 }⟩] ∧ toggle.Toggles ∧
      engine.recorder.recording = some (.named 'a', false) ∧
      ¬ toggle.Agrees engine.recorder.recording.isSome ∧
      (twiceEngine.run plainHost.logged [.key (.char 'Q'), .step, .step]).world.2 =
        [.setRegister (.named 'a') (Key.textAll []) false] := by
  intro toggle engine
  have waits : (twiceEngine.runWithin plainHost.logged 6 [.key (.char 'Q'), .step]).map
      (fun engine => engine.resolver.events) = some [.command ⟨toggle, { count := 0 }⟩] := rfl
  have starts : (twiceEngine.runWithin plainHost.logged 6 [.key (.char 'Q'), .step]).map
      (fun engine => engine.recorder.recording) = some (some (.named 'a', false)) := rfl
  have ended : (twiceEngine.runWithin plainHost.logged 6 [.key (.char 'Q'), .step, .step]).map
      (fun engine => engine.world.2) =
        some [.setRegister (.named 'a') (Key.textAll []) false] := rfl
  have recorded : engine.recorder.recording = some (.named 'a', false) := eq_of_runWithin _ starts
  refine ⟨eq_of_runWithin _ waits, ⟨rfl, rfl⟩, recorded, ?_, eq_of_runWithin _ ended⟩
  rw [recorded]
  exact Option.some_ne_none _

end Engine

end ModalInput
