/-
# ModalInput.Proofs.CompleteCommands -- with the default keys, no argument is missing

A command that is told has the argument that its action waits for.  What is
awaited belongs to the action that awaits it, and an operator is there only while
its motion can come (`Fitting`); the rest is read off the default table: no key is
an operator, or ends a recording, while a motion is waited for, and no key is
bound in command-line mode.

* `Whole` -- a command and its motion have their arguments; `Fine` -- the commands
  that are told.
* `sound_invariant`, `Sound.emits_run` -- every operation keeps what is pending in
  order, and tells fine commands only.
* `Sound.fine_emitted` -- so in all states, and `Engine.execute` finds no argument
  missing (`execute_eq_executeWhole`).
-/
import ModalInput.Engine.Execute
import ModalInput.Proofs.Session
import ModalInput.Proofs.TableLookup

namespace ModalInput

set_option autoImplicit false

/-! ## The default table -/

/-- While a motion is waited for, no key is an operator or work of the engine. -/
theorem motionBindings : ∀ row ∈ defaultBindings, row.modes.operatorPending = true →
    row.action.argument ≠ .motion ∧ row.action.builtin = none := by
  decide +kernel

/-- No key is bound in command-line mode. -/
theorem lineBindings : ∀ row ∈ defaultBindings, row.modes.commandLine = false := by
  decide +kernel

/-- No operator starts or stops a selection. -/
theorem operatorBindings : ∀ row ∈ defaultBindings, row.action.isOperator = true →
    row.action.flags.keymodel = false ∧ row.action.flags.shiftSelect = false := by
  decide +kernel

/-- An action is bound in a mode by the default table. -/
def Bound (mode : Mode) (action : Action) : Prop :=
  ∃ row ∈ defaultBindings, row.modes.contains (.of mode) = true ∧ row.action = action

theorem Bound.of_lookup {mode : Mode} (keys : List Key) {action : Action}
    (found : (CommandKeys.default.lookup (.of mode) keys).value? = some action) :
    Bound mode action := by
  have leads : CommandKeys.default.table.get? (.of mode) keys = some action := by
    rw [← KeyTable.value?_lookup]
    exact found
  obtain ⟨row, member, contains, _, same⟩ := CommandKeys.exists_binding leads
  exact ⟨row, member, contains, same⟩

theorem Bound.motion {mode : Mode} {action : Action} (bound : Bound mode action)
    (pending : mode = .operatorPending) :
    action.argument ≠ .motion ∧ action.builtin = none := by
  obtain ⟨row, member, contains, rfl⟩ := bound
  rw [pending] at contains
  exact motionBindings row member contains

theorem Bound.mode_ne {mode : Mode} {action : Action} (bound : Bound mode action) :
    mode ≠ .commandLine := by
  rintro rfl
  obtain ⟨row, member, contains, _⟩ := bound
  have free := lineBindings row member
  rw [show row.modes.commandLine = true from contains] at free
  cases free

theorem Bound.flags {mode : Mode} {action : Action} (bound : Bound mode action)
    (operator : action.isOperator = true) :
    action.flags.keymodel = false ∧ action.flags.shiftSelect = false := by
  obtain ⟨row, member, _, rfl⟩ := bound
  exact operatorBindings row member operator

/-! ## Commands that are told -/

/-- A command has its argument, and its motion does, too. -/
structure Whole (command : Command) : Prop where
  complete : command.isComplete = true
  motion : ∀ motion, command.motion = some motion → motion.isComplete = true

/-- A command that is told has its argument, unless a selection takes the place of a
motion or the command ends a recording. -/
def Told (recording : Bool) (resolved : ResolvedCommand) : Prop :=
  Whole resolved.command ∨
    (resolved.command.action.isOperator = true ∧
      resolved.arguments.state.mode.isSelecting = true) ∨
    (resolved.command.action.builtin = some .toggleRecording ∧ recording = true)

/-- An event that tells no unfinished command. -/
def Fine (recording : Bool) : EngineEvent → Prop
  | .command resolved => Told recording resolved
  | _ => True

theorem Whole.of_none {command : Command} (kind : command.action.argument = .none)
    (bare : command.argument = none) : Whole command :=
  ⟨by simp [Command.isComplete, kind], by simp [Command.motion, bare]⟩

/-- An argument of the kind that is waited for. -/
theorem Whole.of_argument {command : Command} (argument : Argument Command)
    (kind : command.action.argument = argument.kind) (plain : argument.kind ≠ .motion) :
    Whole (command.withArgument argument) := by
  constructor
  · simp [Command.isComplete, Command.withArgument, kind]
  · intro motion named
    cases argument with
    | motion => exact absurd rfl plain
    | character c => simp [Command.motion, Command.withArgument] at named
    | offsets values => simp [Command.motion, Command.withArgument] at named
    | line text => simp [Command.motion, Command.withArgument] at named

/-- An operator with a motion that has its argument. -/
theorem Whole.of_operator {operator motion : Command}
    (kind : operator.action.argument = .motion) (complete : motion.isComplete = true) :
    Whole (Resolver.toldOperator operator motion).command := by
  constructor
  · simp [Resolver.toldOperator, Command.isComplete, Command.withArgument, Command.withCount, kind,
      Argument.kind]
  · intro named same
    simp only [Resolver.toldOperator, Command.motion, Command.withArgument,
      Option.some.injEq] at same
    rw [← same]
    exact complete

/-! ## What is pending -/

/-- What is awaited is what the action waits for. -/
def Awaiting.Fits : Awaiting → Prop
  | .register => True
  | .character command => command.action.argument = .character
  | .line command _ _ => command.action.argument = .exString
  | .offsets command => command.action.argument = .offsets

namespace Resolver

/-- What is pending belongs together, and to the mode. -/
structure Fitting (mode : Mode) (pending : PendingCommand) : Prop where
  operator : ∀ operator, pending.operator = some operator →
    operator.command.action.argument = .motion ∧ (mode = .operatorPending ∨ mode = .commandLine)
  awaits : ∀ awaiting, pending.awaiting = some awaiting → awaiting.Fits
  held : ∀ held, pending.held = some held → Bound mode held.value

theorem fitting_empty (mode : Mode) : Fitting mode {} := ⟨by simp, by simp, by simp⟩

/-- Another argument is awaited. -/
theorem Fitting.await {mode : Mode} {pending : PendingCommand} (fitting : Fitting mode pending)
    (awaiting : Awaiting) (fits : awaiting.Fits) :
    Fitting mode { pending with awaiting := some awaiting } where
  operator := fitting.operator
  awaits := by
    intro other same
    cases same
    exact fits
  held := fitting.held

/-- The parts that count are the same. -/
theorem Fitting.of_same {mode : Mode} {pending pending' : PendingCommand}
    (fitting : Fitting mode pending) (operator : pending'.operator = pending.operator)
    (awaits : pending'.awaiting = pending.awaiting) (held : pending'.held = pending.held) :
    Fitting mode pending' where
  operator := by rw [operator]; exact fitting.operator
  awaits := by rw [awaits]; exact fitting.awaits
  held := by rw [held]; exact fitting.held

theorem Fitting.answered {mode : Mode} {pending : PendingCommand} (fitting : Fitting mode pending) :
    Fitting mode { pending with awaiting := none } :=
  ⟨fitting.operator, by simp, fitting.held⟩

theorem Fitting.released {mode : Mode} {pending : PendingCommand} (fitting : Fitting mode pending)
    (keys : List Key) : Fitting mode { pending with held := none, keys } :=
  ⟨fitting.operator, fitting.awaits, by simp⟩

variable (options : OptionView)

theorem fitting_counted {r : Resolver} (fitting : Fitting r.modes.mode r.pending) :
    Fitting r.counted.modes.mode r.counted.pending := by
  rw [modes_counted]
  exact fitting.of_same (operator_counted r) (awaiting_counted r) (held_counted r)

theorem fitting_argumentDone (r : Resolver) (command : Command) :
    Fitting (r.argumentDone options command).modes.mode
      (r.argumentDone options command).pending := by
  rw [pending_argumentDone]
  exact fitting_empty _

/-- An action keeps what is pending together, while no command is held. -/
theorem fitting_commandResolved {r : Resolver} (fitting : Fitting r.modes.mode r.pending)
    (nothing : r.pending.held = none) (action : Action) (keys : List Key) :
    Fitting (r.commandResolved options action keys).modes.mode
      (r.commandResolved options action keys).pending := by
  have step := commandResolved_step options r action keys
  have counted := fitting_counted fitting
  have free : r.counted.pending.held = none := (held_counted r).trans nothing
  generalize r.commandResolved options action keys = after at step ⊢
  cases step with
  | starts starts =>
      refine ⟨?_, counted.awaits, ?_⟩
      · intro operator waiting
        cases waiting
        rw [commandOf_action]
        exact ⟨by simpa [Action.isOperator] using starts.2.1, .inl rfl⟩
      · intro held holding
        rw [show r.counted.pending.held = some held from holding] at free
        cases free
  | finishes noOperator ready => exact fitting_argumentDone options _ _
  | awaitsCharacter kind =>
      exact counted.await _ (by rw [Awaiting.Fits, commandOf_action]; exact kind)
  | opensLine kind =>
      refine ⟨?_, ?_, ?_⟩
      · intro operator waiting
        exact ⟨(counted.operator operator waiting).1, .inr rfl⟩
      · intro awaiting awaits
        cases awaits
        rw [Awaiting.Fits, commandOf_action]
        exact kind
      · intro held holding
        rw [show r.counted.pending.held = some held from holding] at free
        cases free
  | awaitsOffsets kind =>
      exact counted.await _ (by rw [Awaiting.Fits, commandOf_action]; exact kind)

theorem fitting_fireHeld {r : Resolver} (fitting : Fitting r.modes.mode r.pending) :
    Fitting (r.fireHeld options).modes.mode (r.fireHeld options).pending := by
  unfold fireHeld
  split
  · exact fitting
  · refine fitting_commandResolved options ?_ rfl _ _
    exact fitting.released []

/-- A key keeps what is pending together. -/
theorem fitting_commandKey {r : Resolver} (keys : r.keys = .default)
    (fitting : Fitting r.modes.mode r.pending) (key : Key) :
    Fitting (r.commandKey options key).modes.mode (r.commandKey options key).pending := by
  have step := commandKey_step options r key
  have bound {sequence : List Key} {action : Action}
      (found : (r.keys.lookup (.of r.modes.mode) sequence).value? = some action) :
      Bound r.modes.mode action := by
    rw [keys] at found
    exact .of_lookup _ found
  have gathered : Fitting r.modes.mode (r.gathered key).pending := fitting.of_same rfl rfl rfl
  generalize r.commandKey options key = after at step ⊢
  cases step with
  | drops => exact fitting_empty _
  | refuses c awaits => exact fitting_empty _
  | names register awaits named => exact fitting.answered.of_same rfl rfl rfl
  | supplies command c awaits types => exact fitting_argumentDone options _ _
  | enters command prompt typed awaits confirms => exact fitting_argumentDone options _ _
  | edits command prompt typed awaits =>
      have kind : command.action.argument = .exString := fitting.awaits _ awaits
      exact fitting.answered.await (.line command prompt _) kind
  | waits command awaits =>
      have kind : command.action.argument = .offsets := fitting.awaits _ awaits
      exact fitting.answered.await (.offsets command) kind
  | counts count idle first mode digit =>
      unfold PendingCommand.withCurrentCount
      split <;> exact fitting.of_same rfl rfl rfl
  | asksRegister idle first mode sign =>
      have noted : Fitting r.modes.mode (r.noted key).pending := fitting.of_same rfl rfl rfl
      exact noted.await .register trivial
  | repeats operator idle waiting again => exact fitting_argumentDone options _ _
  | gathers idle found => exact gathered
  | holds action idle found =>
      refine ⟨gathered.operator, gathered.awaits, ?_⟩
      intro held holding
      cases holding
      exact bound (by rw [found]; rfl)
  | resolves action idle found =>
      exact fitting_commandResolved options (gathered.released []) rfl _ _
  | fires held idle holding => exact fitting_fireHeld options gathered
  | parts first second idle single nothing apart => exact fitting.of_same rfl rfl rfl
  | types action c idle single nothing typing typed => exact fitting_empty _

/-! ## What is told -/

theorem fine_step (recording : Bool) (step : ModeStep) : Fine recording (.modeChanged step) :=
  trivial

/-- A command whose argument is there, alone or as a motion. -/
theorem emits_argumentDone (recording : Bool) {r : Resolver}
    (fitting : ∀ operator, r.pending.operator = some operator →
      operator.command.action.argument = .motion)
    {command : Command} (whole : Whole command) :
    Emits (Fine recording) r (r.argumentDone options command) := by
  apply Emits.argumentDone (fine_step recording) options
  · intro nothing
    exact .inl whole
  · intro operator waiting
    exact .inl (.of_operator (fitting operator waiting) whole.complete)

/-- An operator on a selection leaves the mode as it is. -/
theorem applyKeymodel_of_flags {r : Resolver} {command : Command}
    (flags : command.flags.keymodel = false ∧ command.flags.shiftSelect = false) :
    r.applyKeymodel options command = r := by
  have unled : r.modes.keymodelTarget? options command.flags = none := by
    unfold ModeStack.keymodelTarget?
    simp [flags.1, flags.2]
  unfold applyKeymodel
  rw [unled]

/-- An action of the table tells a fine command, if it tells one at once. -/
theorem emits_commandResolved {r : Resolver} (fitting : Fitting r.modes.mode r.pending)
    {action : Action} (bound : Bound r.modes.mode action) (keys : List Key) :
    Emits (Fine r.recording) r (r.commandResolved options action keys) := by
  apply Emits.commandResolved (fine_step r.recording) options
  intro noOperator ready
  have counted := fitting_counted fitting
  rw [modes_counted] at counted
  have done : action.argument = .none → Whole (r.commandOf action) := fun kind =>
    .of_none (by rw [commandOf_action]; exact kind) (commandOf_argument r action)
  apply Emits.argumentDone (fine_step r.recording) options
  · intro nothing
    rcases ready with none | motion | ⟨_, recording, builtin⟩
    · exact .inl (done none)
    · -- an operator that does not wait for a motion: the mode selects
      have operator : action.isOperator = true := by simp [Action.isOperator, motion]
      have selecting : r.modes.mode.isSelecting = true := by
        apply Decidable.byContradiction
        intro plain
        have pending : r.modes.mode ≠ .operatorPending := fun pending =>
          (bound.motion pending).1 motion
        exact noOperator ⟨pending, operator, by simpa using plain⟩
      refine .inr (.inl ⟨?_, ?_⟩)
      · show (r.commandOf action).action.isOperator = true
        rw [commandOf_action]
        exact operator
      · show (r.counted.applyKeymodel options (r.commandOf action)).modes.mode.isSelecting = true
        rw [applyKeymodel_of_flags options (by rw [commandOf_flags]; exact bound.flags operator),
          modes_counted]
        exact selecting
    · refine .inr (.inr ⟨?_, recording⟩)
      show (r.commandOf action).action.builtin = _
      rw [commandOf_action]
      exact builtin
  · intro operator waiting
    obtain ⟨kind, mode⟩ := counted.operator operator waiting
    have pending : r.modes.mode = .operatorPending := mode.resolve_right bound.mode_ne
    obtain ⟨plain, free⟩ := bound.motion pending
    rcases ready with none | motion | ⟨_, _, builtin⟩
    · exact .inl (.of_operator kind (done none).complete)
    · exact absurd motion plain
    · rw [free] at builtin
      cases builtin

theorem emits_fireHeld {r : Resolver} (fitting : Fitting r.modes.mode r.pending) :
    Emits (Fine r.recording) r (r.fireHeld options) := by
  unfold fireHeld
  split
  · exact .refl r
  · rename_i held holding
    have started : Emits (Fine r.recording) r
        (({ r with pending := { r.pending with held := none, keys := [] } } : Resolver).requeue
          ((r.pending.keys.drop held.length).map .literal)) := .of_events rfl
    refine started.trans (emits_commandResolved options ?_ ?_ _)
    · exact fitting.released []
    · exact fitting.held held holding

/-- The actions that typed characters are. -/
theorem typingAction?_argument {mode : Mode} {action : Action}
    (typing : typingAction? mode = some action) : action.argument = .character := by
  unfold typingAction? at typing
  split at typing <;> cases typing <;> rfl

/-- A key tells fine commands. -/
theorem emits_commandKey {r : Resolver} (keys : r.keys = .default)
    (fitting : Fitting r.modes.mode r.pending) (key : Key) :
    Emits (Fine r.recording) r (r.commandKey options key) := by
  have step := commandKey_step options r key
  have steps := fine_step r.recording
  have gathered : Fitting r.modes.mode (r.gathered key).pending := fitting.of_same rfl rfl rfl
  have operators (operator : PendingOperator) (waiting : r.pending.operator = some operator) :
      operator.command.action.argument = .motion := (fitting.operator operator waiting).1
  generalize r.commandKey options key = after at step ⊢
  cases step with
  | drops => exact .abort steps r
  | refuses c awaits => exact (Emits.abort steps r).trans (.emit _ trivial)
  | names register awaits named => exact .of_events rfl
  | supplies command c awaits types =>
      have kind : command.action.argument = .character := fitting.awaits _ awaits
      have done := emits_argumentDone options r.recording (r := r.answered) operators
        (.of_argument (.character c) kind (by simp [Argument.kind]))
      exact (Emits.of_events rfl).trans done
  | enters command prompt typed awaits confirms =>
      have kind : command.action.argument = .exString := fitting.awaits _ awaits
      have done := emits_argumentDone options r.recording (r := r.answered.popMode) operators
        (.of_argument (.line (String.ofList typed)) kind (by simp [Argument.kind]))
      exact (Emits.popMode steps r.answered).trans done
  | edits command prompt typed awaits => exact .of_events rfl
  | waits command awaits => exact .of_events rfl
  | counts count idle first mode digit => exact .of_events rfl
  | asksRegister idle first mode sign => exact .of_events rfl
  | repeats operator idle waiting again =>
      have whole : Whole (.new .currentLine (r.pending.motionCount.getD 0)) := .of_none rfl rfl
      have done := emits_argumentDone options r.recording (r := (r.gathered key).doubled) operators
        whole
      exact (Emits.of_events rfl).trans done
  | gathers idle found => exact .of_events rfl
  | holds action idle found => exact .of_events rfl
  | resolves action idle found =>
      have bound : Bound r.modes.mode action := by
        apply Bound.of_lookup (r.gathered key).pending.keys
        rw [← keys, found]
        rfl
      have done := emits_commandResolved options (r := (r.gathered key).released)
        (gathered.released []) bound (r.gathered key).pending.keys
      exact (Emits.of_events rfl).trans done
  | fires held idle holding =>
      have done := emits_fireHeld options (r := r.gathered key) gathered
      exact (Emits.of_events rfl).trans done
  | parts first second idle single nothing apart => exact .of_events rfl
  | types action c idle single nothing typing typed =>
      have whole : Whole ((Command.new action 0).withArgument (.character c)) :=
        .of_argument _ (typingAction?_argument typing) (by simp [Argument.kind])
      have told := Emits.complete steps options
        { r.gathered key with pending := { (r.gathered key).pending with keys := [] } }
        ((Command.new action 0).withArgument (.character c)) (.inl whole)
      exact (Emits.of_events rfl).trans told

/-! ## Mappings to keys -/

/-- The target of a mapping is keys, or an expression. -/
def MapsToKeys (mapping : Mapping) : Prop := ∀ action, mapping.rhs ≠ .action action

/-- The calls that an editor makes that maps keys to keys and expressions only. -/
def KeyOperation {σ : Type} : Operation σ → Prop
  | .setMappings mappings =>
      ∀ mode keys mapping, (mappings.lookup mode keys).value? = some mapping → MapsToKeys mapping
  | _ => True

/-- With the default keys and mappings to keys, what is pending is in order. -/
structure Sound (r : Resolver) : Prop where
  keys : r.keys = .default
  store : ∀ mode keys mapping, (r.mappings.lookup mode keys).value? = some mapping →
    MapsToKeys mapping
  reached : ∀ before mapping, r.trailMatch = some ⟨mapping, before⟩ → MapsToKeys mapping
  fitting : Fitting r.modes.mode r.pending

namespace Sound

theorem of_surroundings {r r' : Resolver} (sound : Sound r)
    (same : r'.surroundings = r.surroundings) (fitting : Fitting r'.modes.mode r'.pending) :
    Sound r' where
  keys := (congrArg Surroundings.keys same).trans sound.keys
  store := by
    rw [show r'.mappings = r.mappings from congrArg Surroundings.mappings same]
    exact sound.store
  reached := by
    rw [show r'.trailMatch = r.trailMatch from congrArg Surroundings.trailMatch same]
    exact sound.reached
  fitting := fitting

theorem not_acts {r : Resolver} (sound : Sound r) {mapping : Mapping} {action : Action}
    (offers : r.Offers mapping) : mapping.rhs ≠ .action action := by
  cases offers with
  | typed key maps found => exact sound.store _ _ mapping found action
  | reached before found => exact sound.reached before mapping found action

theorem move {r r' : Resolver} (sound : Sound r) (move : Move options r r') : Sound r' := by
  cases move with
  | queue typeahead => exact ⟨sound.keys, sound.store, sound.reached, sound.fitting⟩
  | joins key maps => exact ⟨sound.keys, sound.store, sound.reached, sound.fitting⟩
  | reaches key mapping maps found =>
      refine ⟨sound.keys, sound.store, ?_, sound.fitting⟩
      intro before mapping same
      cases same
      exact sound.store _ _ mapping found
  | leaves => exact ⟨sound.keys, sound.store, by simp [withoutTrail], sound.fitting⟩
  | acts mapping action found target => exact absurd target (sound.not_acts found)
  | key key empty =>
      exact sound.of_surroundings (surroundings_commandKey options r key)
        (fitting_commandKey options sound.keys sound.fitting key)
  | fires =>
      exact sound.of_surroundings (surroundings_fireHeld options r)
        (fitting_fireHeld options sound.fitting)
  | supplies command values awaits =>
      exact sound.of_surroundings (surroundings_argumentDone options r _)
        (fitting_argumentDone options r _)
  | cancels => exact ⟨sound.keys, sound.store, by simp [cancel, abort, forget, leaveTemporary,
      emitSteps], fitting_empty _⟩
  | fails error => exact ⟨sound.keys, sound.store, sound.reached, sound.fitting⟩

/-- What a move tells is fine, and it does not change whether keys are recorded. -/
theorem emits_move {r r' : Resolver} (sound : Sound r) (move : Move options r r') :
    Emits (Fine r.recording) r r' ∧ r'.recording = r.recording := by
  cases move with
  | queue typeahead => exact ⟨.of_events rfl, rfl⟩
  | joins key maps => exact ⟨.of_events rfl, rfl⟩
  | reaches key mapping maps found => exact ⟨.of_events rfl, rfl⟩
  | leaves => exact ⟨.of_events rfl, rfl⟩
  | acts mapping action found target => exact absurd target (sound.not_acts found)
  | key key empty =>
      exact ⟨emits_commandKey options sound.keys sound.fitting key,
        congrArg Surroundings.recording (surroundings_commandKey options r key)⟩
  | fires =>
      exact ⟨emits_fireHeld options sound.fitting,
        congrArg Surroundings.recording (surroundings_fireHeld options r)⟩
  | supplies command values awaits =>
      have kind : command.action.argument = .offsets := sound.fitting.awaits _ awaits
      have operators (operator : PendingOperator) (waiting : r.pending.operator = some operator) :
          operator.command.action.argument = .motion := (sound.fitting.operator operator waiting).1
      exact ⟨emits_argumentDone options r.recording operators
          (.of_argument (.offsets values) kind (by simp [Argument.kind])),
        congrArg Surroundings.recording (surroundings_argumentDone options r _)⟩
  | cancels => exact ⟨.cancel (fine_step r.recording) r, rfl⟩
  | fails error => exact ⟨.emit r trivial, rfl⟩

theorem emits_moves {r r' : Resolver} (sound : Sound r) (moves : Moves options r r') :
    Emits (Fine r.recording) r r' := by
  have all := moves.kept
    (P := fun a => Sound a ∧ a.recording = r.recording ∧ Emits (Fine r.recording) r a)
    (fun a b ⟨sound, recording, told⟩ move => by
      obtain ⟨more, same⟩ := sound.emits_move options move
      rw [recording] at more
      exact ⟨sound.move options move, same.trans recording, told.trans more⟩)
    ⟨sound, rfl, .refl r⟩
  exact all.2.2

end Sound

/-- Every operation keeps what is pending in order. -/
theorem sound_invariant {σ : Type} : Invariant (KeyOperation (σ := σ)) Sound where
  move := fun options _ _ sound move => sound.move options move
  setMode := fun _ _ _ sound =>
    ⟨sound.keys, sound.store, by simp [setMode, changeMode, emitSteps], fitting_empty _⟩
  setRecording := fun _ _ sound => ⟨sound.keys, sound.store, sound.reached, sound.fitting⟩
  setMappings := fun _ _ allows sound => ⟨sound.keys, allows, sound.reached, sound.fitting⟩
  events := fun _ _ sound => ⟨sound.keys, sound.store, sound.reached, sound.fitting⟩

theorem sound_default : Sound .default where
  keys := rfl
  store := by
    intro mode keys mapping found
    cases found
  reached := by
    intro before mapping found
    cases found
  fitting := fitting_empty _

/-- What an operation tells is fine. -/
theorem Sound.fine_emitted {σ : Type} {r : Resolver} (sound : Sound r) (operation : Operation σ) :
    ∀ event ∈ operation.emitted r, Fine r.recording event := by
  intro event member
  have added (emits : Emits (Fine r.recording) r (operation.run r)) : Fine r.recording event := by
    obtain ⟨told, events, fine⟩ := emits
    rw [Operation.emitted, events, List.drop_left] at member
    exact fine event member
  cases operation.split r with
  | moves options moves => exact added (sound.emits_moves options moves)
  | setMode state => exact added (.setMode (fine_step r.recording) r state)
  | setRecording recording => exact added (.of_events rfl)
  | setMappings mappings => exact added (.of_events rfl)
  | takeEvent =>
      have fewer : ((Operation.takeEvent : Operation σ).run r).events.length ≤ r.events.length := by
        show r.takeEvent.2.events.length ≤ _
        unfold takeEvent
        split <;> simp_all
      rw [Operation.emitted, List.drop_eq_nil_of_le fewer] at member
      cases member

end Resolver

/-! ## Running them -/

namespace Engine

variable {σ κ : Type} (host : Host σ κ)

/-- `execute` of a command that is taken to have its argument. -/
def executeWhole (engine : Engine σ) (resolved : ResolvedCommand) : Bool × Engine σ :=
  match resolved.command.action.builtin with
  | some builtin => engine.runBuiltin host builtin resolved
  | none =>
      match missingMark? host engine.world resolved.command with
      | some mark => engine.refuse host (.markNotSet mark)
      | none =>
          match (target resolved.command).argument with
          | some (.line line) =>
              if (target resolved.command).action.name = Action.commandLineName then
                (engine.tell (host.setRegister .lastCommand line false)).executeLine host line
              else (engine.tell (host.setRegister .lastSearch line false)).hand host resolved
          | _ => engine.hand host resolved

/-- No argument is missing from a command that is told. -/
theorem execute_eq_executeWhole {recording : Bool} {resolved : ResolvedCommand}
    (told : Told recording resolved) (engine : Engine σ) :
    engine.execute host resolved = engine.executeWhole host resolved := by
  unfold execute executeWhole
  dsimp only
  cases plain : resolved.command.action.builtin with
  | some builtin => rfl
  | none =>
      have present : (!resolved.command.isComplete && !(resolved.command.action.isOperator &&
          resolved.arguments.state.mode.isSelecting)) = false := by
        rcases told with whole | ⟨operator, selecting⟩ | ⟨builtin, _⟩
        · simp [whole.complete]
        · simp [operator, selecting]
        · rw [plain] at builtin
          cases builtin
      exact if_neg (by rw [present]; decide)

end Engine

namespace Resolver

/-- With the default keys and mappings to keys and expressions, every command that is
told has its argument, and its motion does, too, unless a selection takes the place
of the motion or the command ends a recording; and no engine finds an argument
missing when it runs one. -/
theorem emitted_complete {σ : Type} {r : Resolver}
    (reached : Reachable (σ := σ) KeyOperation .default r) (operation : Operation σ)
    {resolved : ResolvedCommand} (told : .command resolved ∈ operation.emitted r) :
    ((resolved.command.isComplete = true ∧
          ∀ motion, resolved.command.motion = some motion → motion.isComplete = true) ∨
        (resolved.command.action.isOperator = true ∧
          resolved.arguments.state.mode.isSelecting = true) ∨
        (resolved.command.action.builtin = some .toggleRecording ∧ r.recording = true)) ∧
      ∀ (τ κ : Type) (host : Host τ κ) (engine : Engine τ),
        engine.execute host resolved = engine.executeWhole host resolved := by
  have sound : Sound r := reached.invariant sound_default sound_invariant
  have fine : Told r.recording resolved := sound.fine_emitted operation _ told
  constructor
  · exact fine.imp (fun whole => ⟨whole.complete, whole.motion⟩) id
  · intro τ κ host engine
    exact Engine.execute_eq_executeWhole host fine engine

/-- A mapping to a register, an operator, and its motion to a character. -/
def mappedDeletion : MappingStore where
  table := KeyTable.empty.insert .normal [.char 'Q'] ⟨0, {
    lhs := [.char 'Q'],
    rhs := .keys (Key.ofText "\"adfx"),
    modes := .single .normal,
    noremap := true }⟩
  made := 1

theorem mappedDeletion_allowed {σ : Type} :
    KeyOperation (.setMappings mappedDeletion : Operation σ) := by
  intro mode keys mapping leads
  rw [MappingStore.value?_lookup, mappedDeletion, KeyTable.get?_insert _ _ _ _ (by simp)] at leads
  split at leads
  · cases leads
    intro action same
    cases same
  · cases leads

/-- The key of the mapping. -/
def mappedKey : Operation Unit :=
  .key ⟨{}, .everywhere⟩ (fun text world => (.ok text, world)) () (.char 'Q')

/-- What the keys of the mapping are told as. -/
def deletion : ResolvedCommand :=
  let motion : Command := .new (.ofCharacterMotion { inclusive := true } "motion.find-char") 0
  let operator : Command := .new (.ofOperator .delete "operator.delete") 0
  ⟨(operator.withArgument (.motion (motion.withArgument (.character 'x')))).withRegister
      (some (.named 'a')),
    { operatorPending := true, count := 0, state := .ofMode .operatorPending }⟩

theorem deletion_emitted : .command deletion ∈
    mappedKey.emitted ((Operation.setMappings mappedDeletion : Operation Unit).run .default) := by
  -- One look for the mapping and one for each of its five keys, and none is left.
  have typed := inputKeys_of_any ⟨{}, .everywhere⟩ (fun text world => (.ok text, world)) 6
    [.char 'Q'] { Resolver.default with mappings := mappedDeletion } ()
    (fun next => EngineEvent.command deletion ∈ next.1.events) (by decide +kernel)
  exact of_decide_eq_true typed

/-- The deletion has its motion, and the motion its character, for one. -/
theorem deletion_complete :
    KeyOperation (.setMappings mappedDeletion : Operation Unit) ∧
      .command deletion ∈ mappedKey.emitted
        ((Operation.setMappings mappedDeletion : Operation Unit).run .default) ∧
      (deletion.command.isComplete = true ∧
        ∀ motion, deletion.command.motion = some motion → motion.isComplete = true) ∧
      ∀ (τ κ : Type) (host : Host τ κ) (engine : Engine τ),
        engine.execute host deletion = engine.executeWhole host deletion := by
  have fine := emitted_complete (.run _ .start mappedDeletion_allowed) mappedKey deletion_emitted
  refine ⟨mappedDeletion_allowed, deletion_emitted, ?_, fine.2⟩
  rcases fine.1 with whole | ⟨_, selecting⟩ | ⟨builtin, _⟩
  · exact whole
  · cases selecting
  · cases builtin

end Resolver

end ModalInput
