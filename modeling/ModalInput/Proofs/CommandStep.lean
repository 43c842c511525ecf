/-
# ModalInput.Proofs.CommandStep -- what one key does to a command

A key of the command layer does one of a fixed number of things, and so do keys
that are known to be an action.  `KeyStep` and `ResolveStep` list them, each with
what holds when it happens, so that an invariant of the command layer is a case
distinction.

* `commandKey_step` -- every key is a `KeyStep`.
* `commandResolved_step` -- every action is a `ResolveStep`.
-/
import ModalInput.Resolver.CommandLayer

namespace ModalInput.Resolver

set_option autoImplicit false

/-! ## Stages of a command -/

/-- The count before a register that is named now: what was typed up to its name. -/
def countBefore (pending : PendingCommand) : Option Count :=
  match pending.count with
  | some count => some (Count.compose (pending.registerCount.getD 0) count)
  | none => pending.registerCount

/-- No argument is awaited any more. -/
def answered (r : Resolver) : Resolver := { r with pending := { r.pending with awaiting := none } }

/-- A key is shown as part of the command. -/
def noted (r : Resolver) (key : Key) : Resolver :=
  { r with pending := { r.pending with shown := r.pending.shown ++ [key] } }

/-- A key is one of the keys of the command. -/
def gathered (r : Resolver) (key : Key) : Resolver :=
  { r with pending := { r.pending with
      shown := r.pending.shown ++ [key], keys := r.pending.keys ++ [key] } }

/-- The keys of the command are taken from it, and no shorter command is held. -/
def released (r : Resolver) : Resolver :=
  { r with pending := { r.pending with held := none, keys := [] } }

/-- What a repeated operator leaves of the command that is typed. -/
def doubled (r : Resolver) : Resolver :=
  { r with pending := { r.pending with keys := [], held := none, motionCount := none } }

/-- With the count and the register that belong to the next action taken away. -/
def counted (r : Resolver) : Resolver :=
  if r.modes.mode = .operatorPending then
    { r with pending := { r.pending with motionCount := none } }
  else
    { r with pending := { r.pending with registerCount := none, count := none, register := none } }

@[simp] theorem modes_counted (r : Resolver) : r.counted.modes = r.modes := by
  unfold counted
  split <;> rfl

@[simp] theorem recording_counted (r : Resolver) : r.counted.recording = r.recording := by
  unfold counted
  split <;> rfl

@[simp] theorem events_counted (r : Resolver) : r.counted.events = r.events := by
  unfold counted
  split <;> rfl

@[simp] theorem keys_counted (r : Resolver) : r.counted.pending.keys = r.pending.keys := by
  unfold counted
  split <;> rfl

@[simp] theorem held_counted (r : Resolver) : r.counted.pending.held = r.pending.held := by
  unfold counted
  split <;> rfl

@[simp] theorem operator_counted (r : Resolver) :
    r.counted.pending.operator = r.pending.operator := by
  unfold counted
  split <;> rfl

@[simp] theorem awaiting_counted (r : Resolver) :
    r.counted.pending.awaiting = r.pending.awaiting := by
  unfold counted
  split <;> rfl

/-- The command that an action is: a motion while one is waited for. -/
def commandOf (r : Resolver) (action : Action) : Command :=
  if r.modes.mode = .operatorPending then .new action (r.pending.motionCount.getD 0)
  else typedCommand r.pending action

/-- The action waits for a motion; a selection takes the place of one. -/
def startsOperator (r : Resolver) (action : Action) : Prop :=
  r.modes.mode ≠ .operatorPending ∧ action.isOperator = true ∧ r.modes.mode.isSelecting = false

/-- No argument of the action is waited for. -/
def takesNoArgument (r : Resolver) (action : Action) : Prop :=
  action.argument = .none ∨ action.argument = .motion ∨
    action.argument = .character ∧ r.recording = true ∧ action.builtin = some .toggleRecording

theorem commandOf_action (r : Resolver) (action : Action) :
    (r.commandOf action).action = action := by
  unfold commandOf
  split <;> rfl

theorem commandOf_argument (r : Resolver) (action : Action) :
    (r.commandOf action).argument = none := by
  unfold commandOf
  split <;> rfl

theorem commandOf_flags (r : Resolver) (action : Action) :
    (r.commandOf action).flags = action.flags := by
  unfold commandOf
  split <;> rfl

/-! ## Actions -/

variable (options : OptionView)

/-- What keys that are an action lead to. -/
inductive ResolveStep (r : Resolver) (action : Action) (keys : List Key) : Resolver → Prop where
  /-- An operator waits for its motion. -/
  | starts (starts : r.startsOperator action) :
      ResolveStep r action keys
        (({ r.counted with pending := { r.counted.pending with
            operator := some ⟨r.commandOf action, keys⟩ } } : Resolver).pushMode .operatorPending)
  /-- The command has all that it needs. -/
  | finishes (noOperator : ¬ r.startsOperator action) (ready : r.takesNoArgument action) :
      ResolveStep r action keys (argumentDone options r.counted (r.commandOf action))
  | awaitsCharacter (kind : action.argument = .character) :
      ResolveStep r action keys (r.counted.await (.character (r.commandOf action)))
  | opensLine (kind : action.argument = .exString) :
      ResolveStep r action keys
        ((r.counted.pushMode .commandLine).await (.line (r.commandOf action) (promptOf keys) []))
  | awaitsOffsets (kind : action.argument = .offsets) :
      ResolveStep r action keys (r.counted.await (.offsets (r.commandOf action)))

theorem collectArgument_step (r : Resolver) (action : Action) (keys : List Key)
    (noOperator : ¬ r.startsOperator action) :
    ResolveStep options r action keys
      (collectArgument options r.counted (r.commandOf action) keys) := by
  unfold collectArgument
  rw [commandOf_action]
  split
  · rename_i kind
    exact .finishes noOperator (.inl kind)
  · rename_i kind
    exact .finishes noOperator (.inr (.inl kind))
  · rename_i kind
    split
    · rename_i stops
      rw [recording_counted] at stops
      exact .finishes noOperator (.inr (.inr ⟨kind, by simpa using stops⟩))
    · exact .awaitsCharacter kind
  · rename_i kind
    exact .opensLine kind
  · rename_i kind
    exact .awaitsOffsets kind

/-- An operator waits for its motion. -/
theorem commandResolved_starts (r : Resolver) (action : Action) (keys : List Key)
    (starts : r.startsOperator action) :
    commandResolved options r action keys =
      ({ r.counted with pending := { r.counted.pending with
          operator := some ⟨r.commandOf action, keys⟩ } } : Resolver).pushMode
        .operatorPending := by
  simp only [commandResolved, counted, commandOf, starts.1, if_false, starts.2.1, starts.2.2,
    Bool.not_false, Bool.and_self, if_true]

/-- Any other action needs at most an argument of its own. -/
theorem commandResolved_collects (r : Resolver) (action : Action) (keys : List Key)
    (noOperator : ¬ r.startsOperator action) :
    commandResolved options r action keys =
      collectArgument options r.counted (r.commandOf action) keys := by
  by_cases pending : r.modes.mode = .operatorPending
  · simp only [commandResolved, motionResolved, counted, commandOf, pending, if_true]
  · have plain : (action.isOperator && !r.modes.mode.isSelecting) = false := by
      rw [Bool.eq_false_iff]
      intro both
      exact noOperator ⟨pending, by simpa using both⟩
    simp only [commandResolved, counted, commandOf, pending, if_false, plain,
      Bool.false_eq_true]

/-- An action that has all that it needs. -/
theorem commandResolved_finishes (r : Resolver) (action : Action) (keys : List Key)
    (noOperator : ¬ r.startsOperator action) (ready : r.takesNoArgument action) :
    commandResolved options r action keys =
      argumentDone options r.counted (r.commandOf action) := by
  rw [commandResolved_collects options r action keys noOperator, collectArgument,
    commandOf_action]
  rcases ready with kind | kind | ⟨kind, recording, stops⟩
  · rw [kind]
  · rw [kind]
  · rw [kind]
    exact if_pos (by simp [recording, stops])

theorem commandResolved_step (r : Resolver) (action : Action) (keys : List Key) :
    ResolveStep options r action keys (commandResolved options r action keys) := by
  by_cases starts : r.startsOperator action
  · rw [commandResolved_starts options r action keys starts]
    exact .starts starts
  · rw [commandResolved_collects options r action keys starts]
    exact collectArgument_step options r action keys starts

/-! ## Keys -/

/-- What one key does to the command layer. -/
inductive KeyStep (r : Resolver) (key : Key) : Resolver → Prop where
  /-- What was typed is dropped. -/
  | drops : KeyStep r key r.abort
  /-- What was typed is dropped, since no register has this name. -/
  | refuses (c : Char) (awaits : r.pending.awaiting = some .register) :
      KeyStep r key (r.abort.fail (MacroError.invalidRegister c))
  /-- A register is named. -/
  | names (register : Register × Bool) (awaits : r.pending.awaiting = some .register)
      (named : key.char?.bind Register.ofChar? = some register) :
      KeyStep r key { r.noted key with pending := { (r.noted key).answered.pending with
        registerCount := countBefore r.pending, count := none, register := some register } }
  /-- The character that a command waits for. -/
  | supplies (command : Command) (c : Char)
      (awaits : r.pending.awaiting = some (.character command)) (types : key.literal? = some c) :
      KeyStep r key (argumentDone options r.answered (command.withArgument (.character c)))
  /-- A command line is entered. -/
  | enters (command : Command) (prompt : Char) (typed : List Char)
      (awaits : r.pending.awaiting = some (.line command prompt typed))
      (confirms : key.isEnter = true) :
      KeyStep r key (argumentDone options r.answered.popMode
        (command.withArgument (.line (String.ofList typed))))
  /-- A command line is edited. -/
  | edits (command : Command) (prompt : Char) (typed : List Char)
      (awaits : r.pending.awaiting = some (.line command prompt typed)) :
      KeyStep r key (r.answered.await (.line command prompt (editLine typed key)))
  /-- The key waits for offsets to come first. -/
  | waits (command : Command) (awaits : r.pending.awaiting = some (.offsets command)) :
      KeyStep r key ((r.answered.await (.offsets command)).requeue [.literal key])
  /-- A digit of a count. -/
  | counts (count : Count) (idle : r.pending.awaiting = none) (first : r.pending.keys = [])
      (mode : takesCounts r.modes.mode = true) (digit : countWith? r.pending key = some count) :
      KeyStep r key { r.noted key with
        pending := (r.noted key).pending.withCurrentCount count }
  /-- The sign before the name of a register. -/
  | asksRegister (idle : r.pending.awaiting = none) (first : r.pending.keys = [])
      (mode : takesCounts r.modes.mode = true ∧ r.modes.mode ≠ .operatorPending)
      (sign : key.char? = some '"') :
      KeyStep r key ((r.noted key).await .register)
  /-- The pending operator is repeated. -/
  | repeats (operator : PendingOperator) (idle : r.pending.awaiting = none)
      (waiting : r.pending.operator = some operator)
      (again : (r.gathered key).pending.repeatsOperator = true) :
      KeyStep r key (argumentDone options (r.gathered key).doubled
        (.new .currentLine (r.pending.motionCount.getD 0)))
  /-- Longer keys are a command. -/
  | gathers (idle : r.pending.awaiting = none)
      (found : r.keys.lookup (.of r.modes.mode) (r.gathered key).pending.keys = .incomplete) :
      KeyStep r key (r.gathered key)
  /-- The keys are a command, and longer ones are, too. -/
  | holds (action : Action) (idle : r.pending.awaiting = none)
      (found : r.keys.lookup (.of r.modes.mode) (r.gathered key).pending.keys =
        .ambiguous action) :
      KeyStep r key { r.gathered key with pending := { (r.gathered key).pending with
        held := some ⟨action, (r.gathered key).pending.keys.length - 1⟩ } }
  /-- The keys are a command. -/
  | resolves (action : Action) (idle : r.pending.awaiting = none)
      (found : r.keys.lookup (.of r.modes.mode) (r.gathered key).pending.keys =
        .complete action) :
      KeyStep r key (commandResolved options (r.gathered key).released action
        (r.gathered key).pending.keys)
  /-- No command starts with the keys, and the held one runs. -/
  | fires (held : Reached Action) (idle : r.pending.awaiting = none)
      (holding : r.pending.held = some held) :
      KeyStep r key (fireHeld options (r.gathered key))
  /-- A character with Alt is taken apart. -/
  | parts (first second : Key) (idle : r.pending.awaiting = none) (single : r.pending.keys = [])
      (nothing : r.pending.held = none) (apart : key.decompose? = some (first, second)) :
      KeyStep r key
        (({ r with pending := { r.pending with keys := [] } } : Resolver).requeue
          [.literal first, .literal second])
  /-- A character is typed. -/
  | types (action : Action) (c : Char) (idle : r.pending.awaiting = none)
      (single : r.pending.keys = []) (nothing : r.pending.held = none)
      (typing : typingAction? r.modes.mode = some action) (typed : key.char? = some c) :
      KeyStep r key (complete options
        { r.gathered key with pending := { (r.gathered key).pending with keys := [] } }
        ((Command.new action 0).withArgument (.character c)))

theorem argumentKey_step (r : Resolver) (awaiting : Awaiting) (key : Key)
    (awaits : r.pending.awaiting = some awaiting) :
    KeyStep options r key (argumentKey options r.answered awaiting key) := by
  cases awaiting with
  | register =>
      unfold argumentKey registerKey
      dsimp only
      split
      · exact .drops
      · split
        · rename_i register named
          exact .names register awaits named
        · split
          · exact .refuses _ awaits
          · exact .drops
  | character command =>
      unfold argumentKey characterKey
      dsimp only
      split
      · exact .drops
      · split
        · rename_i c types
          exact .supplies command c awaits types
        · exact .drops
  | line command prompt typed =>
      unfold argumentKey lineKey
      dsimp only
      split
      · rename_i confirms
        exact .enters command prompt typed awaits confirms
      · split
        · exact .drops
        · exact .edits command prompt typed awaits
  | offsets command => exact .waits command awaits

/-- The held command runs when nothing starts with one more key. -/
theorem unknownKeys_held (r : Resolver) (key : Key) (holding : r.pending.held.isSome = true) :
    unknownKeys options (r.gathered key) = fireHeld options (r.gathered key) :=
  if_pos holding

/-- A first key that nothing starts with. -/
theorem unknownKeys_first (r : Resolver) (key : Key) (nothing : r.pending.held = none)
    (first : r.pending.keys = []) :
    unknownKeys options (r.gathered key) = unknownKey options (r.noted key) key := by
  have notHeld : ¬ (r.gathered key).pending.held.isSome = true := by simp [gathered, nothing]
  have typed : (r.gathered key).pending.keys = [key] := congrArg (· ++ [key]) first
  have cleared : ({ r.gathered key with pending :=
      { (r.gathered key).pending with keys := [] } } : Resolver) = r.noted key := by
    simp only [gathered, noted, ← first]
  rw [unknownKeys, if_neg notHeld, typed]
  exact congrArg (unknownKey options · key) cleared

/-- Keys that were the start of a command, and one that none of them has there. -/
theorem unknownKeys_later (r : Resolver) (key : Key) (nothing : r.pending.held = none)
    (begun : r.pending.keys ≠ []) : unknownKeys options (r.gathered key) = r.abort := by
  have notHeld : ¬ (r.gathered key).pending.held.isSome = true := by simp [gathered, nothing]
  obtain ⟨first, rest, typed⟩ := List.exists_cons_of_ne_nil begun
  obtain ⟨second, more, several⟩ := List.exists_cons_of_ne_nil (List.append_ne_nil_of_right_ne_nil
    rest (List.cons_ne_nil key []))
  have typed : (r.gathered key).pending.keys = first :: second :: more := by
    simp only [gathered, typed, List.cons_append, several]
  rw [unknownKeys, if_neg notHeld, typed]
  rfl

theorem unknownKeys_step (r : Resolver) (key : Key) (idle : r.pending.awaiting = none) :
    KeyStep options r key (unknownKeys options (r.gathered key)) := by
  cases holding : r.pending.held with
  | some held =>
      rw [unknownKeys_held options r key (by rw [holding]; rfl)]
      exact .fires held idle holding
  | none =>
      by_cases single : r.pending.keys = []
      · rw [unknownKeys_first options r key holding single]
        unfold unknownKey
        split
        · rename_i first second apart
          have step : KeyStep options r key _ := .parts first second idle single holding apart
          simpa [noted, single] using step
        · split
          · rename_i action c typing typed
            have step : KeyStep options r key _ :=
              .types action c idle single holding typing typed
            simpa [gathered, noted, single] using step
          · exact .drops
      · rw [unknownKeys_later options r key holding single]
        exact .drops

theorem lookUp_step (r : Resolver) (key : Key) (idle : r.pending.awaiting = none) :
    KeyStep options r key (lookUp options (r.gathered key)) := by
  unfold lookUp
  split
  · rename_i action found
    exact .resolves action idle found
  · rename_i action found
    exact .holds action idle found
  · rename_i found
    exact .gathers idle found
  · exact unknownKeys_step options r key idle

theorem tableKey_step (r : Resolver) (key : Key) (idle : r.pending.awaiting = none) :
    KeyStep options r key (tableKey options (r.noted key) key) := by
  unfold tableKey
  dsimp only
  split
  · rename_i again
    cases operator : r.pending.operator with
    | none => simp [PendingCommand.repeatsOperator, noted, operator] at again
    | some waiting => exact .repeats waiting idle operator again
  · exact lookUp_step options r key idle

/-- One key does one of these things. -/
theorem commandKey_step (r : Resolver) (key : Key) :
    KeyStep options r key (commandKey options r key) := by
  unfold commandKey
  split
  · rename_i awaiting awaits
    exact argumentKey_step options r awaiting key awaits
  · rename_i idle
    split
    · exact .drops
    · dsimp only
      split
      · rename_i fresh
        obtain ⟨mode, first⟩ := Bool.and_eq_true_iff.mp fresh
        have first : r.pending.keys = [] := by simpa using first
        split
        · rename_i count digit
          exact .counts count idle first mode digit
        · split
          · rename_i both
            obtain ⟨free, sign⟩ : r.modes.mode ≠ .operatorPending ∧ key.char? = some '"' := by
              simpa using both
            exact .asksRegister idle first ⟨mode, free⟩ sign
          · exact tableKey_step options r key idle
      · exact tableKey_step options r key idle

end ModalInput.Resolver
