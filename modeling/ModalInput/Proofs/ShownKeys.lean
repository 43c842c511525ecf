/-
# ModalInput.Proofs.ShownKeys -- the keys that are shown decide nothing

The keys of the command that is typed are kept to be shown, and for nothing else.  So
whatever was shown before, the command layer does the same: either it forgets the command,
and what was shown with it, or it goes on with it, and the keys it adds do not depend on
those that are there (`Shows`).  The same is true of all keys that wait, when no mapping is
in the way (`Mapless.process_shows`).

* `Resolver.showing` -- a resolver that shows other keys.
* `commandResolved_shows`, `commandKey_shows` -- the command layer.
-/
import ModalInput.Proofs.TypedPrefixes

namespace ModalInput.Resolver

set_option autoImplicit false

/-- The same, but for the keys that are shown. -/
def showing (r : Resolver) (shown : List Key) : Resolver :=
  { r with pending := { r.pending with shown } }

theorem showing_self (r : Resolver) : r.showing r.pending.shown = r := rfl

/-- A function forgets the keys that are shown, or adds some to them, whatever they are. -/
inductive Shows (f : Resolver → Resolver) (r : Resolver) : Prop where
  | forgets (next : Resolver) (same : ∀ shown, f (r.showing shown) = next)
  | adds (next : Resolver) (more : List Key)
      (same : ∀ shown, f (r.showing shown) = next.showing (shown ++ more))

namespace Shows

variable {f g : Resolver → Resolver} {r begun : Resolver}

/-- Some keys are added first. -/
theorem after_more (shows : Shows g begun) (more : List Key)
    (leads : ∀ shown, f (r.showing shown) = g (begun.showing (shown ++ more))) : Shows f r := by
  cases shows with
  | forgets next same => exact .forgets next fun shown => (leads shown).trans (same _)
  | adds next later same =>
      refine .adds next (more ++ later) fun shown => ?_
      rw [leads, same, List.append_assoc]

/-- No keys are added first. -/
theorem after_same (shows : Shows g begun)
    (leads : ∀ shown, f (r.showing shown) = g (begun.showing shown)) : Shows f r :=
  shows.after_more [] fun shown => by rw [leads, List.append_nil]

/-- What was shown stays as it is. -/
theorem keeps (next : Resolver) (leads : ∀ shown, f (r.showing shown) = next.showing shown) :
    Shows f r :=
  .adds next [] fun shown => by rw [leads, List.append_nil]

/-- It does not matter which keys are shown at first. -/
theorem of_showing {next : Resolver} {shown : List Key} (shows : Shows g (next.showing shown)) :
    Shows g next :=
  shows.after_same fun _ => rfl

/-- One function after the other. -/
theorem comp (first : Shows f r) (second : Shows g (f r)) : Shows (fun r => g (f r)) r := by
  cases first with
  | forgets next same => exact .forgets (g next) fun shown => congrArg g (same shown)
  | adds next more same =>
      have goesOn : Shows g (next.showing (r.pending.shown ++ more)) := by
        rw [← same, showing_self]
        exact second
      exact goesOn.of_showing.after_more more fun shown => congrArg g (same shown)

end Shows

/-! ## Complete commands -/

section CommandLayer

variable (options : OptionView) (r : Resolver) (shown : List Key)

theorem applyModeChange_showing (command : Command) :
    (r.showing shown).applyModeChange options command =
      (r.applyModeChange options command).showing shown := by
  unfold applyModeChange
  rw [show (r.showing shown).modes = r.modes from rfl]
  split
  · split <;> rfl
  · rfl

theorem applyKeymodel_showing (command : Command) :
    (r.showing shown).applyKeymodel options command =
      (r.applyKeymodel options command).showing shown := by
  unfold applyKeymodel
  rw [show (r.showing shown).modes = r.modes from rfl]
  split <;> rfl

/-- Once the mode has changed, the command is forgotten, and its keys with it. -/
theorem forget_applyModeChange (command : Command) :
    ((r.showing shown).applyModeChange options command).forget =
      (r.applyModeChange options command).forget := by
  rw [applyModeChange_showing]
  rfl

theorem complete_showing (command : Command) :
    (r.showing shown).complete options command = r.complete options command := by
  unfold complete
  rw [applyKeymodel_showing]
  let told : EngineEvent := .command (r.toldComplete options command)
  exact forget_applyModeChange options ((r.applyKeymodel options command).emit told) shown command

theorem finishOperator_showing (operator motion : Command) :
    (r.showing shown).finishOperator options operator motion =
      r.finishOperator options operator motion := by
  let told : EngineEvent := .command (toldOperator operator motion)
  exact forget_applyModeChange options (r.leaveTemporary.emit told) shown _

theorem argumentDone_showing (command : Command) :
    (r.showing shown).argumentDone options command = r.argumentDone options command := by
  unfold argumentDone
  rw [show (r.showing shown).pending.operator = r.pending.operator from rfl]
  split
  · exact finishOperator_showing options r shown _ command
  · exact complete_showing options r shown command

/-- A command that is told is forgotten. -/
theorem argumentDone_shows (command : Command) : Shows (argumentDone options · command) r :=
  .forgets (r.argumentDone options command) fun shown =>
    argumentDone_showing options r shown command

/-! ## Actions -/

theorem collectArgument_shows (command : Command) (keys : List Key) :
    Shows (collectArgument options · command keys) r := by
  unfold collectArgument
  cases command.action.argument with
  | none => exact argumentDone_shows options r command
  | motion => exact argumentDone_shows options r command
  | character =>
      by_cases stops : (r.recording && command.action.builtin = some .toggleRecording) = true
      · exact (argumentDone_shows options r command).after_same fun shown => if_pos stops
      · exact .keeps (r.await (.character command)) fun shown => if_neg stops
  | exString =>
      exact .keeps ((r.pushMode .commandLine).await (.line command (promptOf keys) []))
        fun shown => rfl
  | offsets => exact .keeps (r.await (.offsets command)) fun shown => rfl

/-- The count and the register of an action are taken whatever is shown. -/
theorem commandResolved_shows (action : Action) (keys : List Key) :
    Shows (commandResolved options · action keys) r := by
  by_cases pending : r.modes.mode = .operatorPending
  · exact (collectArgument_shows options
      { r with pending := { r.pending with motionCount := none } }
      (.new action (r.pending.motionCount.getD 0)) keys).after_same fun shown => if_pos pending
  · let taken := { r with
      pending := { r.pending with registerCount := none, count := none, register := none } }
    by_cases starts : (action.isOperator && !r.modes.mode.isSelecting) = true
    · let waiting : PendingOperator := ⟨typedCommand r.pending action, keys⟩
      exact .keeps (({ taken with
        pending := { taken.pending with operator := some waiting } } : Resolver).pushMode
          .operatorPending) fun shown => (if_neg pending).trans (if_pos starts)
    · exact (collectArgument_shows options taken (typedCommand r.pending action) keys).after_same
        fun shown => (if_neg pending).trans (if_neg starts)

/-! ## Arguments -/

theorem registerKey_shows (key : Key) : Shows (registerKey · key) r := by
  by_cases escapes : key.isEscape = true
  · exact .forgets r.abort fun shown => if_pos escapes
  · unfold registerKey
    cases key.char?.bind Register.ofChar? with
    | some register =>
        exact .adds { r with pending := { r.pending with
          registerCount := countBefore r.pending, count := none, register := some register } } [key]
          fun shown => if_neg escapes
    | none =>
        cases key.literal? with
        | some c =>
            exact .forgets (r.abort.fail (MacroError.invalidRegister c)) fun shown => if_neg escapes
        | none => exact .forgets r.abort fun shown => if_neg escapes

theorem characterKey_shows (command : Command) (key : Key) :
    Shows (characterKey options · command key) r := by
  by_cases escapes : key.isEscape = true
  · exact .forgets r.abort fun shown => if_pos escapes
  · unfold characterKey
    cases key.literal? with
    | some c =>
        exact (argumentDone_shows options r (command.withArgument (.character c))).after_same
          fun shown => if_neg escapes
    | none => exact .forgets r.abort fun shown => if_neg escapes

theorem lineKey_shows (command : Command) (prompt : Char) (typed : List Char) (key : Key) :
    Shows (lineKey options · command prompt typed key) r := by
  by_cases confirms : key.isEnter = true
  · exact (argumentDone_shows options r.popMode
      (command.withArgument (.line (String.ofList typed)))).after_same fun shown => if_pos confirms
  · by_cases leaves : (key.isEscape || (isBackspace key && typed.isEmpty)) = true
    · exact .forgets r.abort fun shown => (if_neg confirms).trans (if_pos leaves)
    · exact .keeps (r.await (.line command prompt (editLine typed key)))
        fun shown => (if_neg confirms).trans (if_neg leaves)

theorem argumentKey_shows (awaiting : Awaiting) (key : Key) :
    Shows (argumentKey options · awaiting key) r := by
  cases awaiting with
  | register => exact registerKey_shows r key
  | character command => exact characterKey_shows options r command key
  | line command prompt typed => exact lineKey_shows options r command prompt typed key
  | offsets command =>
      exact .keeps ((r.await (.offsets command)).requeue [.literal key]) fun shown => rfl

/-! ## Keys of the table -/

theorem fireHeld_shows : Shows (fireHeld options) r := by
  cases holding : r.pending.held with
  | none => exact .keeps r fun shown => fireHeld_of_none options holding
  | some held =>
      let released := r.released.requeue ((r.pending.keys.drop held.length).map .literal)
      refine (commandResolved_shows options released held.value
        (r.pending.keys.take held.length)).after_same fun shown => ?_
      exact fireHeld_of_some options (r := r.showing shown) holding

/-- A key that was just added is taken back when it is taken apart. -/
theorem unknownKey_shows (key : Key) : Shows (fun r => unknownKey options (r.noted key) key) r := by
  unfold unknownKey
  cases key.decompose? with
  | some parts =>
      refine .keeps (r.requeue [.literal parts.1, .literal parts.2]) fun shown => ?_
      simp [noted, showing, requeue]
  | none =>
      cases typing : typingAction? r.modes.mode with
      | none =>
          refine .forgets r.abort fun shown => ?_
          rw [show ((r.showing shown).noted key).modes = r.modes from rfl, typing]
          rfl
      | some action =>
          cases key.char? with
          | none =>
              refine .forgets r.abort fun shown => ?_
              rw [show ((r.showing shown).noted key).modes = r.modes from rfl, typing]
              rfl
          | some c =>
              let command := (Command.new action 0).withArgument (.character c)
              refine .forgets (r.complete options command) fun shown => ?_
              rw [show ((r.showing shown).noted key).modes = r.modes from rfl, typing]
              exact complete_showing options r (shown ++ [key]) command

theorem unknownKeys_shows (key : Key) : Shows (fun r => unknownKeys options (r.gathered key)) r := by
  cases holding : r.pending.held with
  | some held =>
      refine (fireHeld_shows options (r.gathered key)).after_more [key] fun shown => ?_
      exact unknownKeys_held options (r.showing shown) key (Option.isSome_of_mem holding)
  | none =>
      by_cases first : r.pending.keys = []
      · refine (unknownKey_shows options r key).after_same fun shown => ?_
        exact unknownKeys_first options (r.showing shown) key holding first
      · exact .forgets r.abort fun shown =>
          unknownKeys_later options (r.showing shown) key holding first

theorem tableKey_shows (key : Key) : Shows (fun r => tableKey options (r.noted key) key) r := by
  by_cases again : (r.gathered key).pending.repeatsOperator = true
  · exact (argumentDone_shows options (r.gathered key).doubled
      (.new .currentLine (r.pending.motionCount.getD 0))).after_more [key] fun shown => if_pos again
  · have looked (shown : List Key) : tableKey options ((r.showing shown).noted key) key =
        lookUp options ((r.showing shown).gathered key) := if_neg again
    have typed (shown : List Key) :
        ((r.showing shown).gathered key).keys.lookup
            (.of ((r.showing shown).gathered key).modes.mode)
            ((r.showing shown).gathered key).pending.keys =
          r.keys.lookup (.of r.modes.mode) (r.gathered key).pending.keys := rfl
    cases found : r.keys.lookup (.of r.modes.mode) (r.gathered key).pending.keys with
    | complete action =>
        refine (commandResolved_shows options (r.gathered key).released action
          (r.gathered key).pending.keys).after_more [key] fun shown => ?_
        rw [looked, lookUp, typed, found]
        rfl
    | ambiguous action =>
        let held : Reached Action := ⟨action, (r.gathered key).pending.keys.length - 1⟩
        refine .adds { r with pending := { r.pending with
          keys := r.pending.keys ++ [key], held := some held } } [key] fun shown => ?_
        rw [looked, lookUp, typed, found]
        rfl
    | incomplete =>
        refine .adds (r.gathered key) [key] fun shown => ?_
        rw [looked, lookUp, typed, found]
        rfl
    | unmapped =>
        refine (unknownKeys_shows options r key).after_same fun shown => ?_
        rw [looked, lookUp, typed, found]

/-- The first key of a command, where counts and registers are typed. -/
theorem commandKey_shows_of_counting (key : Key) (counting : Counting r)
    (kept : (key.isEscape && !r.pending.isEmpty) = false) :
    Shows (commandKey options · key) r := by
  have begun (shown : List Key) : Counting (r.showing shown) :=
    ⟨counting.takes, counting.answered, counting.fresh⟩
  cases counts : countWith? r.pending key with
  | some count =>
      refine .adds { r with pending := r.pending.withCurrentCount count } [key] fun shown =>
        (commandKey_counted options (begun shown) kept counts).trans ?_
      have same : ({ r.pending with shown := shown ++ [key] } : PendingCommand).withCurrentCount
          count = { r.pending.withCurrentCount count with shown := shown ++ [key] } := by
        simp only [PendingCommand.withCurrentCount]
        split <;> rfl
      exact congrArg r.withPending same
  | none =>
      have opens (shown : List Key) := commandKey_uncounted options (begun shown) kept counts
      by_cases sign : (r.modes.mode ≠ .operatorPending && key.char? = some '"') = true
      · exact .adds (r.await .register) [key] fun shown => (opens shown).trans (if_pos sign)
      · exact (tableKey_shows options r key).after_same fun shown =>
          (opens shown).trans (if_neg sign)

theorem commandKey_shows (key : Key) : Shows (commandKey options · key) r := by
  cases awaits : r.pending.awaiting with
  | some awaiting =>
      refine (argumentKey_shows options r.answered awaiting key).after_same fun shown => ?_
      unfold commandKey
      rw [show (r.showing shown).pending.awaiting = some awaiting from awaits]
      rfl
  | none =>
      cases kept : key.isEscape && !r.pending.isEmpty with
      | true =>
          refine .forgets r.abort fun shown => ?_
          unfold commandKey
          rw [show (r.showing shown).pending.awaiting = none from awaits]
          exact if_pos kept
      | false =>
          cases counts : takesCounts r.modes.mode && r.pending.keys.isEmpty with
          | true =>
              obtain ⟨takes, fresh⟩ := Bool.and_eq_true_iff.mp counts
              have counting : Counting r := ⟨takes, awaits, List.isEmpty_iff.mp fresh⟩
              exact commandKey_shows_of_counting options r key counting kept
          | false =>
              exact (tableKey_shows options r key).after_same fun shown =>
                commandKey_table options (r := r.showing shown) awaits kept counts

end CommandLayer

/-! ## Keys that wait -/

/-- However many keys wait, what is shown decides nothing. -/
theorem Mapless.process_shows {σ : Type} (options : OptionView) (evaluate : Evaluator σ)
    {r : Resolver} (mapless : Mapless r) (world : σ) :
    Shows (fun r => (Resolver.process options evaluate r world).1) r := by
  fun_induction Resolver.process options evaluate r world with
  | case1 r world stopped =>
      refine .keeps r fun shown => ?_
      have settled : step? options evaluate (r.showing shown) world = none :=
        (step?_eq_none_iff options evaluate _ world).mpr
          ((step?_eq_none_iff options evaluate r world).mp stopped)
      rw [process_of_settled options evaluate settled]
  | case2 r world next stepped ih =>
      obtain ⟨noOffsets, queued, rest, queue, rfl⟩ := mapless.of_step? options evaluate stepped
      let first : Resolver := { r with typeahead := rest }
      have later := ih ((mapless.queued rest).commandKey options queued.key)
      refine ((commandKey_shows options first queued.key).comp later).after_same fun shown => ?_
      have begun : Mapless (r.showing shown) := mapless.of_surroundings rfl
      have step := begun.step?_eq options evaluate noOffsets queue world
      exact congrArg Prod.fst (process_of_step options evaluate step)

end ModalInput.Resolver
