/-
# ModalInput.Proofs.HeldCommands -- waiting for a held command, or typing past it

Keys that are a command can be the start of longer ones, too.  Then the command is held:
it runs when no key comes in time, and it runs when a key comes that none of the longer ones
has there.  Either way the keys that it does not need are looked at again, and after them
the key that was typed.  So both ways lead to the same, but for what is shown: a key that is
typed past the command is noted before the command runs, and once more when it is looked at
again (`waited_or_past`).  It is shown twice, as long as the command that it belongs to is
not complete (`pastOperator_shownTwice`).

* `commandKey_past` -- a key that is typed past the held command.
* `afterHeld` -- the held command runs, and the typed key is looked at.
-/
import ModalInput.Proofs.CommandLineMode
import ModalInput.Proofs.CommandTables
import ModalInput.Proofs.DefaultKeys
import ModalInput.Proofs.ShownKeys

namespace ModalInput.Resolver

set_option autoImplicit false

variable (options : OptionView) {r : Resolver} {key : Key}

/-! ## The typed key -/

/-- After the first key of a command there are no counts and no registers. -/
theorem commandKey_next (idle : r.pending.awaiting = none) (begun : r.pending.keys ≠ [])
    (noEscape : key.isEscape = false) :
    r.commandKey options key = tableKey options (r.noted key) key := by
  have later : (takesCounts r.modes.mode && r.pending.keys.isEmpty) = false := by
    simpa using fun _ => begun
  exact commandKey_table options idle (by rw [noEscape, Bool.false_and]) later

/-- The held command runs when a key comes that no longer command has there. -/
theorem commandKey_past {held : Reached Action} (holding : r.pending.held = some held)
    (idle : r.pending.awaiting = none) (begun : r.pending.keys ≠ [])
    (noEscape : key.isEscape = false)
    (once : (r.gathered key).pending.repeatsOperator = false)
    (unmapped : r.keys.lookup (.of r.modes.mode) (r.pending.keys ++ [key]) = .unmapped) :
    r.commandKey options key = fireHeld options (r.gathered key) := by
  have looked : tableKey options (r.noted key) key = lookUp options (r.gathered key) :=
    if_neg (by rw [Bool.not_eq_true]; exact once)
  have typed : (r.gathered key).keys.lookup (.of (r.gathered key).modes.mode)
      (r.gathered key).pending.keys = .unmapped := unmapped
  rw [commandKey_next options idle begun noEscape, looked, lookUp, typed]
  exact unknownKeys_held options r key (Option.isSome_of_mem holding)

/-- The key waits behind those that the held command does not need. -/
theorem fireHeld_gathered (nothing : r.typeahead = []) {held : Reached Action}
    (holding : r.pending.held = some held) (typed : held.length ≤ r.pending.keys.length) :
    fireHeld options (r.gathered key) =
      (fireHeld options (r.noted key)).followed [.literal key] := by
  have front : (r.pending.keys ++ [key]).take held.length = r.pending.keys.take held.length :=
    List.take_append_of_le_length typed
  have back : (r.pending.keys ++ [key]).drop held.length =
      r.pending.keys.drop held.length ++ [key] := List.drop_append_of_le_length typed
  let waiting := (r.noted key).released.requeue
    ((r.pending.keys.drop held.length).map .literal)
  have queued : (r.gathered key).released.requeue
      (((r.pending.keys ++ [key]).drop held.length).map .literal) =
        waiting.followed [.literal key] := by
    simp only [waiting, requeue, followed, gathered, noted, released, nothing, back,
      List.map_append, List.append_nil]
    rfl
  rw [fireHeld_of_some options (r := r.gathered key) holding,
    fireHeld_of_some options (r := r.noted key) holding]
  show commandResolved options ((r.gathered key).released.requeue
    (((r.pending.keys ++ [key]).drop held.length).map .literal)) held.value
      ((r.pending.keys ++ [key]).take held.length) = _
  rw [queued, front]
  exact commandResolved_followed options waiting [.literal key] held.value _

/-! ## The held command and the key after it -/

variable {σ : Type} (evaluate : Evaluator σ) (world : σ)

/-- The held command runs, and after it the typed key is looked at. -/
def afterHeld (key : Key) (r : Resolver) : Resolver :=
  (process options evaluate ((fireHeld options r).followed [.literal key]) world).1

theorem afterHeld_shows (mapless : Mapless r) (key : Key) :
    Shows (afterHeld options evaluate world key) r := by
  have fired : Mapless ((fireHeld options r).followed [.literal key]) :=
    (mapless.fireHeld options).queued _
  have follows : Shows (followed · [.literal key]) (fireHeld options r) :=
    .keeps ((fireHeld options r).followed [.literal key]) fun _ => rfl
  exact ((fireHeld_shows options r).comp follows).comp (fired.process_shows options evaluate world)

/-- When no key came in time, the key is looked at after the held command ran. -/
theorem Mapless.afterHeld_waited (mapless : Mapless r) (waiting : r.typeahead = [])
    {held : Reached Action} (holding : r.pending.held = some held)
    (noEscape : key.isEscape = false) :
    let expired := Resolver.timeoutExpired options evaluate r world
    (Resolver.inputKey options evaluate expired.1 expired.2 key).1.literally =
      (afterHeld options evaluate world key r).literally := by
  intro expired
  have fires : expired = Resolver.process options evaluate (Resolver.fireHeld options r) world := by
    refine (mapless.timeoutExpired_eq options evaluate world).trans (if_pos ?_)
    rw [waiting, holding]
    rfl
  have fired : Mapless (Resolver.fireHeld options r) := mapless.fireHeld options
  have typed (queued : Queued) : Mapless ((Resolver.fireHeld options r).followed [queued]) :=
    fired.queued _
  have same : ((Resolver.fireHeld options r).followed [.mappable key 0]).literally =
      ((Resolver.fireHeld options r).followed [.literal key]).literally := by
    simp only [followed, literally, List.map_append]
    rfl
  rw [inputKey_followed options evaluate expired.1 (by rw [noEscape, Bool.and_false]), fires,
    (fired.process options evaluate world).2, ← fired.process_followed options evaluate,
    ← (typed _).process_literally options evaluate world, same,
    (typed _).process_literally options evaluate world]
  rfl

/-- A key that is typed past the held command is noted before that runs. -/
theorem Attentive.afterHeld_past (attentive : Attentive r) {held : Reached Action}
    (holding : r.pending.held = some held) (idle : r.pending.awaiting = none)
    (typed : held.length ≤ r.pending.keys.length) (noEscape : key.isEscape = false)
    (once : (r.gathered key).pending.repeatsOperator = false)
    (unmapped : r.keys.lookup (.of r.modes.mode) (r.pending.keys ++ [key]) = .unmapped) :
    (Resolver.inputKey options evaluate r world key).1 =
      afterHeld options evaluate world key (r.noted key) := by
  have begun : r.pending.keys ≠ [] := by
    intro first
    rw [first] at typed
    simp [Reached.length] at typed
  rw [attentive.inputKey_eq options evaluate world key,
    commandKey_past options holding idle begun noEscape once unmapped,
    fireHeld_gathered options attentive.waiting holding typed]
  rfl

/-! ## What is shown -/

/-- A command that is complete forgets which keys were shown. -/
theorem fireHeld_showing {held : Reached Action} (holding : r.pending.held = some held)
    (noOperator : ¬ r.startsOperator held.value) (ready : r.takesNoArgument held.value)
    (shown : List Key) : fireHeld options (r.showing shown) = fireHeld options r := by
  let waiting := r.released.requeue ((r.pending.keys.drop held.length).map .literal)
  let keys := r.pending.keys.take held.length
  have counted : (waiting.showing shown).counted = waiting.counted.showing shown := by
    unfold Resolver.counted
    rw [show (waiting.showing shown).modes = waiting.modes from rfl]
    split <;> rfl
  calc fireHeld options (r.showing shown)
      = commandResolved options (waiting.showing shown) held.value keys :=
        fireHeld_of_some options (r := r.showing shown) holding
    _ = argumentDone options (waiting.counted.showing shown) (waiting.commandOf held.value) := by
        rw [← counted]
        exact commandResolved_finishes options (waiting.showing shown) _ keys noOperator ready
    _ = argumentDone options waiting.counted (waiting.commandOf held.value) :=
        argumentDone_showing options waiting.counted shown _
    _ = fireHeld options r := by
        rw [fireHeld_of_some options holding]
        exact (commandResolved_finishes options waiting _ keys noOperator ready).symm

/-- The key that is noted too early is shown once more, or forgotten with the command. -/
theorem afterHeld_noted (mapless : Mapless r) (key : Key) :
    let after := afterHeld options evaluate world key
    ∃ shown, after (r.noted key) = (after r).showing shown ∧
      (shown = (after r).pending.shown ∨
        ∃ more, (after r).pending.shown = r.pending.shown ++ more ∧
          shown = r.pending.shown ++ key :: more) := by
  intro after
  have noted : r.noted key = r.showing (r.pending.shown ++ [key]) := rfl
  cases afterHeld_shows options evaluate world mapless key with
  | forgets next same =>
      have first : after r = next := same r.pending.shown
      exact ⟨_, by rw [noted, showing_self, first]; exact same _, .inl rfl⟩
  | adds next more same =>
      have first : after r = next.showing (r.pending.shown ++ more) := same r.pending.shown
      have later : after (r.noted key) = next.showing (r.pending.shown ++ [key] ++ more) := same _
      refine ⟨r.pending.shown ++ key :: more, ?_, .inr ⟨more, by rw [first]; rfl, rfl⟩⟩
      rw [later, first, ← List.append_cons]
      rfl

/-- While a command is held, and no keys are mapped, it makes no difference whether the time
is over before a key is typed that no longer command has there: the same is told, in the same
modes the same command is left, and the same keys wait.  The same is shown, if the held
command is complete; if it is not, the key can be shown once more than it was typed. -/
theorem waited_or_past (table : CommandKeys) (interactions : List (Interaction σ))
    (made : ((Session.start table).run interactions).resolver.keys.Made)
    (mapsNothing : ((Session.start table).run interactions).resolver.mappings.MapsNothing)
    {held : Reached Action}
    (holding : ((Session.start table).run interactions).resolver.pending.held = some held)
    {key : Key} (noEscape : key.isEscape = false)
    (nothing : ∀ sequence,
      (((Session.start table).run interactions).resolver.keys.table.get?
        (.of ((Session.start table).run interactions).resolver.modes.mode) sequence).isSome = true →
      ¬ ((Session.start table).run interactions).resolver.pending.keys ++ [key] <+: sequence)
    (once : (((Session.start table).run interactions).resolver.gathered
      key).pending.repeatsOperator = false) (world : σ) :
    let r := ((Session.start table).run interactions).resolver
    let expired := timeoutExpired options evaluate r world
    let waited := (inputKey options evaluate expired.1 expired.2 key).1
    let past := (inputKey options evaluate r world key).1
    past.events = waited.events ∧ past.modes = waited.modes ∧
      past.pending = { waited.pending with shown := past.pending.shown } ∧
      past.typeahead.map Queued.key = waited.typeahead.map Queued.key ∧
      (past.shownKeys = waited.shownKeys ∨
        ∃ more, waited.shownKeys = Key.textAll (r.pending.shown ++ more) ∧
          past.shownKeys = Key.textAll (r.pending.shown ++ key :: more)) ∧
      (¬ r.startsOperator held.value → r.takesNoArgument held.value →
        past.shownKeys = waited.shownKeys) := by
  intro r expired waited past
  have layered : Layered r := Session.layered_run table interactions
  obtain ⟨trail, idle⟩ := layered.holding holding
  have noOffsets : r.awaitsOffsets = false := awaitsOffsets_of_idle idle
  have waiting : r.typeahead = [] := by
    refine Session.rested_run table interactions noOffsets fun empty => ?_
    rw [empty] at holding
    cases holding
  have attentive : Attentive r :=
    ⟨⟨mapsNothing, trail, layered.free trail⟩, waiting, noOffsets⟩
  -- Both ways go through `afterHeld`; on one of them, the key was noted before.
  let after := afterHeld options evaluate world key
  have before : waited.literally = (after r).literally :=
    attentive.toMapless.afterHeld_waited options evaluate world waiting holding noEscape
  have later : past = after (r.noted key) :=
    attentive.afterHeld_past options evaluate world holding idle (layered.tidy.held held holding)
      noEscape once (made.lookup_eq_unmapped_iff.mpr nothing)
  obtain ⟨events, modes, pending, keys⟩ := same_of_literally before
  have shows : waited.shownKeys = (after r).shownKeys := by
    show waited.literally.shownKeys = (after r).literally.shownKeys
    rw [before]
  obtain ⟨shown, differ, which⟩ :=
    afterHeld_noted options evaluate world attentive.toMapless key
  have differ : past = (after r).showing shown := later.trans differ
  refine ⟨?_, ?_, ?_, ?_, ?_, ?_⟩
  · rw [differ, events]
    rfl
  · rw [differ, modes]
    rfl
  · rw [differ, pending]
    rfl
  · rw [differ, keys]
    rfl
  · rw [differ, shows]
    have trail : (after r).trail = [] :=
      (((attentive.toMapless.fireHeld options).queued _).process options evaluate world).1.trail
    rcases which with same | ⟨more, first, second⟩
    · left
      rw [same]
      rfl
    · right
      refine ⟨more, ?_, ?_⟩
      · rw [shownKeys, trail, ← first, List.map_nil, List.append_nil]
      · rw [← second, shownKeys]
        show Key.textAll (shown ++ (after r).trail.map TrailKey.key) = _
        rw [trail, List.map_nil, List.append_nil]
  · intro noOperator ready
    have fired : fireHeld options (r.noted key) = fireHeld options r :=
      fireHeld_showing options holding noOperator ready (r.pending.shown ++ [key])
    have same : after (r.noted key) = after r := by
      simp only [after, afterHeld, fired]
    rw [later, same, shows]

/-! ## An operator that is held -/

/-- An operator, another command that starts with its key, and a motion of two keys. -/
def heldKeys : CommandKeys :=
  ((CommandKeys.empty.bind (.single .normal) [.char 'd']
    (.ofOperator .delete "operator.delete")).bind (.single .normal) [.char 'd', .char 'q']
    (.ofSingle .otherReadonly "other")).bind (.single .operatorPending) [.char 'g', .char 'g']
    (.ofMotion {} "motion.first-line")

theorem heldKeys_past (sequence : List Key)
    (bound : (heldKeys.table.get? .normal sequence).isSome = true) :
    ¬ [.char 'd', .char 'g'] <+: sequence := by
  rintro ⟨rest, rfl⟩
  have nonempty : [Key.char 'd', .char 'g'] ++ rest ≠ [] := by simp
  have operator : [Key.char 'd'] ≠ [.char 'd', .char 'g'] ++ rest := by simp
  have other : [Key.char 'd', .char 'q'] ≠ [.char 'd', .char 'g'] ++ rest := by
    intro same
    have second : Key.char 'q' = .char 'g' ∧ rest = [] := by simpa using same
    exact absurd second.1 (by decide)
  rw [heldKeys, CommandKeys.get?_table_bind _ _ _ _ nonempty,
    if_neg fun both => absurd both.1 (by decide),
    CommandKeys.get?_table_bind _ _ _ _ nonempty, if_neg fun both => other both.2,
    CommandKeys.get?_table_bind _ _ _ _ nonempty, if_neg fun both => operator both.2] at bound
  cases bound

/-- The key of the operator was typed. -/
def heldTyped : Resolver where
  keys := heldKeys
  pending := {
    keys := [.char 'd']
    held := some ⟨.ofOperator .delete "operator.delete", 0⟩
    shown := [.char 'd'] }

section Typed

variable (evaluate : Evaluator Unit)

theorem heldTyped_run :
    ((Session.start heldKeys).run
      [.call (.key plainOptions evaluate () (.char 'd'))]).resolver = heldTyped := by
  have typed : inputKey plainOptions evaluate { keys := heldKeys } () (.char 'd') =
      (heldTyped, ()) :=
    process_eq_lookedAt plainOptions evaluate 1
      ({ keys := heldKeys, typeahead := [.mappable (.char 'd') 0] }, ()) rfl
  exact congrArg Prod.fst typed

theorem heldTyped_past :
    let r := ((Session.start heldKeys).run
      [.call (.key plainOptions evaluate () (.char 'd'))]).resolver
    r.keys.Made ∧ r.mappings.MapsNothing ∧
      r.pending.held = some ⟨.ofOperator .delete "operator.delete", 0⟩ ∧
      (∀ sequence, (r.keys.table.get? (.of r.modes.mode) sequence).isSome = true →
        ¬ r.pending.keys ++ [.char 'g'] <+: sequence) ∧
      (r.gathered (.char 'g')).pending.repeatsOperator = false := by
  intro r
  have made : heldKeys.Made := ((CommandKeys.Made.empty.bind ..).bind ..).bind ..
  rw [show r = heldTyped from heldTyped_run evaluate]
  exact ⟨made, MappingStore.mapsNothing_new, rfl, heldKeys_past, rfl⟩

end Typed

/-- The key after an operator that is held. -/
theorem heldOperator_past :
    let evaluate : Evaluator Unit := fun text world => (.ok text, world)
    let r := ((Session.start heldKeys).run
      [.call (.key plainOptions evaluate () (.char 'd'))]).resolver
    let expired := timeoutExpired plainOptions evaluate r ()
    let waited := (inputKey plainOptions evaluate expired.1 expired.2 (.char 'g')).1
    let past := (inputKey plainOptions evaluate r () (.char 'g')).1
    (r.keys.Made ∧ r.mappings.MapsNothing ∧
      r.pending.held = some ⟨.ofOperator .delete "operator.delete", 0⟩ ∧
      (Key.char 'g').isEscape = false ∧
      (∀ sequence, (r.keys.table.get? (.of r.modes.mode) sequence).isSome = true →
        ¬ r.pending.keys ++ [.char 'g'] <+: sequence) ∧
      (r.gathered (.char 'g')).pending.repeatsOperator = false) ∧
    past.events = waited.events ∧ past.modes = waited.modes ∧
      past.pending = { waited.pending with shown := past.pending.shown } := by
  intro evaluate r expired waited past
  obtain ⟨made, mapsNothing, holding, nothing, once⟩ := heldTyped_past evaluate
  obtain ⟨events, modes, pending, _⟩ := waited_or_past plainOptions evaluate heldKeys
    [.call (.key plainOptions evaluate () (.char 'd'))] made mapsNothing holding rfl nothing once ()
  exact ⟨⟨made, mapsNothing, holding, rfl, nothing, once⟩, events, modes, pending⟩

/-- The key after an operator that is held is shown twice, unless the operator was waited
for. -/
theorem pastOperator_shownTwice :
    let evaluate : Evaluator Unit := fun text world => (.ok text, world)
    let r := ((Session.start heldKeys).run
      [.call (.key plainOptions evaluate () (.char 'd'))]).resolver
    let expired := timeoutExpired plainOptions evaluate r ()
    (r.keys.Made ∧ r.mappings.MapsNothing ∧
      r.pending.held = some ⟨.ofOperator .delete "operator.delete", 0⟩ ∧
      (∀ sequence, (r.keys.table.get? (.of r.modes.mode) sequence).isSome = true →
        ¬ r.pending.keys ++ [.char 'g'] <+: sequence) ∧
      (r.gathered (.char 'g')).pending.repeatsOperator = false) ∧
    (inputKey plainOptions evaluate expired.1 expired.2 (.char 'g')).1.shownKeys = "dg" ∧
    (inputKey plainOptions evaluate r () (.char 'g')).1.shownKeys = "dgg" := by
  intro evaluate r expired
  have typed : r = heldTyped := heldTyped_run evaluate
  have fires : expired = (fireHeld plainOptions heldTyped, ()) := by
    have mapless : Mapless heldTyped := ⟨MappingStore.mapsNothing_new, rfl, rfl⟩
    have runs := mapless.timeoutExpired_eq plainOptions evaluate ()
    rw [if_pos (by decide), process_of_empty plainOptions evaluate rfl] at runs
    show timeoutExpired plainOptions evaluate r () = _
    rw [typed, runs]
  refine ⟨heldTyped_past evaluate, ?_⟩
  rw [typed, fires]
  have waited := inputKeys_of_any plainOptions evaluate 1 [.char 'g']
    (fireHeld plainOptions heldTyped) () (fun next => next.1.shownKeys = "dg") (by decide)
  have past := inputKeys_of_any plainOptions evaluate 2 [.char 'g'] heldTyped ()
    (fun next => next.1.shownKeys = "dgg") (by decide)
  exact ⟨of_decide_eq_true waited, of_decide_eq_true past⟩

end ModalInput.Resolver
