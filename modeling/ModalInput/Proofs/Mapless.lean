/-
# ModalInput.Proofs.Mapless -- keys that no mapping is in the way of

As long as no keys are mapped, every key that waits goes to the command layer, one after
the other (`Mapless.step?_eq`), and nothing else of the editor around the resolver has a
say.  So keys that wait behind others are looked at when those have been
(`Mapless.process_followed`), and it makes no difference whether mappings would apply to a
key that waits (`Mapless.process_literally`).

A session in which nothing is ever mapped stays without mappings (`Session.mapless_run`),
and between two calls keys wait only for offsets, or for a mode that was set from outside
(`Session.rested_run`).

* `Resolver.followed` -- more keys wait behind the others.
* `Resolver.literally` -- mappings apply to none of the keys that wait.
* `Attentive` -- a typed key goes to the command layer at once.
-/
import ModalInput.Proofs.Dropping
import ModalInput.Proofs.Transparency

namespace ModalInput

set_option autoImplicit false

/-- No keys are mapped. -/
def MappingStore.MapsNothing (store : MappingStore) : Prop :=
  ∀ mode keys, store.lookup mode keys = .unmapped

theorem MappingStore.mapsNothing_new : MapsNothing {} := fun _ _ => rfl

namespace Resolver

/-- No mapping is in the way of a key. -/
structure Mapless (r : Resolver) : Prop where
  mapsNothing : r.mappings.MapsNothing
  trail : r.trail = []
  trailMatch : r.trailMatch = none

/-- More keys wait behind the others. -/
def followed (r : Resolver) (more : List Queued) : Resolver :=
  { r with typeahead := r.typeahead ++ more }

/-- The same, but for the mappings that would apply to the keys that wait. -/
def literally (r : Resolver) : Resolver :=
  { r with typeahead := r.typeahead.map fun queued => .literal queued.key }

variable {r : Resolver}

theorem framed_followed (r : Resolver) (more : List Queued) :
    r.framed ⟨r.mappings, more, []⟩ = r.followed more := by
  simp only [framed, followed, List.nil_append]

/-- The same keys wait. -/
theorem keys_literally (r : Resolver) :
    r.literally.typeahead.map Queued.key = r.typeahead.map Queued.key :=
  List.map_map

/-- What is the same when only the mappings that would apply differ. -/
theorem same_of_literally {other : Resolver} (same : r.literally = other.literally) :
    r.events = other.events ∧ r.modes = other.modes ∧ r.pending = other.pending ∧
      r.typeahead.map Queued.key = other.typeahead.map Queued.key := by
  refine ⟨(congrArg Resolver.events same :), (congrArg Resolver.modes same :),
    (congrArg Resolver.pending same :), ?_⟩
  rw [← keys_literally, same, keys_literally]

section CommandLayer

variable (options : OptionView)

/-- Keys behind the others change nothing for what sees no frame. -/
theorem followed_of_framed (f : Resolver → Resolver)
    (framed : ∀ frame, f (r.framed frame) = (f r).framed frame)
    (same : (f r).surroundings = r.surroundings) (more : List Queued) :
    f (r.followed more) = (f r).followed more := by
  have mappings : (f r).mappings = r.mappings := congrArg Surroundings.mappings same
  rw [← framed_followed, framed, ← mappings, framed_followed]

theorem commandKey_followed (r : Resolver) (more : List Queued) (key : Key) :
    commandKey options (r.followed more) key = (commandKey options r key).followed more :=
  followed_of_framed (commandKey options · key) (fun frame => commandKey_framed r frame options key)
    (surroundings_commandKey options r key) more

theorem commandResolved_followed (r : Resolver) (more : List Queued) (action : Action)
    (keys : List Key) :
    commandResolved options (r.followed more) action keys =
      (commandResolved options r action keys).followed more :=
  followed_of_framed (commandResolved options · action keys)
    (fun frame => commandResolved_framed r frame options action keys)
    (surroundings_commandResolved options r action keys) more

/-- The command layer puts no key back that mappings apply to. -/
theorem commandKey_literally (r : Resolver) (key : Key) :
    commandKey options r.literally key = (commandKey options r key).literally := by
  let alone : Resolver := { r with typeahead := [] }
  obtain ⟨front, typeahead⟩ := commandKey_typeahead options alone key
  have typeahead : (commandKey options alone key).typeahead = front.map .literal :=
    typeahead.trans (List.append_nil _)
  have same : r = alone.followed r.typeahead := rfl
  have literal : r.literally =
      alone.followed (r.typeahead.map fun queued => .literal queued.key) := rfl
  rw [literal, commandKey_followed, same, commandKey_followed]
  simp only [followed, literally, typeahead, List.map_append, List.map_map]
  rfl

theorem Mapless.of_surroundings {next : Resolver} (mapless : Mapless r)
    (same : next.surroundings = r.surroundings) : Mapless next := by
  have mappings : next.mappings = r.mappings := congrArg Surroundings.mappings same
  exact ⟨mappings ▸ mapless.mapsNothing, (congrArg Surroundings.trail same).trans mapless.trail,
    (congrArg Surroundings.trailMatch same).trans mapless.trailMatch⟩

theorem Mapless.queued (mapless : Mapless r) (typeahead : List Queued) :
    Mapless { r with typeahead } :=
  ⟨mapless.mapsNothing, mapless.trail, mapless.trailMatch⟩

theorem Mapless.commandKey (mapless : Mapless r) (key : Key) :
    Mapless (r.commandKey options key) :=
  mapless.of_surroundings (surroundings_commandKey options r key)

theorem Mapless.fireHeld (mapless : Mapless r) : Mapless (r.fireHeld options) :=
  mapless.of_surroundings (surroundings_fireHeld options r)

end CommandLayer

theorem Mapless.not_isPending (mapless : Mapless r) (waiting : r.typeahead = [])
    (nothing : r.pending = {}) : r.isPending = false := by
  unfold isPending
  rw [mapless.trail, waiting, nothing]
  rfl

/-! ## Keys that wait -/

section Process

variable {σ : Type} (options : OptionView) (evaluate : Evaluator σ)

/-- A typed key waits behind the others, if it is not Escape while offsets are awaited. -/
theorem inputKey_followed (r : Resolver) {key : Key}
    (stays : (r.awaitsOffsets && key.isEscape) = false) (world : σ) :
    inputKey options evaluate r world key =
      process options evaluate (r.followed [.mappable key 0]) world :=
  if_neg (by rw [stays]; exact Bool.false_ne_true)

namespace Mapless

/-- Every key that waits goes to the command layer. -/
theorem step?_eq (mapless : Mapless r) (noOffsets : r.awaitsOffsets = false) {queued : Queued}
    {rest : List Queued} (queue : r.typeahead = queued :: rest) (world : σ) :
    step? options evaluate r world =
      some (Resolver.commandKey options { r with typeahead := rest } queued.key, world) :=
  step?_unmapped options evaluate queue mapless.trail mapless.trailMatch
    (fun _ => mapless.mapsNothing _ _) noOffsets world

/-- A step is one key that goes to the command layer. -/
theorem of_step? (mapless : Mapless r) {world : σ} {next : Resolver × σ}
    (stepped : step? options evaluate r world = some next) :
    r.awaitsOffsets = false ∧ ∃ queued rest, r.typeahead = queued :: rest ∧
      next = (Resolver.commandKey options { r with typeahead := rest } queued.key, world) := by
  have noOffsets : r.awaitsOffsets = false := by
    cases awaits : r.awaitsOffsets with
    | false => rfl
    | true => simp [step?, awaits] at stepped
  refine ⟨noOffsets, ?_⟩
  cases queue : r.typeahead with
  | nil =>
      rw [step?_of_empty options evaluate queue] at stepped
      cases stepped
  | cons queued rest =>
      rw [mapless.step?_eq options evaluate noOffsets queue] at stepped
      exact ⟨queued, rest, rfl, (Option.some.inj stepped).symm⟩

theorem process (mapless : Mapless r) (world : σ) :
    Mapless (Resolver.process options evaluate r world).1 ∧
      (Resolver.process options evaluate r world).2 = world := by
  fun_induction Resolver.process options evaluate r world with
  | case1 r world stopped => exact ⟨mapless, rfl⟩
  | case2 r world next stepped ih =>
      obtain ⟨_, queued, rest, _, rfl⟩ := mapless.of_step? options evaluate stepped
      exact ih ((mapless.queued rest).commandKey options queued.key)

/-- Keys that wait behind others are looked at after them. -/
theorem process_followed (mapless : Mapless r) (more : List Queued) (world : σ) :
    Resolver.process options evaluate (r.followed more) world =
      Resolver.process options evaluate
        ((Resolver.process options evaluate r world).1.followed more) world := by
  fun_induction Resolver.process options evaluate r world with
  | case1 r world stopped => rfl
  | case2 r world next stepped ih =>
      obtain ⟨noOffsets, queued, rest, queue, rfl⟩ := mapless.of_step? options evaluate stepped
      have later : (r.followed more).typeahead = queued :: (rest ++ more) :=
        congrArg (· ++ more) queue
      have step : step? options evaluate (r.followed more) world = some
          (Resolver.commandKey options (({ r with typeahead := rest } : Resolver).followed more)
            queued.key, world) :=
        (mapless.queued (r.typeahead ++ more)).step?_eq options evaluate noOffsets later world
      rw [commandKey_followed] at step
      rw [← ih ((mapless.queued rest).commandKey options queued.key)]
      exact process_of_step options evaluate step

/-- A key is looked at after those that wait, if no offsets are awaited then. -/
theorem inputKey_settled (mapless : Mapless r) (world : σ) (key : Key)
    (noOffsets : (Resolver.process options evaluate r world).1.awaitsOffsets = false) :
    Resolver.inputKey options evaluate r world key =
      Resolver.inputKey options evaluate (Resolver.process options evaluate r world).1 world key := by
  cases awaits : r.awaitsOffsets with
  | true =>
      have settled := (step?_eq_none_iff options evaluate r world).mpr (.inl awaits)
      rw [process_of_settled options evaluate settled]
  | false =>
      rw [inputKey_followed options evaluate r (by rw [awaits, Bool.false_and]),
        inputKey_followed options evaluate _ (by rw [noOffsets, Bool.false_and])]
      exact mapless.process_followed options evaluate [.mappable key 0] world

/-- It makes no difference whether mappings would apply to the keys. -/
theorem process_literally (mapless : Mapless r) (world : σ) :
    (Resolver.process options evaluate r.literally world).1 =
      (Resolver.process options evaluate r world).1.literally := by
  fun_induction Resolver.process options evaluate r world with
  | case1 r world stopped =>
      have settled : step? options evaluate r.literally world = none :=
        (step?_eq_none_iff options evaluate _ world).mpr
          (((step?_eq_none_iff options evaluate r world).mp stopped).imp_right (congrArg (List.map _)))
      rw [process_of_settled options evaluate settled]
  | case2 r world next stepped ih =>
      obtain ⟨noOffsets, queued, rest, queue, rfl⟩ := mapless.of_step? options evaluate stepped
      let literal (queued : Queued) : Queued := .literal queued.key
      have later : r.literally.typeahead = literal queued :: rest.map literal :=
        congrArg (List.map literal) queue
      have step : step? options evaluate r.literally world = some
          (Resolver.commandKey options ({ r with typeahead := rest } : Resolver).literally
            queued.key, world) :=
        (mapless.queued r.literally.typeahead).step?_eq options evaluate noOffsets later world
      rw [← ih ((mapless.queued rest).commandKey options queued.key), ← commandKey_literally]
      exact congrArg Prod.fst (process_of_step options evaluate step)

end Mapless

end Process

/-! ## Sessions without mappings -/

variable {σ : Type}

/-- No keys are ever mapped. -/
def NeverMaps (interactions : List (Interaction σ)) : Prop :=
  ∀ mappings, .call (.setMappings mappings) ∈ interactions → mappings.MapsNothing

/-- Keys wait only for offsets, or for a mode that was set from outside. -/
def Rested (r : Resolver) : Prop := r.awaitsOffsets = false → r.pending ≠ {} → r.typeahead = []

theorem Drained.rested (drained : Drained r) : Rested r := fun noOffsets _ => drained noOffsets

section Calls

variable (options : OptionView) (evaluate : Evaluator σ) (world : σ)

theorem Mapless.inputKey (mapless : Mapless r) (key : Key) :
    Mapless (Resolver.inputKey options evaluate r world key).1 := by
  unfold Resolver.inputKey
  split
  · exact ⟨mapless.mapsNothing, rfl, rfl⟩
  · exact ((mapless.queued _).process options evaluate world).1

/-- Only a command that is held can run when the time is over. -/
theorem Mapless.timeoutExpired_eq (mapless : Mapless r) :
    Resolver.timeoutExpired options evaluate r world =
      if r.typeahead.isEmpty && r.pending.held.isSome then
        Resolver.process options evaluate (Resolver.fireHeld options r) world
      else (r, world) := by
  have nothing : flushed options evaluate r world = (r, world) := by simp [flushed, mapless.trail]
  rw [Resolver.timeoutExpired_eq, nothing]

theorem Mapless.timeoutExpired (mapless : Mapless r) :
    Mapless (Resolver.timeoutExpired options evaluate r world).1 := by
  rw [mapless.timeoutExpired_eq options evaluate world]
  split
  · exact ((mapless.fireHeld options).process options evaluate world).1
  · exact mapless

theorem Mapless.supplyOffsets (mapless : Mapless r) (offsets : List Int) :
    Mapless ((Resolver.supplyOffsets options evaluate r world offsets).getD (r, world)).1 := by
  unfold Resolver.supplyOffsets
  split
  · rename_i command awaits
    have done := surroundings_argumentDone options r (command.withArgument (.offsets offsets))
    exact ((mapless.of_surroundings done).process options evaluate world).1
  · exact mapless

end Calls

theorem Mapless.run (mapless : Mapless r) {operation : Operation σ}
    (never : ∀ mappings, operation = .setMappings mappings → mappings.MapsNothing) :
    Mapless (operation.run r) := by
  cases operation with
  | key options evaluate world key => exact mapless.inputKey options evaluate world key
  | timeout options evaluate world => exact mapless.timeoutExpired options evaluate world
  | offsets options evaluate world values => exact mapless.supplyOffsets options evaluate world values
  | cancel => exact ⟨mapless.mapsNothing, rfl, rfl⟩
  | setMode state => exact ⟨mapless.mapsNothing, rfl, rfl⟩
  | setRecording recording => exact ⟨mapless.mapsNothing, mapless.trail, mapless.trailMatch⟩
  | setMappings mappings => exact ⟨never mappings rfl, mapless.trail, mapless.trailMatch⟩
  | takeEvent =>
      obtain ⟨events, same⟩ := Operation.takeEvent_run (σ := σ) r
      rw [same]
      exact ⟨mapless.mapsNothing, mapless.trail, mapless.trailMatch⟩

theorem Rested.run (rested : Rested r) (operation : Operation σ) : Rested (operation.run r) := by
  cases operation with
  | key options evaluate world key =>
      show Rested (Resolver.inputKey options evaluate r world key).1
      unfold Resolver.inputKey
      split
      · exact fun _ _ => rfl
      · exact (process_drained _ options evaluate world).rested
  | timeout options evaluate world =>
      show Rested (Resolver.timeoutExpired options evaluate r world).1
      rw [timeoutExpired_eq]
      split
      · exact (process_drained _ options evaluate _).rested
      · unfold flushed
        split
        · exact rested
        · exact (process_drained _ options evaluate _).rested
  | offsets options evaluate world values =>
      show Rested ((Resolver.supplyOffsets options evaluate r world values).getD (r, world)).1
      unfold Resolver.supplyOffsets
      split
      · exact (process_drained _ options evaluate _).rested
      · exact rested
  | cancel => exact fun _ _ => rfl
  | setMode state => exact fun _ pending => absurd rfl pending
  | setRecording recording => exact rested
  | setMappings mappings => exact rested
  | takeEvent =>
      obtain ⟨events, same⟩ := Operation.takeEvent_run (σ := σ) r
      rw [same]
      exact rested

namespace Session

theorem mapless_run (keys : CommandKeys) {interactions : List (Interaction σ)}
    (never : NeverMaps interactions) : Mapless ((start keys).run interactions).resolver := by
  have each (session : Session) (mapless : Mapless session.resolver) :
      Mapless (session.run interactions).resolver := by
    induction interactions generalizing session with
    | nil => exact mapless
    | cons first rest ih =>
        refine ih (fun mappings member => never mappings (List.mem_cons_of_mem _ member)) _ ?_
        cases first with
        | call operation =>
            exact mapless.run fun mappings same => never mappings (by rw [same]; simp)
        | setKeys keys => exact ⟨mapless.mapsNothing, mapless.trail, mapless.trailMatch⟩
  exact each _ ⟨MappingStore.mapsNothing_new, rfl, rfl⟩

theorem rested_run (keys : CommandKeys) (interactions : List (Interaction σ)) :
    Rested ((start keys).run interactions).resolver := by
  refine run_kept (P := fun session => Rested session.resolver) ?_ (fun _ _ => rfl) interactions
  intro session interaction rested
  cases interaction with
  | call operation => exact rested.run operation
  | setKeys keys => exact rested

end Session

/-! ## Typed keys -/

/-- Nothing is in the way of a typed key. -/
structure Attentive (r : Resolver) : Prop extends Mapless r where
  waiting : r.typeahead = []
  noOffsets : r.awaitsOffsets = false

namespace Attentive

/-- In a session without mappings, nothing waits and no offsets are awaited. -/
theorem of_idle (layered : Layered r) (mapsNothing : r.mappings.MapsNothing)
    (idle : r.isPending = false) : Attentive r := by
  unfold isPending PendingCommand.isEmpty at idle
  simp only [Bool.or_eq_false_iff, Bool.not_eq_false', Bool.and_eq_true, List.isEmpty_iff,
    Option.isNone_iff_eq_none] at idle
  obtain ⟨⟨trail, waiting⟩, _, awaiting⟩ := idle
  exact ⟨⟨mapsNothing, trail, layered.free trail⟩, waiting,
    awaitsOffsets_of_idle awaiting⟩

section Input

variable (options : OptionView) (evaluate : Evaluator σ) {key : Key} (world : σ)

theorem inputKey_eq (attentive : Attentive r) (key : Key) :
    Resolver.inputKey options evaluate r world key =
      Resolver.process options evaluate (r.commandKey options key) world := by
  have typed : ({ r with typeahead := [] } : Resolver) = r := by rw [← attentive.waiting]
  have step := (attentive.toMapless.queued [.mappable key 0]).step?_eq options evaluate
    attentive.noOffsets rfl world
  rw [Resolver.inputKey_eq options evaluate attentive.noOffsets attentive.waiting,
    process_of_step options evaluate step]
  exact congrArg (fun r : Resolver => Resolver.process options evaluate (r.commandKey options key)
    world) typed

/-- A key that puts no others back. -/
theorem inputKey_of_commandKey (attentive : Attentive r) {next : Resolver}
    (done : r.commandKey options key = next) (waiting : next.typeahead = []) :
    Resolver.inputKey options evaluate r world key = (next, world) := by
  rw [attentive.inputKey_eq options evaluate world key, done,
    process_of_empty options evaluate waiting]

end Input

end Attentive

end Resolver

end ModalInput
