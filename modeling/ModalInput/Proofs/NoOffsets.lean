/-
# ModalInput.Proofs.NoOffsets -- where no command waits for offsets

Offsets are awaited only after a command of the table or of a mapping that asks for
them.  So they never are if neither the table nor the mappings have such a command,
and it stays so: a command line adds mappings to keys and to expressions, and takes
mappings away (`ExCommands.run_noOffsets`).

* `MappingStore.NoOffsets` -- no mapping leads to such a command.
* `Resolver.OffsetFree` -- a resolver that never waits for offsets;
  `OffsetFree.moves` -- whatever it does.
-/
import ModalInput.Proofs.ToldActions
import ModalInput.Proofs.Transparency

namespace ModalInput

set_option autoImplicit false

/-! ## Tables -/

theorem CommandKeys.noOffsets_iff {keys : CommandKeys} :
    keys.NoOffsets ↔ keys.Only fun action => action.argument ≠ .offsets := by
  unfold NoOffsets Only KeyTable.Every lookup
  simp only [KeyTable.value?_lookup]

theorem CommandKeys.noOffsets_empty : CommandKeys.empty.NoOffsets :=
  noOffsets_iff.mpr only_empty

theorem CommandKeys.NoOffsets.bind {keys : CommandKeys} (none : keys.NoOffsets)
    (modes : MappedModes) {sequence : List Key} (typed : sequence ≠ []) {action : Action}
    (answered : action.argument ≠ .offsets) : (keys.bind modes sequence action).NoOffsets :=
  noOffsets_iff.mpr ((noOffsets_iff.mp none).bind modes typed answered)

/-! ## Mappings -/

/-- The target is no action that waits for offsets. -/
def MappingTarget.NoOffsets (target : MappingTarget) : Prop :=
  ∀ action, target = .action action → action.argument ≠ .offsets

namespace MappingStore

/-- No mapping of a table leads to an action that waits for offsets. -/
structure Offsetless (table : KeyTable MapMode Key StoredMapping) : Prop where
  trimmed : table.Trimmed
  targets : table.Every fun stored => stored.mapping.rhs.NoOffsets

/-- No mapping of the store leads to an action that waits for offsets. -/
def NoOffsets (store : MappingStore) : Prop := Offsetless store.table

theorem noOffsets_new : NoOffsets {} where
  trimmed := KeyTable.trimmed_empty
  targets := KeyTable.every_empty

theorem noOffsets_iff {store : MappingStore} :
    store.NoOffsets ↔ store.Only fun action => action.argument ≠ .offsets :=
  ⟨fun none => ⟨none.trimmed, none.targets⟩, fun only => ⟨only.trimmed, only.targets⟩⟩

theorem NoOffsets.lookup {store : MappingStore} (none : store.NoOffsets) {mode : MapMode}
    {keys : List Key} {mapping : Mapping}
    (found : (store.lookup mode keys).value? = some mapping) : mapping.rhs.NoOffsets :=
  (noOffsets_iff.mp none).lookup found

end MappingStore

/-- No line adds a mapping that waits for offsets. -/
theorem ExCommands.run_noOffsets (commands : ExCommands) (line : String) {state : ExState}
    (none : state.mappings.NoOffsets) :
    (commands.run line state).2.state.mappings.NoOffsets :=
  MappingStore.noOffsets_iff.mpr
    (commands.run_only line (MappingStore.noOffsets_iff.mp none))

/-! ## The resolver -/

namespace Resolver

/-- A resolver that does not wait for offsets, and never will. -/
structure OffsetFree (r : Resolver) : Prop where
  table : r.keys.NoOffsets
  mappings : r.mappings.NoOffsets
  reached : ∀ found, r.trailMatch = some found → found.value.rhs.NoOffsets
  layered : Layered r
  pending : NoOffsets r.pending

namespace OffsetFree

/-- Nothing is pending. -/
theorem of_idle {r : Resolver} (table : r.keys.NoOffsets) (mappings : r.mappings.NoOffsets)
    (layered : Layered r) (idle : r.isPending = false) : OffsetFree r := by
  unfold isPending PendingCommand.isEmpty at idle
  simp only [Bool.or_eq_false_iff, Bool.not_eq_false', Bool.and_eq_true, List.isEmpty_iff,
    Option.isNone_iff_eq_none] at idle
  obtain ⟨⟨trail, _⟩, ⟨⟨⟨⟨_, _⟩, keys⟩, _⟩, _⟩, awaiting⟩ := idle
  refine ⟨table, mappings, ?_, layered, .of_answered awaiting (layered.tidy.not_held keys)⟩
  rw [layered.free trail]
  simp

variable (options : OptionView)

/-- The command layer at work, and nothing else changed. -/
theorem of_surroundings {r next : Resolver} (free : OffsetFree r)
    (same : next.surroundings = r.surroundings) (layered : Layered next)
    (pending : NoOffsets next.pending) : OffsetFree next := by
  have keys : next.keys = r.keys := congrArg Surroundings.keys same
  have mappings : next.mappings = r.mappings := congrArg Surroundings.mappings same
  have trailMatch : next.trailMatch = r.trailMatch := congrArg Surroundings.trailMatch same
  exact ⟨keys ▸ free.table, mappings ▸ free.mappings, trailMatch ▸ free.reached, layered, pending⟩

theorem offers {r : Resolver} (free : OffsetFree r) {mapping : Mapping} (found : r.Offers mapping) :
    mapping.rhs.NoOffsets := by
  cases found with
  | typed key maps found => exact free.mappings.lookup found
  | reached before found => exact free.reached _ found

theorem move {r next : Resolver} (free : OffsetFree r) (move : Move options r next) :
    OffsetFree next := by
  have layered := free.layered.move options move
  cases move with
  | queue typeahead => exact free.of_surroundings rfl layered free.pending
  | joins key maps => exact ⟨free.table, free.mappings, free.reached, layered, free.pending⟩
  | reaches key mapping maps found =>
      refine ⟨free.table, free.mappings, ?_, layered, free.pending⟩
      rintro _ ⟨⟩
      exact free.mappings.lookup found
  | leaves => exact ⟨free.table, free.mappings, by simp [withoutTrail], layered, free.pending⟩
  | acts mapping action found target =>
      have keys := Layered.keys_of_listens (free.layered.first found)
      have taken : OffsetFree r.withoutTrail :=
        ⟨free.table, free.mappings, by simp [withoutTrail], .of_empty rfl rfl free.layered.tidy,
          free.pending⟩
      exact taken.of_surroundings (surroundings_commandResolved options _ action []) layered
        (commandResolved_noOffsets options (r := r.withoutTrail)
          (free.layered.tidy.not_held keys) free.pending.awaits
          (free.offers found action target) [])
  | key key empty =>
      exact free.of_surroundings (surroundings_commandKey options r key) layered
        (commandKey_noOffsets options free.table free.layered.tidy free.pending key)
  | fires =>
      exact free.of_surroundings (surroundings_fireHeld options r) layered
        (fireHeld_noOffsets options free.pending)
  | supplies command values awaits =>
      exact free.of_surroundings (surroundings_argumentDone options r _) layered
        (by rw [pending_argumentDone]; exact noOffsets_empty)
  | cancels => exact ⟨free.table, free.mappings, by simp [cancel, abort, leaveTemporary,
      emitSteps, forget], layered, noOffsets_empty⟩
  | fails error => exact free.of_surroundings rfl layered free.pending

variable {options} in
theorem moves {r next : Resolver} (free : OffsetFree r) (moves : Moves options r next) :
    OffsetFree next :=
  moves.kept (fun _ _ free last => free.move options last) free

/-- With other mappings, which wait for no offsets either. -/
theorem withMappings {r : Resolver} (free : OffsetFree r) {mappings : MappingStore}
    (none : mappings.NoOffsets) : OffsetFree { r with mappings } :=
  ⟨free.table, none, free.reached,
    ⟨free.layered.typed, free.layered.reached, free.layered.tidy⟩, free.pending⟩

theorem withEvents {r : Resolver} (free : OffsetFree r) (events : List EngineEvent) :
    OffsetFree { r with events } :=
  ⟨free.table, free.mappings, free.reached,
    ⟨free.layered.typed, free.layered.reached, free.layered.tidy⟩, free.pending⟩

end OffsetFree

end Resolver

end ModalInput
