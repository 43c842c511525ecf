/-
# ModalInput.Proofs.KeysApart -- keys wait in one layer, and lists are cut within them

Whatever is done to a resolver, a trail is only there while the command layer has no keys, and
what was reached on the trail or in the command was reached by keys that are still there.  A
mapping is found under its own keys, so the first keys of the trail are those of the mapping
that they led to (`Spelled`).  A trail or the keys of a command are cut where something was
reached, and that is never behind their end (`Call.Cuts.within`).

* `MappingStore.Made.findsOwn` -- a mapping is found under its own keys.
* `Session.spelled` -- the invariant, for every interaction that changes the mappings as a store
  does.
* `Session.drained_or_stranded` -- keys that wait between two calls.
* `layers_apart` -- all of it, between two calls and in the middle of one.
-/
import ModalInput.Proofs.Dropping
import ModalInput.Proofs.Failures
import ModalInput.Proofs.MappingHistory

namespace ModalInput

set_option autoImplicit false

namespace MappingStore

/-- What is found under some keys is a mapping of these keys. -/
def FindsOwn (store : MappingStore) : Prop :=
  ∀ mode keys mapping, (store.lookup mode keys).value? = some mapping → mapping.lhs = keys

theorem Made.lhs_of_get? {store : MappingStore} (made : store.Made) {mode : MapMode}
    {keys : List Key} {stored : StoredMapping} (found : store.table.get? mode keys = some stored) :
    stored.mapping.lhs = keys := by
  induction made with
  | new => cases found
  | add made added ih =>
      rename_i modes lhs rhs noremap
      unfold MappingStore.add at added
      split at added
      · cases added
      · rename_i typed
        cases added
        rw [get?_add made.trimmed (by simpa using typed)] at found
        split at found
        · rename_i here
          cases found
          exact here.2.symm
        · exact ih found
  | remove made removed ih =>
      unfold MappingStore.remove at removed
      split at removed
      · cases removed
        rw [get?_removeAll made.trimmed] at found
        split at found
        · cases found
        · exact ih found
      · cases removed
  | clear made modes ih =>
      rw [get?_clear made.trimmed] at found
      split at found
      · cases found
      · exact ih found

theorem Made.findsOwn {store : MappingStore} (made : store.Made) : store.FindsOwn := by
  intro mode keys mapping found
  rw [value?_lookup] at found
  obtain ⟨stored, here, rfl⟩ := Option.map_eq_some_iff.mp found
  exact made.lhs_of_get? here

end MappingStore

namespace Resolver

/-! ## What was reached, and by which keys -/

/-- Only one layer waits for keys, and the first keys of the trail are those of the mapping that
they led to. -/
structure Spelled (r : Resolver) : Prop where
  layered : Layered r
  finds : r.mappings.FindsOwn
  lhs : ∀ found, r.trailMatch = some found →
    (r.trail.take found.length).map TrailKey.key = found.value.lhs

variable (options : OptionView)

namespace Spelled

/-- The trail, and what was reached on it, are those of another resolver. -/
theorem of_surroundings {r next : Resolver} (spelled : Spelled r)
    (same : next.surroundings = r.surroundings) :
    ∀ found, next.trailMatch = some found →
      (next.trail.take found.length).map TrailKey.key = found.value.lhs := by
  have trail : next.trail = r.trail := congrArg Surroundings.trail same
  have trailMatch : next.trailMatch = r.trailMatch := congrArg Surroundings.trailMatch same
  rw [trail, trailMatch]
  exact spelled.lhs

/-- The mapping layer and the command are those of another resolver. -/
theorem of_same {r next : Resolver} (spelled : Spelled r) (finds : next.mappings.FindsOwn)
    (trail : next.trail = r.trail) (trailMatch : next.trailMatch = r.trailMatch)
    (pending : next.pending = r.pending) : Spelled next where
  layered := by
    have listens (listens : r.listens) : next.listens := by
      simpa only [Resolver.listens, mapsNext, awaitsOffsets, pending] using listens
    refine ⟨fun typed => listens (spelled.layered.typed (trail ▸ typed)), ?_, ?_⟩
    · rw [trail, trailMatch]
      exact spelled.layered.reached
    · rw [pending]
      exact spelled.layered.tidy
  finds := finds
  lhs := by
    rw [trail, trailMatch]
    exact spelled.lhs

theorem withoutTrail {r : Resolver} (spelled : Spelled r) : Spelled r.withoutTrail where
  layered := spelled.layered.move ⟨{}, .everywhere⟩ .leaves
  finds := spelled.finds
  lhs := by intro found reached; cases reached

theorem move {r next : Resolver} (spelled : Spelled r) (move : Move options r next) :
    Spelled next := by
  have layered := spelled.layered.move options move
  have finds : next.mappings.FindsOwn := by
    rw [move.tables.2.1]
    exact spelled.finds
  refine ⟨layered, finds, ?_⟩
  cases move with
  | queue typeahead => exact spelled.lhs
  | joins key maps =>
      intro found reached
      rw [List.take_append_of_le_length (spelled.layered.reached found reached)]
      exact spelled.lhs found reached
  | reaches key mapping maps found =>
      intro reached same
      cases same
      have whole : (r.trail ++ [key]).length ≤ r.trail.length + 1 := by simp
      show ((r.trail ++ [key]).take (r.trail.length + 1)).map TrailKey.key = mapping.lhs
      rw [List.take_of_length_le whole]
      exact (spelled.finds _ _ mapping found).symm
  | leaves => exact spelled.withoutTrail.lhs
  | acts mapping action found target =>
      exact spelled.withoutTrail.of_surroundings (surroundings_commandResolved options _ action [])
  | key key empty => exact spelled.of_surroundings (surroundings_commandKey options r key)
  | fires => exact spelled.of_surroundings (surroundings_fireHeld options r)
  | supplies command values awaits =>
      exact spelled.of_surroundings (surroundings_argumentDone options r _)
  | cancels => exact spelled.withoutTrail.lhs
  | fails error => exact spelled.lhs

variable {options} in
theorem moves {r next : Resolver} (spelled : Spelled r) (moves : Moves options r next) :
    Spelled next :=
  moves.kept (fun _ _ spelled move => spelled.move options move) spelled

end Spelled

variable {σ : Type}

theorem spelled_invariant :
    Invariant (fun operation : Operation σ =>
      ∀ mappings, operation = .setMappings mappings → mappings.FindsOwn) Spelled where
  move := fun options _ _ spelled move => spelled.move options move
  setMode := fun _ r _ spelled =>
    ⟨.of_empty rfl rfl tidy_empty, spelled.finds, by intro _ reached; cases reached⟩
  setRecording := fun _ _ spelled => spelled.of_same spelled.finds rfl rfl rfl
  setMappings := fun mappings _ finds spelled =>
    spelled.of_same (finds mappings rfl) rfl rfl rfl
  events := fun _ _ spelled => spelled.of_same spelled.finds rfl rfl rfl

theorem spelled_start (keys : CommandKeys) : Spelled (Session.start keys).resolver where
  layered := .of_empty rfl rfl tidy_empty
  finds := MappingStore.Made.new.findsOwn
  lhs := by intro found reached; cases reached

theorem Session.spelled {session : Session} (interactions : List (Interaction σ))
    (made : ∀ mappings, .call (.setMappings mappings) ∈ interactions → mappings.Made)
    (spelled : Spelled session.resolver) : Spelled (session.run interactions).resolver := by
  induction interactions generalizing session with
  | nil => exact spelled
  | cons first rest ih =>
      apply ih (fun mappings member => made mappings (List.mem_cons_of_mem _ member))
      cases first with
      | call operation =>
          refine spelled_invariant.run ?_ spelled
          rintro mappings rfl
          exact (made mappings List.mem_cons_self).findsOwn
      | setKeys keys => exact spelled.of_same spelled.finds rfl rfl rfl

/-! ## Keys in one layer -/

/-- Keys wait on the trail or in the command layer, and what they led to they still lead to. -/
structure KeysApart (r : Resolver) : Prop where
  trail : r.trail ≠ [] → r.pending.keys = [] ∧ r.pending.held = none ∧
    r.pending.awaiting ≠ some .register ∧
    (∀ command, r.pending.awaiting ≠ some (.character command)) ∧
    ∀ command, r.pending.awaiting ≠ some (.offsets command)
  /-- The first keys of the trail are a mapping. -/
  trailMatch : ∀ found, r.trailMatch = some found → 1 ≤ found.length ∧
    found.length ≤ r.trail.length ∧
    (r.trail.take found.length).map TrailKey.key = found.value.lhs
  /-- The held command has at least one of the keys. -/
  held : ∀ held, r.pending.held = some held → 1 ≤ held.length ∧
    held.length ≤ r.pending.keys.length

theorem Spelled.keysApart {r : Resolver} (spelled : Spelled r) : KeysApart r where
  trail := by
    intro typed
    have listens := spelled.layered.typed typed
    have keys := Layered.keys_of_listens listens
    refine ⟨keys, spelled.layered.tidy.not_held keys, mapsNext_awaiting listens.1, ?_, ?_⟩
    · intro command awaits
      have maps := listens.1
      simp [mapsNext, PendingCommand.awaitsLiteral, awaits] at maps
    · intro command awaits
      exact typed (spelled.layered.awaiting awaits)
  trailMatch := fun found reached =>
    ⟨Nat.le_add_left 1 _, spelled.layered.reached found reached, spelled.lhs found reached⟩
  held := fun held holding => ⟨Nat.le_add_left 1 _, spelled.layered.tidy.held held holding⟩

/-! ## Where lists are cut -/

variable (evaluate : Evaluator σ)

/-- A list that a call cuts in two: the position, and how long the list is. -/
inductive Call.Cuts (s : Resolver × σ) : Call → Nat → Nat → Prop where
  /-- The time is over, and the mapping on the trail takes the place of its keys. -/
  | expires {found : Reached Mapping} (typed : s.1.trail.isEmpty = false)
      (reached : s.1.trailMatch = some found) : Cuts s .timeout found.length s.1.trail.length
  /-- The trail is finished before a key that no mapping applies to. -/
  | finishes {call : Call} {moment : Resolver × σ} {queued : Queued} {rest : List Queued}
      {found : Reached Mapping} (passes : call.Passes options evaluate s moment)
      (queue : moment.1.typeahead = queued :: rest) (exempt : moment.1.exempts queued)
      (typed : moment.1.trail ≠ []) (reached : moment.1.trailMatch = some found) :
      Cuts s call found.length moment.1.trail.length
  /-- The trail is finished with a key that no mapping has there. -/
  | overshoots {call : Call} {moment : Resolver × σ} {key : Key} {depth : Nat}
      {rest : List Queued} {found : Reached Mapping}
      (passes : call.Passes options evaluate s moment)
      (queue : moment.1.typeahead = .mappable key depth :: rest) (maps : moment.1.mapsNext = true)
      (unmapped : moment.1.lookupWith ⟨key, depth⟩ = .unmapped)
      (reached : (moment.1.extended rest ⟨key, depth⟩).trailMatch = some found) :
      Cuts s call found.length (moment.1.extended rest ⟨key, depth⟩).trail.length
  /-- The time is over, and the held command runs. -/
  | fires {held : Reached Action}
      (holding : (flushed options evaluate s.1 s.2).1.pending.held = some held) :
      Cuts s .timeout held.length (flushed options evaluate s.1 s.2).1.pending.keys.length
  /-- The held command runs, since no command has the next key there. -/
  | unknown {call : Call} {moment : Resolver × σ} {r : Resolver} {key : Key}
      {held : Reached Action} (passes : call.Passes options evaluate s moment)
      (reaction : Reaction options moment.1 (.pass r key)) (idle : r.pending.awaiting = none)
      (unmapped : r.keys.lookup (.of r.modes.mode) (r.gathered key).pending.keys = .unmapped)
      (holding : (r.gathered key).pending.held = some held) :
      Cuts s call held.length (r.gathered key).pending.keys.length

theorem pending_of_ending {p r : Resolver} {key : Key} (ends : p.ending = .pass r key) :
    r.pending = p.pending := by
  unfold ending at ends
  split at ends
  · cases ends
  · split at ends
    · cases ends
    · cases ends
      rfl

/-- A key that goes on to the command layer leaves the command as it was. -/
theorem Reaction.pending_of_pass {p r : Resolver} {key : Key}
    (reaction : Reaction options p (.pass r key)) : r.pending = p.pending := by
  generalize passed : Outcome.pass r key = outcome at reaction
  cases reaction with
  | joins queue maps found => cases passed
  | reaches queue maps found waits => cases passed
  | completes queue maps found => cases passed
  | overshoots queue maps found => exact (pending_of_ending passed.symm).trans rfl
  | passes queue exempt empty =>
      cases passed
      rfl
  | finishes queue exempt typed => exact pending_of_ending passed.symm

theorem Call.Cuts.within {s : Resolver × σ} {call : Call} {position length : Nat}
    (cuts : Call.Cuts options evaluate s call position length) (layered : Layered s.1) :
    position ≤ length := by
  cases cuts with
  | expires typed reached => exact layered.reached _ reached
  | finishes passes queue exempt typed reached =>
      exact (layered.moves passes.moves).reached _ reached
  | overshoots passes queue maps unmapped reached =>
      have within := (layered.moves passes.moves).reached _ reached
      simp only [extended, List.length_append]
      omega
  | fires holding =>
      exact (layered.moves (flushed_moves options evaluate s.1 s.2)).tidy.held _ holding
  | unknown passes reaction idle unmapped holding =>
      have tidy := (layered.moves passes.moves).tidy
      rw [← reaction.pending_of_pass] at tidy
      have within := tidy.held _ holding
      simp only [gathered, List.length_append]
      omega

/-! ## Keys that wait between two calls -/

/-- The keys that wait are looked at, or dropped. -/
def Interaction.Clears : Interaction σ → Prop
  | .call (.key ..) => True
  | .call .cancel => True
  | _ => False

theorem Interaction.Clears.drained {interaction : Interaction σ} (clears : interaction.Clears)
    (r : Resolver) : Drained (interaction.run r) := by
  unfold Interaction.Clears at clears
  split at clears
  · rename_i options evaluate world key
    show Drained (inputKey options evaluate r world key).1
    unfold inputKey
    split
    · exact fun _ => rfl
    · exact process_drained _ options evaluate world
  · exact fun _ => rfl
  · exact clears.elim

/-- The mode was changed from outside while offsets were awaited, and no key was typed since. -/
def Stranded (keys : CommandKeys) (interactions : List (Interaction σ)) : Prop :=
  ∃ before state later, interactions = before ++ .call (.setMode state) :: later ∧
    ((Session.start keys).run before).resolver.awaitsOffsets = true ∧
    ∀ interaction ∈ later, ¬ interaction.Clears

theorem Stranded.concat {keys : CommandKeys} {interactions : List (Interaction σ)}
    (stranded : Stranded keys interactions) {last : Interaction σ} (leaves : ¬ last.Clears) :
    Stranded keys (interactions ++ [last]) := by
  obtain ⟨before, state, later, rfl, awaits, others⟩ := stranded
  refine ⟨before, state, later ++ [last], by simp, awaits, fun interaction member => ?_⟩
  rcases List.mem_append.mp member with old | new
  · exact others interaction old
  · rw [List.mem_singleton.mp new]
    exact leaves

theorem Session.run_concat (session : Session) (interactions : List (Interaction σ))
    (last : Interaction σ) :
    session.run (interactions ++ [last]) = (session.run interactions).after last := by
  simp [Session.run]

theorem Session.drained_or_stranded (keys : CommandKeys) (interactions : List (Interaction σ)) :
    Drained ((Session.start keys).run interactions).resolver ∨ Stranded keys interactions := by
  induction interactions using List.reverseRecOn with
  | nil => exact .inl fun _ => rfl
  | append_singleton before last ih =>
      rw [Session.run_concat]
      by_cases clears : last.Clears
      · exact .inl (clears.drained _)
      · rcases ih with drained | stranded
        · cases last with
          | setKeys keys => exact .inl drained
          | call operation =>
              by_cases idle : ∀ state, operation = .setMode state →
                  ((Session.start keys).run before).resolver.awaitsOffsets = false
              · exact .inl (drained.run operation idle)
              · right
                simp only [not_forall, Bool.not_eq_false] at idle
                obtain ⟨state, rfl, awaits⟩ := idle
                exact ⟨before, state, [], rfl, awaits, by simp⟩
        · exact .inr (stranded.concat clears)

/-! ## Both layers, at any time -/

/-- What holds after some interactions with a new resolver, and in every call that follows. -/
structure LayersApart (keys : CommandKeys) (interactions : List (Interaction σ)) : Prop where
  now : KeysApart ((Session.start keys).run interactions).resolver
  /-- Keys wait for offsets only, unless they were left by a change of the mode. -/
  waits : ((Session.start keys).run interactions).resolver.typeahead ≠ [] →
    ((Session.start keys).run interactions).resolver.awaitsOffsets = true ∨
      Stranded keys interactions
  passed : ∀ (options : OptionView) (evaluate : Evaluator σ) (call : Call) (world : σ)
    (moment : Resolver × σ), call.Passes options evaluate
      (((Session.start keys).run interactions).resolver, world) moment → KeysApart moment.1
  cuts : ∀ (options : OptionView) (evaluate : Evaluator σ) (call : Call) (world : σ)
    (position length : Nat), call.Cuts options evaluate
      (((Session.start keys).run interactions).resolver, world) position length →
      position ≤ length

/-- Whatever is done to a resolver, with any tables, options and expressions: keys wait in one
layer, what they led to they still lead to, and no list is cut behind its end. -/
theorem layers_apart (keys : CommandKeys) (interactions : List (Interaction σ))
    (made : ∀ mappings, .call (.setMappings mappings) ∈ interactions → mappings.Made) :
    LayersApart keys interactions := by
  have spelled : Spelled ((Session.start keys).run interactions).resolver :=
    Session.spelled interactions made (spelled_start keys)
  refine ⟨spelled.keysApart, ?_, ?_, ?_⟩
  · intro waiting
    refine (Session.drained_or_stranded keys interactions).imp_left fun drained => ?_
    rw [← Bool.not_eq_false]
    exact fun noOffsets => waiting (drained noOffsets)
  · intro options evaluate call world moment passes
    exact (spelled.moves passes.moves).keysApart
  · intro options evaluate call world position length cuts
    exact cuts.within options evaluate spelled.layered

/-- Two mappings, and the keys of one start those of the other. -/
def overlapping : MappingStore := MappingStore.after {} [
  .add (.single .normal) [.char 'g'] (.keys [.char 'x']) true,
  .add (.single .normal) [.char 'g', .char 'h'] (.keys []) true]

theorem made_overlapping : overlapping.Made := (MappingStore.numbered_new.after _).made

/-- The first key is a mapping, and may become another. -/
theorem overlapping_apart :
    let evaluate : Evaluator Unit := fun text world => (.ok text, world)
    let interactions : List (Interaction Unit) := [.call (.setMappings overlapping),
      .call (.key ⟨.default, .everywhere⟩ evaluate () (.char 'g'))]
    (∀ mappings, .call (.setMappings mappings) ∈ interactions → mappings.Made) ∧
      LayersApart .default interactions ∧
      ((Session.start .default).run interactions).resolver.trailMatch.isSome = true := by
  intro evaluate interactions
  have made (mappings : MappingStore)
      (member : .call (.setMappings mappings) ∈ interactions) : mappings.Made := by
    have same : mappings = overlapping := by simpa [interactions] using member
    exact same ▸ made_overlapping
  refine ⟨made, layers_apart .default interactions made, ?_⟩
  have waits : inputKey ⟨.default, .everywhere⟩ evaluate
      { keys := .default, mappings := overlapping } () (.char 'g') = _ :=
    process_eq_lookedAt ⟨.default, .everywhere⟩ evaluate 1
      ({ keys := .default, mappings := overlapping, typeahead := [.mappable (.char 'g') 0] }, ())
      rfl
  show (inputKey ⟨.default, .everywhere⟩ evaluate
    { keys := .default, mappings := overlapping } () (.char 'g')).1.trailMatch.isSome = true
  rw [waits]
  rfl

end Resolver

end ModalInput
