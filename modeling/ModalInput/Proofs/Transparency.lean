/-
# ModalInput.Proofs.Transparency -- a mapping to keys, in place of the keys

A mapping whose keys are not mapped again does exactly what typing its keys would
do if there were no mappings: until it is complete its keys wait on the trail and
change nothing, and then all keys of the mapping wait at once, where mappings do not
apply to them.  What keys a command puts back are looked at before the others that
wait, so it makes no difference that those wait already (`Direct.process_framed`).
Only a command that waits for offsets would tell the two apart, since an Escape that
is typed then drops everything.

* `Direct` -- only the command layer is at work, and it never waits for offsets.
* `Direct.process_literals` -- keys in the queue are keys that are typed without
  mappings.
* `noremap_transparent` -- typing the keys of a mapping, and typing what it stands
  for.
-/
import ModalInput.Proofs.Framing
import ModalInput.Proofs.Session
import ModalInput.Proofs.TableContents

namespace ModalInput

set_option autoImplicit false

/-! ## No offsets -/

/-- No command of the table waits for offsets. -/
def CommandKeys.NoOffsets (keys : CommandKeys) : Prop :=
  ∀ mode typed action, (keys.lookup mode typed).value? = some action → action.argument ≠ .offsets

theorem CommandKeys.default_noOffsets : CommandKeys.default.NoOffsets := by
  have bindings : ∀ row ∈ defaultBindings, row.action.argument ≠ .offsets := by decide +kernel
  intro mode typed action value
  rw [lookup, KeyTable.value?_lookup] at value
  obtain ⟨row, member, _, _, rfl⟩ := exists_binding value
  exact bindings row member

namespace Resolver

/-- Offsets are not awaited, and the held command will not wait for them. -/
structure NoOffsets (pending : PendingCommand) : Prop where
  awaits : pending.awaitsOffsets = false
  held : ∀ held, pending.held = some held → held.value.argument ≠ .offsets

theorem noOffsets_empty : NoOffsets {} := ⟨rfl, by simp⟩

theorem NoOffsets.of_answered {pending : PendingCommand} (answered : pending.awaiting = none)
    (nothing : pending.held = none) : NoOffsets pending := by
  refine ⟨?_, by simp [nothing]⟩
  unfold PendingCommand.awaitsOffsets
  rw [answered]

theorem NoOffsets.of_await {pending : PendingCommand} {awaiting : Awaiting}
    (awaits : pending.awaiting = some awaiting) (other : ∀ command, awaiting ≠ .offsets command)
    (nothing : pending.held = none) : NoOffsets pending := by
  refine ⟨?_, by simp [nothing]⟩
  unfold PendingCommand.awaitsOffsets
  rw [awaits]
  cases awaiting with
  | offsets command => exact absurd rfl (other command)
  | _ => rfl

variable (options : OptionView)

theorem commandResolved_noOffsets {r : Resolver} (nothing : r.pending.held = none)
    (free : r.pending.awaitsOffsets = false) {action : Action} (other : action.argument ≠ .offsets)
    (keys : List Key) : NoOffsets (r.commandResolved options action keys).pending := by
  have step := commandResolved_step options r action keys
  generalize r.commandResolved options action keys = after at step ⊢
  have counted : r.counted.pending.held = none := (held_counted r).trans nothing
  cases step with
  | starts starts =>
      refine ⟨?_, by simp [Resolver.pushMode, emitSteps, nothing]⟩
      unfold PendingCommand.awaitsOffsets at free ⊢
      simpa [Resolver.pushMode, emitSteps] using free
  | finishes noOperator ready =>
      rw [pending_argumentDone]
      exact noOffsets_empty
  | awaitsCharacter kind => exact .of_await rfl (by simp) counted
  | opensLine kind => exact .of_await rfl (by simp) counted
  | awaitsOffsets kind => exact absurd kind other

theorem fireHeld_noOffsets {r : Resolver} (noOffsets : NoOffsets r.pending) :
    NoOffsets (r.fireHeld options).pending := by
  unfold fireHeld
  split
  · exact noOffsets
  · rename_i held holding
    let released : Resolver := { r with pending := { r.pending with held := none, keys := [] } }
    let queued := released.requeue ((r.pending.keys.drop held.length).map .literal)
    exact commandResolved_noOffsets options (r := queued) rfl noOffsets.awaits
      (noOffsets.held held holding) _

theorem commandKey_noOffsets {r : Resolver} (table : CommandKeys.NoOffsets r.keys)
    (tidy : Tidy r.pending) (noOffsets : NoOffsets r.pending) (key : Key) :
    NoOffsets (r.commandKey options key).pending := by
  have step := commandKey_step options r key
  generalize r.commandKey options key = after at step ⊢
  cases step with
  | drops => exact noOffsets_empty
  | refuses c awaits => exact noOffsets_empty
  | names register awaits named => exact ⟨rfl, noOffsets.held⟩
  | supplies command c awaits types =>
      rw [pending_argumentDone]
      exact noOffsets_empty
  | enters command prompt typed awaits confirms =>
      rw [pending_argumentDone]
      exact noOffsets_empty
  | edits command prompt typed awaits =>
      exact .of_await rfl (by simp) (tidy.not_held (tidy.awaits (by simp [awaits])))
  | waits command awaits =>
      have awaited := noOffsets.awaits
      simp [PendingCommand.awaitsOffsets, awaits] at awaited
  | counts count idle first mode digit =>
      have nothing := tidy.not_held first
      simp only [PendingCommand.withCurrentCount]
      split <;> exact .of_answered idle nothing
  | asksRegister idle first mode sign => exact .of_await rfl (by simp) (tidy.not_held first)
  | repeats operator idle waiting again =>
      rw [pending_argumentDone]
      exact noOffsets_empty
  | gathers idle found => exact ⟨noOffsets.awaits, noOffsets.held⟩
  | holds action idle found =>
      refine ⟨noOffsets.awaits, ?_⟩
      intro held holding
      cases holding
      exact table _ _ action (congrArg Lookup.value? found)
  | resolves action idle found =>
      have other := table _ _ action (congrArg Lookup.value? found)
      exact commandResolved_noOffsets options (r := (r.gathered key).released) rfl
        noOffsets.awaits other _
  | fires held idle holding =>
      exact fireHeld_noOffsets options ⟨noOffsets.awaits, noOffsets.held⟩
  | parts first second idle single nothing apart => exact ⟨noOffsets.awaits, noOffsets.held⟩
  | types action c idle single nothing typing typed => exact noOffsets_empty

/-! ## Keys in the queue -/

/-- A key of the command layer puts keys in front of the others, and mappings do not
apply to them. -/
theorem commandKey_typeahead (r : Resolver) (key : Key) : ∃ front : List Key,
    (r.commandKey options key).typeahead = front.map .literal ++ r.typeahead := by
  have step := commandKey_step options r key
  generalize r.commandKey options key = after at step ⊢
  cases step with
  | supplies command c awaits types => exact ⟨[], (Quiet.argumentDone options _ _).typeahead⟩
  | enters command prompt typed awaits confirms =>
      exact ⟨[], (Quiet.argumentDone options _ _).typeahead⟩
  | waits command awaits => exact ⟨[key], rfl⟩
  | repeats operator idle waiting again => exact ⟨[], (Quiet.argumentDone options _ _).typeahead⟩
  | resolves action idle found => exact ⟨[], (Quiet.commandResolved options _ _ _).typeahead⟩
  | fires held idle holding =>
      refine ⟨(r.gathered key).pending.keys.drop held.length, ?_⟩
      have holding : (r.gathered key).pending.held = some held := holding
      simp only [fireHeld, holding]
      exact (Quiet.commandResolved options _ _ _).typeahead
  | parts first second idle single nothing apart => exact ⟨[first, second], rfl⟩
  | types action c idle single nothing typing typed =>
      exact ⟨[], (Quiet.complete options _ _).typeahead⟩
  | _ => exact ⟨[], rfl⟩

variable {σ : Type} (evaluate : Evaluator σ)

/-- Only the command layer is at work, and it never waits for offsets. -/
structure Direct (r : Resolver) (waiting : List Key) : Prop where
  typeahead : r.typeahead = waiting.map .literal
  trail : r.trail = []
  trailMatch : r.trailMatch = none
  table : r.keys.NoOffsets
  tidy : Tidy r.pending
  noOffsets : NoOffsets r.pending

namespace Direct

variable {r : Resolver}

/-- One key in the queue. -/
theorem queue (direct : Direct r []) (key : Key) :
    Direct { r with typeahead := [.literal key] } [key] :=
  ⟨rfl, direct.trail, direct.trailMatch, direct.table, direct.tidy, direct.noOffsets⟩

theorem commandKey {key : Key} {rest : List Key} (direct : Direct r (key :: rest)) :
    ∃ waiting, Direct
      (Resolver.commandKey options { r with typeahead := rest.map .literal } key) waiting := by
  let taken : Resolver := { r with typeahead := rest.map .literal }
  have same := surroundings_commandKey options taken key
  obtain ⟨front, typeahead⟩ := commandKey_typeahead options taken key
  refine ⟨front ++ rest, by rw [typeahead, List.map_append], ?_, ?_, ?_, ?_, ?_⟩
  · exact (congrArg Surroundings.trail same).trans direct.trail
  · exact (congrArg Surroundings.trailMatch same).trans direct.trailMatch
  · have keys : (Resolver.commandKey options taken key).keys = taken.keys :=
      congrArg Surroundings.keys same
    rw [keys]
    exact direct.table
  · exact commandKey_tidy options taken key direct.tidy
  · exact commandKey_noOffsets options (r := taken) direct.table direct.tidy direct.noOffsets key

/-- The first key, in any frame. -/
theorem step?_framed {key : Key} {rest : List Key} (direct : Direct r (key :: rest))
    (frame : Frame) (world : σ) :
    step? options evaluate (r.framed frame) world = some
      ((Resolver.commandKey options { r with typeahead := rest.map .literal } key).framed frame,
        world) := by
  have queue : (r.framed frame).typeahead =
      .literal key :: (rest.map .literal ++ frame.behind) :=
    congrArg (· ++ frame.behind) direct.typeahead
  rw [step?_literal options evaluate queue direct.trail direct.noOffsets.awaits,
    ← commandKey_framed]
  rfl

/-- The keys that wait are looked at before those that wait behind them, and lead to
the same in every frame. -/
theorem settles {waiting : List Key} (direct : Direct r waiting) (world : σ) :
    ∃ settled, Direct settled [] ∧ ∀ frame, process options evaluate (r.framed frame) world =
      process options evaluate (settled.framed frame) world := by
  fun_induction process options evaluate r world generalizing waiting with
  | case1 r world stopped =>
      cases waiting with
      | nil => exact ⟨r, direct, fun _ => rfl⟩
      | cons key rest =>
          rw [step?_literal options evaluate direct.typeahead direct.trail
            direct.noOffsets.awaits] at stopped
          cases stopped
  | case2 r world next stepped ih =>
      cases waiting with
      | nil =>
          rw [step?_of_empty options evaluate direct.typeahead] at stepped
          cases stepped
      | cons key rest =>
          rw [step?_literal options evaluate direct.typeahead direct.trail
            direct.noOffsets.awaits] at stepped
          cases stepped
          obtain ⟨waiting, later⟩ := direct.commandKey options
          obtain ⟨settled, done, same⟩ := ih later
          exact ⟨settled, done, fun frame => (process_of_step options evaluate
            (direct.step?_framed options evaluate frame world)).trans (same frame)⟩

/-- A key is typed, and there are no mappings. -/
theorem step?_unmapped (direct : Direct r []) (key : Key) (world : σ) :
    step? options evaluate { r with mappings := {}, typeahead := [.mappable key 0] } world =
      some (Resolver.commandKey options { r with mappings := {} } key, world) := by
  let typed : Resolver := { r with mappings := {}, typeahead := [.mappable key 0] }
  have taken : ({ r with mappings := {} } : Resolver) = { typed with typeahead := [] } := by
    simp only [typed, direct.typeahead, List.map_nil]
  have noOffsets : typed.awaitsOffsets = false := direct.noOffsets.awaits
  have queue : typed.typeahead = .mappable key 0 :: [] := rfl
  rw [taken]
  cases maps : typed.mapsNext with
  | true =>
      have found : typed.lookupWith ⟨key, 0⟩ = .unmapped := rfl
      have ends : (typed.extended [] ⟨key, 0⟩).ending = .pass { typed with typeahead := [] } key := by
        simp [ending, extended, typed, direct.trail, direct.trailMatch, withoutTrail, requeue]
      have step := step?_eq_of_reaction options evaluate (.overshoots queue maps found)
        noOffsets world
      rw [ends] at step
      exact step
  | false =>
      exact step?_eq_of_reaction options evaluate (.passes queue (.inr maps) direct.trail) noOffsets
        world

/-- Without mappings, a typed key leads where a key leads that they do not apply to. -/
theorem inputKey_unmapped (direct : Direct r []) (key : Key) (world : σ) :
    inputKey options evaluate { r with mappings := {} } world key =
      process options evaluate
        (({ r with typeahead := [.literal key] } : Resolver).framed ⟨{}, [], []⟩) world := by
  have literal := (direct.queue key).step?_framed options evaluate ⟨{}, [], []⟩ world
  have taken : ({ r with typeahead := [] } : Resolver).framed ⟨{}, [], []⟩ =
      { r with mappings := {} } := by
    simp only [framed, direct.typeahead, List.map_nil, List.append_nil, List.nil_append]
  rw [← commandKey_framed, List.map_nil, taken] at literal
  have typed := direct.step?_unmapped options evaluate key world
  have input := inputKey_eq options evaluate (r := { r with mappings := {} })
    direct.noOffsets.awaits direct.typeahead world key
  rw [input, process_of_step options evaluate typed, process_of_step options evaluate literal]

/-- Keys that mappings do not apply to lead where the keys lead that are typed without
any mappings. -/
theorem process_literals (direct : Direct r []) (mappings : MappingStore) (keys : List Key)
    (world : σ) :
    ∃ settled, Direct settled [] ∧
      inputKeys options evaluate { r with mappings := {} } world keys =
        ({ settled with mappings := {} }, world) ∧
      process options evaluate (r.framed ⟨mappings, keys.map .literal, []⟩) world =
        ({ settled with mappings }, world) := by
  induction keys generalizing r with
  | nil =>
      refine ⟨r, direct, rfl, ?_⟩
      rw [List.map_nil, framed_nil]
      exact process_of_empty options evaluate (r := { r with mappings }) direct.typeahead world
  | cons key rest ih =>
      obtain ⟨settled, done, same⟩ := (direct.queue key).settles options evaluate world
      obtain ⟨settled', done', typed, processed⟩ := ih done
      have input : inputKey options evaluate { r with mappings := {} } world key =
          ({ settled with mappings := {} }, world) := by
        rw [direct.inputKey_unmapped, same, framed_nil]
        exact process_of_empty options evaluate (r := { settled with mappings := {} })
          done.typeahead world
      refine ⟨settled', done', ?_, ?_⟩
      · rw [← typed, inputKeys, List.foldl_cons, input]
        rfl
      · rw [← processed, ← same]
        have front : r.framed ⟨mappings, (key :: rest).map .literal, []⟩ =
            ({ r with typeahead := [.literal key] } : Resolver).framed
              ⟨mappings, rest.map .literal, []⟩ := by
          simp [framed, direct.typeahead]
        rw [front]

end Direct

/-! ## The keys of a mapping -/

/-- Keys that only longer mappings start with, when they are not mapped themselves. -/
theorem lookup_eq_incomplete {store : MappingStore} {mode : MapMode} {front : List Key} {key : Key}
    {rest : List Key} {mapping : Mapping}
    (found : store.lookup mode (front ++ key :: rest) = .complete mapping)
    (unmapped : (store.lookup mode front).value? = none) : store.lookup mode front = .incomplete := by
  have there : store.table.lookup mode (front ++ key :: rest) ≠ .unmapped := by
    intro nothing
    rw [MappingStore.lookup, nothing] at found
    cases found
  have more : (store.lookup mode front).needsMore = true := by
    rw [MappingStore.lookup, Lookup.needsMore_map]
    exact KeyTable.needsMore_of_longer there
  generalize store.lookup mode front = answer at more unmapped ⊢
  cases answer with
  | incomplete => rfl
  | unmapped => cases more
  | complete value => cases unmapped
  | ambiguous value => cases unmapped

/-- On the way to a mapping that no shorter one comes before. -/
theorem lookup_eq_incomplete_of_alone {store : MappingStore} {mode : MapMode} {front : List Key}
    {last : Key} {mapping : Mapping}
    (found : store.lookup mode (front ++ [last]) = .complete mapping)
    (alone : ∀ start, start <+: front ++ [last] → start ≠ front ++ [last] →
      (store.lookup mode start).value? = none)
    {start : List Key} (before : start <+: front) : store.lookup mode start = .incomplete := by
  obtain ⟨more, rfl⟩ := before
  obtain ⟨next, rest, split⟩ : ∃ next rest, more ++ [last] = next :: rest :=
    List.exists_cons_of_ne_nil (by simp)
  rw [List.append_assoc, split] at found alone
  exact lookup_eq_incomplete found (alone start (List.prefix_append _ _) (by simp))

/-- Typed keys that may become a mapping wait on the trail. -/
theorem inputKeys_trail {r : Resolver} (listens : r.listens) (waiting : r.typeahead = [])
    (empty : r.trail = []) (typed : List Key)
    (incomplete : ∀ start, start <+: typed →
      r.mappings.lookup (.of r.modes.mode) start = .incomplete) (world : σ) :
    inputKeys options evaluate r world typed = ({ r with trail := typedTrail typed }, world) := by
  induction typed using List.reverseRecOn with
  | nil =>
      rw [typedTrail, List.map_nil, ← empty]
      rfl
  | append_singleton typed key ih =>
      have before := ih fun start within =>
        incomplete start (within.trans (List.prefix_append _ _))
      let typing : Resolver := { r with
        typeahead := [.mappable key 0], trail := typedTrail typed }
      have found : typing.lookupWith ⟨key, 0⟩ = .incomplete := by
        simpa [lookupWith, typing] using incomplete (typed ++ [key]) List.prefix_rfl
      have step := step?_eq_of_reaction options evaluate
        (.joins (r := typing) rfl listens.1 found) listens.2 world
      have input := inputKey_eq options evaluate (r := { r with trail := typedTrail typed })
        listens.2 waiting world key
      rw [inputKeys_append, before]
      refine input.trans ((process_of_last options evaluate step rfl).trans ?_)
      simp [Outcome.run, extended, typing, typedTrail, waiting]

/-- The last key of a mapping puts the keys in the queue that it stands for. -/
theorem step?_last {r : Resolver} (listens : r.listens) (empty : r.trail = [])
    (free : r.trailMatch = none) {front keys : List Key} {last : Key} {mapping : Mapping}
    (found : r.mappings.lookup (.of r.modes.mode) (front ++ [last]) = .complete mapping)
    (noremap : mapping.noremap = true) (stands : mapping.rhs = .keys keys) (world : σ) :
    step? options evaluate
        { r with typeahead := [.mappable last 0], trail := typedTrail front } world =
      some ({ r with typeahead := keys.map .literal }, world) := by
  let typing : Resolver := { r with typeahead := [.mappable last 0], trail := typedTrail front }
  have here : typing.lookupWith ⟨last, 0⟩ = .complete mapping := by
    simpa [lookupWith, typing] using found
  have step := step?_eq_of_reaction options evaluate
    (.completes (r := typing) rfl listens.1 (.inl here)) listens.2 world
  have trail : typing.trail ++ [⟨last, 0⟩] = typedTrail (front ++ [last]) := by
    simp [typing, typedTrail]
  rw [step, Outcome.run, trail, expand_noremap options evaluate _ world noremap stands]
  simp [typing, extended, withoutTrail, requeue, empty, free]

/-- Typing the keys of a mapping does what typing the keys does that it stands for,
where there are no mappings: it tells the same events, and leaves the same mode and
the same pending command.  The keys of the mapping are not mapped again, and no
shorter keys are mapped on the way to it. -/
theorem noremap_transparent {start : CommandKeys} {interactions : List (Interaction σ)}
    {r : Resolver} (reached : ((Session.start start).run interactions).resolver = r)
    (table : r.keys.NoOffsets) (waiting : r.typeahead = []) (empty : r.trail = [])
    (listens : r.listens) {lhs keys : List Key} {mapping : Mapping}
    (found : r.mappings.lookup (.of r.modes.mode) lhs = .complete mapping)
    (noremap : mapping.noremap = true) (stands : mapping.rhs = .keys keys)
    (alone : ∀ front, front <+: lhs → front ≠ lhs →
      (r.mappings.lookup (.of r.modes.mode) front).value? = none) (world : σ) :
    let typed := inputKeys options evaluate { r with mappings := {} } world keys
    inputKeys options evaluate r world lhs =
      ({ typed.1 with mappings := r.mappings }, typed.2) := by
  have layered : Layered r := reached ▸ Session.layered_run start interactions
  have first := Layered.keys_of_listens listens
  have direct : Direct r [] :=
    ⟨waiting, empty, layered.free empty, table, layered.tidy, listens.2,
      by simp [layered.tidy.not_held first]⟩
  obtain rfl | ⟨front, last, rfl⟩ := List.eq_nil_or_concat lhs
  · have value := MappingStore.value?_lookup r.mappings (.of r.modes.mode) []
    rw [found, KeyTable.get?_nil] at value
    cases value
  · rw [List.concat_eq_append] at found alone ⊢
    have before := inputKeys_trail options evaluate listens waiting empty front
      (fun start within => lookup_eq_incomplete_of_alone found alone within) world
    have step := step?_last options evaluate listens empty direct.trailMatch found noremap stands
      world
    have queued : r.framed ⟨r.mappings, keys.map .literal, []⟩ =
        { r with typeahead := keys.map .literal } := by
      simp only [framed, waiting, List.nil_append]
    have input : inputKey options evaluate { r with trail := typedTrail front } world last =
        process options evaluate (r.framed ⟨r.mappings, keys.map .literal, []⟩) world := by
      rw [inputKey_eq options evaluate (r := { r with trail := typedTrail front }) listens.2
        waiting, process_of_step options evaluate step, queued]
    obtain ⟨settled, _, typed, processed⟩ :=
      direct.process_literals options evaluate r.mappings keys world
    dsimp only
    rw [typed, ← processed, ← input, inputKeys_append, before]
    rfl

/-- Two keys that delete a word. -/
def wordMapping : Mapping where
  lhs := [.char 'j', .char 'k']
  rhs := .keys [.char 'd', .char 'w']
  modes := .single .normal
  noremap := true

/-- The default keys, and one mapping. -/
def mappedWord : Resolver where
  keys := .default
  mappings := { table := KeyTable.empty.insert .normal wordMapping.lhs ⟨0, wordMapping⟩, made := 1 }

theorem mappedWord_transparent :
    let typed := inputKeys ⟨.default, .everywhere⟩ Expression.literalOnly
      { mappedWord with mappings := {} } () [.char 'd', .char 'w']
    inputKeys ⟨.default, .everywhere⟩ Expression.literalOnly mappedWord () wordMapping.lhs =
      ({ typed.1 with mappings := mappedWord.mappings }, typed.2) := by
  have reached : ((Session.start .default).run
      [Interaction.call (.setMappings mappedWord.mappings : Operation Unit)]).resolver =
        mappedWord := rfl
  have alone : ∀ front, front <+: wordMapping.lhs → front ≠ wordMapping.lhs →
      (mappedWord.mappings.lookup .normal front).value? = none := by
    intro front _ other
    rw [MappingStore.value?_lookup, mappedWord,
      KeyTable.get?_insert _ _ _ _ (by simp [wordMapping]), if_neg (by simp [other])]
    rfl
  have found : mappedWord.mappings.lookup (.of mappedWord.modes.mode) wordMapping.lhs =
      .complete wordMapping := by
    decide
  exact noremap_transparent ⟨.default, .everywhere⟩ Expression.literalOnly reached
    CommandKeys.default_noOffsets rfl rfl ⟨rfl, rfl⟩ found rfl rfl alone ()

end Resolver

end ModalInput
