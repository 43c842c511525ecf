/-
# ModalInput.Proofs.Moves -- everything that a call does, one move after the other

Looking at keys, the end of the time for another key, and offsets come down to a
few moves: keys are queued, join the trail or leave it, a mapping stands for an
action, a key goes to the command layer, a held command runs, a command gets its
offsets, everything is dropped, a failure is told.  `Move` lists them, each with
what is known when it is made, so that an invariant of the resolver is a case
distinction on the move.

* `Moves` -- moves one after the other; `Moves.kept` -- what every move keeps.
* `Spans` -- a relation that holds of the few functions that change the modes or tell
  events; `Spans.moves` -- it holds of all moves.
* `inputKey_moves`, `timeoutExpired_moves`, `supplyOffsets_moves` -- the calls.
-/
import ModalInput.Proofs.CommandStep
import ModalInput.Proofs.Reaction

namespace ModalInput.Resolver

set_option autoImplicit false

/-- Mappings apply to the next key, and it is looked at. -/
def listens (r : Resolver) : Prop := r.mapsNext = true ∧ r.awaitsOffsets = false

/-- A mapping can take the place of its keys: one more key makes them complete, or
they are complete on the trail. -/
inductive Offers (r : Resolver) (mapping : Mapping) : Prop where
  | typed (key : TrailKey) (maps : r.listens) (found : (r.lookupWith key).value? = some mapping)
  | reached (before : Nat) (found : r.trailMatch = some ⟨mapping, before⟩)

variable (options : OptionView)

/-- One thing that a call does. -/
inductive Move (r : Resolver) : Resolver → Prop where
  | queue (typeahead : List Queued) : Move r { r with typeahead }
  /-- A key joins the trail. -/
  | joins (key : TrailKey) (maps : r.listens) : Move r { r with trail := r.trail ++ [key] }
  /-- A key joins the trail, and the trail is mapped. -/
  | reaches (key : TrailKey) (mapping : Mapping) (maps : r.listens)
      (found : (r.lookupWith key).value? = some mapping) :
      Move r { r with trail := r.trail ++ [key], trailMatch := some ⟨mapping, r.trail.length⟩ }
  /-- The trail is taken. -/
  | leaves : Move r r.withoutTrail
  /-- The trail is taken, and the action that its keys are mapped to runs. -/
  | acts (mapping : Mapping) (action : Action) (found : r.Offers mapping)
      (target : mapping.rhs = .action action) :
      Move r (commandResolved options r.withoutTrail action [])
  /-- A key goes to the command layer. -/
  | key (key : Key) (empty : r.trail = []) : Move r (commandKey options r key)
  /-- The held command runs. -/
  | fires : Move r (fireHeld options r)
  /-- The offsets for a command are there. -/
  | supplies (command : Command) (values : List Int)
      (awaits : r.pending.awaiting = some (.offsets command)) :
      Move r (argumentDone options r (command.withArgument (.offsets values)))
  /-- Everything that waits is dropped. -/
  | cancels : Move r r.cancel
  | fails (error : EngineError) : Move r (r.fail error)

/-- Moves one after the other. -/
inductive Moves (r : Resolver) : Resolver → Prop where
  | refl : Moves r r
  | step {a b : Resolver} (before : Moves r a) (move : Move options a b) : Moves r b

namespace Moves

variable {options : OptionView}

theorem single {a b : Resolver} (move : Move options a b) : Moves options a b := .step .refl move

theorem trans {a b c : Resolver} (first : Moves options a b) (second : Moves options b c) :
    Moves options a c := by
  induction second with
  | refl => exact first
  | step before move ih => exact .step ih move

/-- What every move keeps, moves keep. -/
theorem kept {P : Resolver → Prop} (kept : ∀ a b, P a → Move options a b → P b)
    {r r' : Resolver} (moves : Moves options r r') (holds : P r) : P r' := by
  induction moves with
  | refl => exact holds
  | step before move ih => exact kept _ _ ih move

end Moves

variable {σ : Type} (evaluate : Evaluator σ)

theorem Offers.queue {r : Resolver} {mapping : Mapping} (offers : r.Offers mapping)
    (typeahead : List Queued) : ({ r with typeahead } : Resolver).Offers mapping := by
  cases offers with
  | typed key maps found => exact .typed key maps found
  | reached before found => exact .reached before found

/-- A mapping takes the place of its keys, or is refused. -/
theorem expand_moves {r : Resolver} {mapping : Mapping} (offers : r.Offers mapping) (world : σ)
    (lhs : List TrailKey) :
    Moves options r (expand options evaluate r.withoutTrail world mapping lhs).1 := by
  have taken : Moves options r r.withoutTrail := .single .leaves
  unfold expand
  split
  · exact (taken.step .cancels).step (.fails _)
  · split
    · exact taken.step (.queue _)
    · rename_i action target
      exact .single (.acts mapping action offers target)
    · split
      · exact taken.step (.queue _)
      · exact (taken.step .cancels).step (.fails _)

/-- A trail that no key extends. -/
theorem ending_moves (r : Resolver) (world : σ) :
    Moves options r (r.ending.run options evaluate world).1 := by
  unfold ending
  cases reached : r.trailMatch with
  | some found =>
      let waiting := (r.trail.drop found.length).map TrailKey.requeued ++ r.typeahead
      have queued : Moves options r { r with typeahead := waiting } := .single (.queue waiting)
      have offers : ({ r with typeahead := waiting } : Resolver).Offers found.value :=
        .reached found.before reached
      exact queued.trans (expand_moves options evaluate offers world _)
  | none =>
      cases trail : r.trail with
      | nil => exact .refl
      | cons first rest =>
          have taken : Moves options r r.withoutTrail := .single .leaves
          exact (taken.step (.queue _)).step (.key first.key rfl)

/-- Looking at a key. -/
theorem reaction_moves {r : Resolver} {outcome : Outcome} (reaction : Reaction options r outcome)
    (noOffsets : r.awaitsOffsets = false) (world : σ) :
    Moves options r (outcome.run options evaluate world).1 := by
  cases reaction with
  | @joins key depth rest queue maps found =>
      have queued : Moves options r { r with typeahead := rest } := .single (.queue rest)
      exact queued.step (.joins ⟨key, depth⟩ ⟨maps, noOffsets⟩)
  | @reaches key depth rest mapping queue maps found waits =>
      have queued : Moves options r { r with typeahead := rest } := .single (.queue rest)
      exact queued.step (.reaches ⟨key, depth⟩ mapping ⟨maps, noOffsets⟩ (by
        show (r.lookupWith ⟨key, depth⟩).value? = some mapping
        rw [found]
        rfl))
  | @completes key depth rest mapping queue maps found =>
      have queued : Moves options r { r with typeahead := rest } := .single (.queue rest)
      have value : (r.lookupWith ⟨key, depth⟩).value? = some mapping := by
        rcases found with complete | ⟨ambiguous, _⟩
        · rw [complete]
          rfl
        · rw [ambiguous]
          rfl
      have offers : ({ r with typeahead := rest } : Resolver).Offers mapping :=
        .typed ⟨key, depth⟩ ⟨maps, noOffsets⟩ value
      exact queued.trans (expand_moves options evaluate offers world _)
  | @overshoots key depth rest queue maps found =>
      have queued : Moves options r { r with typeahead := rest } := .single (.queue rest)
      have joined : Moves options r (r.extended rest ⟨key, depth⟩) :=
        queued.step (.joins ⟨key, depth⟩ ⟨maps, noOffsets⟩)
      exact joined.trans (ending_moves options evaluate _ world)
  | @passes queued rest queue exempt empty =>
      have taken : Moves options r { r with typeahead := rest } := .single (.queue rest)
      exact taken.step (.key queued.key empty)
  | finishes queue exempt typed => exact ending_moves options evaluate r world

theorem step?_moves {r : Resolver} {world : σ} {next : Resolver × σ}
    (stepped : step? options evaluate r world = some next) : Moves options r next.1 := by
  obtain ⟨noOffsets, outcome, reaction, same⟩ := exists_reaction options evaluate stepped
  rw [same]
  exact reaction_moves options evaluate reaction noOffsets world

theorem process_moves (r : Resolver) (world : σ) :
    Moves options r (process options evaluate r world).1 := by
  refine process_kept options evaluate (P := Moves options r) ?_ r world .refl
  intro before world next moves stepped
  exact moves.trans (step?_moves options evaluate stepped)

/-! ## Calls -/

theorem inputKey_moves (r : Resolver) (world : σ) (key : Key) :
    Moves options r (inputKey options evaluate r world key).1 := by
  unfold inputKey
  split
  · exact .single .cancels
  · have queued : Moves options r { r with typeahead := r.typeahead ++ [.mappable key 0] } :=
      .single (.queue _)
    exact queued.trans (process_moves options evaluate _ world)

theorem flushTrail_moves (r : Resolver) (world : σ) :
    Moves options r (flushTrail options evaluate r world).1 := by
  unfold flushTrail
  split
  · rw [endTrail_eq]
    exact ending_moves options evaluate r world
  · have taken : Moves options r r.withoutTrail := .single .leaves
    exact taken.step (.queue _)

theorem flushed_moves (r : Resolver) (world : σ) :
    Moves options r (flushed options evaluate r world).1 := by
  unfold flushed
  split
  · exact .refl
  · exact (flushTrail_moves options evaluate r world).trans (process_moves options evaluate _ _)

theorem timeoutExpired_moves (r : Resolver) (world : σ) :
    Moves options r (timeoutExpired options evaluate r world).1 := by
  have flushed := flushed_moves options evaluate r world
  rw [timeoutExpired_eq]
  split
  · exact (flushed.step .fires).trans (process_moves options evaluate _ _)
  · exact flushed

theorem supplyOffsets_moves (r : Resolver) (world : σ) (values : List Int) :
    Moves options r ((supplyOffsets options evaluate r world values).getD (r, world)).1 := by
  unfold supplyOffsets
  split
  · rename_i command awaits
    have supplied : Moves options r _ := .single (.supplies command values awaits)
    exact supplied.trans (process_moves options evaluate _ world)
  · exact .refl

/-! ## Relations that span moves -/

/-- A relation that holds where the modes stay and nothing is told, goes on from one
resolver to the next, and holds of each function that changes the modes or tells events. -/
structure Spans (options : OptionView) (R : Resolver → Resolver → Prop) : Prop where
  quiet : ∀ {a b : Resolver}, b.modes = a.modes → b.events = a.events → R a b
  trans : ∀ {a b c : Resolver}, R a b → R b c → R a c
  fails : ∀ (r : Resolver) (error : EngineError), R r (r.fail error)
  pushes : ∀ (r : Resolver) (mode : Mode), mode.isTemporary = true → R r (r.pushMode mode)
  pops : ∀ r : Resolver, R r r.popMode
  returns : ∀ r : Resolver, R r r.leaveTemporary
  completes : ∀ (r : Resolver) (command : Command), R r (r.complete options command)
  finishes : ∀ (r : Resolver) (operator motion : Command),
    R r (r.finishOperator options operator motion)

namespace Spans

variable {options : OptionView} {R : Resolver → Resolver → Prop} (spans : Spans options R)
include spans

theorem abort (r : Resolver) : R r r.abort := by
  have forgets : R r r.forget := spans.quiet rfl rfl
  exact spans.trans forgets (spans.returns r.forget)

theorem cancel (r : Resolver) : R r r.cancel := by
  have drops : R r { r with typeahead := [], trail := [], trailMatch := none } :=
    spans.quiet rfl rfl
  exact spans.trans drops (spans.abort _)

theorem argumentDone (r : Resolver) (command : Command) :
    R r (r.argumentDone options command) := by
  unfold Resolver.argumentDone
  split
  · exact spans.finishes r _ command
  · exact spans.completes r command

theorem commandResolved (r : Resolver) (action : Action) (keys : List Key) :
    R r (r.commandResolved options action keys) := by
  have step := commandResolved_step options r action keys
  have counted : R r r.counted := spans.quiet (modes_counted r) (events_counted r)
  generalize r.commandResolved options action keys = after at step ⊢
  cases step with
  | starts starts =>
      refine spans.trans (spans.trans counted ?_) (spans.pushes _ .operatorPending rfl)
      exact spans.quiet rfl rfl
  | finishes noOperator ready => exact spans.trans counted (spans.argumentDone _ _)
  | awaitsCharacter kind => exact spans.trans counted (spans.quiet rfl rfl)
  | opensLine kind =>
      have opened : R r (r.counted.pushMode .commandLine) :=
        spans.trans counted (spans.pushes _ .commandLine rfl)
      exact spans.trans opened (spans.quiet rfl rfl)
  | awaitsOffsets kind => exact spans.trans counted (spans.quiet rfl rfl)

theorem fireHeld (r : Resolver) : R r (r.fireHeld options) := by
  unfold Resolver.fireHeld
  split
  · exact spans.quiet rfl rfl
  · refine spans.trans ?_ (spans.commandResolved _ _ _)
    exact spans.quiet rfl rfl

theorem commandKey (r : Resolver) (key : Key) : R r (r.commandKey options key) := by
  have step := commandKey_step options r key
  have answered : R r r.answered := spans.quiet rfl rfl
  have gathered : R r (r.gathered key) := spans.quiet rfl rfl
  generalize r.commandKey options key = after at step ⊢
  cases step with
  | drops => exact spans.abort r
  | refuses c awaits => exact spans.trans (spans.abort r) (spans.fails _ _)
  | names register awaits named => exact spans.quiet rfl rfl
  | supplies command c awaits types => exact spans.trans answered (spans.argumentDone _ _)
  | enters command prompt typed awaits confirms =>
      exact spans.trans (spans.trans answered (spans.pops _)) (spans.argumentDone _ _)
  | edits command prompt typed awaits => exact spans.quiet rfl rfl
  | waits command awaits => exact spans.quiet rfl rfl
  | counts count idle first mode digit => exact spans.quiet rfl rfl
  | asksRegister idle first mode sign => exact spans.quiet rfl rfl
  | repeats operator idle waiting again =>
      have doubled : R r (r.gathered key).doubled := spans.quiet rfl rfl
      exact spans.trans doubled (spans.argumentDone _ _)
  | gathers idle found => exact gathered
  | holds action idle found => exact spans.quiet rfl rfl
  | resolves action idle found =>
      have released : R r (r.gathered key).released := spans.quiet rfl rfl
      exact spans.trans released (spans.commandResolved _ action _)
  | fires held idle holding => exact spans.trans gathered (spans.fireHeld _)
  | parts first second idle single nothing apart => exact spans.quiet rfl rfl
  | types action c idle single nothing typing typed =>
      refine spans.trans ?_ (spans.completes _ _)
      exact spans.quiet rfl rfl

theorem move {r next : Resolver} (move : Move options r next) : R r next := by
  cases move with
  | queue typeahead => exact spans.quiet rfl rfl
  | joins key maps => exact spans.quiet rfl rfl
  | reaches key mapping maps found => exact spans.quiet rfl rfl
  | leaves => exact spans.quiet rfl rfl
  | acts mapping action found target =>
      have taken : R r r.withoutTrail := spans.quiet rfl rfl
      exact spans.trans taken (spans.commandResolved _ action [])
  | key key empty => exact spans.commandKey r key
  | fires => exact spans.fireHeld r
  | supplies command values awaits => exact spans.argumentDone r _
  | cancels => exact spans.cancel r
  | fails error => exact spans.fails r error

theorem moves {r next : Resolver} (moves : Moves options r next) : R r next :=
  moves.kept (P := R r) (fun _ _ before last => spans.trans before (spans.move last))
    (spans.quiet rfl rfl)

end Spans

end ModalInput.Resolver
