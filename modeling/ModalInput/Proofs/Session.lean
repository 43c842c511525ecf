/-
# ModalInput.Proofs.Session -- a resolver and the editor around it

An editor calls its resolver in any order, changes the command table whenever it
likes, and takes the events that were told one at a time.  A `Session` keeps the
resolver together with the events that were taken, so that everything that was
ever told is there, in order (`Session.told`).

* `Session.run` -- what a list of interactions leads to.
* `Session.layered_run` -- in every session only one layer waits for keys.
* `inputKeys` -- keys typed one after the other; `typedWithin` -- the same for concrete
  keys; `expand_noremap` -- a mapping in the place of typed keys.
-/
import ModalInput.Proofs.Layers

namespace ModalInput.Resolver

set_option autoImplicit false

/-- What an editor does with a resolver: it calls it, or changes the table of the
commands. -/
inductive Interaction (σ : Type) where
  | call (operation : Operation σ)
  | setKeys (keys : CommandKeys)

namespace Interaction

variable {σ : Type}

/-- The resolver after an interaction. -/
def run (interaction : Interaction σ) (r : Resolver) : Resolver :=
  match interaction with
  | .call operation => operation.run r
  | .setKeys keys => { r with keys }

/-- The event that an interaction takes, if it takes one. -/
def taken (interaction : Interaction σ) (r : Resolver) : List EngineEvent :=
  match interaction with
  | .call .takeEvent => r.takeEvent.1.toList
  | _ => []

end Interaction

/-- A resolver, with the events that were taken from it, in order. -/
structure Session where
  resolver : Resolver
  taken : List EngineEvent := []

namespace Session

/-- A new resolver with a table of commands. -/
def start (keys : CommandKeys) : Session := { resolver := { keys } }

/-- Everything that was told: what was taken, and what nobody has taken yet. -/
def told (session : Session) : List EngineEvent := session.taken ++ session.resolver.events

variable {σ : Type}

def after (session : Session) (interaction : Interaction σ) : Session where
  resolver := interaction.run session.resolver
  taken := session.taken ++ interaction.taken session.resolver

def run (session : Session) (interactions : List (Interaction σ)) : Session :=
  interactions.foldl after session

/-- What every interaction keeps, a session keeps. -/
theorem run_kept {P : Session → Prop}
    (kept : ∀ session (interaction : Interaction σ), P session → P (session.after interaction))
    {session : Session} (holds : P session) (interactions : List (Interaction σ)) :
    P (session.run interactions) := by
  induction interactions generalizing session with
  | nil => exact holds
  | cons first rest ih => exact ih (kept session first holds)

/-- Taking an event only moves it. -/
theorem told_takeEvent (session : Session) :
    (session.after (.call (.takeEvent : Operation σ))).told = session.told := by
  simp only [told, after, Interaction.run, Interaction.taken, Operation.run, takeEvent]
  cases events : session.resolver.events with
  | nil => simp [events]
  | cons event rest => simp

/-- The table of the commands matters to no key that waits. -/
theorem layered_run (keys : CommandKeys) (interactions : List (Interaction σ)) :
    Layered ((start keys).run interactions).resolver := by
  refine run_kept (P := fun session => Layered session.resolver) ?_ ?_ interactions
  · intro session interaction layered
    cases interaction with
    | call operation => exact (layered_invariant fun _ => True).run trivial layered
    | setKeys keys => exact ⟨layered.typed, layered.reached, layered.tidy⟩
  · exact .of_empty rfl rfl tidy_empty

end Session

/-! ## Typed keys -/

variable {σ : Type} (options : OptionView) (evaluate : Evaluator σ)

/-- Keys typed one after the other. -/
def inputKeys (r : Resolver) (world : σ) (keys : List Key) : Resolver × σ :=
  keys.foldl (fun now key => inputKey options evaluate now.1 now.2 key) (r, world)

theorem inputKeys_append (r : Resolver) (world : σ) (keys more : List Key) :
    inputKeys options evaluate r world (keys ++ more) =
      inputKeys options evaluate (inputKeys options evaluate r world keys).1
        (inputKeys options evaluate r world keys).2 more :=
  List.foldl_append

/-- Keys typed one after the other, if so many looks are enough for each of them. -/
def typedWithin (looks : Nat) : Resolver × σ → List Key → Option (Resolver × σ)
  | s, [] => some s
  | s, key :: rest =>
      let queued : Resolver := { s.1 with typeahead := s.1.typeahead ++ [.mappable key 0] }
      let next := lookedAt options evaluate (queued, s.2) looks
      if (s.1.awaitsOffsets && key.isEscape) || (step? options evaluate next.1 next.2).isSome then
        none
      else typedWithin looks next rest

theorem inputKeys_of_within {looks : Nat} {keys : List Key} {s next : Resolver × σ}
    (typed : typedWithin options evaluate looks s keys = some next) :
    inputKeys options evaluate s.1 s.2 keys = next := by
  induction keys generalizing s with
  | nil => exact Option.some.inj typed
  | cons key rest ih =>
      let queued : Resolver := { s.1 with typeahead := s.1.typeahead ++ [.mappable key 0] }
      unfold typedWithin at typed
      dsimp only at typed
      split at typed
      · cases typed
      · rename_i settled
        simp only [Bool.or_eq_true, not_or, Bool.not_eq_true, Option.isSome_eq_false_iff,
          Option.isNone_iff_eq_none] at settled
        have input : inputKey options evaluate s.1 s.2 key =
            lookedAt options evaluate (queued, s.2) looks := by
          rw [inputKey, settled.1, if_neg Bool.false_ne_true]
          exact process_eq_lookedAt options evaluate looks (queued, s.2) settled.2
        rw [inputKeys, List.foldl_cons, input]
        exact ih typed

/-- What is true after so many looks is true after the keys. -/
theorem inputKeys_of_any (looks : Nat) (keys : List Key) (r : Resolver) (world : σ)
    (P : Resolver × σ → Bool)
    (any : (typedWithin options evaluate looks (r, world) keys).any P = true) :
    P (inputKeys options evaluate r world keys) = true := by
  cases typed : typedWithin options evaluate looks (r, world) keys with
  | none =>
      rw [typed] at any
      cases any
  | some next =>
      rw [typed] at any
      rw [show inputKeys options evaluate r world keys = next from
        inputKeys_of_within options evaluate typed]
      exact any

/-- A key that is typed while no other waits, and no offsets are awaited. -/
theorem inputKey_eq {r : Resolver} (noOffsets : r.awaitsOffsets = false)
    (waiting : r.typeahead = []) (world : σ) (key : Key) :
    inputKey options evaluate r world key =
      process options evaluate { r with typeahead := [.mappable key 0] } world := by
  simp only [inputKey, noOffsets, Bool.false_and, Bool.false_eq_true, if_false, waiting,
    List.nil_append]

/-- Typed keys on the trail; no mapping led to them. -/
def typedTrail (keys : List Key) : List TrailKey := keys.map fun key => ⟨key, 0⟩

@[simp] theorem keys_typedTrail (keys : List Key) :
    (typedTrail keys).map TrailKey.key = keys := by
  simp [typedTrail, Function.comp_def]

theorem depthOf_typedTrail (keys : List Key) : depthOf (typedTrail keys) = 1 := by
  have zeros (keys : List Key) : ((typedTrail keys).map TrailKey.depth).foldl max 0 = 0 := by
    induction keys with
    | nil => rfl
    | cons key rest ih => simpa [typedTrail] using ih
  rw [depthOf, zeros]

/-- A mapping whose keys are not mapped again takes the place of typed keys. -/
theorem expand_noremap (r : Resolver) (world : σ) {mapping : Mapping} {keys : List Key}
    (noremap : mapping.noremap = true) (stands : mapping.rhs = .keys keys) (lhs : List Key) :
    expand options evaluate r world mapping (typedTrail lhs) =
      (r.requeue (keys.map .literal), world) := by
  have allowed : ¬ depthLimit options < depthOf (typedTrail lhs) := by
    rw [depthOf_typedTrail, depthLimit]
    omega
  simp only [expand, if_neg allowed, stands, expansion, noremap, Bool.not_true, Bool.false_and,
    Bool.false_eq_true, if_false]

end ModalInput.Resolver
