/-
# ModalInput.Proofs.Operation -- the states that a resolver comes into

The editor around the resolver calls it in any order, each time with the options
and the evaluator of that moment, and changes its mappings in between
(`Operation`).  What the first state has and every operation keeps, every state
has that it comes into (`Reachable.invariant`); of the calls that look at keys it
is enough to know the moves.

* `Reachable` -- the states after some operations of a kind.
* `Operation.emitted` -- the events that an operation adds.
-/
import ModalInput.Proofs.Emission
import ModalInput.Proofs.Moves

namespace ModalInput.Resolver

set_option autoImplicit false

/-- What happens to a resolver from outside. -/
inductive Operation (σ : Type) where
  | key (options : OptionView) (evaluate : Evaluator σ) (world : σ) (key : Key)
  | timeout (options : OptionView) (evaluate : Evaluator σ) (world : σ)
  | offsets (options : OptionView) (evaluate : Evaluator σ) (world : σ) (values : List Int)
  | cancel
  | setMode (state : ModeState)
  | setRecording (recording : Bool)
  /-- Mappings are made or removed. -/
  | setMappings (mappings : MappingStore)
  | takeEvent

namespace Operation

variable {σ : Type}

/-- The resolver after an operation. -/
def run (operation : Operation σ) (r : Resolver) : Resolver :=
  match operation with
  | .key options evaluate world typed => (inputKey options evaluate r world typed).1
  | .timeout options evaluate world => (timeoutExpired options evaluate r world).1
  | .offsets options evaluate world values =>
      ((supplyOffsets options evaluate r world values).getD (r, world)).1
  | .cancel => r.cancel
  | .setMode state => r.setMode state
  | .setRecording recording => r.setRecording recording
  | .setMappings mappings => { r with mappings }
  | .takeEvent => r.takeEvent.2

/-- The events that an operation adds to those that nobody has taken. -/
def emitted (operation : Operation σ) (r : Resolver) : List EngineEvent :=
  (operation.run r).events.drop r.events.length

theorem takeEvent_run (r : Resolver) :
    ∃ events, (takeEvent : Operation σ).run r = { r with events } := by
  show ∃ events, r.takeEvent.2 = { r with events }
  unfold Resolver.takeEvent
  split
  · exact ⟨r.events, rfl⟩
  · rename_i rest _
    exact ⟨rest, rfl⟩

/-- An operation is made of moves, or is one of those that look at no key. -/
inductive Split (r : Resolver) : Operation σ → Prop where
  | moves {operation : Operation σ} (options : OptionView)
      (moves : Moves options r (operation.run r)) : Split r operation
  | setMode (state : ModeState) : Split r (.setMode state)
  | setRecording (recording : Bool) : Split r (.setRecording recording)
  | setMappings (mappings : MappingStore) : Split r (.setMappings mappings)
  | takeEvent : Split r .takeEvent

theorem split (operation : Operation σ) (r : Resolver) : Split r operation := by
  cases operation with
  | key options evaluate world key =>
      exact .moves options (inputKey_moves options evaluate r world key)
  | timeout options evaluate world =>
      exact .moves options (timeoutExpired_moves options evaluate r world)
  | offsets options evaluate world values =>
      exact .moves options (supplyOffsets_moves options evaluate r world values)
  | cancel => exact .moves ⟨{}, .everywhere⟩ (.single .cancels)
  | setMode state => exact .setMode state
  | setRecording recording => exact .setRecording recording
  | setMappings mappings => exact .setMappings mappings
  | takeEvent => exact .takeEvent

end Operation

/-- The states that operations of some kind lead to. -/
inductive Reachable {σ : Type} (allowed : Operation σ → Prop) (start : Resolver) :
    Resolver → Prop where
  | start : Reachable allowed start start
  | run {r : Resolver} (operation : Operation σ) (reached : Reachable allowed start r)
      (allows : allowed operation) : Reachable allowed start (operation.run r)

/-- With more operations, the same states are reached, and others. -/
theorem Reachable.mono {σ : Type} {few many : Operation σ → Prop} {start r : Resolver}
    (reached : Reachable few start r) (more : ∀ operation, few operation → many operation) :
    Reachable many start r := by
  induction reached with
  | start => exact .start
  | run operation reached allows ih => exact .run operation ih (more operation allows)

/-- What moves and the other operations keep. -/
structure Invariant {σ : Type} (allowed : Operation σ → Prop) (P : Resolver → Prop) : Prop where
  move : ∀ options r r', P r → Move options r r' → P r'
  setMode : ∀ state r, allowed (.setMode state) → P r → P (r.setMode state)
  setRecording : ∀ recording r, P r → P (r.setRecording recording)
  setMappings : ∀ mappings r, allowed (.setMappings mappings) → P r → P { r with mappings }
  events : ∀ events r, P r → P { r with events }

theorem Invariant.run {σ : Type} {allowed : Operation σ → Prop} {P : Resolver → Prop}
    (invariant : Invariant allowed P) {operation : Operation σ} (allows : allowed operation)
    {r : Resolver} (holds : P r) : P (operation.run r) := by
  cases operation.split r with
  | moves options moves => exact moves.kept (invariant.move options) holds
  | setMode state => exact invariant.setMode state r allows holds
  | setRecording recording => exact invariant.setRecording recording r holds
  | setMappings mappings => exact invariant.setMappings mappings r allows holds
  | takeEvent =>
      obtain ⟨events, same⟩ := Operation.takeEvent_run (σ := σ) r
      rw [same]
      exact invariant.events events r holds

/-- What the first state has and every operation keeps, every reachable state
has. -/
theorem Reachable.invariant {σ : Type} {allowed : Operation σ → Prop} {P : Resolver → Prop}
    {start r : Resolver} (reached : Reachable allowed start r) (first : P start)
    (invariant : Invariant allowed P) : P r := by
  induction reached with
  | start => exact first
  | run operation reached allows ih => exact invariant.run allows ih

end ModalInput.Resolver
