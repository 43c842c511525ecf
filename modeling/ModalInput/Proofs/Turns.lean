/-
# ModalInput.Proofs.Turns -- everything that happens to an engine, one turn at a time

An engine is given keys, the news that no key came in time, offsets and so on; what
this leads to is acted on in steps, of which each call takes as many as there are.
Calls and steps alike are turns here, and a list of turns is a run (`run`).  So a
run can be looked at between any two steps of a call, and no call has to come to an
end.  A call that returns is the turn that starts it and some steps, after which
there is none left to take (`inputKey_turns` and the like).

* `Stride`, `advance?_stride` -- what a step is: an event is acted on, a key is run
  again, or the host stops the keys.
* `advance?_eq_none_iff` -- when there is no step.
* `run_kept` -- what every turn keeps, a run keeps.
-/
import ModalInput.Proofs.HostCalls
import ModalInput.Proofs.Replaying

namespace ModalInput.Engine

set_option autoImplicit false

variable {σ κ : Type} (host : Host σ κ)

/-! ## Steps -/

/-- With other events that wait. -/
def withEvents (engine : Engine σ) (events : List EngineEvent) : Engine σ :=
  { engine with resolver := { engine.resolver with events } }

/-- With other keys that are to be run again. -/
def withQueue (engine : Engine σ) (queue : List Key) : Engine σ :=
  { engine with recorder := { engine.recorder with queue } }

/-- The host was asked whether to stop the keys. -/
def polled (engine : Engine σ) : Engine σ := engine.tell fun world => (host.shouldInterrupt world).2

/-- One step. -/
inductive Stride (engine : Engine σ) : Engine σ → Prop where
  | dispatches (event : EngineEvent) (rest : List EngineEvent)
      (waits : engine.resolver.events = event :: rest) :
      Stride engine ((engine.withEvents rest).dispatch host event)
  | replays (key : Key) (rest : List Key) (quiet : engine.resolver.events = [])
      (queue : engine.recorder.queue = key :: rest) :
      Stride engine (((engine.polled host).withQueue rest).resolveKey host key)
  | interrupts (quiet : engine.resolver.events = [])
      (stops : (host.shouldInterrupt engine.world).1 = true) :
      Stride engine { (engine.polled host).stopKeys with resolver := engine.resolver.cancel }

theorem advance?_of_event {engine : Engine σ} {event : EngineEvent} {rest : List EngineEvent}
    (waits : engine.resolver.events = event :: rest) :
    engine.advance? host = some ((engine.withEvents rest).dispatch host event) := by
  simp only [advance?, Resolver.takeEvent, waits]
  rfl

theorem advance?_of_key {engine : Engine σ} {key : Key} {rest : List Key}
    (quiet : engine.resolver.events = []) (noOffsets : engine.resolver.awaitsOffsets = false)
    (queue : engine.recorder.queue = key :: rest) :
    engine.advance? host =
      some (if (host.shouldInterrupt engine.world).1 then
          { (engine.polled host).stopKeys with resolver := engine.resolver.cancel }
        else ((engine.polled host).withQueue rest).resolveKey host key) := by
  simp only [advance?, Resolver.takeEvent, quiet, noOffsets, Recorder.next, queue, ask]
  cases (host.shouldInterrupt engine.world).1 <;> rfl

/-- There is no step exactly if no event waits, and offsets are awaited before the
next key, or there is none. -/
theorem advance?_eq_none_iff (engine : Engine σ) :
    engine.advance? host = none ↔
      engine.resolver.events = [] ∧
        (engine.resolver.awaitsOffsets = true ∨ engine.recorder.queue = []) := by
  cases waits : engine.resolver.events with
  | cons event rest => simp [advance?_of_event host waits]
  | nil =>
      cases offsets : engine.resolver.awaitsOffsets with
      | true => simp [advance?, Resolver.takeEvent, waits, offsets]
      | false =>
          cases queue : engine.recorder.queue with
          | nil => simp [advance?, Resolver.takeEvent, waits, offsets, Recorder.next, queue]
          | cons key rest => simp [advance?_of_key host waits offsets queue]

theorem advance?_stride {engine next : Engine σ} (advanced : engine.advance? host = some next) :
    Stride host engine next := by
  cases waits : engine.resolver.events with
  | cons event rest =>
      rw [advance?_of_event host waits] at advanced
      cases advanced
      exact .dispatches event rest waits
  | nil =>
      have moves : engine.advance? host ≠ none := by simp [advanced]
      rw [Ne, advance?_eq_none_iff] at moves
      cases queue : engine.recorder.queue with
      | nil => exact absurd ⟨waits, .inr queue⟩ moves
      | cons key rest =>
          have noOffsets : engine.resolver.awaitsOffsets = false := by
            rw [Bool.eq_false_iff]
            exact fun offsets => moves ⟨waits, .inl offsets⟩
          rw [advance?_of_key host waits noOffsets queue] at advanced
          cases advanced
          split
          · rename_i stops
            exact .interrupts waits stops
          · exact .replays key rest waits queue

/-! ## Turns -/

/-- What happens to an engine: a call, a change of its configuration, or a step. -/
inductive Turn where
  | key (key : Key)
  | timeout
  | offsets (values : List Int)
  | cancel
  | setMode (state : ModeState)
  | line (line : String)
  | source (text : String)
  | setKeys (keys : CommandKeys)
  | setMappings (mappings : MappingStore)
  | setOptions (options : OptionStore)
  | setEditor (editor : EditorId)
  /-- One step, if there is one. -/
  | step

namespace Turn

/-- The engine after a turn. -/
def take (turn : Turn) (engine : Engine σ) : Engine σ :=
  match turn with
  | .key typed => engine.withTyped host typed
  | .timeout => engine.resolving fun resolver world =>
      resolver.timeoutExpired engine.view host.evaluate world
  | .offsets values => engine.resolving fun resolver world =>
      (resolver.supplyOffsets engine.view host.evaluate world values).getD (resolver, world)
  | .cancel => { engine.stopKeys with resolver := engine.resolver.cancel }
  | .setMode state => { engine with resolver := engine.resolver.setMode state }
  | .line text => (engine.executeLine host text).2
  | .source text => (engine.source host text).2
  | .setKeys keys => { engine with resolver := { engine.resolver with keys } }
  | .setMappings mappings => engine.withMappings mappings
  | .setOptions options => { engine with options }
  | .setEditor editor => { engine with editor }
  | .step => (engine.advance? host).getD engine

end Turn

/-- The engine after some turns. -/
def run (turns : List Turn) (engine : Engine σ) : Engine σ :=
  turns.foldl (fun engine turn => turn.take host engine) engine

/-- What every turn of a run keeps, the run keeps. -/
theorem run_kept {P : Engine σ → Prop} {turns : List Turn}
    (kept : ∀ turn ∈ turns, ∀ engine, P engine → P (turn.take host engine)) {engine : Engine σ}
    (holds : P engine) : P (engine.run host turns) := by
  induction turns generalizing engine with
  | nil => exact holds
  | cons turn rest ih =>
      exact ih (fun later member => kept later (.tail _ member)) (kept turn (.head _) engine holds)

/-! ## Calls -/

/-- To settle is to take steps until there is none left. -/
theorem settle_turns {steps : Nat} {engine next : Engine σ}
    (settled : engine.settle host steps = some next) :
    next.advance? host = none ∧ ∃ taken, next = engine.run host (List.replicate taken .step) := by
  induction steps generalizing engine with
  | zero =>
      cases advanced : engine.advance? host with
      | none =>
          rw [settle_of_settled host advanced] at settled
          cases settled
          exact ⟨advanced, 0, rfl⟩
      | some more => simp [settle, advanced] at settled
  | succ steps ih =>
      cases advanced : engine.advance? host with
      | none =>
          rw [settle_of_settled host advanced] at settled
          cases settled
          exact ⟨advanced, 0, rfl⟩
      | some more =>
          rw [settle_of_advanced host advanced] at settled
          obtain ⟨ends, taken, same⟩ := ih settled
          refine ⟨ends, taken + 1, ?_⟩
          have first : Turn.step.take host engine = more := by simp [Turn.take, advanced]
          rw [List.replicate_succ, same, ← first]
          rfl

/-- However many steps are allowed, the engine settles in one way. -/
theorem settle_unique {steps more : Nat} {engine final other : Engine σ}
    (settled : engine.settle host steps = some final) (too : engine.settle host more = some other) :
    final = other := by
  fun_induction settle host steps engine generalizing more with
  | case1 steps engine ends =>
      rw [settle_of_settled host ends] at too
      exact Option.some.inj (settled.symm.trans too)
  | case2 engine next advanced => cases settled
  | case3 engine next advanced steps ih =>
      cases more with
      | zero => simp [settle, advanced] at too
      | succ more =>
          rw [settle_of_advanced host advanced] at too
          exact ih settled too

/-- A typed key that is done with. -/
theorem inputKey_turns {steps : Nat} {engine next : Engine σ} {key : Key}
    (typed : engine.inputKey host steps key = some next) :
    next.advance? host = none ∧
      ∃ taken, next = engine.run host (.key key :: List.replicate taken .step) :=
  settle_turns host typed

theorem timeoutExpired_turns {steps : Nat} {engine next : Engine σ}
    (expired : engine.timeoutExpired host steps = some next) :
    next.advance? host = none ∧
      ∃ taken, next = engine.run host (.timeout :: List.replicate taken .step) :=
  settle_turns host expired

theorem cancel_turns {steps : Nat} {engine next : Engine σ}
    (cancelled : engine.cancel host steps = some next) :
    next.advance? host = none ∧
      ∃ taken, next = engine.run host (.cancel :: List.replicate taken .step) :=
  settle_turns host cancelled

theorem setMode_turns {steps : Nat} {engine next : Engine σ} {state : ModeState}
    (changed : engine.setMode host steps state = some next) :
    next.advance? host = none ∧
      ∃ taken, next = engine.run host (.setMode state :: List.replicate taken .step) :=
  settle_turns host changed

/-- Offsets that a command was waiting for. -/
theorem supplyOffsets_turns {steps : Nat} {engine next : Engine σ} {values : List Int}
    (supplied : engine.supplyOffsets host steps values = some (true, next)) :
    next.advance? host = none ∧
      ∃ taken, next = engine.run host (.offsets values :: List.replicate taken .step) := by
  unfold supplyOffsets at supplied
  split at supplied
  · rename_i resolver world given
    rw [Option.map_eq_some_iff] at supplied
    obtain ⟨final, settled, same⟩ := supplied
    cases same
    have begun : (Turn.offsets values).take host engine = { engine with resolver, world } := by
      simp [Turn.take, resolving, given]
    obtain ⟨ends, taken, reached⟩ := settle_turns host settled
    exact ⟨ends, taken, by rw [reached, ← begun]; rfl⟩
  · cases supplied

/-! ## Runs that can be computed -/

/-- An editor that only runs commands. -/
def plainHost : Host Unit Unit where
  execute := fun _ _ world => (true, world)
  carets := fun _ => [()]
  executeForCaret := fun _ _ _ world => (true, world)

/-- Give a key to the resolver, and look at so many of the keys that wait; nothing if
these were not all. -/
def resolveWithin (looks : Nat) (engine : Engine σ) (key : Key) : Option (Engine σ) :=
  let looked := Resolver.lookedAt engine.view host.evaluate
    ({ engine.resolver with typeahead := engine.resolver.typeahead ++ [.mappable key 0] },
      engine.world) looks
  if engine.resolver.awaitsOffsets ||
      (Resolver.step? engine.view host.evaluate looked.1 looked.2).isSome then none
  else some { engine with resolver := looked.1, world := looked.2 }

theorem resolveKey_of_within {looks : Nat} {engine next : Engine σ} {key : Key}
    (within : engine.resolveWithin host looks key = some next) :
    engine.resolveKey host key = next := by
  unfold resolveWithin at within
  dsimp only at within
  split at within
  · cases within
  · rename_i settled
    rw [Bool.or_eq_true, not_or] at settled
    obtain ⟨noOffsets, settled⟩ := settled
    cases within
    have looked : engine.resolver.inputKey engine.view host.evaluate engine.world key =
        Resolver.lookedAt engine.view host.evaluate
          ({ engine.resolver with
              typeahead := engine.resolver.typeahead ++ [.mappable key 0] }, engine.world)
          looks := by
      unfold Resolver.inputKey
      rw [if_neg (by simp [noOffsets])]
      exact Resolver.process_eq_lookedAt engine.view host.evaluate looks (_, engine.world)
        (by simpa using settled)
    unfold resolveKey resolving
    dsimp only
    rw [looked]

/-- A typed key or a step, where each key has so many looks. -/
def takeWithin (looks : Nat) (engine : Engine σ) (turn : Turn) : Option (Engine σ) :=
  match turn with
  | .key typed =>
      ({ engine with recorder := engine.recorder.typed typed } : Engine σ).resolveWithin host looks
        typed
  | .step =>
      match engine.resolver.events, engine.recorder.queue with
      | event :: rest, _ => some ((engine.withEvents rest).dispatch host event)
      | [], [] => some engine
      | [], key :: rest =>
          if engine.resolver.awaitsOffsets || (host.shouldInterrupt engine.world).1 then none
          else ((engine.polled host).withQueue rest).resolveWithin host looks key
  | _ => none

theorem take_of_within {looks : Nat} {engine next : Engine σ} {turn : Turn}
    (within : engine.takeWithin host looks turn = some next) : turn.take host engine = next := by
  cases turn with
  | key typed => exact resolveKey_of_within host within
  | step =>
      show (engine.advance? host).getD engine = next
      unfold takeWithin at within
      cases waits : engine.resolver.events with
      | cons event rest =>
          rw [waits] at within
          rw [advance?_of_event host waits]
          exact Option.some.inj within
      | nil =>
          rw [waits] at within
          cases queue : engine.recorder.queue with
          | nil =>
              rw [queue] at within
              rw [(advance?_eq_none_iff host engine).mpr ⟨waits, .inr queue⟩]
              exact Option.some.inj within
          | cons key rest =>
              rw [queue] at within
              dsimp only at within
              split at within
              · cases within
              · rename_i goes
                rw [Bool.or_eq_true, not_or, Bool.not_eq_true, Bool.not_eq_true] at goes
                rw [advance?_of_key host waits goes.1 queue, goes.2]
                exact resolveKey_of_within host within
  | _ => cases within

/-- A typed key that can be computed, and the steps that it leads to. -/
theorem inputKey_of_within {looks steps : Nat} {engine next final : Engine σ} {key : Key}
    (within : engine.takeWithin host looks (.key key) = some next)
    (settled : next.settle host steps = some final) :
    engine.inputKey host steps key = some final := by
  have taken : engine.withTyped host key = next := take_of_within host within
  exact (congrArg (settle host steps) taken).trans settled

/-- A step that can be computed, while there are keys to be run. -/
theorem advance?_of_within {looks : Nat} {engine next : Engine σ}
    (busy : engine.recorder.queue ≠ [])
    (within : engine.takeWithin host looks .step = some next) : engine.advance? host = some next := by
  have taken : (engine.advance? host).getD engine = next := take_of_within host within
  cases advanced : engine.advance? host with
  | some other =>
      rw [advanced] at taken
      exact congrArg some taken
  | none =>
      obtain ⟨quiet, blocked⟩ := (advance?_eq_none_iff host engine).mp advanced
      have awaits := blocked.resolve_right busy
      unfold takeWithin at within
      cases queue : engine.recorder.queue with
      | nil => exact absurd queue busy
      | cons key rest => simp [quiet, queue, awaits] at within

/-- Typed keys and steps, where each key has so many looks. -/
def runWithin (looks : Nat) : List Turn → Engine σ → Option (Engine σ)
  | [], engine => some engine
  | turn :: rest, engine =>
      (engine.takeWithin host looks turn).bind fun next => runWithin looks rest next

/-- A run that can be computed is the run. -/
theorem run_of_within {looks : Nat} {turns : List Turn} {engine next : Engine σ}
    (within : engine.runWithin host looks turns = some next) : engine.run host turns = next := by
  induction turns generalizing engine with
  | nil => exact Option.some.inj within
  | cons turn rest ih =>
      obtain ⟨middle, first, within⟩ := Option.bind_eq_some_iff.mp within
      show (turn.take host engine).run host rest = next
      rw [take_of_within host first]
      exact ih within

/-- What a run that can be computed leads to. -/
theorem eq_of_runWithin {α : Type} {f : Engine σ → α} {looks : Nat} {turns : List Turn}
    {engine : Engine σ} {value : α}
    (within : (engine.runWithin host looks turns).map f = some value) :
    f (engine.run host turns) = value := by
  obtain ⟨next, reached, same⟩ := Option.map_eq_some_iff.mp within
  rw [run_of_within host reached, same]

end ModalInput.Engine
