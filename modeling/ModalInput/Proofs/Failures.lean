/-
# ModalInput.Proofs.Failures -- what is left when a failure is told

Resolving fails in two ways.  A mapping fails when mappings lead into each other too
often, or when its expression has no value; then everything that was pending is dropped,
nothing is told after the failure, and the call ends there.  A register fails when no
register has the name that was typed; then the command and the trail are gone, but not
the keys in front of the mapping layer: the rest of the keys that a mapping stands for
is still looked at, and runs (`refused_goesOn`).

* `Fails` -- the two ways, and `look_fails` -- there is no other.
* `Call.Passes` -- the states that a call comes through.
* `failure_drops` -- what holds in the moment in which a failure is told.
-/
import Mathlib.Logic.Relation
import ModalInput.Proofs.DefaultKeys
import ModalInput.Proofs.Passages
import ModalInput.Proofs.Session
import ModalInput.Proofs.Settling

namespace ModalInput.Resolver

set_option autoImplicit false

/-! ## The first failure among events -/

/-- The event is not a failure. -/
def Silent (event : EngineEvent) : Prop := ∀ error, event ≠ .failed error

theorem silent_step (step : ModeStep) : Silent (.modeChanged step) := by
  intro error same
  cases same

theorem silent_command (resolved : ResolvedCommand) : Silent (.command resolved) := by
  intro error same
  cases same

/-- An event of two lists is in the one or in the other. -/
theorem append_eq_append_cons {told more before after : List EngineEvent} {event : EngineEvent}
    (same : told ++ more = before ++ event :: after) :
    (∃ mid, told = before ++ event :: mid ∧ after = mid ++ more) ∨
      ∃ mid, before = told ++ mid ∧ more = mid ++ event :: after := by
  rcases List.append_eq_append_iff.mp same with ⟨mid, first, last⟩ | ⟨mid, first, last⟩
  · exact .inr ⟨mid, first, last⟩
  · cases mid with
    | nil => exact .inr ⟨[], by simpa using first.symm, by simpa using last.symm⟩
    | cons head mid =>
        rw [List.cons_append, List.cons.injEq] at last
        obtain ⟨rfl, rest⟩ := last
        exact .inl ⟨mid, first, rest⟩

theorem not_silent {told before after : List EngineEvent} {error : EngineError}
    (silent : ∀ event ∈ told, Silent event) : told ≠ before ++ .failed error :: after := by
  intro same
  exact silent (.failed error) (by simp [same]) error rfl

/-- After silent events and a failure, a failure is that one or comes later. -/
theorem failed_first {told more before after : List EngineEvent} {error found : EngineError}
    (silent : ∀ event ∈ told, Silent event)
    (same : told ++ .failed error :: more = before ++ .failed found :: after) :
    (before = told ∧ found = error ∧ after = more) ∨
      ∃ mid, before = told ++ .failed error :: mid ∧ more = mid ++ .failed found :: after := by
  rcases append_eq_append_cons same with ⟨mid, early, _⟩ | ⟨mid, rfl, later⟩
  · exact absurd early (not_silent silent)
  · cases mid with
    | nil =>
        rw [List.nil_append, List.cons.injEq] at later
        obtain ⟨event, rest⟩ := later
        cases event
        exact .inl ⟨List.append_nil _, rfl, rest.symm⟩
    | cons head mid =>
        rw [List.cons_append, List.cons.injEq] at later
        obtain ⟨rfl, rest⟩ := later
        exact .inr ⟨mid, rfl, rest⟩

/-! ## Failures of the command layer -/

variable (options : OptionView)

theorem argumentDone_silent (r : Resolver) (command : Command) :
    Emits Silent r (r.argumentDone options command) :=
  .argumentDone silent_step options r command (fun _ => silent_command _)
    (fun _ _ => silent_command _)

theorem commandResolved_silent (r : Resolver) (action : Action) (keys : List Key) :
    Emits Silent r (r.commandResolved options action keys) :=
  .commandResolved silent_step options r action keys
    (fun _ _ => argumentDone_silent options r.counted _)

theorem fireHeld_silent (r : Resolver) : Emits Silent r (r.fireHeld options) := by
  unfold fireHeld
  split
  · exact .refl r
  · exact (Emits.of_events rfl).trans (commandResolved_silent options _ _ _)

/-- Only the name of a register fails in the command layer. -/
theorem commandKey_fails (r : Resolver) (key : Key) :
    Emits Silent r (r.commandKey options key) ∨
      ∃ c, r.pending.awaiting = some .register ∧
        r.commandKey options key = r.abort.fail (MacroError.invalidRegister c) := by
  have step := commandKey_step options r key
  generalize r.commandKey options key = after at step ⊢
  cases step with
  | refuses c awaits => exact .inr ⟨c, awaits, rfl⟩
  | drops => exact .inl (.abort silent_step r)
  | supplies command c awaits types =>
      exact .inl ((Emits.of_events rfl).trans (argumentDone_silent options r.answered _))
  | enters command prompt typed awaits confirms =>
      exact .inl ((Emits.popMode silent_step r.answered).trans (argumentDone_silent options _ _))
  | repeats operator idle waiting again =>
      exact .inl ((Emits.of_events rfl).trans (argumentDone_silent options (r.gathered key).doubled _))
  | resolves action idle found =>
      exact .inl ((Emits.of_events rfl).trans
        (commandResolved_silent options (r.gathered key).released _ _))
  | fires held idle holding =>
      exact .inl ((Emits.of_events rfl).trans (fireHeld_silent options (r.gathered key)))
  | types action c idle single nothing typing typed =>
      exact .inl ((Emits.of_events rfl).trans
        (Emits.complete silent_step options { r.gathered key with pending := _ } _
          (silent_command _)))
  | _ => exact .inl (.of_events rfl)

/-! ## Failures of a look -/

/-- Of everything that was pending, only keys in front of the mapping layer can be left. -/
structure Dropped (r : Resolver) : Prop where
  trail : r.trail = []
  trailMatch : r.trailMatch = none
  pending : r.pending = {}
  alone : r.modes.isTemporary = false

/-- The ways in which a failure is told. -/
inductive Fails (p : Resolver) : EngineError → Resolver → Prop where
  /-- A mapping fails, and everything is dropped. -/
  | mapping (error : EngineError) (r : Resolver) (same : r.events = p.events)
      (other : ∀ c, error ≠ MacroError.invalidRegister c) : Fails p error (r.cancel.fail error)
  /-- No register has the name that was typed; the keys behind it stay. -/
  | register (c : Char) (queued : Queued) (rest : List Queued)
      (queue : p.typeahead = queued :: rest) (awaits : p.pending.awaiting = some .register)
      (empty : p.trail = []) (free : p.trailMatch = none) :
      Fails p (MacroError.invalidRegister c)
        (({ p with typeahead := rest } : Resolver).abort.fail (MacroError.invalidRegister c))

namespace Fails

variable {p r : Resolver} {error : EngineError}

theorem told (fails : Fails p error r) :
    ∃ told, r.events = p.events ++ (told ++ [.failed error]) ∧ ∀ event ∈ told, Silent event := by
  cases fails with
  | mapping error before same other =>
      obtain ⟨told, events, silent⟩ := Emits.cancel silent_step before
      refine ⟨told, ?_, silent⟩
      show before.cancel.events ++ _ = _
      rw [events, same, List.append_assoc]
  | register c queued rest queue awaits empty free =>
      obtain ⟨told, events, silent⟩ := Emits.abort silent_step { p with typeahead := rest }
      refine ⟨told, ?_, silent⟩
      show ({ p with typeahead := rest } : Resolver).abort.events ++ _ = _
      rw [events, List.append_assoc]

theorem dropped (fails : Fails p error r) : Dropped r := by
  cases fails with
  | mapping error before same other => exact ⟨rfl, rfl, rfl, rfl⟩
  | register c queued rest queue awaits empty free => exact ⟨empty, free, rfl, rfl⟩

theorem no_keys (fails : Fails p error r) (other : ∀ c, error ≠ MacroError.invalidRegister c) :
    r.typeahead = [] := by
  cases fails with
  | mapping error before same other' => rfl
  | register c queued rest queue awaits empty free => exact absurd rfl (other c)

/-- The keys behind the name of a register are left. -/
theorem keys {c : Char} (fails : Fails p (MacroError.invalidRegister c) r) :
    p.pending.awaiting = some .register ∧ ∃ queued, p.typeahead = queued :: r.typeahead := by
  generalize named : (MacroError.invalidRegister c : EngineError) = error at fails
  cases fails with
  | mapping error before same other => exact absurd named.symm (other c)
  | register c queued rest queue awaits empty free => exact ⟨awaits, queued, queue⟩

end Fails

variable {σ : Type} (evaluate : Evaluator σ)

theorem expand_fails {p r : Resolver} (same : r.events = p.events) (world : σ) (mapping : Mapping)
    (lhs : List TrailKey) :
    Emits Silent p (expand options evaluate r world mapping lhs).1 ∨
      ∃ error : EngineError, (∀ c, error ≠ MacroError.invalidRegister c) ∧
        Fails p error (expand options evaluate r world mapping lhs).1 := by
  have fails (cause : MappingError) :
      (∀ c, (cause : EngineError) ≠ MacroError.invalidRegister c) ∧
        Fails p cause (r.cancel.fail cause) :=
    ⟨by simp, .mapping cause r same (by simp)⟩
  unfold expand
  split
  · exact .inr ⟨_, fails .recursive⟩
  · split
    · exact .inl (.of_events same)
    · exact .inl ((Emits.of_events same).trans (commandResolved_silent options r _ []))
    · split
      · exact .inl (.of_events same)
      · exact .inr ⟨_, fails (.invalidExpression _)⟩

/-- While mappings apply to the next key, no register is asked for. -/
theorem mapsNext_awaiting {r : Resolver} (maps : r.mapsNext = true) :
    r.pending.awaiting ≠ some .register := by
  intro awaits
  simp [mapsNext, PendingCommand.awaitsLiteral, awaits] at maps

theorem ending_fails {p r : Resolver} (same : r.events = p.events) (maps : r.mapsNext = true)
    (world : σ) :
    Emits Silent p (r.ending.run options evaluate world).1 ∨
      ∃ error : EngineError, (∀ c, error ≠ MacroError.invalidRegister c) ∧
        Fails p error (r.ending.run options evaluate world).1 := by
  unfold ending
  cases r.trailMatch with
  | some reached =>
      let taken := r.withoutTrail.requeue ((r.trail.drop reached.length).map TrailKey.requeued)
      have same : taken.events = p.events := same
      exact expand_fails options evaluate same world _ _
  | none =>
      cases r.trail with
      | nil => exact .inl (.of_events same)
      | cons first rest =>
          rcases commandKey_fails options (r.withoutTrail.requeue (rest.map TrailKey.requeued))
            first.key with silent | ⟨c, awaits, _⟩
          · exact .inl ((Emits.of_events same).trans silent)
          · exact absurd awaits (mapsNext_awaiting maps)

/-- A look tells no failure, or one failure as the last thing that it tells. -/
theorem look_fails {r : Resolver} (layered : Layered r) {world : σ} {next : Resolver × σ}
    (stepped : step? options evaluate r world = some next) :
    Emits Silent r next.1 ∨ ∃ error, Fails r error next.1 := by
  obtain ⟨_, outcome, reaction, rfl⟩ := exists_reaction options evaluate stepped
  have either {next : Resolver × σ} (tells : Emits Silent r next.1 ∨
      ∃ error : EngineError, (∀ c, error ≠ MacroError.invalidRegister c) ∧ Fails r error next.1) :
      Emits Silent r next.1 ∨ ∃ error, Fails r error next.1 :=
    tells.imp_right fun ⟨error, _, fails⟩ => ⟨error, fails⟩
  cases reaction with
  | joins queue maps found => exact .inl (.of_events rfl)
  | reaches queue maps found waits => exact .inl (.of_events rfl)
  | @completes key depth rest mapping queue maps found =>
      have same : (r.extended rest ⟨key, depth⟩).withoutTrail.events = r.events := rfl
      exact either (expand_fails options evaluate same world _ _)
  | @overshoots key depth rest queue maps found =>
      have same : (r.extended rest ⟨key, depth⟩).events = r.events := rfl
      exact either (ending_fails options evaluate same maps world)
  | @passes queued rest queue exempt empty =>
      rcases commandKey_fails options { r with typeahead := rest } queued.key with
        silent | ⟨c, awaits, same⟩
      · exact .inl silent
      · refine .inr ⟨MacroError.invalidRegister c, ?_⟩
        show Fails r _ (commandKey options { r with typeahead := rest } queued.key)
        rw [same]
        exact .register c queued rest queue awaits empty (layered.free empty)
  | finishes queue exempt typed =>
      exact either (ending_fails options evaluate rfl (layered.typed typed).1 world)

/-! ## Failures of a call -/

/-- One key is looked at. -/
def Looks (s next : Resolver × σ) : Prop := step? options evaluate s.1 s.2 = some next

/-- What holds when a failure has just been told, by a call that passes some states and
ends in the last of them. -/
structure FailsAt (passes : Resolver × σ → Prop) (told : List EngineEvent) (final : Resolver × σ)
    (error : EngineError) (after : List EngineEvent) (moment : Resolver × σ) : Prop where
  passed : passes moment
  events : moment.1.events = told ++ [.failed error]
  dropped : Dropped moment.1
  /-- Unless a register failed, no key is left, and the call ends. -/
  ends : (∀ c, error ≠ MacroError.invalidRegister c) →
    moment.1.typeahead = [] ∧ after = [] ∧ final = moment
  /-- The keys behind the name of a register are left. -/
  keys : ∀ c, error = MacroError.invalidRegister c → ∃ before queued, passes before ∧
    Looks options evaluate before moment ∧ before.1.pending.awaiting = some .register ∧
      before.1.typeahead = queued :: moment.1.typeahead

/-- Every failure that was told on the way has its moment. -/
def Accounts (passes : Resolver × σ → Prop) (s final : Resolver × σ) : Prop :=
  ∃ told, final.1.events = s.1.events ++ told ∧
    ∀ before error after, told = before ++ .failed error :: after →
      ∃ moment, FailsAt options evaluate passes (s.1.events ++ before) final error after moment

namespace Accounts

variable {options evaluate} {passes : Resolver × σ → Prop} {s mid final : Resolver × σ}

theorem of_silent (silent : Emits Silent s.1 final.1) :
    Accounts options evaluate passes s final := by
  obtain ⟨told, events, silent⟩ := silent
  exact ⟨told, events, fun before error after same => absurd same (not_silent silent)⟩

theorem after_silent (silent : Emits Silent s.1 mid.1)
    (accounts : Accounts options evaluate passes mid final) :
    Accounts options evaluate passes s final := by
  obtain ⟨told, events, silent⟩ := silent
  obtain ⟨more, events', found⟩ := accounts
  refine ⟨told ++ more, by rw [events', events, List.append_assoc], ?_⟩
  intro before error after same
  rcases append_eq_append_cons same with ⟨_, early, _⟩ | ⟨rest, rfl, later⟩
  · exact absurd early (not_silent silent)
  · obtain ⟨moment, failsAt⟩ := found rest error after later
    rw [events, List.append_assoc] at failsAt
    exact ⟨moment, failsAt⟩

/-- One failure, and what comes after it. -/
theorem after_failure {error : EngineError} (fails : Fails s.1 error mid.1) (passed : passes mid)
    (looked : ∀ c, error = MacroError.invalidRegister c → passes s ∧ Looks options evaluate s mid)
    (ends : mid.1.typeahead = [] → final = mid)
    (accounts : Accounts options evaluate passes mid final) :
    Accounts options evaluate passes s final := by
  obtain ⟨told, events, silent⟩ := fails.told
  obtain ⟨more, events', found⟩ := accounts
  refine ⟨told ++ .failed error :: more, by rw [events', events]; simp, ?_⟩
  intro before error' after same
  rcases failed_first silent same with ⟨rfl, rfl, rfl⟩ | ⟨rest, rfl, later⟩
  · refine ⟨mid, passed, by rw [events, List.append_assoc], fails.dropped, ?_, ?_⟩
    · intro other
      have settled := ends (fails.no_keys other)
      rw [settled] at events'
      exact ⟨fails.no_keys other, List.self_eq_append_right.mp events', settled⟩
    · rintro c rfl
      obtain ⟨before, look⟩ := looked c rfl
      obtain ⟨awaits, queued, queue⟩ := fails.keys
      exact ⟨s, queued, before, look, awaits, queue⟩
  · obtain ⟨moment, failsAt⟩ := found rest error' after later
    have same : mid.1.events ++ rest = s.1.events ++ (told ++ .failed error :: rest) := by
      rw [events]
      simp
    rw [same] at failsAt
    exact ⟨moment, failsAt⟩

/-- What was not dropped goes on. -/
theorem trans (first : Accounts options evaluate passes s mid)
    (pending : mid.1.pending ≠ {}) (second : Accounts options evaluate passes mid final) :
    Accounts options evaluate passes s final := by
  obtain ⟨told, events, found⟩ := first
  obtain ⟨more, events', found'⟩ := second
  refine ⟨told ++ more, by rw [events', events, List.append_assoc], ?_⟩
  intro before error after same
  rcases append_eq_append_cons same with ⟨rest, early, _⟩ | ⟨rest, rfl, later⟩
  · obtain ⟨moment, failsAt⟩ := found before error rest early
    refine ⟨moment, failsAt.passed, failsAt.events, failsAt.dropped, ?_, failsAt.keys⟩
    intro other
    obtain ⟨_, _, rfl⟩ := failsAt.ends other
    exact absurd failsAt.dropped.pending pending
  · obtain ⟨moment, failsAt⟩ := found' rest error after later
    rw [events, List.append_assoc] at failsAt
    exact ⟨moment, failsAt⟩

/-- Looking at all the keys that wait. -/
theorem process (closed : ∀ a b, passes a → Looks options evaluate a b → passes b)
    {r : Resolver} (layered : Layered r) {world : σ} (passed : passes (r, world)) :
    Accounts options evaluate passes (r, world) (Resolver.process options evaluate r world) := by
  fun_induction Resolver.process options evaluate r world with
  | case1 r world stopped => exact of_silent (.refl r)
  | case2 r world next stepped ih =>
      have reached : passes next := closed _ _ passed stepped
      have later := ih (layered.moves (step?_moves options evaluate stepped)) reached
      rcases look_fails options evaluate layered stepped with silent | ⟨error, fails⟩
      · exact after_silent silent later
      · exact after_failure fails reached (fun _ _ => ⟨passed, stepped⟩)
          (process_of_empty options evaluate · next.2) later

end Accounts

/-- The states in which a call begins to look at keys. -/
inductive Call.Begins (s : Resolver × σ) : Call → Resolver × σ → Prop where
  | key {key : Key} (taken : (s.1.awaitsOffsets && key.isEscape) = false) :
      Begins s (.key key) ({ s.1 with typeahead := s.1.typeahead ++ [.mappable key 0] }, s.2)
  /-- The trail is finished. -/
  | flushes (typed : s.1.trail.isEmpty = false) :
      Begins s .timeout (flushTrail options evaluate s.1 s.2)
  /-- The held command runs. -/
  | fires (holding : ((flushed options evaluate s.1 s.2).1.typeahead.isEmpty &&
        (flushed options evaluate s.1 s.2).1.pending.held.isSome) = true) :
      Begins s .timeout (fireHeld options (flushed options evaluate s.1 s.2).1,
        (flushed options evaluate s.1 s.2).2)
  | offsets {command : Command} (values : List Int)
      (awaits : s.1.pending.awaiting = some (.offsets command)) :
      Begins s (.offsets values)
        (argumentDone options s.1 (command.withArgument (.offsets values)), s.2)

/-- A state that a call passes: it is come to by looking at keys. -/
def Call.Passes (call : Call) (s moment : Resolver × σ) : Prop :=
  ∃ start, Call.Begins options evaluate s call start ∧
    Relation.ReflTransGen (Looks options evaluate) start moment

namespace Call

variable {options evaluate} {call : Call} {s start moment : Resolver × σ}

theorem Begins.moves (begins : Begins options evaluate s call start) :
    Moves options s.1 start.1 := by
  cases begins with
  | key taken => exact .single (.queue _)
  | flushes typed => exact flushTrail_moves options evaluate s.1 s.2
  | fires holding => exact (flushed_moves options evaluate s.1 s.2).step .fires
  | offsets values awaits => exact .single (.supplies _ values awaits)

theorem Begins.passes (begins : Begins options evaluate s call start) :
    call.Passes options evaluate s start := ⟨start, begins, .refl⟩

theorem Passes.moves (passes : call.Passes options evaluate s moment) :
    Moves options s.1 moment.1 := by
  obtain ⟨start, begins, looks⟩ := passes
  induction looks with
  | refl => exact begins.moves
  | tail _ stepped ih => exact ih.trans (step?_moves options evaluate stepped)

theorem Begins.accounts (begins : Begins options evaluate s call start) (layered : Layered s.1) :
    Accounts options evaluate (call.Passes options evaluate s) start
      (process options evaluate start.1 start.2) := by
  apply Accounts.process _ (layered.moves begins.moves) begins.passes
  rintro a b ⟨first, begins, looks⟩ stepped
  exact ⟨first, begins, looks.tail stepped⟩

theorem flushed_accounts (layered : Layered s.1) :
    Accounts options evaluate (Call.timeout.Passes options evaluate s) s
      (flushed options evaluate s.1 s.2) := by
  unfold flushed
  cases typed : s.1.trail.isEmpty with
  | true => exact .of_silent (.refl s.1)
  | false =>
      have begins : Begins options evaluate s .timeout (flushTrail options evaluate s.1 s.2) :=
        .flushes typed
      have later := begins.accounts layered
      have maps : s.1.mapsNext = true := (layered.typed (by simpa using typed)).1
      have tells : Emits Silent s.1 (flushTrail options evaluate s.1 s.2).1 ∨
          ∃ error : EngineError, (∀ c, error ≠ MacroError.invalidRegister c) ∧
            Fails s.1 error (flushTrail options evaluate s.1 s.2).1 := by
        unfold flushTrail
        split
        · rw [endTrail_eq]
          exact ending_fails options evaluate rfl maps s.2
        · exact .inl (.of_events rfl)
      rcases tells with silent | ⟨error, other, fails⟩
      · exact .after_silent silent later
      · exact .after_failure fails begins.passes (fun c same => absurd same (other c))
          (process_of_empty options evaluate · _) later

/-- Every failure that a call tells has its moment. -/
theorem accounts (call : Call) (layered : Layered s.1) :
    Accounts options evaluate (call.Passes options evaluate s) s (call.result options evaluate s) := by
  cases call with
  | key key =>
      show Accounts options evaluate _ s (inputKey options evaluate s.1 s.2 key)
      unfold inputKey
      cases taken : s.1.awaitsOffsets && key.isEscape with
      | true => exact .of_silent (.cancel silent_step s.1)
      | false =>
          have begins : Begins options evaluate s (.key key) _ := .key taken
          exact .after_silent (.of_events rfl) (begins.accounts layered)
  | timeout =>
      have first : Accounts options evaluate (Call.timeout.Passes options evaluate s) s
          (flushed options evaluate s.1 s.2) := flushed_accounts layered
      show Accounts options evaluate _ s (timeoutExpired options evaluate s.1 s.2)
      rw [timeoutExpired_eq]
      split
      · rename_i holding
        have begins : Begins options evaluate s .timeout _ := .fires holding
        have second := Accounts.after_silent (fireHeld_silent options _) (begins.accounts layered)
        apply first.trans _ second
        intro nothing
        simp [nothing] at holding
      · exact first
  | offsets values =>
      show Accounts options evaluate _ s
        ((supplyOffsets options evaluate s.1 s.2 values).getD (s.1, s.2))
      unfold supplyOffsets
      split
      · rename_i command awaits
        have begins : Begins options evaluate s (.offsets values) _ := .offsets values awaits
        exact .after_silent (argumentDone_silent options s.1 _) (begins.accounts layered)
      · exact .of_silent (.refl s.1)

end Call

/-! ## Failures in a session -/

/-- Only the lowest mode lasts, if only lasting modes were set from outside. -/
theorem Session.stacked {session : Session} (interactions : List (Interaction σ))
    (lasting : ∀ state, .call (.setMode state) ∈ interactions → state.mode.isTemporary = false)
    (stacked : Stacked session.resolver.modes.state session.resolver.modes.saved) :
    Stacked (session.run interactions).resolver.modes.state
      (session.run interactions).resolver.modes.saved := by
  induction interactions generalizing session with
  | nil => exact stacked
  | cons first rest ih =>
      apply ih (fun state member => lasting state (List.mem_cons_of_mem _ member))
      cases first with
      | setKeys keys => exact stacked
      | call operation =>
          show Stacked (operation.run session.resolver).modes.state
            (operation.run session.resolver).modes.saved
          cases operation.split session.resolver with
          | moves options moves => exact (Passages.moves moves).stacked stacked
          | setMode state =>
              exact (Passages.setMode _ (lasting state List.mem_cons_self)).stacked stacked
          | setRecording recording => exact stacked
          | setMappings mappings => exact stacked
          | takeEvent =>
              obtain ⟨events, same⟩ := Operation.takeEvent_run (σ := σ) session.resolver
              rw [same]
              exact stacked

/-- When a failure is told, the trail and the command are empty, and no mode is entered
temporarily.  No key is left either, and nothing is told after the failure, unless it is
that of a register, whose name was the first of some keys in front of the mapping layer:
then the others are left. -/
theorem failure_drops (keys : CommandKeys) (interactions : List (Interaction σ)) (call : Call)
    (world : σ) {before after : List EngineEvent} {error : EngineError} :
    let r := ((Session.start keys).run interactions).resolver
    let final := call.result options evaluate (r, world)
    final.1.events = r.events ++ (before ++ .failed error :: after) →
      ∃ moment, FailsAt options evaluate (call.Passes options evaluate (r, world))
          (r.events ++ before) final error after moment ∧
        ((∀ state, .call (.setMode state) ∈ interactions → state.mode.isTemporary = false) →
          moment.1.modes.mode.isTemporary = false) := by
  intro r final tells
  have layered : Layered r := Session.layered_run keys interactions
  obtain ⟨told, events, found⟩ : Accounts options evaluate (call.Passes options evaluate (r, world))
      (r, world) final := call.accounts layered
  have split : told = before ++ .failed error :: after := by
    rw [events] at tells
    exact List.append_cancel_left tells
  obtain ⟨moment, failsAt⟩ := found before error after split
  refine ⟨moment, failsAt, ?_⟩
  intro lasting
  have first : Stacked r.modes.state r.modes.saved :=
    Session.stacked interactions lasting (.lowest rfl)
  have stacked := (Passages.moves failsAt.passed.moves).stacked first
  have alone : moment.1.modes.saved = [] := by
    simpa [ModeStack.isTemporary] using failsAt.dropped.alone
  rw [alone] at stacked
  exact stacked.lowest_lasts

section Registers

variable (keys : CommandKeys) (world : σ)

/-- The sign before a register was typed, and the name is to come. -/
def registerAsked (mappings : MappingStore) (waiting : List Queued) : Resolver where
  keys := keys
  mappings := mappings
  typeahead := waiting
  pending := { awaiting := some .register, shown := [.char '"'] }

/-- The name was refused. -/
def registerRefused (mappings : MappingStore) (waiting : List Queued) : Resolver where
  keys := keys
  mappings := mappings
  typeahead := waiting
  events := [.failed (MacroError.invalidRegister '\t')]

theorem registerAsked_typed :
    inputKey ⟨.default, .everywhere⟩ evaluate { keys } world (.char '"') =
      (registerAsked keys {} [], world) :=
  process_eq_lookedAt ⟨.default, .everywhere⟩ evaluate 1
    ({ keys, typeahead := [.mappable (.char '"') 0] }, world) rfl

theorem registerRefused_typed :
    inputKey ⟨.default, .everywhere⟩ evaluate (registerAsked keys {} []) world (.special .tab) =
      (registerRefused keys {} [], world) :=
  process_eq_lookedAt ⟨.default, .everywhere⟩ evaluate 1
    (registerAsked keys {} [.mappable (.special .tab) 0], world) rfl

end Registers

/-- A tab is no register, and all is dropped when it is typed for one. -/
theorem registerTab_drops :
    let evaluate : Evaluator Unit := fun text world => (.ok text, world)
    let options : OptionView := ⟨.default, .everywhere⟩
    let sign : Interaction Unit := .call (.key options evaluate () (.char '"'))
    let r := ((Session.start .default).run [sign]).resolver
    let final := (Call.key (.special .tab)).result options evaluate (r, ())
    let error : EngineError := MacroError.invalidRegister '\t'
    final.1.events = r.events ++ ([] ++ .failed error :: []) ∧
      ∃ moment, FailsAt options evaluate
          ((Call.key (.special .tab)).Passes options evaluate (r, ())) (r.events ++ []) final error []
            moment ∧
        ((∀ state, .call (.setMode state) ∈ [sign] → state.mode.isTemporary = false) →
          moment.1.modes.mode.isTemporary = false) := by
  intro evaluate options sign r final error
  have asked : r = registerAsked .default {} [] :=
    congrArg Prod.fst (registerAsked_typed evaluate .default ())
  have refused : final = (registerRefused .default {} [], ()) := by
    show inputKey options evaluate r () (.special .tab) = _
    rw [asked]
    exact registerRefused_typed evaluate .default ()
  have tells : final.1.events = r.events ++ ([] ++ .failed error :: []) := by
    rw [refused, asked]
    rfl
  exact ⟨tells, failure_drops options evaluate .default [sign] (.key (.special .tab)) () tells⟩

/-- A mapping to a register that there is not, and a command after it. -/
def refusedMappings : MappingStore where
  table := KeyTable.empty.insert .normal [.char 'Q'] ⟨0, {
    lhs := [.char 'Q']
    rhs := .keys [.char '"', .special .tab, .char 'x']
    modes := .single .normal
    noremap := true }⟩
  made := 1

/-- The keys that the mapping stands for, from the one that is looked at next. -/
def refusedKeys : List Queued := [.literal (.char '"'), .literal (.special .tab), .literal (.char 'x')]

section Refused

variable (keys : CommandKeys) (world : σ)

theorem refusedMappings_expands :
    Looks ⟨.default, .everywhere⟩ evaluate
      ({ keys, mappings := refusedMappings, typeahead := [.mappable (.char 'Q') 0] }, world)
      ({ keys, mappings := refusedMappings, typeahead := refusedKeys }, world) := rfl

theorem refusedMappings_asks :
    Looks ⟨.default, .everywhere⟩ evaluate
      ({ keys, mappings := refusedMappings, typeahead := refusedKeys }, world)
      (registerAsked keys refusedMappings (refusedKeys.drop 1), world) := rfl

theorem refusedMappings_refuses :
    Looks ⟨.default, .everywhere⟩ evaluate
      (registerAsked keys refusedMappings (refusedKeys.drop 1), world)
      (registerRefused keys refusedMappings (refusedKeys.drop 2), world) := rfl

/-- The command `x` of the default table. -/
def deletesChar : Action := .ofEdit .delete "edit.delete-char"

/-- What is told when it runs. -/
def deleted : EngineEvent := .command ⟨.new deletesChar 0, {}⟩

variable (bound : keys.lookup .normal [.char 'x'] = .complete deletesChar)
include bound

theorem refusedMappings_deletes :
    Looks ⟨.default, .everywhere⟩ evaluate
      (registerRefused keys refusedMappings (refusedKeys.drop 2), world)
      ((registerRefused keys refusedMappings []).emit deleted, world) := by
  let pressed : Resolver := { registerRefused keys refusedMappings [] with
    pending := { keys := [.char 'x'], shown := [.char 'x'] } }
  have looked : step? ⟨.default, .everywhere⟩ evaluate
      (registerRefused keys refusedMappings (refusedKeys.drop 2)) world =
        some (lookUp ⟨.default, .everywhere⟩ pressed, world) := rfl
  have found : pressed.keys.lookup (.of pressed.modes.mode) pressed.pending.keys =
      .complete deletesChar := bound
  unfold Looks
  rw [looked, lookUp, found]
  rfl

theorem refusedMappings_typed :
    inputKey ⟨.default, .everywhere⟩ evaluate { keys, mappings := refusedMappings } world
      (.char 'Q') = ((registerRefused keys refusedMappings []).emit deleted, world) := by
  have expanded := process_of_step _ evaluate (refusedMappings_expands evaluate keys world)
  have asked := process_of_step _ evaluate (refusedMappings_asks evaluate keys world)
  have left := process_of_step _ evaluate (refusedMappings_refuses evaluate keys world)
  have ran := process_of_last _ evaluate (refusedMappings_deletes evaluate keys world bound) rfl
  exact ((expanded.trans asked).trans left).trans ran

end Refused

/-- The key behind the name of a register is left when the failure is told, and its
command runs after it. -/
theorem refused_goesOn :
    let evaluate : Evaluator Unit := fun text world => (.ok text, world)
    let options : OptionView := ⟨.default, .everywhere⟩
    let r := ((Session.start .default).run
      [.call (.setMappings refusedMappings : Operation Unit)]).resolver
    let failed : EngineEvent := .failed (MacroError.invalidRegister '\t')
    ((Call.key (.char 'Q')).result options evaluate (r, ())).1.events = [failed, deleted] ∧
      ∃ moment, (Call.key (.char 'Q')).Passes options evaluate (r, ()) moment ∧
        moment.1.events = [failed] ∧ moment.1.typeahead = [.literal (.char 'x')] := by
  intro evaluate options r failed
  have bound : CommandKeys.default.lookup .normal [.char 'x'] = .complete deletesChar := by
    rw [CommandKeys.lookup_default (by simp)]
    decide +kernel
  have typed := refusedMappings_typed evaluate .default () bound
  constructor
  · show (inputKey options evaluate { keys := .default, mappings := refusedMappings } ()
      (.char 'Q')).1.events = _
    rw [typed]
    rfl
  · have begins : Call.Begins options evaluate (r, ()) (.key (.char 'Q')) _ := .key rfl
    have third := Relation.ReflTransGen.single (refusedMappings_refuses evaluate .default ())
    have second := third.head (refusedMappings_asks evaluate .default ())
    have first := second.head (refusedMappings_expands evaluate .default ())
    exact ⟨_, ⟨_, begins, first⟩, rfl, rfl⟩

end ModalInput.Resolver
