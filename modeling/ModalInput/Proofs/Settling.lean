/-
# ModalInput.Proofs.Settling -- every call comes to an end

A call looks at one key after the other.  Its course is written down here as it
goes: how many keys were looked at, and every mapping that took the place of its
keys, with the number of mappings that led to it (`Run`, `Course`).  An expansion
is told by what it does, and not by the test that allows it (`Expanded`), so that
a course does not take the limit for granted.

* `looks_end` -- keys are not looked at for ever.
* `Acted.depth_le` -- a mapping that takes the place of its keys is not deeper
  than the limit.
* `course_settles` -- every call has a finite course that ends in its result, and
  every course of it ends there and stays below the limit.
-/
import ModalInput.Proofs.Emission
import ModalInput.Proofs.Reaction

namespace ModalInput.Resolver

set_option autoImplicit false

/-- A mapping in the place of its keys, and how many mappings led to it, counting
itself. -/
structure Expansion where
  mapping : Mapping
  depth : Nat

variable {σ : Type} (options : OptionView) (evaluate : Evaluator σ)

/-! ## Expansions -/

/-- What a mapping stands for is in the place of its keys, however deep it is. -/
inductive Expanded (r : Resolver) (world : σ) (mapping : Mapping) (depth : Nat) :
    Resolver × σ → Prop where
  | keys {keys : List Key} (target : mapping.rhs = .keys keys) :
      Expanded r world mapping depth (r.requeue (expansion options mapping depth keys), world)
  | action {action : Action} (target : mapping.rhs = .action action) :
      Expanded r world mapping depth (commandResolved options r action [], world)
  | value {source text : String} {world' : σ} (target : mapping.rhs = .expression source)
      (value : evaluate source world = (.ok text, world')) :
      Expanded r world mapping depth
        (r.requeue (expansion options mapping depth (Key.ofText text)), world')
  | failure {source reason : String} {world' : σ} (target : mapping.rhs = .expression source)
      (failed : evaluate source world = (.error reason, world')) :
      Expanded r world mapping depth (r.cancel.fail (MappingError.invalidExpression reason), world')

/-- The outcome of looking at a key, with the mapping that took the place of its
keys, if one did. -/
inductive Acted (world : σ) : Outcome → Option Expansion → Resolver × σ → Prop where
  | waits (r : Resolver) : Acted world (.wait r) none (r, world)
  | passes (r : Resolver) (key : Key) :
      Acted world (.pass r key) none (commandKey options r key, world)
  | expands {r : Resolver} {mapping : Mapping} {lhs : List TrailKey} {next : Resolver × σ}
      (happens : (Outcome.replace r mapping lhs).run options evaluate world = next)
      (expanded : Expanded options evaluate r world mapping (depthOf lhs) next) :
      Acted world (.replace r mapping lhs) (some ⟨mapping, depthOf lhs⟩) next
  | refuses {r : Resolver} {mapping : Mapping} {lhs : List TrailKey}
      (happens : (Outcome.replace r mapping lhs).run options evaluate world =
        (r.cancel.fail MappingError.recursive, world)) :
      Acted world (.replace r mapping lhs) none (r.cancel.fail MappingError.recursive, world)

theorem Acted.run_eq {world : σ} {outcome : Outcome} {label : Option Expansion}
    {next : Resolver × σ} (acted : Acted options evaluate world outcome label next) :
    outcome.run options evaluate world = next := by
  cases acted with
  | waits => rfl
  | passes => rfl
  | expands happens expanded => exact happens
  | refuses happens => exact happens

/-- A mapping that is deeper than the limit is refused. -/
theorem run_replace_of_deep {lhs : List TrailKey} (deep : depthLimit options < depthOf lhs)
    (r : Resolver) (world : σ) (mapping : Mapping) :
    (Outcome.replace r mapping lhs).run options evaluate world =
      (r.cancel.fail MappingError.recursive, world) := by
  simp only [Outcome.run, expand, if_pos deep]

/-- Every outcome is one of these. -/
theorem exists_acted (outcome : Outcome) (world : σ) :
    ∃ label, Acted options evaluate world outcome label (outcome.run options evaluate world) := by
  cases outcome with
  | wait r => exact ⟨none, .waits r⟩
  | pass r key => exact ⟨none, .passes r key⟩
  | replace r mapping lhs =>
      by_cases deep : depthLimit options < depthOf lhs
      · have refused := run_replace_of_deep options evaluate deep r world mapping
        exact ⟨none, by rw [refused]; exact .refuses refused⟩
      · refine ⟨some ⟨mapping, depthOf lhs⟩, .expands rfl ?_⟩
        simp only [Outcome.run, expand, if_neg deep]
        cases target : mapping.rhs with
        | keys keys => exact .keys target
        | action action => exact .action target
        | expression source =>
            dsimp only
            cases value : evaluate source world with
            | mk result world' =>
                cases result with
                | ok text => exact .value target value
                | error reason => exact .failure target value

/-- No expansion tells that mappings lead into each other too often. -/
theorem Expanded.emits {r : Resolver} {world : σ} {mapping : Mapping} {depth : Nat}
    {next : Resolver × σ} (expanded : Expanded options evaluate r world mapping depth next) :
    Emits (· ≠ .failed MappingError.recursive) r next.1 := by
  have steps (step : ModeStep) :
      EngineEvent.modeChanged step ≠ .failed MappingError.recursive := by simp
  cases expanded with
  | keys target => exact .of_events rfl
  | action target =>
      apply Emits.commandResolved steps options
      intro noOperator ready
      apply Emits.argumentDone steps options
      · intro nothing
        simp
      · intro operator waiting
        simp
  | value target value => exact .of_events rfl
  | failure target failed => exact (Emits.cancel steps r).trans (.emit _ (by simp))

/-- To refuse a mapping is not to expand it. -/
theorem not_expanded_refused {r : Resolver} {world : σ} {mapping : Mapping} {depth : Nat} :
    ¬ Expanded options evaluate r world mapping depth
      (r.cancel.fail MappingError.recursive, world) := by
  intro expanded
  obtain ⟨told, events, others⟩ := expanded.emits
  obtain ⟨steps, cancelled, _⟩ : Emits (fun _ => True) r r.cancel := Emits.cancel (by simp) r
  have last : told = steps ++ [.failed MappingError.recursive] := by
    have both : r.cancel.events ++ [.failed MappingError.recursive] = r.events ++ told := events
    rw [cancelled, List.append_assoc] at both
    exact (List.append_cancel_left both).symm
  exact others (.failed MappingError.recursive) (by simp [last]) rfl

/-- A mapping that takes the place of its keys is not deeper than the limit. -/
theorem Acted.depth_le {world : σ} {outcome : Outcome} {label : Option Expansion}
    {next : Resolver × σ} (acted : Acted options evaluate world outcome label next) :
    ∀ expansion ∈ label.toList, expansion.depth ≤ depthLimit options := by
  cases acted with
  | waits => simp
  | passes => simp
  | refuses => simp
  | @expands r mapping lhs _ happens expanded =>
      suffices shallow : depthOf lhs ≤ depthLimit options by simpa using shallow
      apply Nat.le_of_not_lt
      intro deep
      rw [← happens, run_replace_of_deep options evaluate deep] at expanded
      exact not_expanded_refused options evaluate expanded

/-! ## Looking at the keys that wait -/

/-- Keys are not looked at for ever. -/
theorem looks_end :
    WellFounded fun next s : Resolver × σ => step? options evaluate s.1 s.2 = some next := by
  have lower := InvImage.wf (fun s : Resolver × σ => load (depthLimit options) s.1)
    (Tower.lower_wf (depthLimit options + 1))
  exact Subrelation.wf (fun stepped => step?_fewer options evaluate stepped) lower

/-- Keys are looked at until none waits or offsets are awaited: how many, which
mappings took the place of their keys, and where it ends. -/
inductive Run : Resolver × σ → Nat → List Expansion → Resolver × σ → Prop where
  | stops {s : Resolver × σ} (settled : step? options evaluate s.1 s.2 = none) : Run s 0 [] s
  | looks {s next final : Resolver × σ} {outcome : Outcome} {label : Option Expansion}
      {looks : Nat} {log : List Expansion} (stepped : step? options evaluate s.1 s.2 = some next)
      (reaction : Reaction options s.1 outcome)
      (acted : Acted options evaluate s.2 outcome label next) (rest : Run next looks log final) :
      Run s (looks + 1) (label.toList ++ log) final

theorem exists_run (s : Resolver × σ) :
    ∃ looks log, Run options evaluate s looks log (process options evaluate s.1 s.2) := by
  induction s using (looks_end options evaluate).induction with
  | h s ih =>
      cases stepped : step? options evaluate s.1 s.2 with
      | none =>
          rw [process_of_settled options evaluate stepped]
          exact ⟨0, [], .stops stepped⟩
      | some next =>
          rw [process_of_step options evaluate stepped]
          obtain ⟨looks, log, rest⟩ := ih next stepped
          obtain ⟨_, outcome, reaction, same⟩ := exists_reaction options evaluate stepped
          obtain ⟨label, acted⟩ := exists_acted options evaluate outcome s.2
          rw [← same] at acted
          exact ⟨looks + 1, label.toList ++ log, .looks stepped reaction acted rest⟩

/-- Every run ends where the keys lead, and stays below the limit. -/
theorem Run.settles {s final : Resolver × σ} {looks : Nat} {log : List Expansion}
    (run : Run options evaluate s looks log final) :
    final = process options evaluate s.1 s.2 ∧
      ∀ expansion ∈ log, expansion.depth ≤ depthLimit options := by
  induction run with
  | stops settled => exact ⟨(process_of_settled options evaluate settled).symm, by simp⟩
  | looks stepped reaction acted rest ih =>
      obtain ⟨ends, below⟩ := ih
      constructor
      · rw [process_of_step options evaluate stepped]
        exact ends
      · exact List.forall_mem_append.mpr ⟨acted.depth_le, below⟩

/-! ## Calls -/

/-- What makes the resolver look at keys. -/
inductive Call where
  | key (key : Key)
  | timeout
  | offsets (values : List Int)

/-- Where a call leads. -/
def Call.result (call : Call) (s : Resolver × σ) : Resolver × σ :=
  match call with
  | .key typed => inputKey options evaluate s.1 s.2 typed
  | .timeout => timeoutExpired options evaluate s.1 s.2
  | .offsets values => (supplyOffsets options evaluate s.1 s.2 values).getD s

/-- The trail is taken as it is, and the keys that wait are looked at. -/
inductive Flushed : Resolver × σ → Nat → List Expansion → Resolver × σ → Prop where
  | empty {s : Resolver × σ} (nothing : s.1.trail = []) : Flushed s 0 [] s
  /-- The keys are not mapped. -/
  | plain {s final : Resolver × σ} {looks : Nat} {log : List Expansion}
      (typed : s.1.trail ≠ []) (nothing : s.1.trailMatch = none)
      (run : Run options evaluate
        (s.1.withoutTrail.requeue (s.1.trail.map fun typed => .literal typed.key), s.2)
        looks log final) :
      Flushed s looks log final
  /-- A mapping was reached. -/
  | reached {s next final : Resolver × σ} {label : Option Expansion} {looks : Nat}
      {log : List Expansion} (typed : s.1.trail ≠ []) (found : s.1.trailMatch ≠ none)
      (acted : Acted options evaluate s.2 s.1.ending label next)
      (run : Run options evaluate next looks log final) :
      Flushed s looks (label.toList ++ log) final

/-- What happens in a call: how many keys are looked at, which mappings take the
place of their keys, and where it ends. -/
inductive Course : Call → Resolver × σ → Nat → List Expansion → Resolver × σ → Prop where
  | key {s final : Resolver × σ} {key : Key} {looks : Nat} {log : List Expansion}
      (taken : (s.1.awaitsOffsets && key.isEscape) = false)
      (run : Run options evaluate
        ({ s.1 with typeahead := s.1.typeahead ++ [.mappable key 0] }, s.2) looks log final) :
      Course (.key key) s looks log final
  /-- Escape drops a command that waits for offsets. -/
  | escape {s : Resolver × σ} {key : Key} (drops : (s.1.awaitsOffsets && key.isEscape) = true) :
      Course (.key key) s 0 [] (s.1.cancel, s.2)
  | timeout {s flushed : Resolver × σ} {looks : Nat} {log : List Expansion}
      (flush : Flushed options evaluate s looks log flushed)
      (stays : (flushed.1.typeahead.isEmpty && flushed.1.pending.held.isSome) = false) :
      Course .timeout s looks log flushed
  /-- The held command runs as well. -/
  | timeoutHeld {s flushed final : Resolver × σ} {looks more : Nat} {log later : List Expansion}
      (flush : Flushed options evaluate s looks log flushed)
      (fires : (flushed.1.typeahead.isEmpty && flushed.1.pending.held.isSome) = true)
      (run : Run options evaluate (fireHeld options flushed.1, flushed.2) more later final) :
      Course .timeout s (looks + more) (log ++ later) final
  | offsets {s final : Resolver × σ} {values : List Int} {command : Command} {looks : Nat}
      {log : List Expansion} (awaits : s.1.pending.awaiting = some (.offsets command))
      (run : Run options evaluate
        (argumentDone options s.1 (command.withArgument (.offsets values)), s.2) looks log final) :
      Course (.offsets values) s looks log final
  /-- No command waits for offsets. -/
  | unasked {s : Resolver × σ} {values : List Int} (idle : s.1.awaitsOffsets = false) :
      Course (.offsets values) s 0 [] s

theorem Flushed.settles {s final : Resolver × σ} {looks : Nat} {log : List Expansion}
    (flush : Flushed options evaluate s looks log final) :
    final = flushed options evaluate s.1 s.2 ∧
      ∀ expansion ∈ log, expansion.depth ≤ depthLimit options := by
  unfold flushed
  cases flush with
  | empty nothing => simp [nothing]
  | plain typed nothing run =>
      obtain ⟨ends, below⟩ := run.settles
      rw [if_neg (by simpa using typed)]
      exact ⟨by simp only [flushTrail, nothing]; exact ends, below⟩
  | reached typed found acted run =>
      obtain ⟨ends, below⟩ := run.settles
      obtain ⟨reached, found⟩ := Option.ne_none_iff_exists'.mp found
      rw [if_neg (by simpa using typed)]
      constructor
      · simp only [flushTrail, found, endTrail_eq, acted.run_eq]
        exact ends
      · exact List.forall_mem_append.mpr ⟨acted.depth_le, below⟩

theorem exists_flushed (s : Resolver × σ) :
    ∃ looks log final, Flushed options evaluate s looks log final := by
  by_cases nothing : s.1.trail = []
  · exact ⟨0, [], s, .empty nothing⟩
  · by_cases found : s.1.trailMatch = none
    · obtain ⟨looks, log, run⟩ := exists_run options evaluate
        (s.1.withoutTrail.requeue (s.1.trail.map fun typed => .literal typed.key), s.2)
      exact ⟨looks, log, _, .plain nothing found run⟩
    · obtain ⟨label, acted⟩ := exists_acted options evaluate s.1.ending s.2
      obtain ⟨looks, log, run⟩ := exists_run options evaluate (s.1.ending.run options evaluate s.2)
      exact ⟨looks, label.toList ++ log, _, .reached nothing found acted run⟩

/-- Every course of a call ends in its result, and stays below the limit. -/
theorem Course.settles {call : Call} {s final : Resolver × σ} {looks : Nat}
    {log : List Expansion} (course : Course options evaluate call s looks log final) :
    final = call.result options evaluate s ∧
      ∀ expansion ∈ log, expansion.depth ≤ depthLimit options := by
  cases course with
  | key taken run =>
      obtain ⟨ends, below⟩ := run.settles
      refine ⟨?_, below⟩
      simp only [Call.result, inputKey, taken, Bool.false_eq_true, if_false]
      exact ends
  | escape drops => simp [Call.result, inputKey, drops]
  | timeout flush stays =>
      obtain ⟨ends, below⟩ := flush.settles
      refine ⟨?_, below⟩
      rw [Call.result, timeoutExpired_eq, ← ends, if_neg (by simp [stays])]
  | timeoutHeld flush fires run =>
      obtain ⟨flushed, below⟩ := flush.settles
      obtain ⟨ends, below'⟩ := run.settles
      constructor
      · rw [Call.result, timeoutExpired_eq, ← flushed, if_pos fires]
        exact ends
      · exact List.forall_mem_append.mpr ⟨below, below'⟩
  | offsets awaits run =>
      obtain ⟨ends, below⟩ := run.settles
      refine ⟨?_, below⟩
      simp only [Call.result, supplyOffsets, awaits, Option.getD_some]
      exact ends
  | unasked idle =>
      refine ⟨?_, by simp⟩
      simp only [Call.result, supplyOffsets]
      split
      · rename_i command awaits
        simp [awaitsOffsets, PendingCommand.awaitsOffsets, awaits] at idle
      · rfl

theorem exists_course (call : Call) (s : Resolver × σ) :
    ∃ looks log final, Course options evaluate call s looks log final := by
  cases call with
  | key key =>
      cases drops : s.1.awaitsOffsets && key.isEscape with
      | true => exact ⟨0, [], _, .escape drops⟩
      | false =>
          obtain ⟨looks, log, run⟩ := exists_run options evaluate
            (({ s.1 with typeahead := s.1.typeahead ++ [.mappable key 0] } : Resolver), s.2)
          exact ⟨looks, log, _, .key drops run⟩
  | timeout =>
      obtain ⟨looks, log, flushed, flush⟩ := exists_flushed options evaluate s
      cases fires : flushed.1.typeahead.isEmpty && flushed.1.pending.held.isSome with
      | false => exact ⟨looks, log, flushed, .timeout flush fires⟩
      | true =>
          obtain ⟨more, later, run⟩ := exists_run options evaluate
            (fireHeld options flushed.1, flushed.2)
          exact ⟨looks + more, log ++ later, _, .timeoutHeld flush fires run⟩
  | offsets values =>
      by_cases idle : s.1.awaitsOffsets = false
      · exact ⟨0, [], s, .unasked idle⟩
      · have awaits : ∃ command, s.1.pending.awaiting = some (.offsets command) := by
          unfold awaitsOffsets PendingCommand.awaitsOffsets at idle
          split at idle
          · rename_i command awaits
            exact ⟨command, awaits⟩
          · exact absurd rfl idle
        obtain ⟨command, awaits⟩ := awaits
        obtain ⟨looks, log, run⟩ := exists_run options evaluate
          (argumentDone options s.1 (command.withArgument (.offsets values)), s.2)
        exact ⟨looks, log, _, .offsets awaits run⟩

/-- Every call, in every state, has a course of finitely many looks that ends in
its result; every course of it ends there, and no mapping in it is deeper than the
limit, nor than once if the limit is lower. -/
theorem course_settles (call : Call) (s : Resolver × σ) :
    (∃ looks log, Course options evaluate call s looks log (call.result options evaluate s)) ∧
      ∀ looks log final, Course options evaluate call s looks log final →
        final = call.result options evaluate s ∧
          ∀ expansion ∈ log,
            (expansion.depth : Int) ≤ max 1 (options.number OptionName.mapDepth) := by
  constructor
  · obtain ⟨looks, log, final, course⟩ := exists_course options evaluate call s
    obtain ⟨ends, _⟩ := course.settles
    exact ⟨looks, log, by rw [← ends]; exact course⟩
  · intro looks log final course
    obtain ⟨ends, below⟩ := course.settles
    refine ⟨ends, ?_⟩
    intro expansion member
    have deepest := below expansion member
    unfold depthLimit at deepest
    omega

end ModalInput.Resolver
