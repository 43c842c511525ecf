/-
# ModalInput.Proofs.CommittedKeys -- what a recording holds when it ends

While a recorder records, keys are typed, commands are completed, and keys are run
again (`Recorder.Call`), in any order.  A typed key commits if a command was completed
since the key before it, and what the recording holds at its end are the keys typed
before the last one that commits (`Committed`): nothing is lost, nothing comes twice,
and no key that was only run again comes in (`finish_committed`).

* `Commits` -- a key that is typed after some calls commits.
* `Committed.unique` -- calls have only one last key that commits.
* `Taped` -- what a recorder has in its hands after some calls; `Taped.run` -- each
  call keeps that.
-/
import ModalInput.Proofs.Recordings

namespace ModalInput.Recorder

set_option autoImplicit false

/-! ## Calls -/

/-- What is done with a recorder between the start and the end of a recording. -/
inductive Call where
  | typed (key : Key)
  | commandCompleted
  | execute (keys : List Key) (times : Nat)
  | next
  | interrupt

namespace Call

def run (call : Call) (recorder : Recorder) : Recorder :=
  match call with
  | .typed key => recorder.typed key
  | .commandCompleted => recorder.commandCompleted
  | .execute keys times => (recorder.execute keys times).1
  | .next => recorder.next.1
  | .interrupt => recorder.interrupt

/-- The key that is typed. -/
def key? : Call → Option Key
  | .typed key => some key
  | _ => none

end Call

/-- The recorder after some calls, in order. -/
def after (recorder : Recorder) (calls : List Call) : Recorder :=
  calls.foldl (fun recorder call => call.run recorder) recorder

theorem after_concat (recorder : Recorder) (before : List Call) (last : Call) :
    recorder.after (before ++ [last]) = last.run (recorder.after before) := by
  simp [after]

def typedKeys (calls : List Call) : List Key := calls.filterMap Call.key?

/-- A key that is typed after these calls commits: a command was completed since the
last key, or since the start. -/
def Commits (calls : List Call) : Prop :=
  .commandCompleted ∈ calls.rtakeWhile fun call => call.key?.isNone

/-- No key that is typed in later calls commits. -/
def NoneCommits (before later : List Call) : Prop :=
  ∀ earlier key rest, later = earlier ++ .typed key :: rest → ¬ Commits (before ++ earlier)

/-- The keys typed before the last one that commits, or none if no key does. -/
inductive Committed : List Call → List Key → Prop where
  | never {calls : List Call} (nothing : NoneCommits [] calls) : Committed calls []
  | last {before later : List Call} {key : Key} (commits : Commits before)
      (nothing : NoneCommits (before ++ [.typed key]) later) :
      Committed (before ++ .typed key :: later) (typedKeys before)

/-! ## One more call -/

section Concat

variable {calls before later : List Call} {call : Call} {key : Key}

theorem typedKeys_concat (calls : List Call) (call : Call) :
    typedKeys (calls ++ [call]) = typedKeys calls ++ call.key?.toList := by
  cases shown : call.key? <;> simp [typedKeys, shown]

theorem not_commits_nil : ¬ Commits [] := by simp [Commits]

/-- A key commits for itself only. -/
theorem not_commits_typed : ¬ Commits (calls ++ [.typed key]) := by
  rw [Commits, List.rtakeWhile_concat_neg _ _ _ (by simp [Call.key?])]
  exact List.not_mem_nil

theorem commits_completed : Commits (calls ++ [.commandCompleted]) := by
  rw [Commits, List.rtakeWhile_concat_pos _ _ _ rfl]
  simp

theorem commits_concat (untyped : call.key? = none) (other : call ≠ .commandCompleted) :
    Commits (calls ++ [call]) ↔ Commits calls := by
  rw [Commits, Commits, List.rtakeWhile_concat_pos _ _ _ (by simp [untyped])]
  simp [other.symm]

theorem NoneCommits.concat (nothing : NoneCommits before later)
    (last : call.key? ≠ none → ¬ Commits (before ++ later)) :
    NoneCommits before (later ++ [call]) := by
  intro earlier key rest cut
  rcases List.eq_nil_or_concat rest with rfl | ⟨rest, final, rfl⟩
  · obtain ⟨rfl, same⟩ := List.append_inj' cut rfl
    refine last ?_
    rw [List.singleton_inj.mp same]
    exact Option.some_ne_none key
  · have longer : later ++ [call] = (earlier ++ .typed key :: rest) ++ [final] := by
      simpa using cut
    exact nothing earlier key rest (List.append_inj' longer rfl).1

/-- A call that types no key that commits leaves what is committed. -/
theorem Committed.concat {keys : List Key} (committed : Committed calls keys)
    (last : call.key? ≠ none → ¬ Commits calls) : Committed (calls ++ [call]) keys := by
  cases committed with
  | never nothing => exact .never (nothing.concat last)
  | @last before later key commits nothing =>
      rw [List.append_assoc, List.cons_append]
      exact .last commits (nothing.concat fun typed => by simpa using last typed)

end Concat

/-! ## The last key that commits -/

/-- Of two keys that commit, at most one is the last that does. -/
theorem NoneCommits.not_longer {before later before' later' between : List Call} {key key' : Key}
    (nothing : NoneCommits (before ++ [.typed key]) later) (commits' : Commits before')
    (longer : before' = before ++ between)
    (cut : Call.typed key :: later = between ++ .typed key' :: later') : before' = before := by
  cases between with
  | nil => simpa using longer
  | cons first between =>
      obtain ⟨rfl, rest⟩ := List.cons.inj cut
      have there : before' = before ++ [.typed key] ++ between := by simpa using longer
      exact absurd (there ▸ commits') (nothing between key' later' rest)

theorem Committed.unique {calls : List Call} {keys keys' : List Key}
    (committed : Committed calls keys) (committed' : Committed calls keys') : keys = keys' := by
  cases committed with
  | never nothing =>
      generalize same : calls = calls' at committed'
      cases committed' with
      | never => rfl
      | last commits' => exact absurd commits' (nothing _ _ _ same)
  | @last before later key commits nothing =>
      generalize same : before ++ .typed key :: later = calls' at committed'
      cases committed' with
      | never nothing' => exact absurd commits (nothing' _ _ _ same.symm)
      | last commits' nothing' =>
          rcases List.append_eq_append_iff.mp same with ⟨_, longer, cut⟩ | ⟨_, longer, cut⟩
          · rw [nothing.not_longer commits' longer cut]
          · rw [nothing'.not_longer commits longer cut]

/-- What is committed was typed. -/
theorem Committed.typed {calls : List Call} {keys : List Key} (committed : Committed calls keys)
    {key : Key} (member : key ∈ keys) : .typed key ∈ calls := by
  cases committed with
  | never => cases member
  | @last before later _ commits nothing =>
      obtain ⟨call, called, types⟩ := List.mem_filterMap.mp member
      cases call with
      | typed other =>
          cases types
          exact List.mem_append_left _ called
      | _ => cases types

/-! ## The recorder -/

/-- What a recorder that records has after some calls: every typed key once, and in
front those that are committed. -/
structure Taped (recorder : Recorder) (target : Register × Bool) (calls : List Call) : Prop where
  recording : recorder.recording = some target
  all : recorder.committed ++ recorder.held = typedKeys calls
  commitNext : recorder.commitNext = true ↔ Commits calls
  committed : Committed calls recorder.committed

theorem taped_start (recorder : Recorder) (register : Register) (append : Bool) :
    Taped (recorder.start register append) (register, append) [] where
  recording := rfl
  all := rfl
  commitNext := by simp [start, not_commits_nil]
  committed := .never fun _ _ _ cut => by simp at cut

theorem next_tape (recorder : Recorder) : SameTape recorder.next.1 recorder := by
  unfold next
  split <;> exact ⟨rfl, rfl, rfl, rfl⟩

theorem SameTape.taped {a b : Recorder} (same : SameTape a b) {target : Register × Bool}
    {calls : List Call} (taped : Taped b target calls) : Taped a target calls where
  recording := same.recording.trans taped.recording
  all := by rw [same.committed, same.held, taped.all]
  commitNext := by rw [same.commitNext, taped.commitNext]
  committed := by
    rw [same.committed]
    exact taped.committed

variable {recorder : Recorder} {target : Register × Bool} {calls : List Call}

/-- A key keeps what was held back if it commits, and is held back with it if not. -/
theorem Taped.typed (taped : Taped recorder target calls) (key : Key) :
    Taped (recorder.typed key) target (calls ++ [.typed key]) := by
  have keys : typedKeys (calls ++ [.typed key]) = typedKeys calls ++ [key] := typedKeys_concat _ _
  refine (typed_tape taped.recording key).taped ?_
  by_cases commits : recorder.commitNext = true
  · simp only [if_pos commits]
    refine ⟨taped.recording, ?_, by simp [not_commits_typed], ?_⟩
    · rw [keys, ← taped.all]
    · show Committed _ (recorder.committed ++ recorder.held)
      rw [taped.all]
      exact .last (taped.commitNext.mp commits) fun _ _ _ cut => by simp at cut
  · simp only [if_neg commits]
    refine ⟨taped.recording, ?_, by simp [not_commits_typed], ?_⟩
    · rw [keys, ← taped.all, List.append_assoc]
    · exact taped.committed.concat fun _ => mt taped.commitNext.mpr commits

theorem Taped.commandCompleted (taped : Taped recorder target calls) :
    Taped recorder.commandCompleted target (calls ++ [.commandCompleted]) where
  recording := taped.recording
  all := by
    rw [typedKeys_concat]
    exact taped.all.trans (List.append_nil _).symm
  commitNext := by simp [Recorder.commandCompleted, commits_completed]
  committed := taped.committed.concat fun typed => absurd rfl typed

/-- A call that leaves the recording alone. -/
theorem Taped.beside (taped : Taped recorder target calls) {call : Call}
    (untyped : call.key? = none) (other : call ≠ .commandCompleted) :
    Taped recorder target (calls ++ [call]) where
  recording := taped.recording
  all := by
    rw [taped.all, typedKeys_concat]
    simp [untyped]
  commitNext := by rw [taped.commitNext, commits_concat untyped other]
  committed := taped.committed.concat fun typed => absurd untyped typed

theorem Taped.run (taped : Taped recorder target calls) (call : Call) :
    Taped (call.run recorder) target (calls ++ [call]) := by
  cases call with
  | typed key => exact taped.typed key
  | commandCompleted => exact taped.commandCompleted
  | execute keys times =>
      exact (execute_tape recorder keys times).taped (taped.beside rfl (by simp))
  | next => exact (next_tape recorder).taped (taped.beside rfl (by simp))
  | interrupt => exact (SameTape.refl recorder).interrupt.taped (taped.beside rfl (by simp))

theorem taped_after (recorder : Recorder) (register : Register) (append : Bool)
    (calls : List Call) :
    Taped ((recorder.start register append).after calls) (register, append) calls := by
  induction calls using List.reverseRecOn with
  | nil => exact taped_start recorder register append
  | append_singleton before last ih =>
      rw [after_concat]
      exact ih.run last

theorem finish_of_recording {register : Register} {append : Bool}
    (recording : recorder.recording = some (register, append)) :
    recorder.finish.2 = some ⟨register, append, recorder.committed⟩ := by
  simp [finish, recording]

/-- Whatever is called between them, the end of a recording gives back what its start
was given, and the keys typed before the last one that commits.  Each of them was
typed, whatever was run again meanwhile. -/
theorem finish_committed (recorder : Recorder) (register : Register) (append : Bool)
    (calls : List Call) :
    ∃ keys,
      ((recorder.start register append).after calls).finish.2 = some ⟨register, append, keys⟩ ∧
      (∀ kept, Committed calls kept ↔ kept = keys) ∧ ∀ key ∈ keys, .typed key ∈ calls := by
  have taped := taped_after recorder register append calls
  refine ⟨_, finish_of_recording taped.recording, ?_, fun key => taped.committed.typed⟩
  intro kept
  constructor
  · intro committed
    exact committed.unique taped.committed
  · rintro rfl
    exact taped.committed

/-- The key that ends the recording stays out, and so does what is run again in between. -/
example :
    let typed := ((default : Recorder).start .lastSearch true).typed (.char 'd')
    let rerun := (typed.commandCompleted.execute [.char 'x'] 2).1.next.1
    let ended := ((rerun.typed (.char 'j')).commandCompleted.typed (.char 'q')).finish
    ended.2 = some ⟨.lastSearch, true, [.char 'd', .char 'j']⟩ := by
  decide

end ModalInput.Recorder
