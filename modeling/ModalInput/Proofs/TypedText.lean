/-
# ModalInput.Proofs.TypedText -- no text is lost but dropped sequences

Between two calls of a resolver, nothing waits in Insert and Replace mode but the keys that
were collected for a command.  So of all characters typed in a run of calls it is known what
became of them: they are the keys of the commands that were told, the characters that were
told to be typed, the sequences that were dropped, and at the end the keys that are still
collected (`typed_accounted`).  Dropping is the only way in which text is lost, and there is a
table that loses text (`prefix_dropped`).

* `Accounted.process` -- all keys that wait.
* `Session.Accounted.after`, `Session.Accounted.run` -- one call, and a run of them.
-/
import ModalInput.Proofs.InsertTyping
import ModalInput.Proofs.KeyPieces

namespace ModalInput.Resolver

set_option autoImplicit false

/-! ## All keys that wait -/

section Process

variable {σ : Type} (options : OptionView) (evaluate : Evaluator σ) {table : CommandKeys}
  {typed : List Key} {told : List EngineEvent} {r : Resolver}

/-- Without mappings, every key that waits goes to the command layer. -/
theorem Steady.step?_eq (steady : Steady table r) {queued : Queued} {rest : List Queued}
    (queue : r.typeahead = queued :: rest) (world : σ) :
    step? options evaluate r world =
      some (commandKey options { r with typeahead := rest } queued.key, world) := by
  refine step?_unmapped options evaluate queue steady.trail steady.free (fun key => ?_)
    (awaitsOffsets_of_idle steady.plain.awaiting) world
  rw [lookupWith, MapMode.of_inserting steady.inserts]
  exact steady.unmapped _

/-- Other characters wait. -/
theorem Typing.queued (typing : Typing table r) {typeahead : List Queued}
    (characters : ∀ queued ∈ typeahead, ∃ c, queued.key = .char c) :
    Typing table { r with typeahead } :=
  ⟨⟨typing.keys, typing.unmapped, typing.trail, typing.free, typing.inserts, typing.plain,
    characters⟩, typing.collected⟩

/-- What was told, and whether keys are recorded, do not matter. -/
theorem Typing.beside (typing : Typing table r) (recording : Bool) (events : List EngineEvent) :
    Typing table { r with recording, events } :=
  ⟨⟨typing.keys, typing.unmapped, typing.trail, typing.free, typing.inserts, typing.plain,
    typing.characters⟩, typing.collected⟩

/-- Every key that waits is looked at. -/
theorem Accounted.looked (plain : NeedsNoArgument table) {events : List EngineEvent}
    (accounted : Accounted table typed told events r) (world : σ) :
    Accounted table typed told events (process options evaluate r world).1 := by
  refine process_kept options evaluate ?_ r world accounted
  rintro r world next ⟨more, told', accounted⟩ stepped
  obtain ⟨later, after, _⟩ := (Passages.moves (step?_moves options evaluate stepped)).told
  refine ⟨more ++ later, by rw [after, told', List.append_assoc], fun stays => ?_⟩
  obtain ⟨typing, pieced⟩ := accounted stays.front
  cases queue : r.typeahead with
  | nil =>
      rw [step?_of_empty options evaluate queue] at stepped
      cases stepped
  | cons queued rest =>
      rw [typing.step?_eq options evaluate queue] at stepped
      cases stepped
      obtain ⟨c, key⟩ := typing.characters queued (by simp [queue])
      have same : left (({ r with typeahead := rest } : Resolver).gathered (.char c)) = left r := by
        simp [left, gathered, queue, key]
      rw [← same] at pieced
      have waiting : ∀ later ∈ rest, ∃ c, later.key = .char c := fun later member =>
        typing.characters later (by simp [queue, member])
      obtain ⟨more', events', result⟩ :=
        Pieced.commandKey options plain (typing.queued waiting) c pieced
      rw [key] at after ⊢
      obtain rfl := List.append_cancel_left (after.symm.trans events')
      rw [← List.append_assoc]
      exact result stays.rest

/-- While text is typed, no key waits when all have been looked at. -/
theorem Typing.settled {world : σ}
    (typing : Typing table (Resolver.process options evaluate r world).1) :
    (Resolver.process options evaluate r world).1.typeahead = [] := by
  cases queue : (Resolver.process options evaluate r world).1.typeahead with
  | nil => rfl
  | cons queued rest =>
      have settled := step?_process options evaluate r world
      rw [typing.step?_eq options evaluate queue] at settled
      cases settled

/-- While no other key waits, those that were collected are left. -/
theorem left_of_empty (waiting : r.typeahead = []) : left r = r.pending.keys := by
  rw [left, waiting, List.map_nil, List.append_nil]

/-- What was told so far and more of it account for the typed keys, and only collected keys
wait. -/
def Settled (table : CommandKeys) (typed : List Key) (told events : List EngineEvent)
    (next : Resolver) : Prop :=
  ∃ more, next.events = events ++ more ∧
    (StaysInserting more → Typing table next ∧ next.typeahead = [] ∧
      Pieced table typed (told ++ more) next.pending.keys)

theorem Accounted.process (plain : NeedsNoArgument table) {events : List EngineEvent}
    (accounted : Accounted table typed told events r) (world : σ) :
    Settled table typed told events (process options evaluate r world).1 := by
  obtain ⟨more, told', accounted⟩ := accounted.looked options evaluate plain world
  refine ⟨more, told', fun stays => ?_⟩
  obtain ⟨typing, pieced⟩ := accounted stays
  have waiting := typing.settled options evaluate
  rw [left_of_empty waiting] at pieced
  exact ⟨typing, waiting, pieced⟩

section Calls

variable (plain : NeedsNoArgument table) (typing : Typing table r) (waiting : r.typeahead = [])
  (pieced : Pieced table typed told r.pending.keys)
include plain typing waiting pieced

/-- A character is typed. -/
theorem Typing.inputKey (world : σ) (c : Char) :
    Settled table (typed ++ [.char c]) told r.events
      (inputKey options evaluate r world (.char c)).1 := by
  have noOffsets : r.awaitsOffsets = false := awaitsOffsets_of_idle typing.plain.awaiting
  rw [inputKey_eq options evaluate noOffsets waiting world (.char c)]
  refine Accounted.process options evaluate plain ?_ world
  refine ⟨[], (List.append_nil _).symm, fun _ => ⟨typing.queued ?_, ?_⟩⟩
  · intro queued member
    obtain rfl := List.mem_singleton.mp member
    exact ⟨c, rfl⟩
  · obtain ⟨pieces, holds, split, same⟩ := pieced
    refine ⟨pieces, holds, ?_, by simpa using same⟩
    rw [split, List.append_assoc]
    rfl

/-- No key came in time. -/
theorem Typing.timeoutExpired (world : σ) :
    Settled table typed told r.events (timeoutExpired options evaluate r world).1 := by
  have flushes : flushed options evaluate r world = (r, world) := by simp [flushed, typing.trail]
  rw [timeoutExpired_eq, flushes]
  split
  · rename_i holds
    obtain ⟨held, holding⟩ := Option.isSome_iff_exists.mp (Bool.and_eq_true_iff.mp holds).2
    rw [← left_of_empty waiting] at pieced
    have fires := Pieced.fires options plain typing holding pieced
    exact fires.process options evaluate plain world
  · exact ⟨[], (List.append_nil _).symm, fun _ => ⟨typing, waiting, by simpa using pieced⟩⟩

end Calls

end Process

/-! ## Runs of calls -/

namespace Interaction

variable {σ : Type}

/-- The keys that an interaction types. -/
def typed : Interaction σ → List Key
  | .call (.key _ _ _ key) => [key]
  | _ => []

/-- What happens while text is typed: characters come, or no key comes for a while, and the
editor looks at what was told. -/
inductive Types : Interaction σ → Prop where
  | character (options : OptionView) (evaluate : Evaluator σ) (world : σ) (c : Char) :
      Types (.call (.key options evaluate world (.char c)))
  | timeout (options : OptionView) (evaluate : Evaluator σ) (world : σ) :
      Types (.call (.timeout options evaluate world))
  | recording (recording : Bool) : Types (.call (.setRecording recording))
  | takes : Types (.call .takeEvent)

end Interaction

/-- All that was told since some events accounts for the typed keys, as long as nothing leads
out of the modes in which text is typed; only collected keys wait then. -/
def Session.Accounted (table : CommandKeys) (typed : List Key) (before : List EngineEvent)
    (session : Session) : Prop :=
  ∃ told, session.told = before ++ told ∧
    (StaysInserting told → Typing table session.resolver ∧ session.resolver.typeahead = [] ∧
      Pieced table typed told session.resolver.pending.keys)

namespace Session.Accounted

variable {table : CommandKeys} {typed : List Key} {before : List EngineEvent} {session : Session}

/-- A call that looks at keys. -/
theorem call (accounted : session.Accounted table typed before) {next : Resolver} {now : List Key}
    (tells : Emits (fun _ => True) session.resolver next)
    (settles : ∀ told, Typing table session.resolver → session.resolver.typeahead = [] →
      Pieced table typed told session.resolver.pending.keys →
        Settled table now told session.resolver.events next) :
    Session.Accounted table now before ⟨next, session.taken ++ []⟩ := by
  obtain ⟨told, since, accounted⟩ := accounted
  obtain ⟨later, events, -⟩ := tells
  refine ⟨told ++ later, ?_, fun stays => ?_⟩
  · rw [← List.append_assoc, ← since, Session.told, Session.told, events, List.append_nil,
      List.append_assoc]
  · obtain ⟨typing, waiting, split⟩ := accounted stays.front
    obtain ⟨later', events', result⟩ := settles told typing waiting split
    obtain rfl := List.append_cancel_left (events.symm.trans events')
    exact result stays.rest

/-- A call that changes neither what was told nor what waits. -/
theorem beside (accounted : session.Accounted table typed before) {next : Session}
    (same : next.told = session.told) {recording : Bool} {events : List EngineEvent}
    (resolver : next.resolver = { session.resolver with recording, events }) :
    next.Accounted table typed before := by
  obtain ⟨told, since, accounted⟩ := accounted
  refine ⟨told, same.trans since, fun stays => ?_⟩
  obtain ⟨typing, waiting, pieced⟩ := accounted stays
  rw [resolver]
  exact ⟨typing.beside recording events, waiting, pieced⟩

theorem after {σ : Type} {interaction : Interaction σ} (plain : NeedsNoArgument table)
    (types : interaction.Types) (accounted : session.Accounted table typed before) :
    (session.after interaction).Accounted table (typed ++ interaction.typed) before := by
  cases types with
  | character options evaluate world c =>
      have moves := inputKey_moves options evaluate session.resolver world (.char c)
      exact accounted.call (Passages.moves moves).told fun _ typing waiting pieced =>
        typing.inputKey options evaluate plain waiting pieced world c
  | timeout options evaluate world =>
      have moves := timeoutExpired_moves options evaluate session.resolver world
      have next := accounted.call (Passages.moves moves).told fun _ typing waiting pieced =>
        typing.timeoutExpired options evaluate plain waiting pieced world
      exact (List.append_nil typed).symm ▸ next
  | recording recording =>
      have same : (session.after (.call (.setRecording recording : Operation σ))).told =
          session.told :=
        congrArg (· ++ session.resolver.events) (List.append_nil session.taken)
      exact (List.append_nil typed).symm ▸ accounted.beside same rfl
  | takes =>
      obtain ⟨events, same⟩ := Operation.takeEvent_run (σ := σ) session.resolver
      exact (List.append_nil typed).symm ▸ accounted.beside (told_takeEvent session) same

theorem run {σ : Type} (plain : NeedsNoArgument table) {interactions : List (Interaction σ)}
    (types : ∀ interaction ∈ interactions, interaction.Types)
    (accounted : session.Accounted table typed before) :
    (session.run interactions).Accounted table (typed ++ interactions.flatMap Interaction.typed)
      before := by
  induction interactions generalizing session typed with
  | nil => simpa [Session.run] using accounted
  | cons first rest ih =>
      have next := accounted.after plain (types first (by simp))
      have last := ih (fun interaction member => types interaction (by simp [member])) next
      rwa [List.append_assoc] at last

end Session.Accounted

/-- Text is typed, and nothing is pending. -/
theorem Typing.of_idle {r : Resolver} (layered : Layered r) (idle : r.isPending = false)
    (inserts : r.modes.mode.isInserting = true)
    (unmapped : ∀ keys, r.mappings.lookup .insert keys = .unmapped) :
    Typing r.keys r ∧ r.typeahead = [] ∧ r.pending.keys = [] := by
  unfold isPending PendingCommand.isEmpty at idle
  simp only [Bool.or_eq_false_iff, Bool.not_eq_false', Bool.and_eq_true, List.isEmpty_iff,
    Option.isNone_iff_eq_none] at idle
  obtain ⟨⟨trail, waiting⟩, ⟨⟨pending, operator⟩, _⟩, awaiting⟩ := idle
  obtain ⟨⟨⟨count, registerCount⟩, register⟩, keys⟩ := pending
  refine ⟨⟨⟨rfl, unmapped, trail, layered.free trail, inserts,
    ⟨count, registerCount, register, operator, awaiting⟩, by simp [waiting]⟩, ?_⟩, waiting, keys⟩
  refine ⟨by simp [keys], by simp [layered.tidy.not_held keys], ?_⟩
  intro _ front typed start
  rw [keys] at start
  exact absurd (List.prefix_nil.mp start) typed

/-- Whatever was done with a resolver before, characters that are typed in Insert or Replace
mode, while no mapping is in the way and commands take no argument, are in order the keys of
the commands that are told, the characters that are told to be typed, sequences that were
dropped, and the keys that wait at the end. -/
theorem typed_accounted {σ : Type} (table : CommandKeys) (before typing : List (Interaction σ))
    (idle : ((Session.start table).run before).resolver.isPending = false)
    (inserts : ((Session.start table).run before).resolver.modes.mode.isInserting = true)
    (unmapped : ∀ keys, ((Session.start table).run before).resolver.mappings.lookup .insert keys =
      .unmapped)
    (plain : NeedsNoArgument ((Session.start table).run before).resolver.keys)
    (types : ∀ interaction ∈ typing, interaction.Types) :
    let first := (Session.start table).run before
    let last := first.run typing
    ∃ told, last.told = first.told ++ told ∧
      (StaysInserting told →
        last.resolver.typeahead = [] ∧ last.resolver.trail = [] ∧
          ∃ pieces : List Piece, (∀ piece ∈ pieces, piece.Holds first.resolver.keys) ∧
            typing.flatMap Interaction.typed =
              pieces.flatMap Piece.keys ++ last.resolver.pending.keys ∧
            told.filter (fun event => !event.isChange) =
              (pieces.filterMap Piece.told?).map .command) := by
  intro first last
  obtain ⟨typing', waiting, nothing⟩ :=
    Typing.of_idle (Session.layered_run table before) idle inserts unmapped
  have start : first.Accounted first.resolver.keys [] first.told := by
    refine ⟨[], (List.append_nil _).symm, fun _ => ⟨typing', waiting, [], by simp, ?_, rfl⟩⟩
    exact nothing.symm
  obtain ⟨told, since, accounted⟩ := start.run plain types
  refine ⟨told, since, fun stays => ?_⟩
  obtain ⟨typing', waiting, pieced⟩ := accounted stays
  exact ⟨waiting, typing'.trail, pieced⟩

section Escape

/-- In Insert mode, with `jk` as the only command. -/
def escapeKeys : CommandKeys :=
  ⟨KeyTable.empty.insert .insert [.char 'j', .char 'k'] { name := "noop" }⟩

/-- Text is typed, and this is pending. -/
def escaping (pending : PendingCommand) (events : List EngineEvent) : Resolver where
  keys := escapeKeys
  modes := { state := .ofMode .insert }
  pending := pending
  events := .modeChanged ⟨.ofMode .normal, .ofMode .insert⟩ :: events

/-- What is told of the two keys. -/
def escaped : EngineEvent :=
  .command ⟨.new { name := "noop" } 0, { count := 0, state := .ofMode .insert }⟩

/-- The first of the two keys was typed. -/
def halfEscaped : PendingCommand := { keys := [.char 'j'], shown := [.char 'j'] }

def striking (c : Char) : Interaction Unit :=
  .call (.key ⟨{}, .everywhere⟩ (fun text world => (.ok text, world)) () (.char c))

/-- A character after which no key waits. -/
theorem striking_run {r next : Resolver} {c : Char} (noOffsets : r.awaitsOffsets = false)
    (waiting : r.typeahead = [])
    (stepped : step? ⟨{}, .everywhere⟩ (fun text world => (.ok text, world))
      { r with typeahead := [.mappable (.char c) 0] } () = some (next, ()))
    (settled : next.typeahead = []) : (striking c).run r = next := by
  show (inputKey ⟨{}, .everywhere⟩ (fun text world => (.ok text, world)) r () (.char c)).1 = next
  rw [inputKey_eq _ _ noOffsets waiting, process_of_last _ _ stepped settled]

theorem striking_j (events : List EngineEvent) :
    (striking 'j').run (escaping {} events) = escaping halfEscaped events :=
  striking_run rfl rfl rfl rfl

/-- The resolver is brought into Insert mode. -/
def toInsert : Interaction Unit := .call (.setMode (.ofMode .insert))

theorem escapeKeys_plain : NeedsNoArgument escapeKeys := by
  intro keys action bound
  rw [escapeKeys, KeyTable.get?_insert _ _ _ _ (by simp)] at bound
  split at bound
  · cases bound
    rfl
  · cases bound

theorem striking_types (text : List Char) :
    ∀ interaction ∈ text.map striking, interaction.Types := by
  intro interaction member
  obtain ⟨c, _, rfl⟩ := List.mem_map.mp member
  exact .character ..

/-- A character is typed, `jk` is a command, and `j` waits again. -/
theorem escape_accounted :
    let first := (Session.start escapeKeys).run [toInsert]
    let last := first.run (['a', 'j', 'k', 'j'].map striking)
    (first.resolver.isPending = false ∧ first.resolver.modes.mode.isInserting = true ∧
      (∀ keys, first.resolver.mappings.lookup .insert keys = .unmapped) ∧
      NeedsNoArgument first.resolver.keys ∧
      ∀ interaction ∈ ['a', 'j', 'k', 'j'].map striking, interaction.Types) ∧
    last.told = first.told ++ [typedCharacter (.ofMode .insert) 'a', escaped] ∧
    last.resolver.pending.keys = [.char 'j'] ∧
    ∃ pieces : List Piece, (∀ piece ∈ pieces, piece.Holds first.resolver.keys) ∧
      ['a', 'j', 'k', 'j'].map Key.char = pieces.flatMap Piece.keys ++ [.char 'j'] ∧
      [typedCharacter (.ofMode .insert) 'a', escaped] =
        (pieces.filterMap Piece.told?).map .command := by
  intro first last
  have typed : last =
      ⟨escaping halfEscaped [typedCharacter (.ofMode .insert) 'a', escaped], []⟩ := by
    have a : (striking 'a').run (escaping {} []) =
        escaping {} [typedCharacter (.ofMode .insert) 'a'] :=
      striking_run rfl rfl rfl rfl
    have k : (striking 'k').run
        (escaping halfEscaped [typedCharacter (.ofMode .insert) 'a']) =
          escaping {} [typedCharacter (.ofMode .insert) 'a', escaped] :=
      striking_run rfl rfl rfl rfl
    show Session.mk ((striking 'j').run ((striking 'k').run ((striking 'j').run
      ((striking 'a').run (escaping {} []))))) [] = _
    rw [a, striking_j, k, striking_j]
  have unmapped (keys : List Key) : first.resolver.mappings.lookup .insert keys = .unmapped := rfl
  have types := striking_types ['a', 'j', 'k', 'j']
  obtain ⟨told, since, accounted⟩ := typed_accounted escapeKeys [toInsert]
    (['a', 'j', 'k', 'j'].map striking) rfl rfl unmapped escapeKeys_plain types
  have told' : last.told = first.told ++ [typedCharacter (.ofMode .insert) 'a', escaped] := by
    rw [typed]
    rfl
  obtain rfl := List.append_cancel_left (since.symm.trans told')
  have stays : StaysInserting [typedCharacter (.ofMode .insert) 'a', escaped] := by
    simp [StaysInserting, typedCharacter, escaped]
  obtain ⟨_, _, pieces, holds, split, same⟩ := accounted stays
  refine ⟨⟨rfl, rfl, unmapped, escapeKeys_plain, types⟩, told', by rw [typed]; rfl, pieces, holds,
    ?_, same⟩
  have keys : last.resolver.pending.keys = [.char 'j'] := by
    rw [typed]
    rfl
  rw [← keys]
  exact split

/-- The first of the two keys is gone when another key follows it, and so is that key: nothing
is told, nothing is pending, and without a dropped sequence the keys are not accounted for. -/
theorem prefix_dropped :
    let first := (Session.start escapeKeys).run [toInsert]
    let last := first.run (['j', 'z'].map striking)
    (first.resolver.isPending = false ∧ first.resolver.modes.mode.isInserting = true ∧
      (∀ keys, first.resolver.mappings.lookup .insert keys = .unmapped) ∧
      NeedsNoArgument first.resolver.keys ∧
      ∀ interaction ∈ ['j', 'z'].map striking, interaction.Types) ∧
    last.told = first.told ∧ last.resolver.isPending = false ∧
    ¬ ∃ (told : List EngineEvent) (pieces : List Piece), last.told = first.told ++ told ∧
      (∀ piece ∈ pieces, piece.Holds first.resolver.keys ∧ piece.told? ≠ none) ∧
      ['j', 'z'].map Key.char = pieces.flatMap Piece.keys ++ last.resolver.pending.keys ∧
      told.filter (fun event => !event.isChange) =
        (pieces.filterMap Piece.told?).map .command := by
  intro first last
  have typed : last = ⟨escaping {} [], []⟩ := by
    have z : (striking 'z').run (escaping halfEscaped []) = escaping {} [] :=
      striking_run rfl rfl rfl rfl
    show Session.mk ((striking 'z').run ((striking 'j').run (escaping {} []))) [] = _
    rw [striking_j, z]
  have silent : last.told = first.told := by
    rw [typed]
    rfl
  refine ⟨⟨rfl, rfl, fun _ => rfl, escapeKeys_plain, striking_types _⟩, silent,
    by rw [typed]; rfl, ?_⟩
  rintro ⟨told, pieces, since, all, split, same⟩
  obtain rfl : told = [] := List.append_right_eq_self.mp (since.symm.trans silent)
  have nothing : pieces = [] := by
    cases pieces with
    | nil => rfl
    | cons piece rest =>
        obtain ⟨command, tells⟩ := Option.ne_none_iff_exists'.mp (all piece (by simp)).2
        simp [tells] at same
  rw [nothing, typed] at split
  cases split

end Escape

end ModalInput.Resolver
