/-
# ModalInput.Proofs.KeyPieces -- what becomes of a character that is typed into text

In Insert and in Replace mode the keys of a command are collected until the table knows what
they are, and a table may bind sequences that start like each other and like words.  So
typed characters wait, and it has to be seen what becomes of those that turn out to be no
command.  What was typed falls into pieces, in order (`Piece`): the keys of bound commands,
single characters that go into the text, and several keys that are dropped together, since
they started longer sequences only until one came that leads nowhere.

`Pieced` says so of typed keys, of what was told, and of the keys that still wait.  One
character keeps it (`Pieced.commandKey`).  If a shorter command is held, it runs, and the
keys behind it are looked at again.

* `TellsOnly` -- the commands that are told besides changes of the mode.
* `Typing` -- the state between keys; `Accounted` -- what is told from there on.
* `Pieced.resolves`, `types`, `drops`, `fires` -- one way after the other.
-/
import ModalInput.Proofs.EventTrace
import ModalInput.Proofs.LowestMode
import ModalInput.Proofs.Passages
import ModalInput.Proofs.TypedPrefixes

namespace ModalInput

set_option autoImplicit false

/-! ## Runs that stay in the modes in which text is typed -/

/-- No change of the mode leads out of Insert and Replace mode. -/
def StaysInserting (told : List EngineEvent) : Prop :=
  ∀ step, .modeChanged step ∈ told → step.new.mode.isInserting = true

theorem StaysInserting.front {told more : List EngineEvent}
    (stays : StaysInserting (told ++ more)) : StaysInserting told := fun step member =>
  stays step (by simp [member])

theorem StaysInserting.rest {told more : List EngineEvent}
    (stays : StaysInserting (told ++ more)) : StaysInserting more := fun step member =>
  stays step (by simp [member])

theorem path?_inserting {mode last : ModeState} {told : List EngineEvent}
    (path : path? mode told = some last) (inserts : mode.mode.isInserting = true)
    (stays : StaysInserting told) : last.mode.isInserting = true := by
  induction told generalizing mode with
  | nil =>
      cases path
      exact inserts
  | cons event rest ih =>
      obtain ⟨next, follows, path⟩ := Option.bind_eq_some_iff.mp path
      refine ih path ?_ fun step member => stays step (by simp [member])
      cases event with
      | command resolved =>
          simp only [EngineEvent.follow?] at follows
          split at follows
          · cases follows
            exact inserts
          · cases follows
      | failed error =>
          cases follows
          exact inserts
      | modeChanged step =>
          simp only [EngineEvent.follow?] at follows
          split at follows
          · cases follows
            exact stays step (by simp)
          · cases follows

section Mode

variable {mode : Mode} (inserts : mode.isInserting = true)
include inserts

/-- The modes in which text is typed share their table. -/
theorem MapMode.of_inserting : MapMode.of mode = .insert := by
  cases mode with
  | insert | replace => rfl
  | _ => cases inserts

theorem Resolver.takesCounts_inserting : Resolver.takesCounts mode = false := by
  cases mode with
  | insert | replace => rfl
  | _ => cases inserts

theorem Mode.ne_operatorPending : mode ≠ .operatorPending := by
  rintro rfl
  cases inserts

/-- A character that is unknown there is typed. -/
theorem Resolver.exists_typingAction :
    ∃ action, Resolver.typingAction? mode = some action ∧ action.flags = {} := by
  cases mode with
  | insert | replace => exact ⟨_, rfl, rfl⟩
  | _ => cases inserts

end Mode

namespace Resolver

/-! ## Pieces -/

/-- Keys of a table that started a sequence until the last of them came, and no part of them
is a command. -/
structure DeadEnd (table : CommandKeys) (keys : List Key) : Prop where
  several : 2 ≤ keys.length
  waited : ∀ front, front ≠ [] → front <+: keys → front ≠ keys →
    table.lookup .insert front = .incomplete
  unknown : table.lookup .insert keys = .unmapped

/-- What became of some typed keys. -/
inductive Piece where
  /-- They are the keys of a command. -/
  | bound (keys : List Key) (told : ResolvedCommand)
  /-- A character goes into the text. -/
  | typed (c : Char) (told : ResolvedCommand)
  | dropped (keys : List Key)

namespace Piece

def keys : Piece → List Key
  | bound keys _ | dropped keys => keys
  | typed c _ => [.char c]

def told? : Piece → Option ResolvedCommand
  | bound _ told | typed _ told => some told
  | dropped _ => none

/-- The piece is what a table makes of its keys. -/
def Holds (table : CommandKeys) : Piece → Prop
  | bound keys told =>
      ∃ action, table.table.get? .insert keys = some action ∧ told.command = .new action 0
  | typed c told =>
      table.lookup .insert [.char c] = .unmapped ∧ told.arguments.state.mode.isInserting = true ∧
        ∃ action, typingAction? told.arguments.state.mode = some action ∧
          told.command = (Command.new action 0).withArgument (.character c)
  | dropped keys => DeadEnd table keys

end Piece

/-- Typed keys fall into pieces, but for those that are left, and the commands of the pieces
are what is told besides changes of the mode. -/
def Pieced (table : CommandKeys) (typed : List Key) (told : List EngineEvent)
    (left : List Key) : Prop :=
  ∃ pieces : List Piece, (∀ piece ∈ pieces, piece.Holds table) ∧
    typed = pieces.flatMap Piece.keys ++ left ∧
    told.filter (fun event => !event.isChange) = (pieces.filterMap Piece.told?).map .command

theorem Pieced.settle {table : CommandKeys} {typed left : List Key} {told more : List EngineEvent}
    (piece : Piece) (holds : piece.Holds table)
    (pieced : Pieced table typed told (piece.keys ++ left))
    (tells : more.filter (fun event => !event.isChange) = piece.told?.toList.map .command) :
    Pieced table typed (told ++ more) left := by
  obtain ⟨pieces, all, split, same⟩ := pieced
  refine ⟨pieces ++ [piece], ?_, ?_, ?_⟩
  · intro other member
    rcases List.mem_append.mp member with before | last
    · exact all other before
    · obtain rfl := List.mem_singleton.mp last
      exact holds
  · simp [split]
  · rw [List.filter_append, same, tells, List.filterMap_append, List.map_append]
    cases own : piece.told? <;> simp [own]

/-! ## What is told -/

/-- Commands are told, and changes of the mode, which lead out of the modes in which text is
typed if anything does. -/
def TellsOnly (r r' : Resolver) (commands : List ResolvedCommand) : Prop :=
  ∃ told, r'.events = r.events ++ told ∧
    told.filter (fun event => !event.isChange) = commands.map .command ∧
    (StaysInserting told → r.modes.mode.isInserting = true → r'.modes.mode.isInserting = true)

section TellsOnly

variable (options : OptionView)

/-- Changes of the mode are not among what is told besides them. -/
theorem filter_changes {r r' : Resolver} (emits : Emits (fun event => event.isChange = true) r r') :
    ∃ told, r'.events = r.events ++ told ∧ told.filter (fun event => !event.isChange) = [] := by
  obtain ⟨told, events, all⟩ := emits
  refine ⟨told, events, List.filter_eq_nil_iff.mpr ?_⟩
  intro event member
  simp [all event member]

theorem tells_abort (r : Resolver) : TellsOnly r r.abort [] := by
  obtain ⟨told, events, none⟩ := filter_changes (Emits.abort (fun _ => rfl) r)
  obtain ⟨same, leads, path⟩ := Leads.abort r
  obtain rfl := List.append_cancel_left (events.symm.trans leads)
  exact ⟨told, events, none, fun stays inserts => path?_inserting path inserts stays⟩

theorem tells_complete (r : Resolver) (command : Command) :
    TellsOnly r (r.complete options command) [r.toldComplete options command] := by
  let begun := (r.applyKeymodel options command).emit (.command (r.toldComplete options command))
  obtain ⟨first, events, none⟩ :=
    filter_changes (Emits.applyKeymodel (fun _ => rfl) options r command)
  obtain ⟨last, events', none'⟩ :=
    filter_changes (Emits.applyModeChange (fun _ => rfl) options begun command)
  obtain ⟨told, leads, path⟩ := Leads.complete options r command
  have same : told = first ++ [.command (r.toldComplete options command)] ++ last := by
    refine List.append_cancel_left (leads.symm.trans ?_)
    show (begun.applyModeChange options command).events = _
    rw [events', show begun.events = _ ++ [_] from rfl, events]
    simp only [List.append_assoc]
  refine ⟨told, leads, ?_, fun stays inserts => path?_inserting path inserts stays⟩
  rw [same, List.filter_append, List.filter_append, none, none']
  rfl

end TellsOnly

/-! ## Between keys -/

/-- Nothing but keys was collected for a command. -/
structure Plain (pending : PendingCommand) : Prop where
  count : pending.count = none
  registerCount : pending.registerCount = none
  register : pending.register = none
  operator : pending.operator = none
  awaiting : pending.awaiting = none

theorem Plain.cleared {pending : PendingCommand} (plain : Plain pending) :
    { pending with registerCount := none, count := none, register := none } = pending := by
  obtain ⟨count, registerCount, register, _, _⟩ := plain
  cases pending
  cases count
  cases registerCount
  cases register
  rfl

/-- Text is typed, no mapping is in the way, and only characters wait. -/
structure Steady (table : CommandKeys) (r : Resolver) : Prop where
  keys : r.keys = table
  unmapped : ∀ keys, r.mappings.lookup .insert keys = .unmapped
  trail : r.trail = []
  free : r.trailMatch = none
  inserts : r.modes.mode.isInserting = true
  plain : Plain r.pending
  characters : ∀ queued ∈ r.typeahead, ∃ c, queued.key = .char c

/-- The keys that were collected are characters.  Some of them are the command that is held,
or else the start of longer sequences only. -/
structure Collected (table : CommandKeys) (pending : PendingCommand) : Prop where
  characters : ∀ key ∈ pending.keys, ∃ c, key = .char c
  held : ∀ held, pending.held = some held → held.length ≤ pending.keys.length ∧
    table.table.get? .insert (pending.keys.take held.length) = some held.value
  waits : pending.held = none → ∀ front, front ≠ [] → front <+: pending.keys →
    table.lookup .insert front = .incomplete

/-- Between two keys while text is typed. -/
structure Typing (table : CommandKeys) (r : Resolver) : Prop extends Steady table r where
  collected : Collected table r.pending

/-- The typed keys of which nothing has become yet. -/
def left (r : Resolver) : List Key := r.pending.keys ++ r.typeahead.map Queued.key

theorem collected_empty (table : CommandKeys) : Collected table {} where
  characters := by simp
  held := by simp
  waits := fun _ front typed start => absurd (List.prefix_nil.mp start) typed

theorem Steady.of_pending {table : CommandKeys} {r : Resolver} (steady : Steady table r)
    {pending : PendingCommand} (plain : Plain pending) : Steady table { r with pending } :=
  ⟨steady.keys, steady.unmapped, steady.trail, steady.free, steady.inserts, plain,
    steady.characters⟩

theorem Plain.collect {pending : PendingCommand} (plain : Plain pending) (keys : List Key)
    (held : Option (Reached Action)) (shown : List Key) :
    Plain { pending with keys, held, shown } :=
  ⟨plain.count, plain.registerCount, plain.register, plain.operator, plain.awaiting⟩

theorem Steady.gathered {table : CommandKeys} {r : Resolver} (steady : Steady table r) (key : Key) :
    Steady table (r.gathered key) :=
  steady.of_pending (steady.plain.collect ..)

theorem Steady.released {table : CommandKeys} {r : Resolver} (steady : Steady table r) :
    Steady table r.released :=
  steady.of_pending (steady.plain.collect ..)

section Idle

variable {table : CommandKeys} {r next : Resolver}

/-- Nothing is pending, and the rest has not changed. -/
theorem Steady.idle (steady : Steady table r) (same : next.surroundings = r.surroundings)
    (waiting : next.typeahead = r.typeahead) (nothing : next.pending = {})
    (inserts : next.modes.mode.isInserting = true) : Typing table next where
  keys := (congrArg Surroundings.keys same).trans steady.keys
  unmapped := by
    have mappings : next.mappings = r.mappings := congrArg Surroundings.mappings same
    rw [mappings]
    exact steady.unmapped
  trail := (congrArg Surroundings.trail same).trans steady.trail
  free := (congrArg Surroundings.trailMatch same).trans steady.free
  inserts := inserts
  plain := by
    rw [nothing]
    exact ⟨rfl, rfl, rfl, rfl, rfl⟩
  characters := by
    rw [waiting]
    exact steady.characters
  collected := by
    rw [nothing]
    exact collected_empty table

theorem left_idle (waiting : next.typeahead = r.typeahead) (nothing : next.pending = {}) :
    left next = r.typeahead.map Queued.key := by
  rw [left, nothing, waiting]
  rfl

end Idle

/-! ## What one key leads to -/

/-- Commands of the table take no argument while text is typed. -/
def NeedsNoArgument (table : CommandKeys) : Prop :=
  ∀ keys action, table.table.get? .insert keys = some action → action.argument = .none

/-- What was told so far and more of it account for the typed keys, as long as nothing leads
out of the modes in which text is typed. -/
def Accounted (table : CommandKeys) (typed : List Key) (told : List EngineEvent)
    (events : List EngineEvent) (next : Resolver) : Prop :=
  ∃ more, next.events = events ++ more ∧
    (StaysInserting more → Typing table next ∧ Pieced table typed (told ++ more) (left next))

section Steps

variable (options : OptionView) {table : CommandKeys} {typed : List Key} {told : List EngineEvent}
  {r : Resolver}

/-- A piece is settled and nothing stays pending. -/
theorem Pieced.ends {next : Resolver} (steady : Steady table r) (piece : Piece)
    (holds : piece.Holds table)
    (pieced : Pieced table typed told (piece.keys ++ r.typeahead.map Queued.key))
    (tells : TellsOnly r next piece.told?.toList) (same : next.surroundings = r.surroundings)
    (waiting : next.typeahead = r.typeahead) (nothing : next.pending = {}) :
    Accounted table typed told r.events next := by
  obtain ⟨more, events, commands, inserts⟩ := tells
  refine ⟨more, events, fun stays => ⟨?_, ?_⟩⟩
  · exact steady.idle same waiting nothing (inserts stays steady.inserts)
  · rw [left_idle waiting nothing]
    exact pieced.settle piece holds commands

/-- Without a count or a register, an action is the whole command. -/
theorem Steady.counted (steady : Steady table r) : r.counted = r := by
  have noOperator := Mode.ne_operatorPending steady.inserts
  rw [Resolver.counted, if_neg noOperator, steady.plain.cleared]

theorem Steady.commandOf (steady : Steady table r) (action : Action) :
    r.commandOf action = .new action 0 := by
  have noOperator := Mode.ne_operatorPending steady.inserts
  simp only [Resolver.commandOf, if_neg noOperator, typedCommand, typedCount, steady.plain.count,
    steady.plain.registerCount, steady.plain.register]
  rfl

/-- Keys are a command. -/
theorem Pieced.resolves (plain : NeedsNoArgument table) (steady : Steady table r)
    {keys : List Key} {action : Action} (bound : table.table.get? .insert keys = some action)
    (pieced : Pieced table typed told (keys ++ r.typeahead.map Queued.key)) :
    Accounted table typed told r.events (r.commandResolved options action keys) := by
  rw [commandResolved_plain options (plain keys action bound) steady.plain.operator,
    steady.counted, steady.commandOf]
  exact pieced.ends steady (.bound keys (r.toldComplete options (.new action 0)))
    ⟨action, bound, rfl⟩ (tells_complete options r _) (surroundings_complete options r _)
    (Quiet.complete options r _).typeahead rfl

/-- The held command runs, and the keys behind it wait to be looked at again. -/
theorem Pieced.fires (plain : NeedsNoArgument table) (typing : Typing table r)
    {held : Reached Action} (holding : r.pending.held = some held)
    (pieced : Pieced table typed told (left r)) :
    Accounted table typed told r.events (r.fireHeld options) := by
  obtain ⟨_, bound⟩ := typing.collected.held held holding
  let fired := r.pending.keys.take held.length
  let again := r.pending.keys.drop held.length
  have split : fired ++ again = r.pending.keys := List.take_append_drop ..
  let waiting := r.released.requeue (again.map .literal)
  have steady : Steady table waiting :=
    { typing.toSteady.released with
      characters := by
        intro queued member
        rcases List.mem_append.mp member with requeued | before
        · obtain ⟨key, among, rfl⟩ := List.mem_map.mp requeued
          exact typing.collected.characters key (List.mem_of_mem_drop among)
        · exact typing.characters queued before }
  have same : fireHeld options r = waiting.commandResolved options held.value fired :=
    fireHeld_of_some options holding
  rw [same]
  refine Pieced.resolves options plain steady bound ?_
  have queue : waiting.typeahead.map Queued.key = again ++ r.typeahead.map Queued.key := by
    simp [waiting, released, requeue, Function.comp_def, Queued.key]
  rw [queue, ← List.append_assoc, split]
  exact pieced

/-- A single character that the table does not know is typed. -/
theorem Pieced.types (steady : Steady table r) {c : Char}
    (unknown : table.lookup .insert [.char c] = .unmapped)
    (pieced : Pieced table typed told (.char c :: r.typeahead.map Queued.key)) :
    Accounted table typed told r.events (r.unknownKey options (.char c)) := by
  obtain ⟨action, typing, flags⟩ := exists_typingAction steady.inserts
  let command := (Command.new action 0).withArgument (.character c)
  have typed : r.unknownKey options (.char c) = r.complete options command := by
    have whole : (Key.char c).decompose? = none := rfl
    simp only [unknownKey, whole, typing, Key.char?_char, command]
  have state : (r.toldComplete options command).arguments.state = r.modes.state := by
    have same : r.applyKeymodel options command = r := by
      simp [applyKeymodel, ModeStack.keymodelTarget?, command, Command.new, Command.withArgument,
        flags]
    rw [toldComplete, same]
  rw [typed]
  refine pieced.ends steady (.typed c (r.toldComplete options command))
    ⟨unknown, ?_, action, ?_, rfl⟩ (tells_complete options r _) (surroundings_complete options r _)
    (Quiet.complete options r _).typeahead rfl
  · rw [state]
    exact steady.inserts
  · rw [state]
    exact typing

/-- Several keys that lead nowhere are dropped. -/
theorem Pieced.drops (steady : Steady table r) {keys : List Key} (dropped : DeadEnd table keys)
    (pieced : Pieced table typed told (keys ++ r.typeahead.map Queued.key)) :
    Accounted table typed told r.events r.abort :=
  pieced.ends steady (.dropped keys) dropped (tells_abort r) rfl rfl rfl

/-- The command layer collects the characters of a command. -/
theorem Typing.commandKey_eq (typing : Typing table r) (c : Char) :
    r.commandKey options (.char c) = lookUp options (r.gathered (.char c)) := by
  have uncounted := takesCounts_inserting typing.inserts
  have table : tableKey options (r.noted (.char c)) (.char c) =
      lookUp options (r.gathered (.char c)) :=
    if_neg (by simp [PendingCommand.repeatsOperator, noted, typing.plain.operator])
  rw [commandKey_table options typing.plain.awaiting (by rw [Key.isEscape_char, Bool.false_and])
    (by rw [uncounted, Bool.false_and]), table]

/-- Keys wait for more. -/
theorem Pieced.waits {next : Resolver} (typing : Typing table next)
    (pieced : Pieced table typed told (left next)) (events : next.events = r.events) :
    Accounted table typed told r.events next :=
  ⟨[], by simp [events], fun _ => ⟨typing, by simpa using pieced⟩⟩

/-- A key behind those that a held command needs. -/
theorem Collected.held_append {pending : PendingCommand} (collected : Collected table pending)
    (key : Key) {held : Reached Action} (holding : pending.held = some held) :
    held.length ≤ (pending.keys ++ [key]).length ∧
      table.table.get? .insert ((pending.keys ++ [key]).take held.length) = some held.value := by
  obtain ⟨long, bound⟩ := collected.held held holding
  refine ⟨by simp only [List.length_append]; omega, ?_⟩
  rw [List.take_append_of_le_length long]
  exact bound

theorem Typing.gathered_characters (typing : Typing table r) (c : Char) :
    ∀ key ∈ (r.gathered (.char c)).pending.keys, ∃ c, key = .char c := by
  intro key member
  rcases List.mem_append.mp member with before | last
  · exact typing.collected.characters key before
  · exact ⟨c, List.mem_singleton.mp last⟩

/-- Keys that the table does not know. -/
theorem Pieced.unknown (plain : NeedsNoArgument table) (typing : Typing table r) (c : Char)
    (found : table.lookup .insert (r.gathered (.char c)).pending.keys = .unmapped)
    (pieced : Pieced table typed told (left (r.gathered (.char c)))) :
    Accounted table typed told r.events (unknownKeys options (r.gathered (.char c))) := by
  have steady := typing.toSteady.gathered (.char c)
  unfold unknownKeys
  split
  · rename_i isHeld
    obtain ⟨held, holding⟩ := Option.isSome_iff_exists.mp isHeld
    have collected : Collected table (r.gathered (.char c)).pending :=
      ⟨typing.gathered_characters c, fun _ => typing.collected.held_append (.char c),
        fun nothing => absurd (nothing.symm.trans holding) (by simp)⟩
    exact Pieced.fires options plain ⟨steady, collected⟩ holding pieced
  · rename_i notHeld
    have nothing : r.pending.held = none := by simpa [gathered] using notHeld
    dsimp only
    split
    · rename_i single alone
      have only : r.pending.keys ++ [.char c] = [] ++ [single] := alone
      obtain ⟨-, last⟩ := List.append_inj' only rfl
      obtain rfl := List.singleton_inj.mp last
      have text : left (r.gathered (.char c)) = .char c :: r.typeahead.map Queued.key :=
        congrArg (· ++ r.typeahead.map Queued.key) alone
      rw [alone] at found
      rw [text] at pieced
      exact Pieced.types options (steady.of_pending (steady.plain.collect ..)) found pieced
    · rename_i several
      have dropped : DeadEnd table (r.gathered (.char c)).pending.keys := by
        refine ⟨?_, ?_, found⟩
        · cases keys : r.pending.keys with
          | nil => exact absurd (by simp [gathered, keys]) (several (.char c))
          | cons first rest => simp [gathered, keys]
        · intro front typed start part
          rcases List.prefix_concat_iff.mp start with whole | before
          · exact absurd whole part
          · exact typing.collected.waits nothing front typed before
      exact pieced.drops (steady.of_pending (steady.plain.collect ..)) dropped

/-- A character while text is typed. -/
theorem Pieced.commandKey (plain : NeedsNoArgument table) (typing : Typing table r) (c : Char)
    (pieced : Pieced table typed told (left (r.gathered (.char c)))) :
    Accounted table typed told r.events (r.commandKey options (.char c)) := by
  rw [typing.commandKey_eq]
  have steady := typing.toSteady.gathered (.char c)
  have lookup : (r.gathered (.char c)).keys.lookup (.of (r.gathered (.char c)).modes.mode)
      (r.gathered (.char c)).pending.keys =
      table.lookup .insert (r.gathered (.char c)).pending.keys := by
    rw [MapMode.of_inserting steady.inserts, steady.keys]
  have value {found : Lookup Action}
      (looked : table.lookup .insert (r.gathered (.char c)).pending.keys = found) :
      table.table.get? .insert (r.gathered (.char c)).pending.keys = found.value? := by
    rw [← looked]
    exact (KeyTable.value?_lookup ..).symm
  have characters := typing.gathered_characters c
  unfold lookUp
  rw [lookup]
  split
  · rename_i action found
    exact Pieced.resolves options plain steady.released (value found) pieced
  · rename_i action found
    have all : (r.gathered (.char c)).pending.keys.length - 1 + 1 =
        (r.gathered (.char c)).pending.keys.length := by
      simp [gathered]
    refine pieced.waits ⟨steady.of_pending (steady.plain.collect ..), characters, ?_, by simp⟩ rfl
    rintro held ⟨⟩
    refine ⟨by simp [Reached.length, all], ?_⟩
    rw [Reached.length, all, List.take_length]
    exact value found
  · rename_i found
    have reaches (held : Reached Action) (holding : r.pending.held = some held) :=
      typing.collected.held_append (.char c) holding
    refine pieced.waits ⟨steady, characters, reaches, ?_⟩ rfl
    intro nothing front typed start
    rcases List.prefix_concat_iff.mp start with rfl | before
    · exact found
    · exact typing.collected.waits nothing front typed before
  · rename_i found
    exact pieced.unknown options plain typing c found

end Steps

end Resolver
end ModalInput
