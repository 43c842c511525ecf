/-
# ModalInput.Proofs.ToldActions -- where the action of a command comes from

The action of every command that is told was found in the table of the commands or
in a mapping, or belongs to a key that no table holds.  So what all of these have,
whatever it is, every command has that is told (`Resolver.Only.moves`), and the flags
of a command are those of its action.

* `CommandKeys.Only`, `MappingStore.Only` -- tables and mappings with actions of a
  kind only; one lemma for each change of a store, and `ExCommands.run_only` for
  command lines.
* `Resolver.Only` -- what is pending is of the kind as well; kept by every move.
-/
import ModalInput.Ex.Command
import ModalInput.Proofs.Layers
import ModalInput.Proofs.TableContents

namespace ModalInput

set_option autoImplicit false

/-! ## Tables -/

namespace KeyTable

variable {μ κ ν : Type} [DecidableEq μ] [DecidableEq κ]

/-- Every value of the table is of a kind. -/
def Every (P : ν → Prop) (table : KeyTable μ κ ν) : Prop :=
  ∀ mode keys value, table.get? mode keys = some value → P value

variable {P : ν → Prop}

theorem every_empty : (KeyTable.empty : KeyTable μ κ ν).Every P := by
  intro mode keys value found
  rw [get?_empty] at found
  cases found

theorem Every.insert {table : KeyTable μ κ ν} (every : table.Every P) (mode : μ) {keys : List κ}
    (typed : keys ≠ []) {value : ν} (holds : P value) : (table.insert mode keys value).Every P := by
  intro mode' keys' value' found
  rw [get?_insert _ _ _ _ typed] at found
  split at found
  · cases found
    exact holds
  · exact every mode' keys' value' found

end KeyTable

variable {P : Action → Prop}

/-- Every action of the table is of a kind. -/
def CommandKeys.Only (P : Action → Prop) (keys : CommandKeys) : Prop := keys.table.Every P

theorem CommandKeys.only_empty : CommandKeys.empty.Only P := KeyTable.every_empty

theorem CommandKeys.Only.bind {keys : CommandKeys} (only : keys.Only P) (modes : MappedModes)
    {sequence : List Key} (typed : sequence ≠ []) {action : Action} (holds : P action) :
    (keys.bind modes sequence action).Only P :=
  List.foldlRecOn (motive := KeyTable.Every P) modes.toList _ only
    fun _ every mode _ => every.insert mode typed holds

theorem CommandKeys.Only.lookup {keys : CommandKeys} (only : keys.Only P) {mode : MapMode}
    {typed : List Key} {action : Action}
    (found : (keys.lookup mode typed).value? = some action) : P action := by
  apply only mode typed action
  rw [← KeyTable.value?_lookup]
  exact found

/-- Every binding of the default table gives an action of the kind. -/
theorem CommandKeys.only_default (bindings : ∀ row ∈ defaultBindings, P row.action) :
    CommandKeys.default.Only P := by
  intro mode keys action found
  obtain ⟨row, member, _, _, same⟩ := CommandKeys.exists_binding found
  rw [← same]
  exact bindings row member

/-! ## Mappings -/

/-- The target is keys, an expression, or an action of a kind. -/
def MappingTarget.Only (P : Action → Prop) (target : MappingTarget) : Prop :=
  ∀ action, target = .action action → P action

namespace MappingStore

/-- Every mapping of a table leads to keys, to an expression, or to an action of a
kind. -/
structure TargetsOnly (P : Action → Prop) (table : KeyTable MapMode Key StoredMapping) : Prop where
  trimmed : table.Trimmed
  targets : table.Every fun stored => stored.mapping.rhs.Only P

/-- The mappings lead to actions of a kind only. -/
def Only (P : Action → Prop) (store : MappingStore) : Prop := TargetsOnly P store.table

theorem only_new : Only P {} where
  trimmed := KeyTable.trimmed_empty
  targets := KeyTable.every_empty

variable {store store' : MappingStore}

theorem Only.lookup (only : store.Only P) {mode : MapMode} {keys : List Key} {mapping : Mapping}
    (found : (store.lookup mode keys).value? = some mapping) : mapping.rhs.Only P := by
  rw [value?_lookup] at found
  obtain ⟨stored, valued, rfl⟩ := Option.map_eq_some_iff.mp found
  exact only.targets mode keys stored valued

theorem Only.add (only : store.Only P) {modes : MappedModes} {lhs : List Key} {rhs : MappingTarget}
    {noremap : Bool} (target : rhs.Only P)
    (added : store.add modes lhs rhs noremap = .ok store') : store'.Only P := by
  unfold MappingStore.add at added
  split at added
  · cases added
  · rename_i typed
    have typed : lhs ≠ [] := by simpa using typed
    cases added
    refine List.foldlRecOn (motive := TargetsOnly P) modes.toList _ only ?_
    intro table only mode _
    exact ⟨only.trimmed.insert _ _ _, only.targets.insert mode typed target⟩

theorem Only.addText (only : store.Only P) {modes : MappedModes} {lhs rhs : String}
    {noremap expression : Bool}
    (added : store.addText modes lhs rhs noremap expression = .ok store') : store'.Only P := by
  have keys (keys : List Key) : (MappingTarget.keys keys).Only P := fun _ same => by cases same
  unfold MappingStore.addText at added
  split at added
  · cases added
  · split at added
    · split at added
      · cases added
      · exact only.add (fun _ same => by cases same) added
    · split at added
      · exact only.add (keys _) added
      · exact only.add (keys _) added

theorem Only.remove (only : store.Only P) {modes : MappedModes} {lhs : List Key}
    (removed : store.remove modes lhs = .ok store') : store'.Only P := by
  unfold MappingStore.remove at removed
  split at removed
  · cases removed
    refine List.foldlRecOn (motive := TargetsOnly P) modes.toList _ only ?_
    intro table only mode _
    refine ⟨only.trimmed.remove _ _, ?_⟩
    intro mode' keys stored found
    rw [only.trimmed.get?_remove] at found
    split at found
    · cases found
    · exact only.targets mode' keys stored found
  · cases removed

theorem Only.clear (only : store.Only P) (modes : MappedModes) : (store.clear modes).Only P := by
  refine List.foldlRecOn (motive := TargetsOnly P) modes.toList _ only ?_
  intro table only mode _
  refine ⟨only.trimmed.clearMode _, ?_⟩
  intro mode' keys stored found
  rw [KeyTable.get?_clearMode] at found
  split at found
  · cases found
  · exact only.targets mode' keys stored found

end MappingStore

namespace ExCommands

theorem withMappings_only {state : ExState} (only : state.mappings.Only P)
    {change : Except MappingError MappingStore}
    (changed : ∀ mappings, change = .ok mappings → mappings.Only P) :
    (withMappings state change).state.mappings.Only P := by
  unfold withMappings
  split
  · exact changed _ rfl
  · exact only

theorem perform_only (command : ExCommand) (name : String) (arguments : List Char)
    {state : ExState} (only : state.mappings.Only P) :
    (perform command name arguments state).state.mappings.Only P := by
  cases command with
  | set command => exact only
  | map modes noremap =>
      unfold perform
      dsimp only
      split
      · exact only
      · exact withMappings_only only fun mappings added => only.addText added
  | unmap modes =>
      unfold perform
      dsimp only
      split
      · exact only
      · exact withMappings_only only fun mappings removed => only.remove removed
  | mapClear modes =>
      unfold perform
      dsimp only
      split
      · exact only.clear modes
      · exact only

/-- A line maps keys to keys and to expressions, and adds no action. -/
theorem run_only (commands : ExCommands) (line : String) {state : ExState}
    (only : state.mappings.Only P) : (commands.run line state).2.state.mappings.Only P := by
  unfold run
  split
  · exact only
  · dsimp only
    split
    · exact only
    · exact perform_only _ _ _ only

end ExCommands

/-! ## Commands -/

/-- The command stems from an action of a kind, and has its flags. -/
structure Command.Stems (P : Action → Prop) (command : Command) : Prop where
  action : P command.action
  flags : command.flags = command.action.flags

namespace Command.Stems

theorem new {action : Action} (holds : P action) (count : Count) :
    (Command.new action count).Stems P :=
  ⟨holds, rfl⟩

variable {command : Command} (stems : command.Stems P)
include stems

theorem withCount (count : Count) : (command.withCount count).Stems P :=
  ⟨stems.action, stems.flags⟩

theorem withArgument (argument : Argument Command) : (command.withArgument argument).Stems P :=
  ⟨stems.action, stems.flags⟩

end Command.Stems

/-- The command that is told stems from an action of a kind. -/
def EngineEvent.Stems (P : Action → Prop) : EngineEvent → Prop
  | .command resolved => resolved.command.Stems P
  | .modeChanged _ | .failed _ => True

/-- The command that waits for an argument; a register is named before there is
one. -/
def Awaiting.command? : Awaiting → Option Command
  | .register => none
  | .character command | .line command _ _ | .offsets command => some command

/-- What is pending comes from actions of a kind. -/
structure PendingCommand.Only (P : Action → Prop) (pending : PendingCommand) : Prop where
  held : ∀ held, pending.held = some held → P held.value
  operator : ∀ operator, pending.operator = some operator → operator.command.Stems P
  awaits : ∀ awaiting command, pending.awaiting = some awaiting →
    awaiting.command? = some command → command.Stems P

namespace PendingCommand.Only

theorem empty : PendingCommand.Only P {} := ⟨by simp, by simp, by simp⟩

variable {pending pending' : PendingCommand} (only : pending.Only P)
include only

/-- The parts that count are the same. -/
theorem of_same (held : pending'.held = pending.held)
    (operator : pending'.operator = pending.operator)
    (awaiting : pending'.awaiting = pending.awaiting) : pending'.Only P :=
  ⟨by rw [held]; exact only.held, by rw [operator]; exact only.operator,
    by rw [awaiting]; exact only.awaits⟩

/-- Another argument is awaited. -/
theorem await (awaiting : Awaiting)
    (stems : ∀ command, awaiting.command? = some command → command.Stems P) :
    PendingCommand.Only P { pending with awaiting := some awaiting } := by
  refine ⟨only.held, only.operator, ?_⟩
  intro other command same waits
  cases same
  exact stems command waits

theorem answered : PendingCommand.Only P { pending with awaiting := none } :=
  ⟨only.held, only.operator, by simp⟩

/-- No shorter command is held any more. -/
theorem released (keys : List Key) : PendingCommand.Only P { pending with held := none, keys } :=
  ⟨by simp, only.operator, only.awaits⟩

/-- A shorter command is held. -/
theorem hold {held : Reached Action} (holds : P held.value) :
    PendingCommand.Only P { pending with held := some held } := by
  refine ⟨?_, only.operator, only.awaits⟩
  intro other same
  cases same
  exact holds

end PendingCommand.Only

/-! ## The resolver -/

namespace Resolver

/-- Everything that a command can come from is an action of a kind. -/
structure Only (P : Action → Prop) (r : Resolver) : Prop where
  table : r.keys.Only P
  mappings : r.mappings.Only P
  reached : ∀ found, r.trailMatch = some found → found.value.rhs.Only P
  pending : r.pending.Only P

/-- The actions of keys that no table holds are of a kind. -/
structure Unbound (P : Action → Prop) : Prop where
  repeated : P .currentLine
  typed : ∀ mode action, typingAction? mode = some action → P action

/-- What is pending comes from the kind, and so does every command that is told. -/
structure Brings (P : Action → Prop) (r r' : Resolver) : Prop where
  pending : r'.pending.Only P
  told : Emits (EngineEvent.Stems P) r r'

variable (options : OptionView)

namespace Brings

/-- What is pending changes, and nothing is told. -/
theorem silent {r r' : Resolver} (pending : r'.pending.Only P) (events : r'.events = r.events) :
    Brings P r r' :=
  ⟨pending, .of_events events⟩

/-- Nothing was told before. -/
theorem of_events {a b c : Resolver} (brings : Brings P b c) (same : b.events = a.events) :
    Brings P a c :=
  ⟨brings.pending, (Emits.of_events same).trans brings.told⟩

theorem abort (r : Resolver) : Brings P r r.abort :=
  ⟨.empty, .abort (fun _ => trivial) r⟩

theorem complete (r : Resolver) {command : Command} (stems : command.Stems P) :
    Brings P r (r.complete options command) :=
  ⟨.empty, .complete (fun _ => trivial) options r command stems⟩

/-- The argument of a command is there. -/
theorem argumentDone {r : Resolver} (only : r.pending.Only P) {command : Command}
    (stems : command.Stems P) : Brings P r (r.argumentDone options command) := by
  refine ⟨by rw [pending_argumentDone]; exact .empty, ?_⟩
  apply Emits.argumentDone (fun _ => trivial)
  · intro alone
    exact stems
  · intro operator waiting
    exact ((only.operator operator waiting).withCount _).withArgument _

/-- An action of the kind. -/
theorem commandResolved {r : Resolver} (only : r.pending.Only P) {action : Action}
    (holds : P action) (keys : List Key) :
    Brings P r (r.commandResolved options action keys) := by
  have counted : r.counted.pending.Only P :=
    only.of_same (held_counted r) (operator_counted r) (awaiting_counted r)
  have stems : (r.commandOf action).Stems P := by
    unfold commandOf
    split <;> exact ⟨holds, rfl⟩
  have same := events_counted r
  have step := commandResolved_step options r action keys
  generalize r.commandResolved options action keys = after at step ⊢
  cases step with
  | starts starts =>
      refine ⟨⟨counted.held, ?_, counted.awaits⟩, ?_⟩
      · intro operator waiting
        cases waiting
        exact stems
      · exact (Emits.of_events same).trans (.pushMode (fun _ => trivial) _ _)
  | finishes noOperator ready => exact (argumentDone options counted stems).of_events same
  | awaitsCharacter kind =>
      exact silent (counted.await _ fun _ waits => by cases waits; exact stems) same
  | opensLine kind =>
      refine ⟨counted.await _ fun _ waits => by cases waits; exact stems, ?_⟩
      exact ((Emits.of_events same).trans (.pushMode (fun _ => trivial) r.counted .commandLine)).trans
        (.of_events rfl)
  | awaitsOffsets kind =>
      exact silent (counted.await _ fun _ waits => by cases waits; exact stems) same

/-- The held command runs. -/
theorem fireHeld {r : Resolver} (only : r.pending.Only P) :
    Brings P r (r.fireHeld options) := by
  unfold Resolver.fireHeld
  split
  · exact silent only rfl
  · rename_i held holding
    exact (commandResolved options (only.released []) (only.held held holding) _).of_events rfl

/-- A key of the command layer. -/
theorem commandKey (own : Unbound P) {r : Resolver} (table : r.keys.Only P)
    (only : r.pending.Only P) (key : Key) : Brings P r (r.commandKey options key) := by
  have step := commandKey_step options r key
  have answered : r.answered.pending.Only P := only.answered
  have gathered : (r.gathered key).pending.Only P := only.of_same rfl rfl rfl
  have awaited {awaiting : Awaiting} {command : Command}
      (awaits : r.pending.awaiting = some awaiting) (waits : awaiting.command? = some command) :
      command.Stems P := only.awaits awaiting command awaits waits
  generalize r.commandKey options key = after at step ⊢
  cases step with
  | drops => exact abort r
  | refuses c awaits => exact ⟨.empty, (abort r).told.trans (.emit _ trivial)⟩
  | names register awaits named => exact silent (answered.of_same rfl rfl rfl) rfl
  | supplies command c awaits types =>
      exact (argumentDone options answered ((awaited awaits rfl).withArgument _)).of_events rfl
  | enters command prompt typed awaits confirms =>
      have popped : Emits (EngineEvent.Stems P) r r.answered.popMode :=
        .popMode (fun _ => trivial) r.answered
      have done := argumentDone options (r := r.answered.popMode) answered
        ((awaited awaits rfl).withArgument (.line (String.ofList typed)))
      exact ⟨done.pending, popped.trans done.told⟩
  | edits command prompt typed awaits =>
      exact silent (answered.await _ fun _ waits => by cases waits; exact awaited awaits rfl) rfl
  | waits command awaits =>
      exact silent (answered.await _ fun _ waits => by cases waits; exact awaited awaits rfl) rfl
  | counts count idle first mode digit =>
      refine silent ?_ rfl
      show (((r.noted key).pending).withCurrentCount count).Only P
      unfold PendingCommand.withCurrentCount
      split <;> exact only.of_same rfl rfl rfl
  | asksRegister idle first mode sign =>
      have shown : (r.noted key).pending.Only P := only.of_same rfl rfl rfl
      exact silent (shown.await _ (by simp [Awaiting.command?])) rfl
  | repeats operator idle waiting again =>
      have doubled : (r.gathered key).doubled.pending.Only P :=
        (gathered.released []).of_same rfl rfl rfl
      exact (argumentDone options doubled (.new own.repeated _)).of_events rfl
  | gathers idle found => exact silent gathered rfl
  | holds action idle found =>
      exact silent (gathered.hold (table.lookup (by rw [found]; rfl))) rfl
  | resolves action idle found =>
      exact (commandResolved options (gathered.released []) (table.lookup (by rw [found]; rfl))
        _).of_events rfl
  | fires held idle holding => exact (fireHeld options gathered).of_events rfl
  | parts first second idle single nothing apart => exact silent (only.of_same rfl rfl rfl) rfl
  | types action c idle single nothing typing typed =>
      exact (complete options _ ((Command.Stems.new (own.typed _ _ typing) 0).withArgument
        _)).of_events rfl

end Brings

namespace Only

variable (own : Unbound P) {r next : Resolver}

theorem offers (only : Only P r) {mapping : Mapping} (found : r.Offers mapping) :
    mapping.rhs.Only P := by
  cases found with
  | typed key maps found => exact only.mappings.lookup found
  | reached before found => exact only.reached _ found

/-- The command layer at work, and nothing else changed. -/
theorem of_surroundings (only : Only P r) (same : next.surroundings = r.surroundings)
    (pending : next.pending.Only P) : Only P next := by
  have keys : next.keys = r.keys := congrArg Surroundings.keys same
  have mappings : next.mappings = r.mappings := congrArg Surroundings.mappings same
  have trailMatch : next.trailMatch = r.trailMatch := congrArg Surroundings.trailMatch same
  exact ⟨keys ▸ only.table, mappings ▸ only.mappings, trailMatch ▸ only.reached, pending⟩

include own in
theorem move (only : Only P r) (move : Move options r next) :
    Only P next ∧ Emits (EngineEvent.Stems P) r next := by
  cases move with
  | queue typeahead =>
      exact ⟨⟨only.table, only.mappings, only.reached, only.pending⟩, .of_events rfl⟩
  | joins key maps =>
      exact ⟨⟨only.table, only.mappings, only.reached, only.pending⟩, .of_events rfl⟩
  | reaches key mapping maps found =>
      refine ⟨⟨only.table, only.mappings, ?_, only.pending⟩, .of_events rfl⟩
      rintro _ ⟨⟩
      exact only.mappings.lookup found
  | leaves =>
      exact ⟨⟨only.table, only.mappings, by simp [withoutTrail], only.pending⟩, .of_events rfl⟩
  | acts mapping action found target =>
      have taken : Only P r.withoutTrail :=
        ⟨only.table, only.mappings, by simp [withoutTrail], only.pending⟩
      have brings := Brings.commandResolved options taken.pending
        (only.offers found action target) []
      exact ⟨taken.of_surroundings (surroundings_commandResolved options _ action [])
        brings.pending, (Emits.of_events rfl).trans brings.told⟩
  | key key empty =>
      have brings := Brings.commandKey options own only.table only.pending key
      exact ⟨only.of_surroundings (surroundings_commandKey options r key) brings.pending,
        brings.told⟩
  | fires =>
      have brings := Brings.fireHeld options only.pending
      exact ⟨only.of_surroundings (surroundings_fireHeld options r) brings.pending, brings.told⟩
  | supplies command values awaits =>
      have stems := only.pending.awaits _ command awaits rfl
      have brings := Brings.argumentDone options only.pending
        (stems.withArgument (.offsets values))
      exact ⟨only.of_surroundings (surroundings_argumentDone options r _) brings.pending,
        brings.told⟩
  | cancels => exact ⟨⟨only.table, only.mappings, by simp [cancel, abort, leaveTemporary,
      emitSteps, forget], .empty⟩, .cancel (fun _ => trivial) r⟩
  | fails error => exact ⟨⟨only.table, only.mappings, only.reached, only.pending⟩,
      .emit r trivial⟩

include own in
variable {options} in
/-- Whatever the resolver does, it stays so, and tells no other commands. -/
theorem moves (only : Only P r) (moves : Moves options r next) :
    Only P next ∧ Emits (EngineEvent.Stems P) r next := by
  induction moves with
  | refl => exact ⟨only, .refl r⟩
  | step before last ih =>
      obtain ⟨kept, told⟩ := ih
      obtain ⟨only, more⟩ := kept.move options own last
      exact ⟨only, told.trans more⟩

theorem setMode (only : Only P r) (state : ModeState) :
    Only P (r.setMode state) ∧ Emits (EngineEvent.Stems P) r (r.setMode state) :=
  ⟨⟨only.table, only.mappings, by simp [Resolver.setMode, changeMode, emitSteps], .empty⟩,
    .setMode (fun _ => trivial) r state⟩

end Only

end Resolver

end ModalInput
