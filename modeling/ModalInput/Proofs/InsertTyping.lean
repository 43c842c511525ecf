/-
# ModalInput.Proofs.InsertTyping -- a character in Insert mode

The default table binds no plain character in Insert mode but the line feed, so a
plain character that reaches the command layer there is typed: one command is told,
and nothing of it stays pending.

* `CommandKeys.default_lookup_char` -- the character is unmapped, and starts no
  longer keys.
* `Resolver.commandKey_char` -- what is told about it.
-/
import ModalInput.Proofs.TableContents
import ModalInput.Resolver.CommandLayer

namespace ModalInput

set_option autoImplicit false

namespace CommandKeys

theorem trimmed_bind {keys : CommandKeys} (trimmed : keys.table.Trimmed) (modes : MappedModes)
    (sequence : List Key) (action : Action) :
    (keys.bind modes sequence action).table.Trimmed := by
  have each (list : List MapMode) (table : KeyTable MapMode Key Action)
      (trimmed : table.Trimmed) :
      (list.foldl (fun table mode => table.insert mode sequence action) table).Trimmed := by
    induction list generalizing table with
    | nil => exact trimmed
    | cons first rest ih => exact ih _ (trimmed.insert first sequence action)
  exact each modes.toList keys.table trimmed

theorem trimmed_default : CommandKeys.default.table.Trimmed := by
  have each (rows : List Binding) (keys : CommandKeys) (trimmed : keys.table.Trimmed) :
      (rows.foldl (fun keys row => keys.bind row.modes (Key.ofText row.keys) row.action)
        keys).table.Trimmed := by
    induction rows generalizing keys with
    | nil => exact trimmed
    | cons first rest ih => exact ih _ (trimmed_bind trimmed _ _ _)
  exact each defaultBindings .empty KeyTable.trimmed_empty

/-- The only plain character that starts the keys of a binding for Insert mode. -/
theorem insertBindings : ∀ row ∈ defaultBindings, row.modes.insert = true →
    (Key.ofText row.keys).head?.bind Key.char? ∈ [none, some '\n'] := by
  decide +kernel

/-- A plain character starts no keys of the default table in Insert mode. -/
theorem default_get?_char {c : Char} (plain : c ≠ '\n') (rest : List Key) :
    CommandKeys.default.table.get? .insert (.char c :: rest) = none := by
  cases found : CommandKeys.default.table.get? .insert (.char c :: rest) with
  | none => rfl
  | some action =>
      obtain ⟨row, member, contains, keys, _⟩ := exists_binding found
      have starts := insertBindings row member contains
      rw [keys] at starts
      exact absurd (by simpa using starts) plain

theorem default_lookup_char {c : Char} (plain : c ≠ '\n') :
    CommandKeys.default.lookup .insert [.char c] = .unmapped := by
  have ends : ¬ KeyTable.Continues CommandKeys.default.table.get? .insert [.char c] := by
    rintro ⟨key, rest, valued⟩
    rw [List.singleton_append, default_get?_char plain] at valued
    cases valued
  have := Classical.dec (KeyTable.Continues CommandKeys.default.table.get? .insert [.char c])
  rw [lookup, trimmed_default.lookup_eq, default_get?_char plain, decide_eq_false ends]
  rfl

end CommandKeys

namespace Resolver

/-- What is told about a typed character. -/
def typedCharacter (state : ModeState) (c : Char) : EngineEvent :=
  .command ⟨(Command.new .insertCharacter 0).withArgument (.character c), { count := 0, state }⟩

variable (options : OptionView)

/-- Typing a character in Insert mode changes no mode. -/
theorem complete_insertCharacter (r : Resolver) (inserting : r.modes.mode = .insert) (c : Char) :
    r.complete options ((Command.new .insertCharacter 0).withArgument (.character c)) =
      (r.emit (typedCharacter r.modes.state c)).forget := by
  have stays : r.applyKeymodel options
      ((Command.new .insertCharacter 0).withArgument (.character c)) = r := by
    simp [applyKeymodel, ModeStack.keymodelTarget?, Command.new, Command.withArgument,
      Action.insertCharacter, Action.ofEdit]
  have selects : r.modes.mode.isSelecting = false := by
    rw [inserting]
    rfl
  have keeps (r : Resolver) (selects : r.modes.mode.isSelecting = false) : r.applyModeChange options
      ((Command.new .insertCharacter 0).withArgument (.character c)) = r := by
    simp [applyModeChange, selects, Command.new, Command.withArgument, Action.insertCharacter,
      Action.ofEdit]
  unfold complete
  rw [stays]
  exact congrArg forget (keeps _ selects)

/-- A plain character that reaches the command layer in Insert mode, while nothing is
pending there. -/
theorem commandKey_char {r : Resolver} (keys : r.keys = .default)
    (inserting : r.modes.mode = .insert) (pending : r.pending = {}) {c : Char} (plain : c ≠ '\n') :
    r.commandKey options (.char c) = r.emit (typedCharacter r.modes.state c) := by
  have unknown : r.keys.lookup (.of r.modes.mode) [.char c] = .unmapped := by
    rw [keys, inserting]
    exact CommandKeys.default_lookup_char plain
  have whole : (Key.char c).decompose? = none := rfl
  have escapes : (Key.char c).isEscape = false := by
    unfold Key.isEscape
    split <;> simp_all [Key.char, Key.special, Modifiers.none, Modifiers.onlyControl]
  simp only [commandKey, pending, escapes, Bool.false_and, Bool.false_eq_true, if_false, inserting,
    takesCounts, tableKey, PendingCommand.repeatsOperator, List.nil_append, lookUp]
  rw [inserting] at unknown
  simp only [unknown, unknownKeys, Option.isSome_none, Bool.false_eq_true, if_false, unknownKey,
    whole, inserting, typingAction?, Key.char?_char]
  have told := complete_insertCharacter options { r with pending := { shown := [.char c] } }
    inserting c
  refine told.trans ?_
  simp [emit, forget, ← pending]

end Resolver

end ModalInput
