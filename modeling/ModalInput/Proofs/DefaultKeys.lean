/-
# ModalInput.Proofs.DefaultKeys -- the default table, read off its rows

The default table is made of rows, and a later row takes the keys of an earlier one.
So what keys are in it can be read off the rows, without the table: the action is that
of the last row with these keys (`get?_default`), and longer keys are bound if some row
starts with them (`lookup_default`).
-/
import ModalInput.Proofs.InsertTyping

namespace ModalInput

set_option autoImplicit false

/-- The row binds the keys in a mode. -/
def Binding.gives (row : Binding) (mode : MapMode) (typed : List Key) : Bool :=
  row.modes.contains mode && Key.ofText row.keys = typed

/-- The row binds longer keys that start so. -/
def Binding.extends (row : Binding) (mode : MapMode) (typed : List Key) : Bool :=
  row.modes.contains mode && typed.isPrefixOf (Key.ofText row.keys) &&
    decide (typed.length < (Key.ofText row.keys).length)

namespace CommandKeys

variable {mode : MapMode} {typed : List Key}

/-- After keys were bound in some modes, they have the action there, and nothing else has
changed. -/
theorem get?_table_bind (keys : CommandKeys) (modes : MappedModes) (sequence : List Key)
    (action : Action) (nonempty : typed ≠ []) :
    (keys.bind modes sequence action).table.get? mode typed =
      if modes.contains mode = true ∧ sequence = typed then some action
      else keys.table.get? mode typed := by
  have each (list : List MapMode) (table : KeyTable MapMode Key Action) :
      (list.foldl (fun table mode => table.insert mode sequence action) table).get? mode typed =
        if mode ∈ list ∧ sequence = typed then some action else table.get? mode typed := by
    induction list generalizing table with
    | nil => simp
    | cons first rest ih =>
        rw [List.foldl_cons, ih]
        by_cases same : sequence = typed
        · rw [same, KeyTable.get?_insert _ _ _ _ nonempty]
          by_cases here : mode = first <;> simp [here]
        · have kept : (table.insert first sequence action).get? mode typed =
              table.get? mode typed := by
            cases sequence with
            | nil => rfl
            | cons key more =>
                rw [KeyTable.get?_insert _ _ _ _ (by simp), if_neg]
                rintro ⟨_, rfl⟩
                exact same rfl
          simp [same, kept]
  have bound := each modes.toList keys.table
  simp only [MappedModes.mem_toList] at bound
  exact bound

/-- The action of the last row with the keys. -/
theorem get?_default (nonempty : typed ≠ []) :
    CommandKeys.default.table.get? mode typed =
      (defaultBindings.reverse.find? (·.gives mode typed)).map Binding.action := by
  have each (rows : List Binding) (keys : CommandKeys) :
      (rows.foldl (fun keys row => keys.bind row.modes (Key.ofText row.keys) row.action)
          keys).table.get? mode typed =
        ((rows.reverse.find? (·.gives mode typed)).map Binding.action).or
          (keys.table.get? mode typed) := by
    induction rows generalizing keys with
    | nil => rfl
    | cons first rest ih =>
        rw [List.foldl_cons, ih, get?_table_bind _ _ _ _ nonempty, List.reverse_cons,
          List.find?_append]
        cases rest.reverse.find? (·.gives mode typed) with
        | some row => rfl
        | none =>
            have decided : first.gives mode typed = true ↔
                first.modes.contains mode = true ∧ Key.ofText first.keys = typed := by
              rw [Binding.gives, Bool.and_eq_true, decide_eq_true_iff]
            by_cases gives : first.gives mode typed = true
            · rw [if_pos (decided.mp gives)]
              simp [gives]
            · rw [if_neg (mt decided.mpr gives)]
              simp [gives]
  have whole := each defaultBindings .empty
  rw [show (CommandKeys.empty.table.get? mode typed) = none from rfl, Option.or_none] at whole
  exact whole

/-- Longer keys are bound if a row starts with the keys. -/
theorem continues_default :
    KeyTable.Continues CommandKeys.default.table.get? mode typed ↔
      defaultBindings.any (·.extends mode typed) = true := by
  rw [List.any_eq_true]
  constructor
  · rintro ⟨key, rest, valued⟩
    obtain ⟨action, found⟩ := Option.isSome_iff_exists.mp valued
    obtain ⟨row, member, contains, keys, _⟩ := exists_binding found
    refine ⟨row, member, ?_⟩
    rw [Binding.extends, contains, keys]
    simp
  · rintro ⟨row, member, longer⟩
    simp only [Binding.extends, Bool.and_eq_true, List.isPrefixOf_iff_prefix,
      decide_eq_true_iff] at longer
    obtain ⟨⟨contains, more, keys⟩, length⟩ := longer
    cases more with
    | nil => simp [← keys] at length
    | cons key rest =>
        have gives : row.gives mode (typed ++ key :: rest) = true := by
          simp [Binding.gives, contains, keys]
        refine ⟨key, rest, ?_⟩
        rw [get?_default (by simp), Option.isSome_map, List.find?_isSome]
        exact ⟨row, List.mem_reverse.mpr member, gives⟩

/-- What keys are in the default table. -/
theorem lookup_default (nonempty : typed ≠ []) :
    CommandKeys.default.lookup mode typed =
      .of ((defaultBindings.reverse.find? (·.gives mode typed)).map Binding.action)
        (defaultBindings.any (·.extends mode typed)) := by
  have := Classical.dec (KeyTable.Continues CommandKeys.default.table.get? mode typed)
  rw [lookup, trimmed_default.lookup_eq, get?_default nonempty]
  congr 1
  rw [Bool.eq_iff_iff, decide_eq_true_iff, continues_default]

end CommandKeys

end ModalInput
