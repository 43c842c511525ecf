/-
# ModalInput.Proofs.RemainingMappings -- the mappings that are still there

Which mappings a store shows, and what keys lead to in it, follows from what was done
to it.  Every addition makes one mapping, with a number of its own (`makings`), and the
mapping lasts in a mode as long as no later operation touches its keys there.  What is
shown for some modes are the mappings that last in one of them, each once, however many
modes share it (`remaining`); and keys lead to the mapping of the last operation that
touched them, if that made one (`lastMade?`).

* `mem_makings`, `nodup_makings` -- each addition of a history, once.
* `mem_stored` -- what is shown is what is in the table in a shown mode.
* `stored_perm` -- the shown mappings, number by number.
* `remaining_shown` -- the listing and the lookups of every store.
-/
import ModalInput.Proofs.ListedModes

namespace ModalInput.MappingStore

set_option autoImplicit false

/-! ## The history of a store -/

/-- Every mapping that is made, numbered in order, with what is done after it. -/
def makings (serial : Nat) : List Operation → List (StoredMapping × List Operation)
  | [] => []
  | operation :: later =>
      (operation.makes? serial).toList.map (fun stored => (stored, later)) ++
        makings (serial + if (operation.makes? serial).isSome then 1 else 0) later

/-- A mapping is in effect in one of some modes, after later operations. -/
def lasts (shown : MappedModes) (mapping : Mapping) (later : List Operation) : Bool :=
  shown.toList.any fun mode => mapping.modes.contains mode &&
    later.all fun operation => !operation.touches mode mapping.lhs

/-- The mappings that were made and are still in effect in one of some modes, and whose
keys start with others. -/
def remaining (operations : List Operation) (shown : MappedModes) (start : List Key) :
    List StoredMapping :=
  ((makings 0 operations).filter fun made =>
    start.isPrefixOf made.1.mapping.lhs && lasts shown made.1.mapping made.2).map Prod.fst

/-- The mapping that an operation makes, whatever its number. -/
def Operation.mapping? (operation : Operation) : Option Mapping :=
  (operation.makes? 0).map StoredMapping.mapping

/-- The mapping that the last operation that touched some keys of a mode made. -/
def lastMade? (operations : List Operation) (mode : MapMode) (keys : List Key) : Option Mapping :=
  (operations.reverse.find? (·.touches mode keys)).bind Operation.mapping?

theorem map_makes? (operation : Operation) (serial : Nat) :
    (operation.makes? serial).map StoredMapping.mapping = operation.mapping? := by
  cases operation with
  | add modes lhs rhs noremap => cases lhs <;> rfl
  | _ => rfl

theorem lasts_iff (shown : MappedModes) (mapping : Mapping) (later : List Operation) :
    lasts shown mapping later = true ↔ ∃ mode, shown.contains mode = true ∧
      mapping.modes.contains mode = true ∧ Untouched later mode mapping.lhs := by
  simp [lasts, MappedModes.mem_toList, Untouched]

/-! ## Every making once -/

/-- What is made has the number that the store has come to. -/
theorem mem_makings (store : MappingStore) {operations later : List Operation}
    {stored : StoredMapping} :
    (stored, later) ∈ makings store.made operations ↔ ∃ before operation,
      operations = before ++ operation :: later ∧
        operation.makes? (store.after before).made = some stored := by
  induction operations generalizing store with
  | nil => simp [makings]
  | cons first rest ih =>
      have here : (stored, later) ∈
            (first.makes? store.made).toList.map (fun made => (made, rest)) ↔
          rest = later ∧ first.makes? store.made = some stored := by
        simp [and_comm]
      rw [makings, List.mem_append, ← made_run, ih (first.run store), here]
      constructor
      · rintro (⟨rfl, makes⟩ | ⟨before, operation, rfl, makes⟩)
        · exact ⟨[], first, rfl, makes⟩
        · exact ⟨first :: before, operation, rfl, makes⟩
      · rintro ⟨before, operation, cut, makes⟩
        cases before with
        | nil =>
            obtain ⟨rfl, rfl⟩ := List.cons.inj cut
            exact .inl ⟨rfl, makes⟩
        | cons _ before =>
            obtain ⟨rfl, rfl⟩ := List.cons.inj cut
            exact .inr ⟨before, operation, rfl, makes⟩

theorem serial_le (operations : List Operation) (serial : Nat) :
    ∀ made ∈ makings serial operations, serial ≤ made.1.serial := by
  induction operations generalizing serial with
  | nil => simp [makings]
  | cons first rest ih =>
      intro made member
      rw [makings, List.mem_append] at member
      rcases member with here | later
      · obtain ⟨stored, makes, rfl⟩ := List.mem_map.mp here
        exact (serial_of_makes? (Option.mem_toList.mp makes)).ge
      · exact Nat.le_trans (Nat.le_add_right ..) (ih _ made later)

/-- No two makings have one number. -/
theorem nodup_makings (operations : List Operation) (serial : Nat) :
    ((makings serial operations).map fun made => made.1.serial).Nodup := by
  induction operations generalizing serial with
  | nil => exact .nil
  | cons first rest ih =>
      rw [makings]
      cases makes : first.makes? serial with
      | none => simpa using ih _
      | some stored =>
          have first := serial_of_makes? makes
          have fresh : stored.serial ∉
              (makings (serial + 1) rest).map fun made => made.1.serial := by
            intro again
            obtain ⟨made, member, same⟩ := List.mem_map.mp again
            have later := serial_le rest (serial + 1) made member
            omega
          exact List.nodup_cons.mpr ⟨fresh, ih _⟩

/-- What is in a table was made, and nothing has touched its keys there since. -/
theorem get?_after_iff (operations : List Operation) (mode : MapMode) (keys : List Key)
    (stored : StoredMapping) :
    (({} : MappingStore).after operations).table.get? mode keys = some stored ↔
      ∃ later, (stored, later) ∈ makings 0 operations ∧ keys = stored.mapping.lhs ∧
        stored.mapping.modes.contains mode = true ∧ Untouched later mode keys := by
  constructor
  · intro found
    have typed : keys ≠ [] := by
      rintro rfl
      rw [KeyTable.get?_nil] at found
      cases found
    obtain ⟨before, modes, rhs, noremap, later, rfl, rfl⟩ := exists_added found
    refine ⟨later, (mem_makings {}).mpr ⟨before, _, rfl, ?_⟩, rfl,
      (inEffect_iff before later modes typed rhs noremap mode).mp found⟩
    exact makes?_eq_some.mpr ⟨modes, keys, rhs, noremap, typed, rfl, rfl⟩
  · rintro ⟨later, member, rfl, inEffect⟩
    obtain ⟨before, operation, rfl, makes⟩ := (mem_makings {}).mp member
    obtain ⟨modes, lhs, rhs, noremap, typed, rfl, rfl⟩ := makes?_eq_some.mp makes
    exact (inEffect_iff before later modes typed rhs noremap mode).mpr inEffect

/-- A number stands for one making. -/
theorem eq_of_serial {operations : List Operation} {made made' : StoredMapping × List Operation}
    (member : made ∈ makings 0 operations) (member' : made' ∈ makings 0 operations)
    (same : made.1.serial = made'.1.serial) : made = made' :=
  List.inj_on_of_nodup_map (nodup_makings operations 0) member member' same

/-! ## What is shown -/

theorem serials_keepNew (kept : List StoredMapping) (next : StoredMapping) :
    (keepNew kept next).map StoredMapping.serial =
      if next.serial ∈ kept.map StoredMapping.serial then kept.map StoredMapping.serial
      else kept.map StoredMapping.serial ++ [next.serial] := by
  have known : kept.any (·.serial = next.serial) = true ↔
      next.serial ∈ kept.map StoredMapping.serial := by
    simp
  rw [keepNew]
  simp only [known]
  split <;> simp

theorem mem_serials (found kept : List StoredMapping) (serial : Nat) :
    serial ∈ (found.foldl keepNew kept).map StoredMapping.serial ↔
      serial ∈ kept.map StoredMapping.serial ∨ serial ∈ found.map StoredMapping.serial := by
  induction found generalizing kept with
  | nil => simp
  | cons next rest ih =>
      rw [List.foldl_cons, ih, serials_keepNew, List.map_cons, List.mem_cons]
      split
      · rename_i known
        by_cases same : serial = next.serial
        · simp [same, known]
        · simp [same]
      · rw [List.mem_append, List.mem_singleton, or_assoc]

theorem nodup_serials {kept : List StoredMapping} (found : List StoredMapping)
    (nodup : (kept.map StoredMapping.serial).Nodup) :
    ((found.foldl keepNew kept).map StoredMapping.serial).Nodup := by
  induction found generalizing kept with
  | nil => exact nodup
  | cons next rest ih =>
      refine ih ?_
      rw [serials_keepNew]
      split
      · exact nodup
      · rename_i unknown
        exact List.nodup_append_comm.mp (List.nodup_cons.mpr ⟨unknown, nodup⟩)

/-- If numbers stand for one mapping each, all that is in effect in a shown mode, under keys
that start right, is shown. -/
theorem mem_stored {store : MappingStore} (made : store.Made)
    (alone : ∀ mode keys stored mode' keys' stored', store.table.get? mode keys = some stored →
      store.table.get? mode' keys' = some stored' → stored'.serial = stored.serial →
        stored' = stored)
    {shown : MappedModes} {start : List Key} {stored : StoredMapping} :
    stored ∈ store.stored shown start ↔ ∃ mode keys, shown.contains mode = true ∧
      start <+: keys ∧ store.table.get? mode keys = some stored := by
  refine ⟨exists_of_mem_stored made, ?_⟩
  rintro ⟨mode, keys, contains, starts, found⟩
  have listed : stored ∈ shown.toList.flatMap fun mode =>
      (store.table.entries mode).filterMap fun entry =>
        if start.isPrefixOf entry.1 then some entry.2 else none := by
    have entry := (made.trimmed.mem_entries mode keys stored).mpr found
    refine List.mem_flatMap.mpr ⟨mode, MappedModes.mem_toList.mpr contains,
      List.mem_filterMap.mpr ⟨(keys, stored), entry, ?_⟩⟩
    rw [if_pos (List.isPrefixOf_iff_prefix.mpr starts)]
  -- one with its number is kept, and that is the mapping itself
  obtain ⟨other, kept, same⟩ := List.mem_map.mp
    ((mem_serials _ [] stored.serial).mpr (.inr (List.mem_map_of_mem listed)))
  obtain ⟨mode', keys', _, _, found'⟩ := exists_of_mem_stored made kept
  obtain rfl := alone mode keys stored mode' keys' other found found' same
  exact kept

section Shown

variable (operations : List Operation) (shown : MappedModes) (start : List Key)

theorem mem_remaining {stored : StoredMapping} :
    stored ∈ remaining operations shown start ↔ ∃ mode keys, shown.contains mode = true ∧
      start <+: keys ∧
        (({} : MappingStore).after operations).table.get? mode keys = some stored := by
  simp only [remaining, List.mem_map, List.mem_filter, Bool.and_eq_true, lasts_iff,
    List.isPrefixOf_iff_prefix, get?_after_iff, Prod.exists]
  constructor
  · rintro ⟨_, later, ⟨member, starts, mode, contains, own, untouched⟩, rfl⟩
    exact ⟨mode, _, contains, starts, later, member, rfl, own, untouched⟩
  · rintro ⟨mode, _, contains, starts, later, member, rfl, own, untouched⟩
    exact ⟨stored, later, ⟨member, starts, mode, contains, own, untouched⟩, rfl⟩

theorem nodup_remaining :
    ((remaining operations shown start).map StoredMapping.serial).Nodup := by
  have every := nodup_makings operations 0
  rw [remaining, List.map_map]
  exact every.sublist (List.filter_sublist.map _)

/-- The mappings that are shown are those that remain. -/
theorem stored_perm :
    ((({} : MappingStore).after operations).stored shown start).Perm
      (remaining operations shown start) := by
  have once : (((({} : MappingStore).after operations).stored shown start).map
      StoredMapping.serial).Nodup := nodup_serials _ .nil
  have once' := nodup_remaining operations shown start
  refine (List.perm_ext_iff_of_nodup (.of_map _ once) (.of_map _ once')).mpr fun stored => ?_
  rw [mem_remaining, mem_stored (numbered_new.after operations).made]
  intro mode keys stored mode' keys' stored' found found' same
  obtain ⟨later, member, _⟩ := (get?_after_iff operations mode keys stored).mp found
  obtain ⟨later', member', _⟩ := (get?_after_iff operations mode' keys' stored').mp found'
  exact (Prod.mk.inj (eq_of_serial member' member same)).1

end Shown

/-! ## Lookups -/

theorem lookup_after (operations : List Operation) (mode : MapMode) (keys : List Key) :
    ((({} : MappingStore).after operations).lookup mode keys).value? =
      lastMade? operations mode keys := by
  rw [value?_lookup]
  induction operations using List.reverseRecOn with
  | nil => rfl
  | append_singleton before last ih =>
      rw [after_concat, get?_run (numbered_new.after before).made.trimmed, lastMade?,
        List.reverse_append, List.reverse_singleton, List.singleton_append, List.find?_cons]
      cases last.touches mode keys with
      | true => exact map_makes? last _
      | false => exact ih

theorem mappings_sorted (store : MappingStore) (shown : MappedModes) (start : List Key) :
    (store.mappings shown start).Pairwise fun a b => Key.textAll a.lhs ≤ Key.textAll b.lhs := by
  have sorted : (((store.stored shown start).map StoredMapping.mapping).mergeSort
      fun a b => Key.textAll a.lhs ≤ Key.textAll b.lhs).Pairwise
        fun a b => decide (Key.textAll a.lhs ≤ Key.textAll b.lhs) = true := by
    apply List.pairwise_mergeSort
    · intro a b c first second
      exact decide_eq_true (String.le_trans (of_decide_eq_true first) (of_decide_eq_true second))
    · intro a b
      simpa using String.le_total (Key.textAll a.lhs) (Key.textAll b.lhs)
  simpa only [mappings, decide_eq_true_eq] using sorted

/-- Whatever was added, removed and cleared, the mappings that are shown for some modes
are those that remain in one of them, each once, in the order of the written forms of
their keys; and in each mode, keys lead to what the last operation that touched them
made. -/
theorem remaining_shown (operations : List Operation) (shown : MappedModes) (start : List Key) :
    let store := ({} : MappingStore).after operations
    (store.mappings shown start).Perm
        ((remaining operations shown start).map StoredMapping.mapping) ∧
      (store.mappings shown start).Pairwise (fun a b => Key.textAll a.lhs ≤ Key.textAll b.lhs) ∧
      ∀ mode keys, (store.lookup mode keys).value? = lastMade? operations mode keys :=
  ⟨(List.mergeSort_perm _ _).trans ((stored_perm operations shown start).map _),
    mappings_sorted _ shown start, lookup_after operations⟩

/-- What was replaced in one mode and removed in others is still in effect in the rest, and
shown behind the new mapping, which is found in an earlier mode. -/
example :
    ((({} : MappingStore).after [.add .commanding [.char 'g'] (.keys [.char 'd']) false,
      .add { normal := true } [.char 'g'] (.keys []) true,
      .remove .selecting [.char 'g']]).stored .commanding []).map StoredMapping.serial =
        [1, 0] := by
  decide

end ModalInput.MappingStore
