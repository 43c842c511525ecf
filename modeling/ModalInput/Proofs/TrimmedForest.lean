/-
# ModalInput.Proofs.TrimmedForest -- the forests that operations make

Two facts about a forest make its answers right.  Siblings have different keys, so
an operation changes the one tree that a lookup finds; and every tree leads to a
value, so whatever can be followed can be completed (`Forest.Trimmed`).  Insertion
and removal keep both.

* `Trimmed.insert`, `Trimmed.remove` -- the operations keep a forest trimmed.
* `Trimmed.valueFrom_remove` -- after a removal its keys have no value.
* `Trimmed.exists_value` -- where there is a tree, there is a value.
* `Trimmed.mem_entries`, `Trimmed.nodup_entries` -- a listing shows each sequence that
  has a value, once.
-/
import Mathlib.Data.List.Nodup
import ModalInput.Proofs.TableLookup

namespace ModalInput

set_option autoImplicit false

namespace Forest

variable {κ ν : Type}

theorem path_isEmpty (value : ν) (key : κ) (rest : List κ) :
    (path value key rest).isEmpty = false := by
  cases rest <;> rfl

theorem length_entries (forest : Forest κ ν) : forest.entries.length = forest.size := by
  induction forest with
  | empty => rfl
  | tree key value below beside ihBelow ihBeside =>
      simp [entries, size, ihBelow, ihBeside, Nat.add_assoc]

theorem not_nil_mem_entries (forest : Forest κ ν) (value : ν) : ([], value) ∉ forest.entries := by
  induction forest with
  | empty => simp [entries]
  | tree key here below beside _ ih => simp [entries, ih]

/-- A listed sequence ends at the first tree, goes through it, or is beside it. -/
theorem mem_entries_tree {first key : κ} {own : Option ν} {below beside : Forest κ ν}
    {rest : List κ} {value : ν} :
    (key :: rest, value) ∈ (tree first own below beside).entries ↔
      (first = key ∧ ((rest = [] ∧ own = some value) ∨ (rest, value) ∈ below.entries)) ∨
        (key :: rest, value) ∈ beside.entries := by
  simp only [entries, List.mem_append, List.mem_map, Option.mem_toList, Prod.mk.injEq,
    List.cons.injEq, Prod.exists]
  constructor
  · rintro ((⟨v, same, ⟨rfl, rfl⟩, rfl⟩ | ⟨keys, v, member, ⟨rfl, rfl⟩, rfl⟩) | member)
    · exact .inl ⟨rfl, .inl ⟨rfl, same⟩⟩
    · exact .inl ⟨rfl, .inr member⟩
    · exact .inr member
  · rintro (⟨rfl, ⟨rfl, same⟩ | member⟩ | member)
    · exact .inl (.inl ⟨value, same, ⟨rfl, rfl⟩, rfl⟩)
    · exact .inl (.inr ⟨rest, value, member, ⟨rfl, rfl⟩, rfl⟩)
    · exact .inr member

variable [DecidableEq κ]

/-- Siblings have different keys, and every tree leads to a value. -/
inductive Trimmed : Forest κ ν → Prop where
  | empty : Trimmed .empty
  | tree {key : κ} {value : Option ν} {below beside : Forest κ ν}
      (alone : beside.child? key = none) (leads : value.isSome = true ∨ below.isEmpty = false)
      (deeper : Trimmed below) (others : Trimmed beside) : Trimmed (.tree key value below beside)

/-! ## Going down -/

theorem descend?_append (here : Option ν × Forest κ ν) (keys more : List κ) :
    descend? here (keys ++ more) = (descend? here keys).bind fun next => descend? next more := by
  induction keys generalizing here with
  | nil => rfl
  | cons key rest ih =>
      simp only [List.cons_append, descend?, ih]
      cases here.2.child? key <;> rfl

theorem valueFrom_child (here : Option ν) (forest : Forest κ ν) (key : κ) (rest : List κ) :
    valueFrom (here, forest) (key :: rest) = valueFrom (forest.childOrEmpty key) rest := by
  rw [valueFrom_cons, valueFrom_childOrEmpty]

/-- What a key leads to is trimmed, and leads to a value. -/
theorem Trimmed.child {forest : Forest κ ν} (trimmed : forest.Trimmed) {key : κ}
    {next : Option ν × Forest κ ν} (found : forest.child? key = some next) :
    next.2.Trimmed ∧ (next.1.isSome = true ∨ next.2.isEmpty = false) := by
  induction trimmed with
  | empty => cases found
  | @tree first value below beside alone leads below' beside' _ ih =>
      unfold child? at found
      split at found
      · cases found
        exact ⟨below', leads⟩
      · exact ih found

theorem Trimmed.descend {forest : Forest κ ν} (trimmed : forest.Trimmed) (here : Option ν)
    {keys : List κ} {next : Option ν × Forest κ ν}
    (found : descend? (here, forest) keys = some next) : next.2.Trimmed := by
  induction keys generalizing here forest with
  | nil =>
      cases found
      exact trimmed
  | cons key rest ih =>
      rw [descend?] at found
      cases child : forest.child? key with
      | none => simp [child] at found
      | some child' =>
          simp only [child, Option.bind_some] at found
          exact ih (trimmed.child child).1 child'.1 found

/-- Some sequence has a value, wherever there is a tree. -/
theorem Trimmed.exists_value {forest : Forest κ ν} (trimmed : forest.Trimmed)
    (some : forest.isEmpty = false) (here : Option ν) :
    ∃ key rest, (valueFrom (here, forest) (key :: rest)).isSome = true := by
  induction trimmed generalizing here with
  | empty => cases some
  | @tree first value below beside alone leads _ _ ih _ =>
      rcases leads with value' | deeper
      · exact ⟨first, [], by simpa [valueFrom, descend?, child?] using value'⟩
      · obtain ⟨key, rest, found⟩ := ih deeper value
        exact ⟨first, key :: rest, by simpa [valueFrom_cons, child?] using found⟩

theorem Trimmed.childOrEmpty {forest : Forest κ ν} (trimmed : forest.Trimmed) (key : κ) :
    (forest.childOrEmpty key).2.Trimmed := by
  unfold Forest.childOrEmpty
  cases found : forest.child? key with
  | none => exact .empty
  | some next => exact (trimmed.child found).1

/-! ## Insertion -/

theorem insert_isEmpty (forest : Forest κ ν) (value : ν) (key : κ) (rest : List κ) :
    (forest.insert value (key :: rest)).isEmpty = false := by
  cases forest with
  | empty => cases rest <;> rfl
  | tree first old below beside =>
      unfold insert
      split
      · split <;> rfl
      · rfl

theorem trimmed_path (value : ν) (key : κ) (rest : List κ) : (path value key rest).Trimmed := by
  induction rest generalizing key with
  | nil => exact .tree rfl (.inl rfl) .empty .empty
  | cons next more ih => exact .tree rfl (.inr (path_isEmpty value next more)) (ih next) .empty

theorem Trimmed.insert {forest : Forest κ ν} (trimmed : forest.Trimmed) (value : ν)
    (keys : List κ) : (forest.insert value keys).Trimmed := by
  induction trimmed generalizing keys with
  | empty =>
      cases keys with
      | nil => exact .empty
      | cons key rest => exact trimmed_path value key rest
  | @tree first old below beside alone leads below' beside' ihBelow ihBeside =>
      cases keys with
      | nil => exact .tree alone leads below' beside'
      | cons key rest =>
          unfold Forest.insert
          split
          · cases rest with
            | nil => exact .tree alone (.inl rfl) below' beside'
            | cons next more =>
                exact .tree alone (.inr (insert_isEmpty below value next more)) (ihBelow _) beside'
          · rename_i differ
            refine .tree ?_ leads below' (ihBeside _)
            rw [child?_insert, if_neg differ]
            exact alone

/-! ## Removal -/

/-- Where a removal leads: to the end of the sequence, or further down. -/
def shrunk (child : Option ν × Forest κ ν) (rest : List κ) : Option ν × Forest κ ν :=
  if rest.isEmpty then (none, child.2) else (child.1, child.2.remove rest)

theorem shrunk_empty (rest : List κ) :
    shrunk ((none, .empty) : Option ν × Forest κ ν) rest = (none, .empty) := by
  cases rest <;> rfl

theorem childOrEmpty_of_none {forest : Forest κ ν} {key : κ} (nothing : forest.child? key = none) :
    forest.childOrEmpty key = (none, .empty) := by
  simp [childOrEmpty, nothing]

theorem childOrEmpty_tree_self (key : κ) (value : Option ν) (below beside : Forest κ ν) :
    (tree key value below beside).childOrEmpty key = (value, below) := by
  simp [childOrEmpty, child?]

theorem childOrEmpty_tree_of_ne {first key : κ} (differ : first ≠ key) (value : Option ν)
    (below beside : Forest κ ν) :
    (tree first value below beside).childOrEmpty key = beside.childOrEmpty key := by
  simp [childOrEmpty, child?, differ]

/-- A tree that is grafted is found again; one that is not leads to nothing. -/
theorem childOrEmpty_graft_self {key : κ} {beside : Forest κ ν} (alone : beside.child? key = none)
    (value : Option ν) (below : Forest κ ν) :
    (graft key value below beside).childOrEmpty key = (value, below) := by
  unfold graft
  split
  · rename_i nothing
    rw [childOrEmpty_of_none alone]
    cases value with
    | none =>
        cases below with
        | empty => rfl
        | tree _ _ _ _ => simp [isEmpty] at nothing
    | some _ => simp at nothing
  · exact childOrEmpty_tree_self key value below beside

theorem child?_graft_of_ne {key other : κ} (differ : key ≠ other) (value : Option ν)
    (below beside : Forest κ ν) :
    (graft key value below beside).child? other = beside.child? other := by
  unfold graft
  split
  · rfl
  · simp [child?, differ]

/-- A removal leaves the other siblings as they are. -/
theorem child?_remove_of_ne (forest : Forest κ ν) {key other : κ} (differ : key ≠ other)
    (rest : List κ) : (forest.remove (key :: rest)).child? other = forest.child? other := by
  induction forest with
  | empty => rfl
  | tree first value below beside _ ih =>
      unfold remove
      split
      · rename_i same
        subst same
        split <;> rw [child?_graft_of_ne differ, child?, if_neg differ]
      · unfold child?
        split
        · rfl
        · exact ih

theorem Trimmed.childOrEmpty_remove {forest : Forest κ ν} (trimmed : forest.Trimmed) (key : κ)
    (rest : List κ) :
    (forest.remove (key :: rest)).childOrEmpty key = shrunk (forest.childOrEmpty key) rest := by
  induction trimmed with
  | empty => exact (shrunk_empty rest).symm
  | @tree first value below beside alone leads _ _ _ ih =>
      unfold remove
      split
      · rename_i same
        subst same
        rw [childOrEmpty_tree_self, shrunk]
        split <;> exact childOrEmpty_graft_self alone _ _
      · rename_i differ
        rw [childOrEmpty_tree_of_ne differ, childOrEmpty_tree_of_ne differ]
        exact ih

theorem Trimmed.graft {key : κ} {value : Option ν} {below beside : Forest κ ν}
    (alone : beside.child? key = none) (below' : below.Trimmed) (beside' : beside.Trimmed) :
    (graft key value below beside).Trimmed := by
  unfold Forest.graft
  split
  · exact beside'
  · rename_i kept
    refine .tree alone ?_ below' beside'
    cases value with
    | none => exact .inr (by simpa using kept)
    | some _ => exact .inl rfl

theorem Trimmed.remove {forest : Forest κ ν} (trimmed : forest.Trimmed) (keys : List κ) :
    (forest.remove keys).Trimmed := by
  induction trimmed generalizing keys with
  | empty => cases keys <;> exact .empty
  | @tree first value below beside alone leads below' beside' ihBelow ihBeside =>
      cases keys with
      | nil => exact .tree alone leads below' beside'
      | cons key rest =>
          unfold Forest.remove
          split
          · split
            · exact .graft alone below' beside'
            · exact .graft alone (ihBelow rest) beside'
          · rename_i differ
            refine .tree ?_ leads below' (ihBeside _)
            rw [child?_remove_of_ne beside (Ne.symm differ) rest]
            exact alone

/-- After a removal its keys have no value, and all others the old one. -/
theorem Trimmed.valueFrom_remove {forest : Forest κ ν} (trimmed : forest.Trimmed)
    (keys : List κ) (typed : keys ≠ []) (here : Option ν) (others : List κ) :
    valueFrom (here, forest.remove keys) others =
      if others = keys then none else valueFrom (here, forest) others := by
  induction keys generalizing here forest others with
  | nil => exact absurd rfl typed
  | cons key rest ih =>
      cases others with
      | nil => rfl
      | cons other more =>
          rw [valueFrom_child, valueFrom_child]
          by_cases same : other = key
          · subst same
            rw [trimmed.childOrEmpty_remove]
            cases rest with
            | nil =>
                cases more with
                | nil => simp [shrunk, valueFrom, descend?]
                | cons next later =>
                    rw [if_neg (by simp)]
                    rfl
            | cons next later =>
                have deeper := ih (trimmed.childOrEmpty other) (by simp)
                  (forest.childOrEmpty other).1 more
                simpa [shrunk] using deeper
          · have kept : (forest.remove (key :: rest)).childOrEmpty other =
                forest.childOrEmpty other := by
              unfold Forest.childOrEmpty
              rw [child?_remove_of_ne forest (Ne.symm same)]
            rw [kept, if_neg (by simp [same])]

/-! ## Listing -/

/-- The listed sequences are those that have a value. -/
theorem Trimmed.mem_entries {forest : Forest κ ν} (trimmed : forest.Trimmed) (here : Option ν)
    (key : κ) (rest : List κ) (value : ν) :
    (key :: rest, value) ∈ forest.entries ↔
      valueFrom (here, forest) (key :: rest) = some value := by
  induction trimmed generalizing here key rest with
  | empty => simp [entries, valueFrom_cons, child?]
  | @tree first own below beside alone leads _ _ ihBelow ihBeside =>
      rw [mem_entries_tree, ihBeside here]
      by_cases same : first = key
      · subst same
        have nothing : valueFrom (here, beside) (first :: rest) = none := by
          rw [valueFrom_cons, alone, Option.bind_none]
        have down : valueFrom (here, Forest.tree first own below beside) (first :: rest) =
            valueFrom (own, below) rest := by
          rw [valueFrom_child, childOrEmpty_tree_self]
        rw [nothing, down]
        cases rest with
        | nil => simp [not_nil_mem_entries, valueFrom, descend?]
        | cons next more => simp [ihBelow own]
      · simp [same, valueFrom_cons, child?]

theorem Trimmed.nodup_entries {forest : Forest κ ν} (trimmed : forest.Trimmed) :
    (forest.entries.map Prod.fst).Nodup := by
  induction trimmed with
  | empty => simp [entries]
  | @tree first own below beside alone leads _ beside' ihBelow ihBeside =>
      have started (keys : List κ) : first :: keys ∉ beside.entries.map Prod.fst := by
        intro member
        obtain ⟨⟨_, value⟩, listed, rfl⟩ := List.mem_map.mp member
        have found := (beside'.mem_entries none first keys value).mp listed
        rw [valueFrom_cons, alone] at found
        cases found
      have distinct : (below.entries.map fun entry => first :: entry.1).Nodup := by
        have mapped := List.Nodup.map (f := fun keys => first :: keys)
          (fun _ _ same => (List.cons.inj same).2) ihBelow
        simpa [List.map_map, Function.comp_def] using mapped
      simp only [entries, List.map_append, List.map_map, Function.comp_def, List.nodup_append]
      refine ⟨⟨?_, distinct, ?_⟩, ihBeside, ?_⟩
      · cases own <;> simp
      · intro keys own' other member same
        obtain ⟨v, _, rfl⟩ := List.mem_map.mp own'
        obtain ⟨⟨more, w⟩, listed, rfl⟩ := List.mem_map.mp member
        obtain rfl : more = [] := by simpa using same.symm
        exact not_nil_mem_entries below w listed
      · intro keys member other listed same
        subst same
        rcases List.mem_append.mp member with own' | deeper
        · obtain ⟨v, _, rfl⟩ := List.mem_map.mp own'
          exact started [] listed
        · obtain ⟨entry, _, rfl⟩ := List.mem_map.mp deeper
          exact started entry.1 listed

end Forest

end ModalInput
