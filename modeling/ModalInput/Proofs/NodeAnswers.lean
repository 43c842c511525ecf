/-
# ModalInput.Proofs.NodeAnswers -- a table of nodes is a finite map

A tidy table answers by its values alone (`Tidy.represents`), and each operation returns the
value that it replaces or takes away.  So after any operations the nodes answer as the map does
that the operations make (`refines_run`), and as the forests of a `KeyTable` do, with which keys
are resolved and mappings are listed elsewhere.

* `NodeTable.answers` -- what a table of nodes answers.
* `returned` -- what an operation returns.
-/
import ModalInput.Proofs.NodeListing
import ModalInput.Proofs.StoredNodes

namespace ModalInput

set_option autoImplicit false

variable {μ κ ν : Type} [DecidableEq μ] [DecidableEq κ]

omit [DecidableEq μ] [DecidableEq κ] in
/-- The value that an operation replaces or takes away. -/
def KeyTable.Operation.old (contents : KeyTable.Contents μ κ ν) :
    KeyTable.Operation μ κ ν → Option ν
  | .insert mode keys _ | .remove mode keys => contents mode keys
  | .clearMode _ | .clear => none

namespace NodeTable

open KeyTable (Operation contentsAfter)

/-- What a table of nodes answers. -/
def answers (table : NodeTable μ κ ν) : TableAnswers μ κ ν :=
  ⟨table.get?, table.lookup, table.entries, table.size, table.isModeEmpty⟩

theorem Tidy.represents {table : NodeTable μ κ ν} (tidy : Tidy table) :
    table.answers.Represents table.get? where
  value := fun _ _ => rfl
  lookup := fun mode keys _ => tidy.lookup_eq mode keys
  listed := fun mode => ⟨tidy.linked.nodup_entries mode, tidy.linked.mem_entries mode⟩
  size := tidy.encard_valued
  isModeEmpty := tidy.isModeEmpty_iff

/-! ## What operations return -/

/-- What an operation returns. -/
def returned (table : NodeTable μ κ ν) : Operation μ κ ν → Option ν
  | .insert mode keys value => (table.replace mode keys value).1
  | .remove mode keys => (table.take mode keys).1
  | .clearMode _ | .clear => none

theorem Tidy.returned {table : NodeTable μ κ ν} (tidy : Tidy table) (operation : Operation μ κ ν)
    (room : (table.run operation).made ≤ UInt64.size) :
    table.returned operation = operation.old table.get? := by
  cases operation with
  | insert mode keys value =>
      by_cases typed : keys = []
      · subst typed
        exact (tidy.linked.get?_nil mode).symm
      · exact (tidy.replace mode typed value room).2.1
  | remove mode keys => exact (tidy.take mode keys).2.1
  | clearMode mode => rfl
  | clear => rfl

/-! ## Runs -/

/-- What operations on an empty table return, and what is left of it in the end. -/
structure Refines (operations : List (Operation μ κ ν)) (table : NodeTable μ κ ν) : Prop where
  /-- Every answer is that of the map that the operations make. -/
  answers : table.answers.Represents (contentsAfter operations)
  /-- What is listed of a mode is what a walk over the nodes from its root comes across. -/
  walks : ∀ mode root, table.roots.get? mode = some root →
    table.Walks [(root, [])] (table.entries mode)
  /-- Each insertion returned the value that it replaced, and each removal the one that it took
  away. -/
  returned : ∀ before last later, operations = before ++ last :: later →
    (before.foldl run empty).returned last = last.old (contentsAfter before)
  /-- A table of forests answers the same. -/
  forests : table.answers.Alike (operations.foldl Operation.run KeyTable.empty).answers

/-- After any operations on an empty table, which make fewer nodes than there are numbers, the
table answers as the map that they make. -/
theorem refines_run (operations : List (Operation μ κ ν))
    (room : (operations.foldl run empty).made < UInt64.size) :
    Refines operations (operations.foldl run empty) := by
  have contents {operations : List (Operation μ κ ν)} {table : NodeTable μ κ ν}
      (reached : Reached operations table) : table.get? = contentsAfter operations :=
    funext fun mode => funext fun keys => reached.values mode keys
  have reached := reached_foldl operations room.le
  have represents := reached.tidy.represents
  rw [contents reached] at represents
  refine ⟨represents, fun mode root => reached.tidy.linked.walks_entries, ?_, ?_⟩
  · rintro before last later rfl
    rw [List.foldl_append, List.foldl_cons] at room
    have made := (le_made_foldl _ later).trans room.le
    have reached := reached_foldl before ((made_run _ last).1.trans made)
    rw [reached.tidy.returned last made, contents reached]
  · obtain ⟨trimmed, forests⟩ := KeyTable.trimmed_contentsAfter operations
    have represents' := trimmed.represents
    rw [forests] at represents'
    exact represents.alike represents'

/-- A value is replaced, and a sequence that another starts with is taken away. -/
theorem prefixed_refines :
    let operations : List (Operation Bool Nat Nat) :=
      [.insert true [1] 5, .insert true [1, 2] 6, .insert false [1] 7, .insert true [1, 2] 8,
        .remove true [1]]
    (operations.foldl run empty).made < UInt64.size ∧
      Refines operations (operations.foldl run empty) := by
  intro operations
  have room : (operations.foldl run empty).made < UInt64.size :=
    Nat.lt_of_le_of_lt (made_foldl_le empty operations) (by decide)
  exact ⟨room, refines_run operations room⟩

end NodeTable

end ModalInput
