/-
# ModalInput.Proofs.CursorFields -- where each part of the cursor's look comes from

The entries that count in a mode are laid over one another, and an entry leaves open
what it does not set.  So each part of the look is what the last of these entries that
sets it sets it to (`lastSet`), whatever the others do, and the default if none of them
does; the shape and the thickness are one part, for a shape without a thickness of its
own fills the character.

* `CursorEntry.counts` -- whether an entry counts in a mode; for an exclusive selection
  this depends on all entries.
* `CursorAttributes.part_of` -- one part of the look; `of_eq_lastSet` -- the look.
-/
import ModalInput.Cursor.Entry

namespace ModalInput

set_option autoImplicit false

namespace CursorEntry

/-- An entry counts in the modes that it names, and in every mode if it names all.  For
an exclusive selection that no entry names, those for Visual mode count. -/
def counts (entries : List CursorEntry) (mode : CursorMode) (entry : CursorEntry) : Bool :=
  entry.modes.contains .all ||
    match mode with
    | .visualExclusive =>
        if entries.any (·.modes.contains .visualExclusive) then
          entry.modes.contains .visualExclusive
        else entry.modes.contains .visual
    | mode => entry.modes.contains mode

theorem appliesTo_effective (entries : List CursorEntry) (mode : CursorMode) (entry : CursorEntry) :
    entry.appliesTo (mode.effective entries) = counts entries mode entry := by
  cases mode with
  | visualExclusive =>
      simp only [appliesTo, counts, CursorMode.effective, Bool.or_comm, true_and]
      cases entries.any (·.modes.contains .visualExclusive) <;> rfl
  | _ => exact Bool.or_comm _ _

/-! ## What an entry sets -/

/-- A shape, and how much of the character it covers. -/
def shaped? (entry : CursorEntry) : Option (CursorShape × Nat) :=
  entry.shape.map fun shape => (shape, entry.thickness.getD 100)

def highlight? (entry : CursorEntry) : Option String :=
  if entry.highlight.isEmpty then none else some entry.highlight

def languageHighlight? (entry : CursorEntry) : Option String :=
  if entry.languageHighlight.isEmpty then none else some entry.languageHighlight

def blinking? (entry : CursorEntry) : Option (List String) :=
  if entry.blinking.isEmpty then none else some entry.blinking

end CursorEntry

namespace CursorAttributes

open CursorEntry

variable {α : Type}

/-- What the last entry that sets something sets it to, or the default if none does. -/
def lastSet (sets : CursorEntry → Option α) (default : α) (entries : List CursorEntry) : α :=
  (entries.filterMap sets).getLast?.getD default

/-- What an entry sets takes the place of the default for the entries behind it. -/
theorem lastSet_cons (sets : CursorEntry → Option α) (default : α) (entry : CursorEntry)
    (rest : List CursorEntry) :
    lastSet sets default (entry :: rest) = lastSet sets ((sets entry).getD default) rest := by
  unfold lastSet
  rw [List.filterMap_cons]
  cases sets entry with
  | none => rfl
  | some value =>
      rw [List.getLast?_cons]
      rfl

/-! ## A part of the look -/

section Part

variable (part : CursorAttributes → α) (sets : CursorEntry → Option α)
  (overrides : ∀ (entry : CursorEntry) (look : CursorAttributes),
    part (entry.override look) = (sets entry).getD (part look))

include overrides

/-- A part that each entry overrides with what it sets comes from the last that sets it. -/
theorem part_foldl (entries : List CursorEntry) (look : CursorAttributes) :
    part (entries.foldl (fun look entry => entry.override look) look) =
      lastSet sets (part look) entries := by
  induction entries generalizing look with
  | nil => rfl
  | cons entry rest ih => rw [List.foldl_cons, ih, lastSet_cons, overrides]

theorem part_of (entries : List CursorEntry) (mode : CursorMode) :
    part (of entries mode) = lastSet sets (part {}) (entries.filter (counts entries mode)) := by
  rw [of, part_foldl part sets overrides]
  simp only [appliesTo_effective]

end Part

/-! ## The look -/

theorem shaped_override (entry : CursorEntry) (look : CursorAttributes) :
    ((entry.override look).shape, (entry.override look).thickness) =
      entry.shaped?.getD (look.shape, look.thickness) := by
  cases shape : entry.shape <;> simp [override, shaped?, shape]

theorem highlight_override (entry : CursorEntry) (look : CursorAttributes) :
    (entry.override look).highlight = entry.highlight?.getD look.highlight := by
  cases empty : entry.highlight.isEmpty <;> simp [override, highlight?, empty]

theorem languageHighlight_override (entry : CursorEntry) (look : CursorAttributes) :
    (entry.override look).languageHighlight =
      entry.languageHighlight?.getD look.languageHighlight := by
  cases empty : entry.languageHighlight.isEmpty <;> simp [override, languageHighlight?, empty]

theorem blinking_override (entry : CursorEntry) (look : CursorAttributes) :
    (entry.override look).blinking = entry.blinking?.getD look.blinking := by
  cases empty : entry.blinking.isEmpty <;> simp [override, blinking?, empty]

/-- Each part of the look in a mode is what the last entry that counts there and sets it
sets it to. -/
theorem of_eq_lastSet (entries : List CursorEntry) (mode : CursorMode) :
    let counting := entries.filter (counts entries mode)
    let shaped := lastSet shaped? (.block, 100) counting
    of entries mode = {
      shape := shaped.1
      thickness := shaped.2
      highlight := lastSet highlight? "" counting
      languageHighlight := lastSet languageHighlight? "" counting
      blinking := lastSet blinking? [] counting } := by
  intro counting shaped
  have shape : ((of entries mode).shape, (of entries mode).thickness) = shaped :=
    part_of (fun look => (look.shape, look.thickness)) shaped? shaped_override entries mode
  have highlight := part_of (·.highlight) highlight? highlight_override entries mode
  have languageHighlight :=
    part_of (·.languageHighlight) languageHighlight? languageHighlight_override entries mode
  have blinking := part_of (·.blinking) blinking? blinking_override entries mode
  rw [← shape, CursorAttributes.mk.injEq]
  exact ⟨rfl, rfl, highlight, languageHighlight, blinking⟩

/-- The last entry for every mode comes before the last one for Normal mode. -/
example :
    of [{ modes := [.normal], shape := some .horizontal, thickness := some 20, highlight := "C" },
      { modes := [.all], shape := some .vertical, thickness := some 25, blinking := ["blinkon5"] },
      { modes := [.normal, .insert], shape := some .horizontal }] .normal =
      { shape := .horizontal, highlight := "C", blinking := ["blinkon5"] } := by
  decide

end CursorAttributes

end ModalInput
