/-
# ModalInput.Mode -- the editing modes, and the shape of a selection

A mode says what a key means; the two selecting modes also have a shape.
`ModeState` is the pair of both, kept in step by its type: a shape exactly when
the mode selects (`ModeState.of`).
-/

namespace ModalInput

set_option autoImplicit false

inductive Mode where
  | normal
  | insert
  | replace
  | visual
  | select
  | commandLine
  | operatorPending
  deriving DecidableEq, Repr, Inhabited

/-- The modes with a selection. -/
def Mode.isSelecting : Mode → Bool
  | .visual | .select => true
  | _ => false

/-- The modes in which a typed character goes into the text. -/
def Mode.isInserting : Mode → Bool
  | .insert | .replace => true
  | _ => false

/-- The modes that last only until the input they wait for has come. -/
def Mode.isTemporary : Mode → Bool
  | .commandLine | .operatorPending => true
  | _ => false

/-- The shape of a selection. -/
inductive SubMode where
  | none
  | visualCharacter
  | visualLine
  | visualBlock
  deriving DecidableEq, Repr, Inhabited

/-- A mode with the shape that it has: `none` outside of the selecting modes and
a real one inside them. -/
structure ModeState where
  mode : Mode
  submode : SubMode
  shaped : submode ≠ .none ↔ mode.isSelecting = true
  deriving DecidableEq

namespace ModeState

/-- A mode with a wished shape: none where there is no selection, and by
characters where there is one without a shape. -/
def of (mode : Mode) (wish : SubMode) : ModeState where
  mode := mode
  submode := if mode.isSelecting then (if wish = .none then .visualCharacter else wish) else .none
  shaped := by
    cases selecting : mode.isSelecting <;> by_cases absent : wish = .none <;> simp_all

/-- A mode with its default shape. -/
def ofMode (mode : Mode) : ModeState := of mode .none

instance : Inhabited ModeState := ⟨ofMode .normal⟩

@[simp] theorem mode_of (mode : Mode) (wish : SubMode) : (of mode wish).mode = mode := rfl

@[simp] theorem mode_ofMode (mode : Mode) : (ofMode mode).mode = mode := rfl

theorem ext {a b : ModeState} (mode : a.mode = b.mode) (submode : a.submode = b.submode) : a = b := by
  cases a; cases b; simp_all

/-- Taking a state apart and putting it together again changes nothing. -/
theorem of_mode_submode (state : ModeState) : of state.mode state.submode = state := by
  apply ext
  · rfl
  · have shaped := state.shaped
    cases selecting : state.mode.isSelecting <;> by_cases absent : state.submode = .none <;>
      simp_all [of]

end ModeState

/-- The mode that a command asks for. -/
inductive ModeChange where
  | none
  | normal
  | insert
  | replace
  /-- Start, reshape or leave Visual mode. -/
  | visual (shape : SubMode)
  /-- Start, reshape or leave Select mode. -/
  | select (shape : SubMode)
  /-- Exchange Visual and Select mode, with the selection kept. -/
  | swapVisualSelect
  deriving DecidableEq, Repr, Inhabited

end ModalInput
