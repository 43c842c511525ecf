/-
# ModalInput.Cursor.Entry -- what the cursor looks like in each mode

The look of the cursor is a list of entries.  An entry names some modes and sets
some of four things: the shape with its thickness, two highlight groups, and how
the cursor blinks.  Later entries override earlier ones, thing by thing
(`attributes`).

* `CursorMode.of` -- the mode of the cursor for a mode of the editor.  A
  selection whose end is exclusive has a mode of its own; where no entry names it,
  the entries for Visual mode apply.
-/
import ModalInput.Mode

namespace ModalInput

set_option autoImplicit false

inductive CursorMode where
  | normal
  | visual
  | visualExclusive
  | operatorPending
  | insert
  | replace
  | commandLine
  | commandLineInsert
  | commandLineReplace
  | showMatch
  /-- In an entry: every mode. -/
  | all
  deriving DecidableEq, Repr, Inhabited

namespace CursorMode

/-- The name of a mode in an entry. -/
def token : CursorMode → String
  | .normal => "n"
  | .visual => "v"
  | .visualExclusive => "ve"
  | .operatorPending => "o"
  | .insert => "i"
  | .replace => "r"
  | .commandLine => "c"
  | .commandLineInsert => "ci"
  | .commandLineReplace => "cr"
  | .showMatch => "sm"
  | .all => "a"

/-- Every mode. -/
def modes : List CursorMode :=
  [.normal, .visual, .visualExclusive, .operatorPending, .insert, .replace, .commandLine,
    .commandLineInsert, .commandLineReplace, .showMatch, .all]

/-- The mode with a name. -/
def ofToken? (token : String) : Option CursorMode := modes.find? (·.token = token)

/-- The mode of the cursor; `exclusive` is whether the end of a selection is. -/
def of (mode : Mode) (exclusive : Bool) : CursorMode :=
  match mode with
  | .normal => .normal
  | .visual | .select => if exclusive then .visualExclusive else .visual
  | .operatorPending => .operatorPending
  | .insert => .insert
  | .replace => .replace
  | .commandLine => .commandLine

end CursorMode

inductive CursorShape where
  | block
  | vertical
  | horizontal
  deriving DecidableEq, Repr, Inhabited

/-- What one entry sets; an empty text or list sets nothing. -/
structure CursorEntry where
  modes : List CursorMode
  shape : Option CursorShape := none
  /-- How much of the character a bar covers, in percent. -/
  thickness : Option Nat := none
  highlight : String := ""
  /-- The highlight group while a language mapping is active. -/
  languageHighlight : String := ""
  blinking : List String := []
  deriving DecidableEq

/-- The look of the cursor in one mode. -/
structure CursorAttributes where
  shape : CursorShape := .block
  thickness : Nat := 100
  highlight : String := ""
  languageHighlight : String := ""
  blinking : List String := []
  deriving DecidableEq, Inhabited

namespace CursorEntry

/-- An entry applies to the modes that it names. -/
def appliesTo (entry : CursorEntry) (mode : CursorMode) : Bool :=
  entry.modes.contains mode || entry.modes.contains .all

/-- What an entry sets replaces what was set before; what it leaves open stays. -/
def override (entry : CursorEntry) (look : CursorAttributes) : CursorAttributes where
  shape := entry.shape.getD look.shape
  thickness := if entry.shape.isSome then entry.thickness.getD 100 else look.thickness
  highlight := if entry.highlight.isEmpty then look.highlight else entry.highlight
  languageHighlight :=
    if entry.languageHighlight.isEmpty then look.languageHighlight else entry.languageHighlight
  blinking := if entry.blinking.isEmpty then look.blinking else entry.blinking

end CursorEntry

/-- The mode whose entries apply: an exclusive selection without entries of its
own takes those of Visual mode. -/
def CursorMode.effective (entries : List CursorEntry) (mode : CursorMode) : CursorMode :=
  if mode = .visualExclusive ∧ ¬ entries.any (·.modes.contains .visualExclusive) then .visual
  else mode

/-- The look of the cursor in a mode. -/
def CursorAttributes.of (entries : List CursorEntry) (mode : CursorMode) : CursorAttributes :=
  (entries.filter (·.appliesTo (mode.effective entries))).foldl
    (fun look entry => entry.override look) {}

end ModalInput
