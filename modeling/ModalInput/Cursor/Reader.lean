/-
# ModalInput.Cursor.Reader -- reading the look of the cursor

Entries stand between commas, and empty ones are skipped.  An entry has its modes
and its arguments on the two sides of one colon, each list with hyphens between
neighbours.  An argument is a shape, a way of blinking, or a highlight group,
alone or with a second one after a slash.

* `CursorEntry.read` -- one entry; the errors show the whole entry.
* `CursorEntry.readAll` -- a whole value.
-/
import ModalInput.Cursor.Entry
import ModalInput.Error
import ModalInput.Text.Digits
import ModalInput.Text.Fields

namespace ModalInput.CursorEntry

set_option autoImplicit false

/-- The thickness of a bar, from 1 to 100, in decimal digits. -/
def readThickness (entry : String) (digits : List Char) : Except OptionError Nat :=
  if digits.isEmpty || !digits.all Char.isDigit then .error (.digitExpected entry)
  else if 1 ≤ Text.decimal digits ∧ Text.decimal digits ≤ 100 then .ok (Text.decimal digits)
  else .error (.illegalPercentage entry)

/-- The shape that an argument names, with the digits after it. -/
def shape? : List Char → Option (CursorShape × List Char)
  | 'v' :: 'e' :: 'r' :: digits => some (.vertical, digits)
  | 'h' :: 'o' :: 'r' :: digits => some (.horizontal, digits)
  | _ => none

/-- An entry with one more argument. -/
def addArgument (text : String) (entry : CursorEntry) (argument : List Char) :
    Except OptionError CursorEntry :=
  if argument = "block".toList then
    .ok { entry with shape := some .block, thickness := none }
  else
    match shape? argument with
    | some (shape, digits) =>
        (readThickness text digits).map fun thickness =>
          { entry with shape := some shape, thickness := some thickness }
    | none =>
        if "blink".toList.isPrefixOf argument then
          .ok { entry with blinking := entry.blinking ++ [String.ofList argument] }
        else if argument.contains '/' then
          .ok { entry with
            highlight := String.ofList (argument.takeWhile (· ≠ '/'))
            languageHighlight := String.ofList ((argument.dropWhile (· ≠ '/')).drop 1) }
        else .ok { entry with highlight := String.ofList argument }

/-- The modes of an entry. -/
def readModes (text : String) (modes : List Char) : Except OptionError (List CursorMode) :=
  (Text.fields '-' modes).mapM fun token =>
    match CursorMode.ofToken? (String.ofList token) with
    | some mode => .ok mode
    | none => .error (.illegalMode text)

/-- Read one entry. -/
def read (text : List Char) : Except OptionError CursorEntry :=
  let shown := String.ofList text
  match Text.fields ':' text with
  | [modes, arguments] => do
      let modes ← readModes shown modes
      (Text.fields '-' arguments).foldlM (addArgument shown) { modes }
  | [_] => .error (.missingColon shown)
  | _ => .error (.illegalMode shown)

/-- Read all entries of a value. -/
def readAll (value : String) : Except OptionError (List CursorEntry) :=
  ((Text.fields ',' value.toList).filter (!·.isEmpty)).mapM read

/-- Check that a value can be read. -/
def check (value : String) : Except OptionError Unit := (readAll value).map fun _ => ()

end ModalInput.CursorEntry
