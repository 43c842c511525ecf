/-
# ModalInput.Key.Written -- the written form of keys

Keys are written as in mappings and recorded text: an unmodified character
stands for itself, everything else is a name between angle brackets with its
modifiers in front (`C-`, `S-`, `A-` in this order).  The characters that would
be misread when they stand for themselves have names too.

* `Key.written` -- one key; a key without a name has no written form and leaves
  nothing.
* `Key.writtenAll` -- keys one after the other.
-/
import ModalInput.Key.Basic
import ModalInput.Text.Uppercase

namespace ModalInput

set_option autoImplicit false

/-- The name of a key that is not a character. -/
def KeyCode.name? : KeyCode → Option String
  | .left => some "Left"
  | .right => some "Right"
  | .up => some "Up"
  | .down => some "Down"
  | .backspace => some "BS"
  | .enter => some "CR"
  | .home => some "Home"
  | .lineEnd => some "End"
  | .pageUp => some "PageUp"
  | .pageDown => some "PageDown"
  | .null => some "Nul"
  | .escape => some "Esc"
  | .delete => some "Del"
  | .insert => some "Insert"
  | .pause => some "Pause"
  | .printScreen => some "PrintScreen"
  | .tab => some "Tab"
  | _ => none

namespace Key

/-- The modifiers in front of a name. -/
def writtenMods (mods : Modifiers) : List Char :=
  (if mods.control then ['C', '-'] else []) ++
    (if mods.shift then ['S', '-'] else []) ++
    (if mods.alt then ['A', '-'] else [])

/-- A name between angle brackets, with its modifiers. -/
def bracketed (mods : Modifiers) (name : List Char) : List Char :=
  '<' :: (writtenMods mods ++ name ++ ['>'])

/-- A character that stands for itself, or its name. -/
def writtenPlain (c : Char) : List Char :=
  if c = '<' then "<lt>".toList
  else if c = ' ' then "<Space>".toList
  else if c = '\n' then "<NL>".toList
  else [c]

/-- The name of a character with modifiers: with Control, letters are written in
upper case and the digits 4 to 7 as the punctuation they share a code with. -/
def nameOfChar (mods : Modifiers) (c : Char) : List Char :=
  if c = ' ' then "Space".toList
  else if c = '<' then "lt".toList
  else if mods.control then
    if c = '4' then ['\\']
    else if c = '5' then [']']
    else if c = '6' then ['^']
    else if c = '7' then ['_']
    else Text.uppercase c
  else [c]

/-- The written form of a key. -/
def written (key : Key) : List Char :=
  match key.code with
  | .char c =>
      if key.mods = .none then writtenPlain c
      else bracketed key.mods (nameOfChar key.mods c)
  | .backTab => "<S-Tab>".toList
  | .function number => bracketed key.mods ('F' :: Nat.toDigits 10 number.val)
  | code =>
      match code.name? with
      | some name => bracketed key.mods name.toList
      | none => []

/-- The written form of keys typed one after the other. -/
def writtenAll (keys : List Key) : List Char := keys.flatMap written

def text (key : Key) : String := String.ofList key.written

/-- `writtenAll` as a string. -/
def textAll (keys : List Key) : String := String.ofList (writtenAll keys)

@[simp] theorem writtenAll_nil : writtenAll [] = [] := rfl

@[simp] theorem writtenAll_cons (key : Key) (keys : List Key) :
    writtenAll (key :: keys) = key.written ++ writtenAll keys := rfl

end Key

end ModalInput
