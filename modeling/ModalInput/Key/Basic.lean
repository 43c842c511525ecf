/-
# ModalInput.Key.Basic -- keys of a terminal

A key is a code with the modifiers held down.  A character key never carries
Shift, since the character shows it already; the type keeps that.

* `KeyCode` -- which key it is.  A terminal may also report media keys, and
  modifiers pressed alone; like the lock keys, they are written as nothing and mean
  nothing to an engine, and they are left out.
* `Key.of` -- a key from what a terminal reports; `Key.char`, `Key.special` --
  keys without modifiers.
* `Key.char?` -- the character of an unmodified character key, which is what
  counts, registers and inserted text are read from.
* `Key.literal?` -- the one code point a terminal sends for the key.
* `Key.decompose?` -- a character with Alt taken apart into Escape and the
  character, which terminals send in the same way.
-/

namespace ModalInput

set_option autoImplicit false

inductive KeyCode where
  | left
  | right
  | up
  | down
  | backspace
  | enter
  | home
  | lineEnd
  | pageUp
  | pageDown
  | null
  | escape
  | delete
  | insert
  | pause
  | printScreen
  | tab
  | backTab
  | capsLock
  | scrollLock
  | numLock
  | menu
  | keypadBegin
  | function (number : Fin 256)
  | char (c : Char)
  deriving DecidableEq, Repr

def KeyCode.isChar : KeyCode → Bool
  | .char _ => true
  | _ => false

structure Modifiers where
  control : Bool := false
  shift : Bool := false
  alt : Bool := false
  superKey : Bool := false
  hyperKey : Bool := false
  metaKey : Bool := false
  deriving DecidableEq, Repr

namespace Modifiers

/-- The modifiers of either. -/
def union (a b : Modifiers) : Modifiers where
  control := a.control || b.control
  shift := a.shift || b.shift
  alt := a.alt || b.alt
  superKey := a.superKey || b.superKey
  hyperKey := a.hyperKey || b.hyperKey
  metaKey := a.metaKey || b.metaKey

instance : Union Modifiers := ⟨union⟩

def none : Modifiers := {}
def onlyControl : Modifiers := { control := true }
def onlyShift : Modifiers := { shift := true }
def onlyAlt : Modifiers := { alt := true }

end Modifiers

/-- A key with the modifiers held down. -/
structure Key where
  code : KeyCode
  mods : Modifiers
  /-- Shift is part of a character, not a modifier of it. -/
  unshifted : code.isChar = true → mods.shift = false
  deriving DecidableEq

namespace Key

theorem ext {a b : Key} (code : a.code = b.code) (mods : a.mods = b.mods) : a = b := by
  cases a; cases b; simp_all

/-- The key that a terminal reports; Shift is dropped from a character. -/
def of (code : KeyCode) (mods : Modifiers) : Key where
  code := code
  mods := { mods with shift := mods.shift && !code.isChar }
  unshifted := by intro char; simp [char]

/-- A key without modifiers. -/
def special (code : KeyCode) : Key := ⟨code, .none, fun _ => rfl⟩

/-- The key that types a character. -/
def char (c : Char) : Key := special (.char c)

def escape : Key := special .escape

@[simp] theorem code_of (code : KeyCode) (mods : Modifiers) : (of code mods).code = code := rfl
@[simp] theorem code_char (c : Char) : (char c).code = .char c := rfl
@[simp] theorem mods_char (c : Char) : (char c).mods = .none := rfl
@[simp] theorem code_special (code : KeyCode) : (special code).code = code := rfl
@[simp] theorem mods_special (code : KeyCode) : (special code).mods = .none := rfl

theorem of_code_mods (key : Key) : of key.code key.mods = key := by
  apply ext
  · rfl
  · have unshifted := key.unshifted
    cases isChar : key.code.isChar <;> simp_all [of]
    cases mods : key.mods; simp_all

/-- The character of an unmodified character key. -/
def char? (key : Key) : Option Char :=
  match key.code with
  | .char c => if key.mods = .none then some c else none
  | _ => none

@[simp] theorem char?_char (c : Char) : (char c).char? = some c := by simp [char?]

theorem eq_char_of_char? {key : Key} {c : Char} (types : key.char? = some c) : key = char c := by
  unfold char? at types
  split at types
  · rename_i code
    split at types
    · apply ext <;> simp_all
    · simp at types
  · simp at types

/-- The digit that an unmodified digit key types. -/
def digit? (key : Key) : Option Nat :=
  key.char?.bind fun c => if c.isDigit then some (c.toNat - '0'.toNat) else none

/-- Escape, or its spelling with Control. -/
def isEscape (key : Key) : Bool :=
  match key.code with
  | .escape => true
  | .char 'c' => key.mods = .onlyControl
  | _ => false

/-- A key that confirms a line of input. -/
def isEnter (key : Key) : Bool :=
  match key.code with
  | .enter => true
  | .char '\n' => key.mods = .none
  | _ => false

/-- The control character of a character: the letters are 1 to 26, the rest of
the row after Escape is under the digits. -/
def controlChar? (c : Char) : Option Char :=
  if c.isLower then some (Char.ofNat (c.toNat - 'a'.toNat + 1))
  else if c = ' ' ∨ c = '@' then some (Char.ofNat 0)
  else if '4' ≤ c ∧ c ≤ '7' then some (Char.ofNat (c.toNat - '4'.toNat + 0x1C))
  else none

/-- The single code point that a terminal sends for a key. -/
def literal? (key : Key) : Option Char :=
  match key.code with
  | .char c =>
      if key.mods = .none then some c
      else if key.mods = .onlyControl then controlChar? c
      else none
  | .tab => if key.mods = .none then some '\t' else none
  | .enter => some '\r'
  | .escape => some '\x1b'
  | .backspace => some '\x7f'
  | _ => none

/-- A character with Alt, as Escape and what is left of the key. -/
def decompose? (key : Key) : Option (Key × Key) :=
  if key.code.isChar && key.mods.alt then
    some (escape, ⟨key.code, { key.mods with alt := false }, key.unshifted⟩)
  else none

end Key

end ModalInput
