/-
# ModalInput.Text.Blank -- blank characters, and text without them at its ends

A character is blank when Unicode gives it the property White_Space: the ASCII
blanks with vertical tab and form feed, the next-line control, and the spaces
and separators of general punctuation.  `Char.isWhitespace` knows only four of the
ASCII ones.

* `trim` -- a text without the blanks at both ends.
* `allBlank` -- a text with nothing else in it.
-/

namespace ModalInput.Text

set_option autoImplicit false

/-- Unicode's White_Space property. -/
def isBlank (c : Char) : Bool :=
  let n := c.toNat
  (9 ≤ n && n ≤ 13) || n == 0x20 || n == 0x85 || n == 0xA0 || n == 0x1680 ||
    (0x2000 ≤ n && n ≤ 0x200A) || n == 0x2028 || n == 0x2029 || n == 0x202F ||
    n == 0x205F || n == 0x3000

/-- Without the blanks at the front. -/
def trimStart (s : List Char) : List Char := s.dropWhile isBlank

/-- Without the blanks at the back. -/
def trimEnd (s : List Char) : List Char := (s.reverse.dropWhile isBlank).reverse

/-- Without the blanks at either end; those inside stay. -/
def trim (s : List Char) : List Char := trimEnd (trimStart s)

def allBlank (s : List Char) : Bool := s.all isBlank

/-- `trim` on strings. -/
def trimmed (s : String) : String := String.ofList (trim s.toList)

end ModalInput.Text
