/-
# ModalInput.Options.SetArgument -- the arguments of the option commands

An option command takes arguments with blanks between them.  An argument is a
name, perhaps with a sign after it, or a name, an operator and a value.  In a
value a backslash keeps the next character from ending the argument, and is
dropped in front of a blank and of another backslash.

* `words?` -- the arguments as they are typed; none when a backslash is left over.
* `SetArgument.ofWord?` -- the meaning of one.
* `SetArgument.readAll` -- both, with the errors that are shown.
-/
import ModalInput.Error
import ModalInput.Options.Value
import ModalInput.Text.Blank

namespace ModalInput

set_option autoImplicit false

inductive SetArgument where
  | showAll
  | resetAll
  /-- A name on its own: show a value, or turn a toggle. -/
  | bare (name : String)
  | query (name : String)
  | invert (name : String)
  | reset (name : String)
  | copyGlobal (name : String)
  | assign (name : String) (operation : SetOperation) (value : String)
  deriving DecidableEq, Repr

namespace SetArgument

/-- The characters between arguments. -/
def isGap (c : Char) : Bool := c = ' ' || c = '\t' || c = '\n' || c = '\r'

/-- An argument as it is typed, up to an unprotected space or tab, and the text
after it. -/
def word : List Char → List Char × List Char
  | '\\' :: c :: rest => ('\\' :: c :: (word rest).1, (word rest).2)
  | ['\\'] => ([], ['\\'])
  | c :: rest =>
      if c = ' ' || c = '\t' then ([], c :: rest) else (c :: (word rest).1, (word rest).2)
  | [] => ([], [])

theorem word_append (s : List Char) : (word s).1 ++ (word s).2 = s := by
  fun_induction word s <;> simp_all

/-- The arguments as they are typed. -/
def words? (s : List Char) : Option (List (List Char)) :=
  if (s.dropWhile isGap).isEmpty then some []
  else if (word (s.dropWhile isGap)).1.isEmpty then none
  else (words? (word (s.dropWhile isGap)).2).map ((word (s.dropWhile isGap)).1 :: ·)
termination_by s.length
decreasing_by
  rename_i typed
  have parts := congrArg List.length (word_append (s.dropWhile isGap))
  have shorter : (s.dropWhile isGap).length ≤ s.length := (List.dropWhile_sublist isGap).length_le
  have : 0 < (word (s.dropWhile isGap)).1.length := by
    cases h : (word (s.dropWhile isGap)).1 <;> simp_all
  simp only [List.length_append] at parts
  omega

/-- A value without the backslashes that protect a blank or a backslash. -/
def unescaped : List Char → List Char
  | '\\' :: c :: rest =>
      if c = '\\' || Text.isBlank c then c :: unescaped rest else '\\' :: unescaped (c :: rest)
  | c :: rest => c :: unescaped rest
  | [] => []

def isNameChar (c : Char) : Bool := c.isAlphanum || c = '_'

/-- The operator at the front of a text, and the text after it. -/
def operation? : List Char → Option (SetOperation × List Char)
  | '+' :: '=' :: value => some (.append, value)
  | '^' :: '=' :: value => some (.prepend, value)
  | '-' :: '=' :: value => some (.remove, value)
  | '=' :: value => some (.assign, value)
  | ':' :: value => some (.assign, value)
  | _ => none

/-- A name with what can stand after it in place of an operator. -/
def suffixed? (name : String) : List Char → Option SetArgument
  | [] => some (if name = "all" then .showAll else .bare name)
  | ['?'] => some (.query name)
  | ['!'] => some (.invert name)
  | ['<'] => some (.copyGlobal name)
  | '&' :: dialect =>
      if dialect = [] ∨ dialect = ['v', 'i'] ∨ dialect = ['v', 'i', 'm'] then
        some (if name = "all" then .resetAll else .reset name)
      else none
  | _ => none

/-- The meaning of an argument. -/
def ofWord? (s : List Char) : Option SetArgument :=
  let name := s.takeWhile isNameChar
  let rest := s.dropWhile isNameChar
  if name.isEmpty then none
  else match operation? rest with
    | some (operation, value) =>
        some (.assign (String.ofList name) operation (String.ofList (unescaped value)))
    | none => suffixed? (String.ofList name) rest

/-- Read the arguments of a command. -/
def readAll (s : String) : Except OptionError (List SetArgument) :=
  match words? s.toList with
  | none => .error (.invalidArgument (Text.trimmed s))
  | some words =>
      words.mapM fun word =>
        match ofWord? word with
        | some argument => .ok argument
        | none => .error (.unknownOption (String.ofList word))

end SetArgument

end ModalInput
