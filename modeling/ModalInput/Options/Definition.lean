/-
# ModalInput.Options.Definition -- what an option is, and which values it takes

A definition has a full name, perhaps a short one, a default, a kind and the
scopes in which it has values.  A text may be bound to a fixed set of tokens and
may have a check of its own; an empty text always passes.

* `OptionDef.check` -- whether a value may be stored; the error shows what was
  typed.
* `OptionDef.read` -- a typed value.
-/
import ModalInput.Error
import ModalInput.Options.Value

namespace ModalInput

set_option autoImplicit false

/-- The kind of an option, with what bounds its values. -/
inductive OptionKind where
  | text (list : Bool) (bounded : Option (List String))
      (validator : Option (String → Except OptionError Unit))
  | number (unsigned : Bool)
  | toggle

structure OptionDef where
  name : String
  short : Option String
  default : OptionValue
  kind : OptionKind
  scope : ScopeKind := .shared

namespace OptionDef

/-- An empty short name is none. -/
def shortName (short : String) : Option String := if short.isEmpty then none else some short

def ofToggle (name short : String) (default : Bool) : OptionDef :=
  { name, short := shortName short, default := .toggle default, kind := .toggle }

/-- A number that may be negative. -/
def ofNumber (name short : String) (default : Int64) : OptionDef :=
  { name, short := shortName short, default := .number default, kind := .number false }

def ofUnsigned (name short : String) (default : Int64) : OptionDef :=
  { name, short := shortName short, default := .number default, kind := .number true }

def ofText (name short default : String) : OptionDef :=
  { name, short := shortName short, default := .text default, kind := .text false none none }

/-- A list, with commas between its tokens. -/
def ofList (name short default : String) : OptionDef :=
  { name, short := shortName short, default := .text default, kind := .text true none none }

/-- The same option, bound to some tokens; only a text can be. -/
def withBound (definition : OptionDef) (tokens : List String) : OptionDef :=
  match definition.kind with
  | .text list _ validator => { definition with kind := .text list (some tokens) validator }
  | _ => definition

/-- The same option with a check of its own; only a text can have one. -/
def withValidator (definition : OptionDef) (check : String → Except OptionError Unit) : OptionDef :=
  match definition.kind with
  | .text list bounded _ => { definition with kind := .text list bounded (some check) }
  | _ => definition

def withScope (definition : OptionDef) (scope : ScopeKind) : OptionDef := { definition with scope }

def isToggle (definition : OptionDef) : Bool :=
  match definition.kind with
  | .toggle => true
  | _ => false

def isList (definition : OptionDef) : Bool :=
  match definition.kind with
  | .text list _ _ => list
  | _ => false

/-- The tokens of a text. -/
def split (definition : OptionDef) (s : String) : List String :=
  (TextOption.split definition.isList s.toList).map String.ofList

/-- Check that a value may be stored; `shown` is what was typed. -/
def check (definition : OptionDef) (value : OptionValue) (shown : String) : Except OptionError Unit :=
  match definition.kind, value with
  | .toggle, .toggle _ => .ok ()
  | .toggle, _ => .error (.invalidArgument shown)
  | .number unsigned, .number n =>
      if unsigned && n < 0 then .error (.mustBePositive shown) else .ok ()
  | .number _, _ => .error (.numberRequired shown)
  | .text _ bounded validator, .text s =>
      if s.isEmpty then .ok ()
      else if bounded.any fun tokens => (definition.split s).any fun token => !tokens.contains token then
        .error (.invalidArgument shown)
      else
        match validator with
        | some validator => validator s
        | none => .ok ()
  | .text _ _ _, _ => .error (.invalidArgument shown)

/-- A value as it was typed after an operator; a toggle takes none. -/
def read (definition : OptionDef) (value shown : String) : Except OptionError OptionValue :=
  match definition.kind with
  | .toggle => .error (.invalidArgument shown)
  | .number _ =>
      match OptionNumber.read? value.toList with
      | some n => .ok (.number n)
      | none => .error (.numberRequired shown)
  | .text _ _ _ => .ok (.text value)

/-- A value combined with another in the way of this option. -/
def combine? (definition : OptionDef) (operation : SetOperation) (current operand : OptionValue) :
    Option OptionValue :=
  OptionValue.combine? definition.isList operation current operand

end OptionDef

end ModalInput
