/-
# ModalInput.Ex.Command -- the commands of the command line

The command line knows the commands that change the configuration: those that
show and change options, and those that add, list and remove mappings.  A line is
a name, perhaps a bang, and arguments.  A name may be cut short, down to a least
form that each command declares.

* `ExLine.ofText?` -- a line in its parts; none when it does not name a command.
* `ExCommands.get` -- the command with a name, in full or cut short.
* `ExCommands.run` -- run a line on options and mappings.
-/
import ModalInput.Mapping.Store
import ModalInput.Options.SetCommand
import ModalInput.Text.Completion

namespace ModalInput

set_option autoImplicit false

inductive ExCommand where
  | set (command : SetCommand)
  /-- Add a mapping, or list them. -/
  | map (modes : MappedModes) (noremap : Bool)
  | unmap (modes : MappedModes)
  /-- Remove every mapping of some modes. -/
  | mapClear (modes : MappedModes)
  deriving DecidableEq, Repr

namespace ExCommand

/-- The form with a bang: the plain mapping commands have one, for the modes in
which text is typed. -/
def withBang? : ExCommand → Option ExCommand
  | .map modes noremap => if modes = .commanding then some (.map .typing noremap) else none
  | .unmap modes => if modes = .commanding then some (.unmap .typing) else none
  | .mapClear modes => if modes = .commanding then some (.mapClear .typing) else none
  | .set _ => none

end ExCommand

/-- A line of the command line, in its parts. -/
structure ExLine where
  name : String
  bang : Bool
  arguments : List Char
  deriving DecidableEq

namespace ExLine

/-- Take a line apart.  Colons and blanks before the name do not count; a line
without a name of ASCII letters is none. -/
def ofText? (line : List Char) : Option ExLine :=
  let start := line.dropWhile fun c => c = ':' || Text.isBlank c
  let name := start.takeWhile Char.isAlpha
  if name.isEmpty then none
  else match start.dropWhile Char.isAlpha with
    | '!' :: rest => some ⟨String.ofList name, true, rest⟩
    | rest => some ⟨String.ofList name, false, rest⟩

/-- The arguments are apart from the name. -/
def argumentsApart (line : ExLine) : Bool :=
  match line.arguments with
  | [] => true
  | c :: _ => Text.isBlank c

end ExLine

/-- The arguments of a mapping command, after those in angle brackets that come
first. -/
structure MapArguments where
  /-- The target is an expression. -/
  expression : Bool
  rest : List Char

namespace MapArguments

/-- Arguments that are allowed and have no effect. -/
def ignored : List (List Char) :=
  ["<buffer>".toList, "<nowait>".toList, "<silent>".toList, "<special>".toList,
    "<script>".toList, "<unique>".toList]

/-- The argument in angle brackets that a text starts with. -/
def leading? (s : List Char) : Option (List Char) :=
  ("<expr>".toList :: ignored).find? fun argument => argument.isPrefixOf s

/-- Take the arguments in angle brackets off. -/
def of (s : List Char) : MapArguments :=
  match _found : leading? (Text.trimStart s) with
  | none => ⟨false, Text.trimStart s⟩
  | some argument =>
      let others := of ((Text.trimStart s).drop argument.length)
      ⟨argument = "<expr>".toList || others.expression, others.rest⟩
termination_by s.length
decreasing_by
  have shorter : (Text.trimStart s).length ≤ s.length := (List.dropWhile_sublist _).length_le
  have leads := List.find?_some _found
  have listed := List.mem_of_find?_eq_some _found
  have parts := (List.isPrefixOf_iff_prefix.mp leads).length_le
  have long : 0 < argument.length := by
    simp only [ignored, List.mem_cons, List.not_mem_nil, or_false] at listed
    rcases listed with rfl | rfl | rfl | rfl | rfl | rfl | rfl <;> decide
  simp only [List.length_drop]
  omega

/-- The keys to map, which end at the first blank, and the target. -/
def sides (arguments : MapArguments) : List Char × List Char :=
  (arguments.rest.takeWhile fun c => !Text.isBlank c,
    Text.trimStart (arguments.rest.dropWhile fun c => !Text.isBlank c))

end MapArguments

/-- What a command line changes. -/
structure ExState where
  options : OptionStore
  mappings : MappingStore
  /-- On whose behalf it runs. -/
  editor : EditorId

/-- The state after a line, with the lines it shows or its failure. -/
structure ExOutcome where
  state : ExState
  result : Except EngineError (List String)

/-- The commands by name. -/
structure ExCommands where
  commands : Directory String ExCommand := .empty
  /-- Full names by their least forms. -/
  shortest : Directory String String := .empty
  /-- The last line that named a command. -/
  last : String := ""

namespace ExCommands

instance : Inhabited ExCommands := ⟨{}⟩

/-- Add a command with the least form of its name. -/
def add (commands : ExCommands) (name least : String) (command : ExCommand) : ExCommands :=
  { commands with
    commands := commands.commands.insert name command
    shortest := if least = name then commands.shortest else commands.shortest.insert least name }

/-- The command names that start in one way. -/
def completeName (commands : ExCommands) (start : String) : List String :=
  Text.completions commands.commands.keys start

/-- The command with a full name, or else the first one, by least form, whose
least form the name extends towards the full name. -/
def get? (commands : ExCommands) (name : String) : Option ExCommand :=
  (commands.commands.get? name).or
    ((commands.shortest.entries.mergeSort fun a b => a.1 ≤ b.1).findSome? fun entry =>
      if entry.1.isPrefixOf name && name.isPrefixOf entry.2 then commands.commands.get? entry.2
      else none)

def get (commands : ExCommands) (name : String) : Except CommandError ExCommand :=
  match commands.get? name with
  | some command => .ok command
  | none => .error (.notACommand name)

/-- Whether a line names one of these commands. -/
def isCommand (commands : ExCommands) (line : String) : Bool :=
  ((ExLine.ofText? line.toList).bind fun parts => commands.get? parts.name).isSome

/-- The command that a line names, with its bang. -/
def resolve (commands : ExCommands) (line : ExLine) : Except CommandError ExCommand :=
  if !line.argumentsApart then .error (.trailingCharacters (String.ofList line.arguments))
  else match commands.get line.name with
    | .error error => .error error
    | .ok command =>
        if line.bang then
          match command.withBang? with
          | some command => .ok command
          | none => .error (.invalidArgument (line.name ++ "!"))
        else .ok command

/-- Take the mappings that a change gives, or its failure. -/
def withMappings (state : ExState) (change : Except MappingError MappingStore) : ExOutcome :=
  match change with
  | .ok mappings => ⟨{ state with mappings }, .ok []⟩
  | .error error => ⟨state, .error error⟩

/-- The lines that show mappings; there is one also when there are none. -/
def listing (mappings : MappingStore) (modes : MappedModes) (start : List Key) : List String :=
  if (mappings.list modes start).isEmpty then ["No mapping found"] else mappings.list modes start

/-- Run a command; `name` is how it was typed. -/
def perform (command : ExCommand) (name : String) (arguments : List Char) (state : ExState) :
    ExOutcome :=
  match command with
  | .set command =>
      let outcome := command.run state.editor state.options (String.ofList (Text.trim arguments))
      ⟨{ state with options := outcome.store }, outcome.result.mapError EngineError.option⟩
  | .map modes noremap =>
      let arguments := MapArguments.of arguments
      let (lhs, rhs) := arguments.sides
      if rhs.isEmpty then ⟨state, .ok (listing state.mappings modes (Key.readAll lhs))⟩
      else withMappings state
        (state.mappings.addText modes (String.ofList lhs) (String.ofList rhs) noremap
          arguments.expression)
  | .unmap modes =>
      let lhs := Text.trim (MapArguments.of arguments).rest
      if lhs.isEmpty then ⟨state, .error (CommandError.invalidArgument name)⟩
      else withMappings state (state.mappings.removeText modes (String.ofList lhs))
  | .mapClear modes =>
      let rest := Text.trim (MapArguments.of arguments).rest
      if rest.isEmpty then ⟨{ state with mappings := state.mappings.clear modes }, .ok []⟩
      else ⟨state, .error (CommandError.trailingCharacters (String.ofList rest))⟩

/-- Run a line.  A line that names nothing does nothing. -/
def run (commands : ExCommands) (line : String) (state : ExState) : ExCommands × ExOutcome :=
  match ExLine.ofText? line.toList with
  | none => (commands, ⟨state, .ok []⟩)
  | some parts =>
      ({ commands with last := line },
        match commands.resolve parts with
        | .error error => ⟨state, .error error⟩
        | .ok command => perform command parts.name parts.arguments state)

/-- The four mapping commands of some modes, each with its least form. -/
def addFamily (commands : ExCommands) (modes : MappedModes)
    (map noremap unmap clear : String × String) : ExCommands :=
  (((commands.add map.1 map.2 (.map modes false)).add noremap.1 noremap.2 (.map modes true)).add
    unmap.1 unmap.2 (.unmap modes)).add clear.1 clear.2 (.mapClear modes)

/-- The commands that an editor starts with. -/
def default : ExCommands :=
  let options := (((({} : ExCommands).add "set" "se" (.set .both)).add
    "setlocal" "setl" (.set .own)).add "setglobal" "setg" (.set .shared))
  ((((((((options.addFamily .commanding
    ("map", "map") ("noremap", "no") ("unmap", "unm") ("mapclear", "mapc")).addFamily
    { normal := true }
    ("nmap", "nm") ("nnoremap", "nn") ("nunmap", "nun") ("nmapclear", "nmapc")).addFamily
    .selecting
    ("vmap", "vm") ("vnoremap", "vn") ("vunmap", "vu") ("vmapclear", "vmapc")).addFamily
    { visual := true }
    ("xmap", "xm") ("xnoremap", "xn") ("xunmap", "xu") ("xmapclear", "xmapc")).addFamily
    { select := true }
    ("smap", "smap") ("snoremap", "snor") ("sunmap", "sunm") ("smapclear", "smapc")).addFamily
    { operatorPending := true }
    ("omap", "om") ("onoremap", "ono") ("ounmap", "ou") ("omapclear", "omapc")).addFamily
    { insert := true }
    ("imap", "im") ("inoremap", "ino") ("iunmap", "iu") ("imapclear", "imapc")).addFamily
    { commandLine := true }
    ("cmap", "cm") ("cnoremap", "cno") ("cunmap", "cu") ("cmapclear", "cmapc"))

end ExCommands

end ModalInput
