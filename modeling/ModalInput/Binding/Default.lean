/-
# ModalInput.Binding.Default -- the keys that an editor starts with

The default table, group by group: the modes, the keys, and the action that they
are.  Actions of one group share a shape, so each group names its shape and lists
keys with names.

* `defaultBindings` -- the table as data; `CommandKeys.default` -- the table.
* `Action.currentLine`, `insertCharacter`, `replaceCharacter`,
  `selectCharacter` -- the actions of keys that no table holds: a repeated
  operator, and a typed character.
-/
import ModalInput.Binding.Table

namespace ModalInput

set_option autoImplicit false

namespace Action

/-- A motion, which every caret makes for itself. -/
def ofMotion (flags : CommandFlags) (name : String) : Action :=
  { name, kind := .motion, flags, strategy := .forEachCaret }

/-- A motion that waits for a character. -/
def ofCharacterMotion (flags : CommandFlags) (name : String) : Action :=
  { ofMotion flags name with argument := .character }

/-- A motion that waits for a line, such as a search. -/
def ofLineMotion (flags : CommandFlags) (name : String) : Action :=
  { ofMotion flags name with argument := .exString }

/-- An operator, which waits for a motion. -/
def ofOperator (kind : CommandKind) (name : String) : Action :=
  { name, kind, argument := .motion }

/-- An edit, which happens at every caret. -/
def ofEdit (kind : CommandKind) (name : String) : Action :=
  { name, kind, strategy := .forEachCaret }

/-- An edit that starts inserting. -/
def ofInsert (kind : CommandKind) (name : String) : Action :=
  { ofEdit kind name with flags := { multikeyUndo := true }, modeChange := .insert }

/-- An edit of a selection, which ends the selection. -/
def ofSelectionEdit (name : String) : Action :=
  { ofEdit .otherWritable name with flags := { exitVisual := true } }

/-- A command that runs once. -/
def ofSingle (kind : CommandKind) (name : String) : Action := { name, kind }

/-- A command that only changes the mode. -/
def ofModeChange (modeChange : ModeChange) (name : String) : Action :=
  { name, kind := .otherReadonly, modeChange }

/-- Work of the engine. -/
def ofBuiltin (builtin : BuiltinAction) (name : String) : Action :=
  { name, kind := .otherReadonly, builtin }

/-- What a repeated operator applies to. -/
def currentLine : Action := ofMotion { linewise := true } "motion.current-line"

/-- What an unbound character is in Insert mode. -/
def insertCharacter : Action := { ofEdit .insert "insert.type" with argument := .character }

/-- What an unbound character is in Replace mode. -/
def replaceCharacter : Action := { ofEdit .insert "replace.type" with argument := .character }

/-- What an unbound character is in Select mode: it replaces the selection. -/
def selectCharacter : Action := { ofInsert .change "select.type" with argument := .character }

end Action

/-- Keys that are a command in some modes. -/
structure Binding where
  modes : MappedModes
  keys : String
  action : Action
  deriving DecidableEq

namespace Binding

/-- Several keys with actions of one shape. -/
def group (modes : MappedModes) (shape : String → Action) (rows : List (String × String)) :
    List Binding :=
  rows.map fun row => ⟨modes, row.1, shape row.2⟩

private def n : MappedModes := { normal := true }
private def x : MappedModes := { visual := true }
private def s : MappedModes := { select := true }
private def i : MappedModes := { insert := true }
private def nx : MappedModes := { normal := true, visual := true }
private def xo : MappedModes := { visual := true, operatorPending := true }
private def nxo : MappedModes := { normal := true, visual := true, operatorPending := true }
private def v : MappedModes := .selecting

/-- The special keys, which can start and stop a selection. -/
def specialKeys : List Binding :=
  let plain := MappedModes.commanding ∪ i
  group plain (.ofMotion { exclusive := true, keymodel := true }) [
    ("<Left>", "motion.left"), ("<Right>", "motion.right"), ("<Home>", "motion.line-start")] ++
  group plain (.ofMotion { linewise := true, keymodel := true }) [
    ("<Up>", "motion.up"), ("<Down>", "motion.down"),
    ("<PageUp>", "scroll.page-up"), ("<PageDown>", "scroll.page-down")] ++
  group plain (.ofMotion { inclusive := true, keymodel := true }) [
    ("<End>", "motion.line-end")] ++
  group (n ∪ v ∪ i) (.ofMotion { exclusive := true, shiftSelect := true }) [
    ("<S-Left>", "motion.shift-left"), ("<S-Right>", "motion.shift-right"),
    ("<S-Up>", "motion.shift-up"), ("<S-Down>", "motion.shift-down"),
    ("<S-Home>", "motion.shift-home"), ("<S-End>", "motion.shift-end")]

/-- The motions. -/
def motions : List Binding :=
  group nxo (.ofMotion { exclusive := true }) [
    ("h", "motion.left"), ("<BS>", "motion.left"), ("<C-H>", "motion.left"),
    ("l", "motion.right"), ("<Space>", "motion.right"),
    ("gj", "motion.screen-down"), ("gk", "motion.screen-up"),
    ("w", "motion.word"), ("W", "motion.big-word"),
    ("b", "motion.word-back"), ("B", "motion.big-word-back"),
    ("0", "motion.line-start"), ("^", "motion.first-nonblank"), ("|", "motion.column"),
    (",", "motion.repeat-find-back")] ++
  group nxo (.ofMotion { linewise := true }) [
    ("j", "motion.down"), ("<C-J>", "motion.down"), ("<C-N>", "motion.down"),
    ("k", "motion.up"), ("<C-P>", "motion.up")] ++
  group nxo (.ofMotion { inclusive := true }) [
    ("e", "motion.word-end"), ("E", "motion.big-word-end"),
    ("ge", "motion.word-end-back"), ("gE", "motion.big-word-end-back"),
    ("$", "motion.line-end"), ("g_", "motion.last-nonblank"), (";", "motion.repeat-find")] ++
  group nxo (.ofMotion { linewise := true, saveJump := true }) [
    ("gg", "motion.file-start"), ("G", "motion.file-end"),
    ("H", "motion.screen-top"), ("M", "motion.screen-middle"), ("L", "motion.screen-bottom")] ++
  group nxo (.ofMotion { inclusive := true, saveJump := true }) [
    ("%", "motion.match-pair")] ++
  group nxo (.ofMotion { exclusive := true, saveJump := true }) [
    ("(", "motion.sentence-back"), (")", "motion.sentence"),
    ("\x7b", "motion.paragraph-back"), ("\x7d", "motion.paragraph"),
    ("n", "motion.search-next"), ("N", "motion.search-previous"),
    ("*", "motion.search-word-forward"), ("#", "motion.search-word-backward")] ++
  group nxo (.ofCharacterMotion { inclusive := true }) [
    ("f", "motion.find-char"), ("t", "motion.till-char")] ++
  group nxo (.ofCharacterMotion { exclusive := true }) [
    ("F", "motion.find-char-back"), ("T", "motion.till-char-back")] ++
  group nxo (.ofCharacterMotion { exclusive := true, saveJump := true, mark := true }) [
    ("`", "motion.goto-mark")] ++
  group nxo (.ofCharacterMotion { linewise := true, saveJump := true, mark := true }) [
    ("'", "motion.goto-mark-line")] ++
  group nxo (.ofLineMotion { exclusive := true, saveJump := true }) [
    ("/", "motion.search-forward"), ("?", "motion.search-backward")]

/-- The text objects: after `i` without what surrounds them, after `a` with it. -/
def textObjects : List Binding :=
  [("w", "word"), ("W", "big-word"), ("s", "sentence"), ("p", "paragraph"),
    ("(", "paren"), (")", "paren"), ("b", "paren"),
    ("\x7b", "brace"), ("\x7d", "brace"), ("B", "brace"),
    ("[", "bracket"), ("]", "bracket"), ("<lt>", "angle"), (">", "angle"),
    ("\"", "double-quote"), ("'", "single-quote"), ("`", "back-quote"), ("t", "tag")].flatMap
    fun row => group xo (.ofMotion { characterwise := true }) [
      ("i" ++ row.1, "object.inner-" ++ row.2), ("a" ++ row.1, "object.a-" ++ row.2)]

/-- The operators. -/
def operators : List Binding :=
  [⟨nx, "d", .ofOperator .delete "operator.delete"⟩,
    ⟨nx, "y", .ofOperator .copy "operator.yank"⟩,
    ⟨nx, "c", { Action.ofOperator .change "operator.change" with
      flags := { multikeyUndo := true, noRepeatInsert := true }, modeChange := .insert }⟩] ++
  group nx (.ofOperator .otherWritable) [
    ("<lt>", "operator.shift-left"), (">", "operator.shift-right"), ("=", "operator.reindent"),
    ("g~", "operator.toggle-case"), ("gu", "operator.lowercase"), ("gU", "operator.uppercase"),
    ("g?", "operator.rot13"), ("gq", "operator.format"), ("gw", "operator.format-keep-cursor")] ++
  [⟨nx, "!", { Action.ofOperator .otherWritable "operator.filter" with builtin := some .filter }⟩]

/-- The edits of Normal mode. -/
def edits : List Binding :=
  group n (.ofEdit .delete) [
    ("x", "edit.delete-char"), ("<Del>", "edit.delete-char"), ("X", "edit.delete-char-back"),
    ("D", "edit.delete-to-end")] ++
  group n (.ofEdit .copy) [("Y", "edit.yank-line")] ++
  group n (.ofEdit .otherWritable) [
    ("J", "edit.join-lines"), ("gJ", "edit.join-lines-raw"), ("~", "edit.toggle-case-char"),
    ("<C-A>", "edit.increment"), ("<C-X>", "edit.decrement")] ++
  [⟨n, "r", { Action.ofEdit .otherWritable "edit.replace-char" with argument := .character }⟩] ++
  group n (.ofSingle .otherWritable) [
    ("u", "history.undo"), ("<C-R>", "history.redo"), (".", "history.repeat-change")] ++
  group n (.ofSingle .otherReadonly) [
    ("<C-O>", "jump.older"), ("<C-I>", "jump.newer"),
    ("zz", "scroll.cursor-middle"), ("zt", "scroll.cursor-top"), ("zb", "scroll.cursor-bottom"),
    ("<C-E>", "scroll.line-down"), ("<C-Y>", "scroll.line-up"),
    ("<C-D>", "scroll.half-page-down"), ("<C-U>", "scroll.half-page-up"),
    ("<C-F>", "scroll.page-down"), ("<C-B>", "scroll.page-up"),
    ("<Esc>", "normal.escape")] ++
  [⟨n, "m", { Action.ofSingle .otherReadonly "mark.set" with argument := .character }⟩] ++
  group nx (.ofEdit .paste) [("p", "edit.put-after"), ("P", "edit.put-before")]

/-- The ways into Insert and Replace mode. -/
def insertions : List Binding :=
  group n (.ofInsert .insert) [
    ("i", "insert.before-cursor"), ("<Insert>", "insert.before-cursor"),
    ("a", "insert.after-cursor"), ("I", "insert.line-start"), ("gI", "insert.column-zero"),
    ("A", "insert.line-end"), ("o", "insert.open-below"), ("O", "insert.open-above")] ++
  group n (.ofInsert .change) [("s", "insert.substitute-char")] ++
  group n (fun name => { Action.ofInsert .change name with
      flags := { multikeyUndo := true, noRepeatInsert := true } }) [
    ("C", "insert.change-to-end"), ("S", "insert.change-line")] ++
  [⟨n, "R", { Action.ofInsert .insert "replace.start" with modeChange := .replace }⟩]

/-- What concerns selections. -/
def selections : List Binding :=
  [⟨nx, "v", .ofModeChange (.visual .visualCharacter) "visual.toggle-character"⟩,
    ⟨nx, "V", .ofModeChange (.visual .visualLine) "visual.toggle-line"⟩,
    ⟨nx, "<C-V>", .ofModeChange (.visual .visualBlock) "visual.toggle-block"⟩,
    ⟨n, "gh", .ofModeChange (.select .visualCharacter) "select.start-character"⟩,
    ⟨n, "gH", .ofModeChange (.select .visualLine) "select.start-line"⟩,
    ⟨n, "g<C-H>", .ofModeChange (.select .visualBlock) "select.start-block"⟩,
    ⟨v, "<C-G>", .ofModeChange .swapVisualSelect "visual.swap-select"⟩] ++
  group x (.ofSingle .otherReadonly) [
    ("o", "visual.swap-ends"), ("O", "visual.swap-ends-horizontal")] ++
  group x .ofSelectionEdit [
    ("u", "visual.lowercase"), ("U", "visual.uppercase"), ("~", "visual.toggle-case"),
    ("J", "visual.join-lines")] ++
  [⟨x, "r", { Action.ofSelectionEdit "visual.replace-chars" with argument := .character }⟩] ++
  group s (.ofInsert .delete) [
    ("<BS>", "select.delete"), ("<C-H>", "select.delete"), ("<Del>", "select.delete")] ++
  group v (.ofModeChange .normal) [("<Esc>", "visual.exit"), ("<C-C>", "visual.exit")]

/-- The command line, and recorded keys. -/
def commandLines : List Binding :=
  [⟨nx, ":", { Action.ofSingle .otherWritable Action.commandLineName with
      argument := .exString, flags := { exitVisual := true } }⟩,
    ⟨n, "q", { Action.ofBuiltin .toggleRecording "macro.toggle-recording" with
      argument := .character }⟩,
    ⟨n, "@", { Action.ofBuiltin .executeMacro "macro.execute" with argument := .character }⟩,
    ⟨n, "Q", .ofBuiltin .repeatMacro "macro.repeat"⟩]

/-- The keys of Insert and Replace mode. -/
def typingKeys : List Binding :=
  group i (.ofEdit .delete) [
    ("<BS>", "insert.delete-back"), ("<C-H>", "insert.delete-back"),
    ("<Del>", "insert.delete-forward"),
    ("<C-W>", "insert.delete-word"), ("<C-U>", "insert.delete-line")] ++
  group i (.ofEdit .insert) [
    ("<CR>", "insert.newline"), ("<C-J>", "insert.newline"), ("<C-M>", "insert.newline"),
    ("<Tab>", "insert.tab")] ++
  group i (.ofEdit .otherWritable) [("<C-T>", "insert.indent"), ("<C-D>", "insert.dedent")] ++
  [⟨i, "<C-R>", { Action.ofEdit .paste "insert.register" with argument := .character }⟩] ++
  group i (fun name => { Action.ofEdit .insert name with argument := .character }) [
    ("<C-V>", "insert.literal"), ("<C-Q>", "insert.literal")] ++
  group i (.ofModeChange .normal) [("<Esc>", "insert.exit"), ("<C-C>", "insert.exit")]

end Binding

/-- Every default binding. -/
def defaultBindings : List Binding :=
  Binding.specialKeys ++ Binding.motions ++ Binding.textObjects ++ Binding.operators ++
    Binding.edits ++ Binding.insertions ++ Binding.selections ++ Binding.commandLines ++
    Binding.typingKeys

/-- The table that an editor starts with. -/
def CommandKeys.default : CommandKeys :=
  defaultBindings.foldl
    (fun keys row => keys.bind row.modes (Key.ofText row.keys) row.action) .empty

end ModalInput
