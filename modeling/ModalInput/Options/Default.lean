/-
# ModalInput.Options.Default -- the options that an editor starts with

The names that the engine itself reads, and the definitions with their defaults.
-/
import ModalInput.Cursor.Reader
import ModalInput.Options.Store

namespace ModalInput

set_option autoImplicit false

namespace OptionName

/-- Whether keys that may go on wait only for a time. -/
def timeout : String := "timeout"
/-- That time, in milliseconds. -/
def timeoutLength : String := "timeoutlen"
/-- How often mappings may lead into each other. -/
def mapDepth : String := "maxmapdepth"
/-- Whether the keys of a mapping are mapped again. -/
def remap : String := "remap"
/-- What special keys do to a selection. -/
def keymodel : String := "keymodel"
/-- What starts Select mode where Visual mode would start. -/
def selectmode : String := "selectmode"
/-- Whether the end of a selection belongs to it. -/
def selection : String := "selection"
/-- The look of the cursor. -/
def guicursor : String := "guicursor"
/-- Whether the mode is shown. -/
def showmode : String := "showmode"
/-- Whether the keys of an unfinished command are shown. -/
def showcmd : String := "showcmd"

end OptionName

/-- The look of the cursor at the start. -/
def defaultCursor : String :=
  "n-v-c:block-Cursor/lCursor,ve:ver35-Cursor,o:hor50-Cursor,i-ci:ver25-Cursor/lCursor," ++
    "r-cr:hor20-Cursor/lCursor,sm:block-Cursor-blinkwait175-blinkoff150-blinkon175"

/-- The options that an editor starts with. -/
def defaultOptions : List OptionDef := [
  .ofToggle OptionName.timeout "to" true,
  .ofUnsigned OptionName.timeoutLength "tm" 1000,
  .ofUnsigned OptionName.mapDepth "mmd" 1000,
  .ofToggle OptionName.remap "" true,
  (OptionDef.ofList OptionName.keymodel "km" "continueselect,stopselect").withBound
    ["startsel", "stopsel", "stopselect", "stopvisual", "continueselect", "continuevisual"],
  (OptionDef.ofList OptionName.selectmode "slm" "").withBound ["mouse", "key", "cmd"],
  (OptionDef.ofText OptionName.selection "sel" "inclusive").withBound
    ["old", "inclusive", "exclusive"],
  (OptionDef.ofList OptionName.guicursor "gcr" defaultCursor).withValidator CursorEntry.check,
  .ofToggle OptionName.showmode "smd" true,
  .ofToggle OptionName.showcmd "sc" true,
  .ofUnsigned "history" "hi" 50,
  .ofList "clipboard" "cb" "autoselect,exclude:cons\\|linux",
  .ofList "matchpairs" "mps" "(:),\x7b:\x7d,[:]",
  (OptionDef.ofUnsigned "scrolloff" "so" 0).withScope .overridable,
  (OptionDef.ofNumber "undolevels" "ul" 1000).withScope .overridable,
  (OptionDef.ofToggle "number" "nu" false).withScope .perEditor,
  (OptionDef.ofToggle "relativenumber" "rnu" false).withScope .perEditor,
  (OptionDef.ofToggle "wrap" "" true).withScope .perEditor,
  (OptionDef.ofUnsigned "shiftwidth" "sw" 8).withScope .perEditor,
  (OptionDef.ofList "iskeyword" "isk" "@,48-57,_").withScope .perEditor]

/-- The store that an editor starts with. -/
def OptionStore.default : OptionStore := defaultOptions.foldl OptionStore.define {}

end ModalInput
