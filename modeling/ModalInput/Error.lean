/-
# ModalInput.Error -- what can go wrong, and how it is told

One type for each part of the library that can fail, one constructor for each
cause.  Every error has the code that users know it by (`code`) and a message
that starts with the code (`message`); `EngineError` wraps the others with
neither changed.
-/
import ModalInput.Register
import ModalInput.Text.Quoted

namespace ModalInput

set_option autoImplicit false

/-- Failures of reading, checking or writing an option. -/
inductive OptionError where
  | unknownOption (name : String)
  | invalidArgument (argument : String)
  /-- A negative number for an option that refuses them. -/
  | mustBePositive (argument : String)
  | numberRequired (argument : String)
  /-- A cursor shape without its list of modes. -/
  | missingColon (entry : String)
  | illegalMode (entry : String)
  /-- A cursor shape without its thickness. -/
  | digitExpected (entry : String)
  /-- A thickness outside of 1 to 100. -/
  | illegalPercentage (entry : String)
  deriving DecidableEq, Repr

def OptionError.code : OptionError → String
  | .unknownOption _ => "E518"
  | .invalidArgument _ => "E474"
  | .mustBePositive _ => "E487"
  | .numberRequired _ => "E521"
  | .missingColon _ => "E545"
  | .illegalMode _ => "E546"
  | .digitExpected _ => "E548"
  | .illegalPercentage _ => "E549"

/-- The message, after the code. -/
def OptionError.description : OptionError → String
  | .unknownOption name => s!"Unknown option: {name}"
  | .invalidArgument argument => s!"Invalid argument: {argument}"
  | .mustBePositive argument => s!"Argument must be positive: {argument}"
  | .numberRequired argument => s!"Number required after =: {argument}"
  | .missingColon entry => s!"Missing colon: {entry}"
  | .illegalMode entry => s!"Illegal mode: {entry}"
  | .digitExpected entry => s!"Digit expected: {entry}"
  | .illegalPercentage entry => s!"Illegal percentage: {entry}"

/-- Failures of defining or expanding a mapping. -/
inductive MappingError where
  /-- Mappings led into each other more often than the option allows. -/
  | recursive
  | noSuchMapping
  | invalidKeys (keys : String)
  | invalidExpression (reason : String)
  deriving DecidableEq, Repr

def MappingError.code : MappingError → String
  | .recursive => "E223"
  | .noSuchMapping => "E31"
  | .invalidKeys _ => "E474"
  | .invalidExpression _ => "E15"

/-- The message, after the code. -/
def MappingError.description : MappingError → String
  | .recursive => "recursive mapping"
  | .noSuchMapping => "No such mapping"
  | .invalidKeys keys => s!"Invalid argument: {keys}"
  | .invalidExpression reason => s!"Invalid expression: {reason}"

/-- Failures of recording keys and of running recorded ones. -/
inductive MacroError where
  /-- A text that was to be a single key. -/
  | notOneKey (text : String)
  | noKeys
  /-- Recorded keys that started recorded keys `depth` times without anything typed. -/
  | looping (depth : Nat)
  | invalidRegister (c : Char)
  /-- A repetition before anything had been run. -/
  | noPreviousRegister
  | emptyRegister (register : Register)
  deriving DecidableEq, Repr

def MacroError.code : MacroError → String
  | .notOneKey _ | .noKeys => "E474"
  | .looping _ => "E169"
  | .invalidRegister _ => "E354"
  | .noPreviousRegister => "E748"
  | .emptyRegister _ => "E353"

/-- The message, after the code. -/
def MacroError.description : MacroError → String
  | .notOneKey text => s!"Invalid macro string: {Text.quoted text}"
  | .noKeys => "Empty macro string"
  | .looping depth => s!"Command too recursive; macro run {depth} times w/o keyboard input"
  | .invalidRegister c => "Invalid register name: '" ++ String.singleton c ++ "'"
  | .noPreviousRegister => "No previously used register"
  | .emptyRegister register => s!"Nothing in register {register.label}"

/-- Failures of running a command line. -/
inductive CommandError where
  | notACommand (line : String)
  | invalidArgument (argument : String)
  | trailingCharacters (rest : String)
  deriving DecidableEq, Repr

def CommandError.code : CommandError → String
  | .notACommand _ => "E492"
  | .invalidArgument _ => "E474"
  | .trailingCharacters _ => "E488"

/-- The message, after the code. -/
def CommandError.description : CommandError → String
  | .notACommand line => s!"Not an editor command: {line}"
  | .invalidArgument argument => s!"Invalid argument: {argument}"
  | .trailingCharacters rest => s!"Trailing characters: {rest}"

/-- Everything that the engine reports to its host. -/
inductive EngineError where
  | option (cause : OptionError)
  | mapping (cause : MappingError)
  | recording (cause : MacroError)
  | command (cause : CommandError)
  /-- A command names a mark that the host does not know. -/
  | markNotSet (mark : Char)
  deriving DecidableEq, Repr

def EngineError.code : EngineError → String
  | .option cause => cause.code
  | .mapping cause => cause.code
  | .recording cause => cause.code
  | .command cause => cause.code
  | .markNotSet _ => "E20"

/-- The message, after the code. -/
def EngineError.description : EngineError → String
  | .option cause => cause.description
  | .mapping cause => cause.description
  | .recording cause => cause.description
  | .command cause => cause.description
  | .markNotSet _ => "Mark not set"

/-- The message as it is shown: the code, then what went wrong. -/
def EngineError.message (error : EngineError) : String := error.code ++ ": " ++ error.description

instance : Coe OptionError EngineError := ⟨.option⟩
instance : Coe MappingError EngineError := ⟨.mapping⟩
instance : Coe MacroError EngineError := ⟨.recording⟩
instance : Coe CommandError EngineError := ⟨.command⟩

end ModalInput
