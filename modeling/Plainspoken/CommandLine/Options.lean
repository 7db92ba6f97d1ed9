/-!
# Options

The options of the command line, and how arguments name them.  Every option
takes a value and may be given once; a program is given as text or as a file,
not as both.
-/

namespace Plainspoken

inductive CommandOption where
  | input
  | file
  | locale
  | out
  | err
  | config
  deriving DecidableEq

namespace CommandOption

def all : List CommandOption :=
  [.input, .file, .locale, .out, .err, .config]

def longName : CommandOption → String
  | .input => "input"
  | .file => "file"
  | .locale => "locale"
  | .out => "out"
  | .err => "err"
  | .config => "config"

def letter : CommandOption → Char
  | .input => 'i'
  | .file => 'f'
  | .locale => 'l'
  | .out => 'o'
  | .err => 'e'
  | .config => 'c'

def ofLongName? (name : List Char) : Option CommandOption :=
  all.find? (·.longName.toList = name)

def ofLetter? (letter : Char) : Option CommandOption :=
  all.find? (·.letter = letter)

/-- Whether an option takes a value.  Only the program text may be empty; all
others are paths. -/
def accepts (option : CommandOption) (value : String) : Bool :=
  option = .input || !value.isEmpty

end CommandOption

abbrev Settings := List (CommandOption × String)

namespace Settings

def value? (settings : Settings) (option : CommandOption) : Option String :=
  settings.lookup option

/-- Adds the value of an option that has none. -/
def insert? (settings : Settings) (option : CommandOption) (value : String) :
    Option Settings :=
  if option.accepts value && (settings.value? option).isNone then
    some ((option, value) :: settings)
  else none

/-- What one argument says. -/
inductive Reading where
  /-- An option with its value. -/
  | complete (option : CommandOption) (value : String)
  /-- An option whose value is the next argument. -/
  | pending (option : CommandOption)

/-- Reads an argument that names an option: `--name`, `--name=value`, `-n`,
`-nvalue` or `-n=value`. -/
def readOption? (argument : String) : Option Reading :=
  match argument.toList with
  | '-' :: '-' :: spelled =>
      let (name, rest) := spelled.span (· ≠ '=')
      (CommandOption.ofLongName? name).map fun option =>
        match rest with
        | [] => .pending option
        | _ :: value => .complete option (String.ofList value)
  | '-' :: letter :: rest =>
      (CommandOption.ofLetter? letter).map fun option =>
        match rest with
        | [] => .pending option
        | '=' :: value => .complete option (String.ofList value)
        | value => .complete option (String.ofList value)
  | _ => none

/-- Whether an argument can be the value of the option before it: it must not
look like an option itself. -/
def isValue (argument : String) : Bool :=
  match argument.toList with
  | '-' :: _ :: _ => false
  | _ => true

def readFrom? (settings : Settings) : List String → Option Settings
  | [] => some settings
  | [argument] =>
      match readOption? argument with
      | some (.complete option value) => settings.insert? option value
      | _ => none
  | argument :: next :: arguments =>
      match readOption? argument with
      | some (.complete option value) => do
          let settings ← settings.insert? option value
          settings.readFrom? (next :: arguments)
      | some (.pending option) =>
          if isValue next then do
            let settings ← settings.insert? option next
            settings.readFrom? arguments
          else none
      | none => none

/-- Whether a program is not given in two ways. -/
def isConsistent (settings : Settings) : Bool :=
  (settings.value? .input).isNone || (settings.value? .file).isNone

def ofArguments? (arguments : List String) : Option Settings :=
  (readFrom? [] arguments).filter isConsistent

end Settings

end Plainspoken
