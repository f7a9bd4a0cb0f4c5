/-!
Options of a command line: long and short spellings, attached and separate values. Arguments
are read from the left, and the first one that cannot be read ends the reading.
-/

namespace CycleBench.CommandLine

inductive UsageError where
  | unexpectedArgument (argument : String)
  | unexpectedValue (option : String)
  | missingValue (option : String)
  | invalidValue (option value : String)
  | repeated (option : String)
  | missing (option : String)
  | conflicting (first second : String)
  | missingCommand
  | unknownCommand (name : String)
deriving DecidableEq

namespace UsageError

def message : UsageError → String
  | unexpectedArgument argument => "unexpected argument '" ++ argument ++ "' found"
  | unexpectedValue option => "unexpected value for '" ++ option ++ "' found"
  | missingValue option => "a value is required for '" ++ option ++ "' but none was supplied"
  | invalidValue option value => "invalid value '" ++ value ++ "' for '" ++ option ++ "'"
  | repeated option => "the argument '" ++ option ++ "' cannot be used multiple times"
  | missing option => "the required argument '" ++ option ++ "' was not provided"
  | conflicting first second =>
    "the argument '" ++ first ++ "' cannot be used with '" ++ second ++ "'"
  | missingCommand => "a subcommand is required but one was not provided"
  | unknownCommand name => "unrecognized subcommand '" ++ name ++ "'"

end UsageError

/-- Texts that are shown instead of running a command. -/
inductive Display where
  | help
  | version
deriving DecidableEq

/-- Why no command is run. -/
inductive Halt where
  | usage (error : UsageError)
  | display (text : Display)
deriving DecidableEq

/-- What an option does to the settings, and whether it takes a value. -/
inductive Action (α : Type) where
  | flag (set : α → α)
  /-- With `negative` set, a separate argument may be a negative number. -/
  | value (negative : Bool) (store : String → α → Option α)
  | display (text : Display)

/-- An option, or an argument that is known by its place; `name` is the long spelling without
its dashes. -/
structure OptionSpec (α : Type) where
  name : String
  short : Option Char
  repeatable : Bool
  required : Bool
  action : Action α

namespace OptionSpec

variable {α β : Type}

def flag (name : String) (short : Option Char) (set : α → α) : OptionSpec α :=
  ⟨name, short, false, false, .flag set⟩

def value (name : String) (short : Option Char) (store : String → α → Option α) :
    OptionSpec α :=
  ⟨name, short, false, false, .value false store⟩

/-- An option whose value is an integer. -/
def signed (name : String) (store : String → α → Option α) : OptionSpec α :=
  ⟨name, none, false, false, .value true store⟩

def display (name : String) (short : Char) (text : Display) : OptionSpec α :=
  ⟨name, some short, true, false, .display text⟩

def repeated (spec : OptionSpec α) : OptionSpec α :=
  { spec with repeatable := true }

def needed (spec : OptionSpec α) : OptionSpec α :=
  { spec with required := true }

/-- The same option for settings of which `α` is a part. -/
def within (get : β → α) (put : α → β → β) (spec : OptionSpec α) : OptionSpec β :=
  ⟨spec.name, spec.short, spec.repeatable, spec.required,
    match spec.action with
    | .flag set => .flag fun b => put (set (get b)) b
    | .value negative store =>
      .value negative fun text b => (store text (get b)).map fun a => put a b
    | .display text => .display text⟩

end OptionSpec

/-- The options of a command and its one positional argument, if it has one. -/
structure Grammar (α : Type) where
  options : List (OptionSpec α)
  positional : Option (OptionSpec α)
  /-- Names of options that cannot be given together. -/
  exclusive : List (String × String)

namespace Grammar

variable {α : Type}

def long? (grammar : Grammar α) (name : String) : Option (OptionSpec α) :=
  grammar.options.find? (·.name = name)

def short? (grammar : Grammar α) (letter : Char) : Option (OptionSpec α) :=
  grammar.options.find? (·.short = some letter)

end Grammar

end CycleBench.CommandLine
