import CycleBench.CommandLine.Option

/-!
Reading the arguments of a command: the settings so far, and the names of the options given.
The reading goes on until the arguments end, or stops at a plain argument where a command is
to be named.
-/

namespace CycleBench.CommandLine

/-- What one argument is by its spelling. -/
inductive Spelling where
  /-- Two dashes: only plain arguments follow. -/
  | escape
  | long (name : String) (value : Option String)
  | short (letters : List Char)
  | plain

/-- A name and, behind the first equals sign, a value. -/
def splitValue (text : List Char) : String × Option String :=
  match text.dropWhile (· ≠ '=') with
  | [] => (String.ofList text, none)
  | _ :: value => (String.ofList (text.takeWhile (· ≠ '=')), some (String.ofList value))

def Spelling.of (argument : String) : Spelling :=
  match argument.toList with
  | ['-', '-'] => .escape
  | '-' :: '-' :: rest =>
    let parts := splitValue rest
    .long parts.1 parts.2
  | '-' :: c :: rest => .short (c :: rest)
  | _ => .plain

/-- Whether an argument can be the separate value of an option. -/
def isSeparateValue (negative : Bool) (argument : String) : Bool :=
  match argument.toList with
  | '-' :: c :: rest => negative && (c :: rest).all Char.isDigit
  | _ => true

/-- The settings so far, and the names of the options given. -/
structure Settings (α : Type) where
  values : α
  given : List String := []

namespace Settings

variable {α : Type}

/-- Notes that an option is given. -/
def note (settings : Settings α) (spec : OptionSpec α) : Except Halt (Settings α) :=
  if settings.given.contains spec.name && !spec.repeatable then
    .error (.usage (.repeated spec.name))
  else .ok { settings with given := spec.name :: settings.given }

def set (settings : Settings α) (spec : OptionSpec α) (f : α → α) :
    Except Halt (Settings α) := do
  let settings ← settings.note spec
  return { settings with values := f settings.values }

def store (settings : Settings α) (spec : OptionSpec α) (f : String → α → Option α)
    (value : String) : Except Halt (Settings α) := do
  let settings ← settings.note spec
  match f value settings.values with
  | some values => return { settings with values }
  | none => throw (.usage (.invalidValue spec.name value))

end Settings

namespace Grammar

variable {α : Type}

/-- An option that still waits for its value: how the value is stored, and whether it may be a
negative number. -/
structure Waiting (α : Type) where
  spec : OptionSpec α
  negative : Bool
  store : String → α → Option α

/-- A group of short options behind one dash: flags, and at its end maybe an option whose value
is attached, with or without an equals sign, or is the next argument. -/
def letters (grammar : Grammar α) :
    List Char → Settings α → Except Halt (Settings α × Option (Waiting α))
  | [], settings => .ok (settings, none)
  | letter :: rest, settings =>
    match grammar.short? letter with
    | none => .error (.usage (.unexpectedArgument (String.ofList ['-', letter])))
    | some spec =>
      match spec.action with
      | .display text => .error (.display text)
      | .flag f =>
        match settings.set spec f with
        | .error halt => .error halt
        | .ok settings => grammar.letters rest settings
      | .value negative f =>
        match rest with
        | [] => .ok (settings, some ⟨spec, negative, f⟩)
        | '=' :: value => (settings.store spec f (String.ofList value)).map (·, none)
        | value => (settings.store spec f (String.ofList value)).map (·, none)

def longOption (grammar : Grammar α) (name : String) (attached : Option String)
    (settings : Settings α) : Except Halt (Settings α × Option (Waiting α)) :=
  match grammar.long? name with
  | none => .error (.usage (.unexpectedArgument ("--" ++ name)))
  | some spec =>
    match spec.action, attached with
    | .display text, none => .error (.display text)
    | .flag f, none => (settings.set spec f).map (·, none)
    | .value _ f, some value => (settings.store spec f value).map (·, none)
    | .value negative f, none => .ok (settings, some ⟨spec, negative, f⟩)
    | _, some _ => .error (.usage (.unexpectedValue name))

/-- A plain argument where no command can be named. -/
def plain (grammar : Grammar α) (settings : Settings α) (argument : String) :
    Except Halt (Settings α) :=
  match grammar.positional with
  | none => .error (.usage (.unexpectedArgument argument))
  | some spec =>
    match spec.action with
    | .value _ f =>
      if settings.given.contains spec.name then .error (.usage (.unexpectedArgument argument))
      else settings.store spec f argument
    | _ => .error (.usage (.unexpectedArgument argument))

/-- One argument; plain ones go to the positional argument. -/
def argument (grammar : Grammar α) (settings : Settings α) (argument : String) :
    Except Halt (Settings α × Option (Waiting α)) :=
  match Spelling.of argument with
  | .long name attached => grammar.longOption name attached settings
  | .short letters => grammar.letters letters settings
  | _ => (grammar.plain settings argument).map (·, none)

/-- Reads arguments from the left. With `commands` set, the first plain argument is the name of
a command, and the result holds it with the arguments behind it. -/
def read (grammar : Grammar α) (commands : Bool) :
    List String → Settings α → Except Halt (Settings α × Option (String × List String))
  | [], settings => .ok (settings, none)
  | argument :: rest, settings =>
    match Spelling.of argument with
    | .escape => (rest.foldlM grammar.plain settings).map (·, none)
    | .plain =>
      if commands then .ok (settings, some (argument, rest))
      else
        match grammar.plain settings argument with
        | .error halt => .error halt
        | .ok settings => grammar.read commands rest settings
    | _ =>
      match grammar.argument settings argument with
      | .error halt => .error halt
      | .ok (settings, none) => grammar.read commands rest settings
      | .ok (settings, some waiting) =>
        match rest with
        | [] => .error (.usage (.missingValue waiting.spec.name))
        | value :: rest =>
          if isSeparateValue waiting.negative value then
            match settings.store waiting.spec waiting.store value with
            | .error halt => .error halt
            | .ok settings => grammar.read commands rest settings
          else .error (.usage (.missingValue waiting.spec.name))

/-- Every required option and argument has to be given, and no two that exclude each other. -/
def complete (grammar : Grammar α) (settings : Settings α) : Except Halt α :=
  let isGiven := settings.given.contains
  match grammar.exclusive.find? fun pair => isGiven pair.1 && isGiven pair.2 with
  | some (first, second) => .error (.usage (.conflicting first second))
  | none =>
    match (grammar.options ++ grammar.positional.toList).find? fun spec =>
        spec.required && !isGiven spec.name with
    | some spec => .error (.usage (.missing spec.name))
    | none => .ok settings.values

end Grammar

end CycleBench.CommandLine
