import TextTemplate.Text.Split

/-! The arguments of the program: a command, its path and its options. -/

namespace TextTemplate

/-- What both commands are told. -/
structure CommandOptions where
  path : Option String
  root : Option String
  locale : Option String
  config : Option String
  data : Option String
  verbose : Bool
  deriving DecidableEq, Repr

inductive CommandName where
  | render
  | check
  deriving DecidableEq, Repr

/-- What help is about. -/
inductive HelpTopic where
  | program
  | command (name : CommandName)
  /-- Asking for help. -/
  | help
  deriving DecidableEq, Repr

/-- What the program is asked to do. -/
inductive CommandRequest where
  | help (topic : HelpTopic)
  | version
  | run (command : CommandName) (options : CommandOptions)
  deriving DecidableEq, Repr

inductive UsageError where
  | noCommand
  | unknownCommand (name : String)
  | unexpected (argument : String)
  | missingValue (option : String)
  | repeated (option : String)
  | missingPath
  deriving DecidableEq, Repr

def UsageError.message : UsageError → String
  | noCommand => "a command is needed"
  | unknownCommand name => "unrecognized subcommand '" ++ name ++ "'"
  | unexpected argument => "unexpected argument '" ++ argument ++ "' found"
  | missingValue option => "a value is required for '--" ++ option ++ "' but none was supplied"
  | repeated option => "the argument '--" ++ option ++ "' cannot be used multiple times"
  | missingPath => "the required argument <path> was not provided"

inductive OptionName where
  | root
  | locale
  | config
  | data
  | verbose
  | help
  deriving DecidableEq, Repr

namespace OptionName

def name : OptionName → String
  | root => "root"
  | locale => "locale"
  | config => "config"
  | data => "data"
  | verbose => "verbose"
  | help => "help"

def letter : OptionName → Char
  | root => 'r'
  | locale => 'l'
  | config => 'c'
  | data => 'd'
  | verbose => 'v'
  | help => 'h'

/-- The options of a command; only rendering has data. -/
def ofCommand : CommandName → List OptionName
  | .render => [root, locale, config, verbose, data, help]
  | .check => [root, locale, config, verbose, help]

def takesValue : OptionName → Bool
  | root | locale | config | data => true
  | verbose | help => false

end OptionName

namespace CommandOptions

def none : CommandOptions := ⟨.none, .none, .none, .none, .none, false⟩

/-- The value of an option. -/
def get? (o : CommandOptions) : OptionName → Option String
  | .root => o.root
  | .locale => o.locale
  | .config => o.config
  | .data => o.data
  | .verbose | .help => .none

/-- Gives an option its value. No option has two. -/
def set (o : CommandOptions) (name : OptionName) (v : String) : Except UsageError CommandOptions :=
  if (o.get? name).isSome then .error (.repeated name.name)
  else .ok (match name with
    | .root => { o with root := some v }
    | .locale => { o with locale := some v }
    | .config => { o with config := some v }
    | .data => { o with data := some v }
    | .verbose | .help => o)

def setVerbose (o : CommandOptions) : Except UsageError CommandOptions :=
  if o.verbose then .error (.repeated OptionName.verbose.name) else .ok { o with verbose := true }

def setPath (o : CommandOptions) (v : String) : Except UsageError CommandOptions :=
  if o.path.isSome then .error (.unexpected v) else .ok { o with path := some v }

end CommandOptions

namespace CommandRequest

/-- A lone dash is a value, any other text that begins with one is an option. -/
def isOption : List Char → Bool
  | '-' :: _ :: _ => true
  | _ => false

/-- The value of an option in the next argument. -/
def nextValue? : List String → Option (String × List String)
  | v :: rest => if isOption v.toList then none else some (v, rest)
  | [] => none

/-- What reading some arguments comes to: help that is asked for, or options and what is left. -/
inductive Step where
  | help
  | next (options : CommandOptions) (rest : List String)

/-- Reads a long option after its dashes. -/
def readLong (command : CommandName) (o : CommandOptions) (cs : List Char) (rest : List String) :
    Except UsageError Step :=
  let (name, given) := match Text.splitFirst? (· = '=') cs with
    | some (name, v) => (name, some (String.ofList v))
    | none => (cs, none)
  match (OptionName.ofCommand command).find? fun n => n.name.toList = name with
  | none => .error (.unexpected ("--" ++ String.ofList name))
  | some n =>
    match n.takesValue, given with
    | true, some v => (o.set n v).map (.next · rest)
    | true, none =>
      match nextValue? rest with
      | some (v, rest) => (o.set n v).map (.next · rest)
      | none => .error (.missingValue n.name)
    | false, some v => .error (.unexpected v)
    | false, none => if n = .help then .ok .help else o.setVerbose.map (.next · rest)

/-- Reads options of one letter each. The first that takes a value takes what is left of the
argument, or the next one if nothing is. -/
def readLetters (command : CommandName) (o : CommandOptions) (rest : List String) :
    List Char → Except UsageError Step
  | [] => .ok (.next o rest)
  | c :: cs =>
    match (OptionName.ofCommand command).find? fun n => n.letter = c with
    | none => .error (.unexpected ("-" ++ c.toString))
    | some n =>
      if n = .help then .ok .help
      else if n.takesValue then
        match cs with
        | [] =>
          match nextValue? rest with
          | some (v, rest) => (o.set n v).map (.next · rest)
          | none => .error (.missingValue n.name)
        | '=' :: v => (o.set n (String.ofList v)).map (.next · rest)
        | v => (o.set n (String.ofList v)).map (.next · rest)
      else match o.setVerbose with
        | .ok o => readLetters command o rest cs
        | .error e => .error e

/-- Reads the arguments of a command, at most `most` of them. After two dashes none is an option. -/
def readArguments (command : CommandName) :
    Nat → CommandOptions → List String → Except UsageError CommandRequest
  | 0, _, a :: _ => .error (.unexpected a)
  | _, o, [] => if o.path.isSome then .ok (run command o) else .error .missingPath
  | most + 1, o, a :: rest =>
    let step : Except UsageError Step := match a.toList with
      | ['-', '-'] => (rest.foldlM CommandOptions.setPath o).map (.next · [])
      | '-' :: '-' :: cs => readLong command o cs rest
      | '-' :: c :: cs => readLetters command o rest (c :: cs)
      | _ => (o.setPath a).map (.next · rest)
    match step with
    | .error e => .error e
    | .ok .help => .ok (help (.command command))
    | .ok (.next o rest) => readArguments command most o rest

def commandName? : String → Option CommandName
  | "render" => some .render
  | "check" => some .check
  | _ => none

/-- Reads what follows the word `help`. -/
def readHelp : List String → Except UsageError CommandRequest
  | [] => .ok (help .program)
  | ["help"] => .ok (help .help)
  | [name] =>
    match commandName? name with
    | some command => .ok (help (.command command))
    | none => .error (.unknownCommand name)
  | _ :: a :: _ => .error (.unknownCommand a)

/-- Reads the arguments of the program. -/
def ofArguments : List String → Except UsageError CommandRequest
  | [] => .error .noCommand
  | "help" :: rest => readHelp rest
  | a :: rest =>
    match commandName? a with
    | some command => readArguments command rest.length .none rest
    | none =>
      if a = "--help" ∨ a.startsWith "-h" then .ok (help .program)
      else if a = "--version" ∨ a.startsWith "-V" then .ok version
      else if isOption a.toList then .error (.unexpected a)
      else .error (.unknownCommand a)

end CommandRequest

end TextTemplate
