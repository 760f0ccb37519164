import FilterQuery.Config

/-!
# Command line arguments

A command line gives options, one of two commands, and the arguments of that command. The arguments
are read one by one. An option that stands before the command is given at the top level, one behind
it at the level of the command. The number grammar and verbosity may be given at either.

## How an argument is read

* An option that waits for its value takes the next argument, unless that looks like an option.
* `--` ends the options.
* `--name` or `--name=value` is a long option.
* `-` with letters behind it is a row of short options. If one of them takes a value, the rest of
  the row is that value, after an equals sign or without one.
* Anything else, a lone `-` included, is the command at the top level and the query behind it.

Reading ends early when an option asks for the version or for help, and at the first misuse.

`help` in place of a command asks for help as well, about the command that is named behind it. The
arguments behind it are names and no options.
-/

namespace FilterQuery.CommandLine

/-! ## Options -/

/-- An option of the command line. -/
inductive Switch where
  /-- The number grammar to read the query by. -/
  | numeric
  /-- Notes on what is done. -/
  | verbose
  /-- The version of the program and nothing else. -/
  | version
  /-- What the program or a command is for, and nothing else. -/
  | help
  /-- How to print the tokens. -/
  | format
  /-- No output unless every token is recognised. -/
  | strict
  deriving DecidableEq

namespace Switch

/-- Every option, once. -/
def all : List Switch := [numeric, format, strict, verbose, help, version]

/-- The long name of an option. -/
def name : Switch → Text
  | numeric => "numeric".toList
  | verbose => "verbose".toList
  | version => "version".toList
  | help => "help".toList
  | format => "format".toList
  | strict => "strict".toList

/-- What an option is for. -/
def about : Switch → Text
  | numeric => "Numeric literal grammar".toList
  | verbose => "Enable verbose output".toList
  | version => "Print version".toList
  | help => "Print help".toList
  | format => "Output format".toList
  | strict => "Fail on the first unrecognized token".toList

/-- The letter of an option, if it has one. -/
def letter? : Switch → Option Char
  | numeric => some 'n'
  | verbose => some 'v'
  | version => some 'V'
  | help => some 'h'
  | format => some 'f'
  | strict => none

/-- Whether an option comes with a value. -/
def takesValue : Switch → Bool
  | numeric | format => true
  | verbose | version | help | strict => false

end Switch

/-- How tokens are printed. -/
inductive Format where
  /-- One token a line. -/
  | text
  /-- A JSON array of tokens. -/
  | json
  deriving DecidableEq

namespace Format

/-- The name of a format on the command line. -/
def name : Format → Text
  | text => "text".toList
  | json => "json".toList

/-- The format of a given name. -/
def ofName? (t : Text) : Option Format := [text, json].find? fun f => f.name = t

end Format

/-- A command. -/
inductive Command where
  /-- Print the tokens of a query. -/
  | tokenize
  /-- Report what is not recognised in a query. -/
  | check
  deriving DecidableEq

namespace Command

/-- Every command, once. -/
def all : List Command := [tokenize, check]

/-- The name of a command on the command line. -/
def name : Command → Text
  | tokenize => "tokenize".toList
  | check => "check".toList

/-- What a command is for. -/
def about : Command → Text
  | tokenize => "Print the tokens of a query".toList
  | check => "Report unrecognized tokens in a query".toList

/-- The command of a given name. -/
def ofName? (t : Text) : Option Command := all.find? fun c => c.name = t

end Command

/-- Whether an option may be given at a level: at the top one if no command is given yet, else at
the level of the command. -/
def Switch.allowed (command : Option Command) : Switch → Bool
  | numeric | verbose | help => true
  | version => command = none
  | format | strict => command = some .tokenize

/-! ## Help -/

/-- What help can be about. -/
inductive Topic where
  /-- The program as a whole. -/
  | program
  | command (command : Command)
  /-- Help itself. -/
  | help
  deriving DecidableEq

namespace Topic

/-- The topic of a given name. -/
def ofName? (t : Text) : Option Topic :=
  if t = Switch.help.name then some help else (Command.ofName? t).map command

/-- An entry in a list of commands or options. -/
private def entry (name about : Text) : Text :=
  "  ".toList ++ name.rightpad 10 ' ' ++ about ++ ['\n']

/-- The options at a level, with what they are for. -/
private def options (level : Option Command) : Text :=
  "\nOptions:\n".toList
    ++ (Switch.all.filter (·.allowed level)).flatMap fun s => entry ("--".toList ++ s.name) s.about

/-- The commands, with what they are for. -/
private def commands : Text :=
  "\nCommands:\n".toList ++ Command.all.flatMap (fun c => entry c.name c.about)
    ++ entry Switch.help.name "Print this message or the help of the given command".toList

/-- The help on a topic. -/
def text : Topic → Text
  | program => "Tokenize PQL search filter queries\n".toList ++ commands ++ options none
  | command c => c.about ++ ['\n'] ++ options (some c)
  | help => "Print this message or the help of the given command\n".toList

end Topic

/-! ## What can be wrong -/

/-- Why a command line is refused. -/
inductive Misuse where
  | noCommand
  | unknownCommand (name : Text)
  | unknownOption (option : Text)
  | missingValue (switch : Switch)
  /-- A value is given to an option that takes none. -/
  | needlessValue (switch : Switch)
  | invalidValue (switch : Switch) (value : Text)
  /-- An option is given twice at the same level. -/
  | repeated (switch : Switch)
  | extraArgument (argument : Text)
  /-- The environment sets the number grammar to something that is none. -/
  | invalidEnvironment (value : Text)
  deriving DecidableEq

namespace Misuse

/-- A part of the command line, as the messages show it. -/
private def inQuotes (t : Text) : Text := ['\''] ++ t ++ ['\'']

/-- The message for a misuse. -/
def message : Misuse → Text
  | noCommand => "no command is given".toList
  | unknownCommand name => "unknown command ".toList ++ inQuotes name
  | unknownOption option => "unknown option ".toList ++ inQuotes option
  | missingValue switch => "option ".toList ++ inQuotes switch.name ++ " needs a value".toList
  | needlessValue switch => "option ".toList ++ inQuotes switch.name ++ " takes no value".toList
  | invalidValue switch value =>
    "invalid value ".toList ++ inQuotes value ++ " for option ".toList ++ inQuotes switch.name
  | repeated switch => "option ".toList ++ inQuotes switch.name ++ " is given twice".toList
  | extraArgument argument => "unexpected argument ".toList ++ inQuotes argument
  | invalidEnvironment value =>
    "invalid number grammar ".toList ++ inQuotes value ++ " in the environment".toList

end Misuse

/-- Why reading a command line ends early. -/
inductive Stop where
  /-- The version is asked for. -/
  | version
  /-- Help is asked for. -/
  | help (topic : Topic)
  | misuse (misuse : Misuse)
  deriving DecidableEq

/-! ## Reading -/

/-- The options that are given at one level. -/
structure Given where
  numeric : Option NumberGrammar := none
  verbose : Bool := false
  format : Option Format := none
  strict : Bool := false
  deriving DecidableEq

/-- What has been read of a command line. -/
structure Reading where
  /-- The options in front of the command. -/
  top : Given := {}
  command : Option Command := none
  /-- The options behind the command. -/
  sub : Given := {}
  query : Option Text := none
  /-- The option that waits for its value. -/
  pending : Option Switch := none
  /-- Whether the options have been ended. -/
  ended : Bool := false
  /-- What help is asked for in place of a command. -/
  topic : Option Topic := none
  deriving DecidableEq

namespace Reading

/-- The options given at the level that is being read. -/
def given (r : Reading) : Given := if r.command = none then r.top else r.sub

/-- Changes the options given at the level that is being read. -/
def setGiven (r : Reading) (g : Given) : Reading :=
  if r.command = none then { r with top := g } else { r with sub := g }

/-- Takes an option without a value. -/
def flag (r : Reading) : Switch → Except Stop Reading
  | .verbose =>
    if r.given.verbose then .error (.misuse (.repeated .verbose))
    else .ok (r.setGiven { r.given with verbose := true })
  | .strict =>
    if r.given.strict then .error (.misuse (.repeated .strict))
    else .ok (r.setGiven { r.given with strict := true })
  | .version => .error .version
  | .help => .error (.help (r.command.elim .program .command))
  | switch => .error (.misuse (.missingValue switch))

/-- Takes an option with its value. -/
def assign (r : Reading) (switch : Switch) (value : Text) : Except Stop Reading :=
  match switch with
  | .numeric =>
    match NumberGrammar.ofName? value with
    | none => .error (.misuse (.invalidValue .numeric value))
    | some numeric =>
      if r.given.numeric.isSome then .error (.misuse (.repeated .numeric))
      else .ok (r.setGiven { r.given with numeric })
  | .format =>
    match Format.ofName? value with
    | none => .error (.misuse (.invalidValue .format value))
    | some format =>
      if r.given.format.isSome then .error (.misuse (.repeated .format))
      else .ok (r.setGiven { r.given with format })
  | switch => .error (.misuse (.needlessValue switch))

/-- The option that may be given at the level that is being read and fits a condition. -/
def switch? (r : Reading) (fits : Switch → Bool) : Option Switch :=
  Switch.all.find? fun s => s.allowed r.command && fits s

/-- Reads a long option, given without its dashes. -/
def long (r : Reading) (t : Text) : Except Stop Reading :=
  let name := t.takeWhile (· ≠ '=')
  match r.switch? fun s => s.name = name with
  | none => .error (.misuse (.unknownOption ("--".toList ++ name)))
  | some switch =>
    match t.dropWhile (· ≠ '=') with
    | _ :: value => r.assign switch value
    | [] => if switch.takesValue then .ok { r with pending := some switch } else r.flag switch

/-- Reads a row of short options, given without its dash. -/
def short (r : Reading) : Text → Except Stop Reading
  | [] => .ok r
  | c :: rest =>
    match r.switch? fun s => s.letter? = some c with
    | none => .error (.misuse (.unknownOption ['-', c]))
    | some switch =>
      if switch.takesValue then
        match rest with
        | [] => .ok { r with pending := some switch }
        | '=' :: value => r.assign switch value
        | value => r.assign switch value
      else
        match r.flag switch with
        | .ok r => short r rest
        | .error stop => .error stop

/-- Reads an argument that is no option. -/
def plain (r : Reading) (t : Text) : Except Stop Reading :=
  match r.command with
  | none =>
    match Topic.ofName? t with
    | some topic =>
      if r.ended then .error (.misuse (.extraArgument t))
      else
        match topic with
        | .command command => .ok { r with command := some command }
        | _ => .ok { r with topic := some .program }
    | none => .error (.misuse (.unknownCommand t))
  | some _ =>
    if r.query.isSome then .error (.misuse (.extraArgument t)) else .ok { r with query := some t }

/-- Reads an argument behind a request for help on a topic. The topic may be narrowed down once, from
the program to a part of it. -/
def narrow (r : Reading) (topic : Topic) (t : Text) : Except Stop Reading :=
  match topic, Topic.ofName? t with
  | .program, some part => .ok { r with topic := some part }
  | _, _ => .error (.misuse (.unknownCommand t))

/-- Reads one argument that comes when no help is asked for. -/
def argument (r : Reading) (t : Text) : Except Stop Reading :=
  match r.pending with
  | some switch =>
    if t.head? = some '-' ∧ t ≠ ['-'] then .error (.misuse (.missingValue switch))
    else { r with pending := none }.assign switch t
  | none =>
    if r.ended then r.plain t
    else
      match t with
      | ['-'] => r.plain t
      | ['-', '-'] => .ok { r with ended := true }
      | '-' :: '-' :: option => r.long option
      | '-' :: options => r.short options
      | _ => r.plain t

/-- Reads one argument. -/
def step (r : Reading) (t : Text) : Except Stop Reading :=
  match r.topic with
  | some topic => r.narrow topic t
  | none => r.argument t

end Reading

/-- What has been read of some arguments. -/
def read (arguments : List Text) : Except Stop Reading := arguments.foldlM Reading.step {}

/-! ## Requests -/

/-- What to do with a query. -/
inductive Action where
  /-- Print its tokens; if strict, only if all of them are recognised. -/
  | tokenize (format : Format) (strict : Bool)
  /-- Report the tokens that are not recognised. -/
  | check
  deriving DecidableEq

/-- What a command line asks for. -/
structure Request where
  config : Config
  verbose : Bool
  action : Action
  /-- The query, unless it is to be read from standard input. -/
  query : Option Text
  deriving DecidableEq

/-- The number grammar at one level: the given one, or else that of the environment, if it sets
one. -/
def Given.numericOr (g : Given) (environment : Option Text) :
    Except Stop (Option NumberGrammar) :=
  match g.numeric, environment with
  | some grammar, _ => .ok (some grammar)
  | none, none => .ok none
  | none, some value =>
    match NumberGrammar.ofName? value with
    | some grammar => .ok (some grammar)
    | none => .error (.misuse (.invalidEnvironment value))

/-- The request that complete arguments make, if they do not ask for help. A number grammar behind the command counts before one
in front of it, and either before that of the environment. The environment is looked at for each
level that leaves the number grammar open, and has to be right then. -/
def Reading.request (r : Reading) (environment : Option Text) : Except Stop Request := do
  if let some topic := r.topic then throw (.help topic)
  if let some switch := r.pending then throw (.misuse (.missingValue switch))
  let some command := r.command | throw (.misuse .noCommand)
  let above ← r.top.numericOr environment
  let below ← r.sub.numericOr environment
  let numeric := r.sub.numeric <|> r.top.numeric <|> below <|> above
  return {
    config := { numeric := numeric.getD .strict }
    verbose := r.top.verbose || r.sub.verbose
    action :=
      match command with
      | .tokenize => .tokenize (r.sub.format.getD .text) r.sub.strict
      | .check => .check
    query := r.query }

/-- The request that some arguments make, where the environment may set the number grammar. -/
def request (arguments : List Text) (environment : Option Text) : Except Stop Request := do
  (← read arguments).request environment

end FilterQuery.CommandLine
