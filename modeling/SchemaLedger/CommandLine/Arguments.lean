import SchemaLedger.Text.Integer
/-!
# Command lines

A command line is read in two scopes: what stands in front of the name of the
command, and what stands behind it. The global options may be given in both,
once in each, and the one behind the name counts. A value is settled when the
next argument begins, so of two faults the one that is met first in this sense
is reported.
-/

namespace SchemaLedger.CommandLine

/-- Why a command line cannot be acted upon. Asking for help or for the
version of the program is among the reasons. -/
inductive UsageError where
  | unknownArgument
  /-- An option has no value, or one that is not among its values. -/
  | invalidValue
  | malformedValue
  /-- A flag has a value. -/
  | unwantedValue
  | repeated
  | argumentMissing
  | commandMissing
  | unknownCommand
  /-- There are no arguments at all. -/
  | nothingGiven
  | helpRequested
  | versionRequested
  deriving DecidableEq, Repr

def UsageError.message : UsageError → String
  | unknownArgument => "unexpected argument"
  | invalidValue => "invalid value for an argument"
  | malformedValue => "malformed value for an argument"
  | unwantedValue => "unexpected value for a flag"
  | repeated => "an argument cannot be used more than once"
  | argumentMissing => "a required argument was not provided"
  | commandMissing => "a command is required, but none was provided"
  | unknownCommand => "unrecognized command"
  | nothingGiven => "a command is required"
  | helpRequested => "help is requested"
  | versionRequested => "the version of the program is requested"

inductive OutputFormat where
  | text
  | json
  deriving DecidableEq, Repr

inductive CommandName where
  | version
  | apply
  | run
  | force
  | drop
  deriving DecidableEq, Repr

def CommandName.ofText? : String → Option CommandName
  | "version" => some version
  | "apply" => some apply
  | "run" => some run
  | "force" => some force
  | "drop" => some drop
  | _ => none

inductive Command where
  | version (output : OutputFormat)
  | apply (version : Int64) (file : String)
  | run (file : String)
  | force (version : Int64)
  | drop (confirmed : Bool)
  deriving DecidableEq, Repr

structure Invocation where
  verbose : Bool
  database : Option String
  config : Option String
  command : Command
  deriving DecidableEq, Repr

inductive Switch where
  | verbose
  | database
  | config
  | output
  | yes
  | help
  | version
  deriving DecidableEq, Repr

inductive Positional where
  | version
  | file
  deriving DecidableEq, Repr

/-- Where on the command line an argument stands: in front of the name of a
command, or behind it. -/
abbrev Scope := Option CommandName

def Scope.switches : Scope → List Switch
  | none => [.verbose, .database, .config, .help, .version]
  | some .version => [.verbose, .database, .config, .output, .help]
  | some .drop => [.verbose, .database, .config, .yes, .help]
  | some _ => [.verbose, .database, .config, .help]

/-- The arguments of a scope by position. All of them are required. -/
def Scope.positionals : Scope → List Positional
  | some .apply => [.version, .file]
  | some .run => [.file]
  | some .force => [.version]
  | _ => []

/-- A number behind a minus sign is no option in this scope. -/
def Scope.allowsNegative (scope : Scope) : Bool :=
  scope == some .force

namespace Switch

def letter? : Switch → Option Char
  | verbose => some 'v'
  | database => some 'd'
  | config => some 'c'
  | output => some 'o'
  | yes => none
  | help => some 'h'
  | version => some 'V'

def name : Switch → String
  | verbose => "verbose"
  | database => "database"
  | config => "config"
  | output => "output"
  | yes => "yes"
  | help => "help"
  | version => "version"

def takesValue : Switch → Bool
  | database | config | output => true
  | _ => false

end Switch

structure Given where
  verbose : Bool := false
  database : Option String := none
  config : Option String := none
  output : Option OutputFormat := none
  yes : Bool := false
  version : Option Int64 := none
  file : Option String := none
  deriving DecidableEq, Repr

namespace Given

def flag (g : Given) : Switch → Except UsageError Given
  | .verbose => if g.verbose then .error .repeated else .ok { g with verbose := true }
  | .yes => if g.yes then .error .repeated else .ok { g with yes := true }
  | .help => .error .helpRequested
  | .version => .error .versionRequested
  | _ => .error .invalidValue

def option (g : Given) (s : Switch) (value : String) :
    Except UsageError Given :=
  match s with
  | .database =>
    if g.database.isSome then .error .repeated
    else .ok { g with database := some value }
  | .config =>
    if g.config.isSome then .error .repeated
    else .ok { g with config := some value }
  | .output =>
    if g.output.isSome then .error .repeated
    else
      match value with
      | "text" => .ok { g with output := some .text }
      | "json" => .ok { g with output := some .json }
      | _ => .error .invalidValue
  | _ => .error .unwantedValue

def positional (g : Given) (p : Positional) (value : String) :
    Except UsageError Given :=
  match p with
  | .version =>
    match Integer.read value with
    | .ok v => .ok { g with version := some v }
    | .error _ => .error .malformedValue
  | .file => .ok { g with file := some value }

end Given

/-- A value that is not settled yet. -/
inductive Pending where
  /-- An option whose value is still to come. -/
  | awaited (s : Switch)
  | option (s : Switch) (value : String)
  | positional (p : Positional) (value : String)
  deriving DecidableEq, Repr

structure Reading where
  scope : Scope
  given : Given := {}
  pending : Option Pending := none
  /-- How many arguments by position have been met. -/
  met : Nat := 0
  /-- Options have ended. -/
  onlyPositionals : Bool := false

/-- The digits of a number, perhaps with a point behind the first of them and
an exponent without a sign. -/
def looksNumeric (s : List Char) : Bool :=
  let body := s.takeWhile fun c => c.isDigit || c == '.'
  let power := s.drop body.length
  let points := body.filter (· == '.')
  points.length ≤ 1 && body.head? != some '.' && !body.isEmpty &&
    match power with
    | [] => true
    | e :: digits =>
      (e == 'e' || e == 'E') && !digits.isEmpty && digits.all Char.isDigit

namespace Reading

def settle (r : Reading) : Except UsageError Reading := do
  match r.pending with
  | none => return r
  | some (.awaited _) => throw .invalidValue
  | some (.option s value) =>
    return { r with given := ← r.given.option s value, pending := none }
  | some (.positional p value) =>
    return { r with given := ← r.given.positional p value, pending := none }

def switch (r : Reading) (s : Switch) (attached : Option String) :
    Except UsageError Reading := do
  match s.takesValue, attached with
  | true, some value =>
    let r ← r.settle
    return { r with given := ← r.given.option s value }
  | true, none => return { ← r.settle with pending := some (.awaited s) }
  | false, some _ => throw .unwantedValue
  | false, none =>
    let r ← r.settle
    return { r with given := ← r.given.flag s }

def long (r : Reading) (body : List Char) : Except UsageError Reading :=
  let name := String.ofList (body.takeWhile (· != '='))
  let attached :=
    match body.dropWhile (· != '=') with
    | [] => none
    | _ :: value => some (String.ofList value)
  match r.scope.switches.find? (·.name == name) with
  | some s => r.switch s attached
  | none => .error .unknownArgument

/-- The letters behind one hyphen. The first one that takes a value has the
other letters as its value. -/
def short (r : Reading) : List Char → Except UsageError Reading
  | [] => .ok r
  | c :: rest =>
    match r.scope.switches.find? (·.letter? == some c) with
    | none => .error .unknownArgument
    | some s =>
      if s.takesValue then
        r.switch s
          (match rest with
          | [] => none
          | '=' :: value => some (String.ofList value)
          | value => some (String.ofList value))
      else
        match r.switch s none with
        | .error fault => .error fault
        | .ok r => r.short rest

def expectsNegative (r : Reading) : Bool :=
  r.scope.allowsNegative && r.met == 0

/-- An argument by position. In front of the command there is none, and what
stands there should have been a command, unless it is the name of one behind
the end of the options. -/
def place (r : Reading) (arg : String) : Except UsageError Reading := do
  match r.scope.positionals[r.met]? with
  | some p =>
    return { ← r.settle with
      pending := some (.positional p arg), met := r.met + 1 }
  | none =>
    if r.scope.isSome then throw .unknownArgument
    else if (CommandName.ofText? arg).isSome || arg = "help" then
      throw .unknownArgument
    else
      throw .unknownCommand

/-- An argument that is no option: the value that an option waits for, or an
argument by position. -/
def plain (r : Reading) (arg : String) : Except UsageError Reading :=
  match r.pending with
  | some (.awaited s) => .ok { r with pending := some (.option s arg) }
  | _ => r.place arg

def step (r : Reading) (arg : String) : Except UsageError Reading :=
  if r.onlyPositionals then r.place arg
  else
    match arg.toList with
    | ['-', '-'] => .ok { r with onlyPositionals := true }
    | '-' :: '-' :: body => r.long body
    | '-' :: c :: rest =>
      if r.expectsNegative && looksNumeric (c :: rest) then r.plain arg
      else r.short (c :: rest)
    | _ => r.plain arg

def allowsCommand (r : Reading) : Bool :=
  !r.onlyPositionals &&
    match r.pending with
    | some (.awaited _) => false
    | _ => true

end Reading

def readBehind (r : Reading) : List String → Except UsageError Given
  | [] => do
    let g := (← r.settle).given
    if r.met < r.scope.positionals.length then throw .argumentMissing
    else return g
  | arg :: rest =>
    match r.step arg with
    | .ok r => readBehind r rest
    | .error fault => .error fault

def helpOn : List String → UsageError
  | [] => .helpRequested
  | [name] =>
    if name = "help" || (CommandName.ofText? name).isSome then .helpRequested
    else .unknownCommand
  | _ => .unknownCommand

/-- The arguments of a command, all of them being there. -/
def Given.command? (g : Given) : CommandName → Option Command
  | .version => some (.version (g.output.getD .text))
  | .apply => do some (.apply (← g.version) (← g.file))
  | .run => do some (.run (← g.file))
  | .force => do some (.force (← g.version))
  | .drop => some (.drop g.yes)

/-- Read the arguments in front of the command, and then those of the
command. -/
def readFront (environment : Option String) (r : Reading) :
    List String → Except UsageError Invocation
  | [] => do
    let g := (← r.settle).given
    if g == {} && environment.isNone then throw .nothingGiven
    else throw .commandMissing
  | arg :: rest =>
    if r.allowsCommand && arg = "help" then .error (helpOn rest)
    else
      match (if r.allowsCommand then CommandName.ofText? arg else none) with
      | some name => do
        let behind ← readBehind { scope := some name } rest
        let front := (← r.settle).given
        let some command := behind.command? name | throw .argumentMissing
        return {
          verbose := front.verbose || behind.verbose
          database := behind.database <|> front.database <|> environment
          config := behind.config <|> front.config
          command }
      | none =>
        match r.step arg with
        | .ok r => readFront environment r rest
        | .error fault => .error fault

/-- Read a command line. The environment may name the database when the
command line does not. -/
def Invocation.read (arguments : List String) (environment : Option String) :
    Except UsageError Invocation :=
  readFront environment { scope := none } arguments

end SchemaLedger.CommandLine
