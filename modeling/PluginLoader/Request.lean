/-!
What a command line asks for. Options may stand in front of the command and behind it; behind the
command they win. In either place none may be repeated, and the values of options cannot look like
options. After `--` nothing is an option.
-/
namespace PluginLoader

inductive Query where
  | list
  | entries (archive : String)
  | resolve (name : String)
  | subtypes (base : String)
  deriving DecidableEq, Repr

/-- The options of one place. -/
structure RequestOptions where
  config : Option String := none
  directory : Option String := none
  debug : Bool := false
  json : Bool := false
  deriving DecidableEq, Repr

structure Request where
  options : RequestOptions
  query : Query
  deriving DecidableEq, Repr

/-- Why a command line gives no request. -/
inductive NoRequest where
  | help
  | version
  | misuse
  deriving DecidableEq, Repr

namespace RequestOptions

inductive Valued where
  | config
  | directory

inductive Flag where
  | debug
  | json
  | help
  | version

/-- Take a value, unless there is one already. A directory is never empty. -/
def setValue (o : RequestOptions) (value : String) : Valued → Except NoRequest RequestOptions
  | .config => if o.config.isSome then .error .misuse else .ok { o with config := some value }
  | .directory =>
    if o.directory.isSome || value.isEmpty then .error .misuse
    else .ok { o with directory := some value }

def setFlag (o : RequestOptions) : Flag → Except NoRequest RequestOptions
  | .debug => if o.debug then .error .misuse else .ok { o with debug := true }
  | .json => if o.json then .error .misuse else .ok { o with json := true }
  | .help => .error .help
  | .version => .error .version

/-- The options of two places, those of the inner one first. -/
def orElse (inner outer : RequestOptions) : RequestOptions :=
  { config := inner.config <|> outer.config
    directory := inner.directory <|> outer.directory
    debug := inner.debug || outer.debug
    json := inner.json || outer.json }

/-- Options that were read, and one that still needs its value. -/
abbrev Read := RequestOptions × Option Valued

/-- Where options stand: only in front of the command is the version one of them. -/
inductive Position where
  | front
  | behind
  deriving DecidableEq

def long? (position : Position) (name : String) : Option (Valued ⊕ Flag) :=
  match name with
  | "config" => some (.inl .config)
  | "dir" => some (.inl .directory)
  | "debug" => some (.inr .debug)
  | "json" => some (.inr .json)
  | "help" => some (.inr .help)
  | "version" => if position = .front then some (.inr .version) else none
  | _ => none

def short? (position : Position) (letter : Char) : Option (Valued ⊕ Flag) :=
  match letter with
  | 'c' => some (.inl .config)
  | 'd' => some (.inr .debug)
  | 'h' => some (.inr .help)
  | 'V' => if position = .front then some (.inr .version) else none
  | _ => none

/-- An option by its long name, perhaps with a value behind an equals sign. -/
def readLong (position : Position) (o : RequestOptions) (text : List Char) :
    Except NoRequest Read :=
  let name := String.ofList (text.takeWhile (· ≠ '='))
  match long? position name, text.dropWhile (· ≠ '=') with
  | some (.inl option), [] => .ok (o, some option)
  | some (.inl option), _ :: value => do return (← o.setValue (String.ofList value) option, none)
  | some (.inr flag), [] => do return (← o.setFlag flag, none)
  | _, _ => .error .misuse

/-- Options by their letters. What follows the letter of an option with a value is its value. -/
def readShort (position : Position) : RequestOptions → List Char → Except NoRequest Read
  | o, [] => .ok (o, none)
  | o, letter :: rest =>
    match short? position letter, rest with
    | some (.inr flag), _ => do readShort position (← o.setFlag flag) rest
    | some (.inl option), [] => .ok (o, some option)
    | some (.inl option), '=' :: value => do
      return (← o.setValue (String.ofList value) option, none)
    | some (.inl option), value => do return (← o.setValue (String.ofList value) option, none)
    | none, _ => .error .misuse

/-- An argument that is read as options: a dash and more. -/
def looksLikeOption (argument : String) : Bool :=
  match argument.toList with
  | '-' :: _ :: _ => true
  | _ => false

/-- Read an argument that looks like options. -/
def read (position : Position) (o : RequestOptions) (argument : String) : Except NoRequest Read :=
  match argument.toList with
  | '-' :: '-' :: name => readLong position o name
  | '-' :: letters => readShort position o letters
  | _ => .error .misuse

/-- Read arguments up to the first that is no option. An option without its value is misuse. -/
def readAll (position : Position) :
    RequestOptions → Option Valued → List String → Except NoRequest (RequestOptions × List String)
  | o, none, [] => .ok (o, [])
  | _, some _, [] => .error .misuse
  | o, some option, argument :: rest =>
    if looksLikeOption argument then .error .misuse
    else do readAll position (← o.setValue argument option) none rest
  | o, none, argument :: rest =>
    if !looksLikeOption argument || argument = "--" then .ok (o, argument :: rest)
    else do
      let (o, waiting) ← o.read position argument
      readAll position o waiting rest

end RequestOptions

namespace Request

open RequestOptions

inductive CommandName where
  | list
  | entries
  | resolve
  | subtypes
  deriving DecidableEq, Repr

namespace CommandName

def ofText? : String → Option CommandName
  | "list" => some .list
  | "entries" => some .entries
  | "resolve" => some .resolve
  | "subtypes" => some .subtypes
  | _ => none

/-- How many operands there are. -/
def operands : CommandName → Nat
  | .list => 0
  | _ => 1

/-- A text that may be an operand. The path of an archive is never empty. -/
def accepts (command : CommandName) (value : String) : Bool :=
  command ≠ .entries || !value.isEmpty

def query? : CommandName → List String → Option Query
  | .list, [] => some .list
  | .entries, [archive] => some (.entries archive)
  | .resolve, [name] => some (.resolve name)
  | .subtypes, [base] => some (.subtypes base)
  | _, _ => none

end CommandName

/-- The options behind a command and its operands. -/
structure Operands where
  options : RequestOptions
  values : List String

/-- Operands behind `--`. -/
def rawOperands (command : CommandName) (left : Nat) (o : RequestOptions) (values : List String) :
    Except NoRequest Operands :=
  if values.length ≤ left && values.all command.accepts then .ok ⟨o, values⟩ else .error .misuse

/-- Read options and at most `left` operands. -/
def readOperands (command : CommandName) :
    Nat → RequestOptions → List String → Except NoRequest Operands
  | 0, o, arguments => do
    match ← readAll .behind o none arguments with
    | (o, []) => return ⟨o, []⟩
    | (o, "--" :: values) => rawOperands command 0 o values
    | (_, _ :: _) => throw .misuse
  | left + 1, o, arguments => do
    match ← readAll .behind o none arguments with
    | (o, []) => return ⟨o, []⟩
    | (o, "--" :: values) => rawOperands command (left + 1) o values
    | (o, value :: rest) =>
      if command.accepts value then do
        let more ← readOperands command left o rest
        return { more with values := value :: more.values }
      else throw .misuse

/-- Help on a command, or on the command for help itself. -/
def helpOn : List String → NoRequest
  | [] => .help
  | [command] =>
    if (CommandName.ofText? command).isSome || command = "help" then .help else .misuse
  | _ => .misuse

def ofArguments (arguments : List String) : Except NoRequest Request := do
  let (outer, rest) ← readAll .front {} none arguments
  match rest with
  | "help" :: more => throw (helpOn more)
  | word :: more =>
    match CommandName.ofText? word with
    | none => throw .misuse
    | some command =>
      let behind ← readOperands command command.operands {} more
      match command.query? behind.values with
      | some query => return { options := behind.options.orElse outer, query }
      | none => throw .misuse
  | [] => throw .misuse

end Request
end PluginLoader
