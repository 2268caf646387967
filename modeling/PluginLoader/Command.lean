import PluginLoader.Configuration.File
import PluginLoader.Report
import PluginLoader.Request

/-!
The command: a request is answered as a whole or fails as a whole, so that nothing is printed when
it fails. The configuration is read first, whatever is asked. The help given here is a summary made
for this library; only that it is given, and with which exit code, is meant. Of a configuration that
cannot be read the causes are left out.
-/
namespace PluginLoader

inductive CommandFault where
  | configuration (fault : ConfigurationFault)
  /-- The plugins of a directory could not be loaded. -/
  | loading (directory : String) (cause : LoadError)
  | query (cause : LoadError)
  /-- The process ended in a query. -/
  | crash
  deriving DecidableEq, Repr

namespace CommandFault

/-- The exit code of a run that fails so. -/
def exit : CommandFault → Nat
  | .crash => 101
  | _ => 1

/-- What went wrong and, after it, why, outermost first. A process that ends in a query is not
asked. -/
def messages : CommandFault → List String
  | .configuration fault => [fault.message]
  | .loading directory cause =>
    s!"Failed to load plugins from {directory}" :: cause.message :: cause.causes
  | .query cause => cause.message :: cause.causes
  | .crash => []

/-- A cause with its lines indented, and with its place among several. -/
def indented (place : Option Nat) (cause : String) : String :=
  let margin := if place.isSome then "       " else "    "
  let start := place.elim margin fun n => "    " ++ toString n ++ ": "
  "\n" ++ start ++ String.ofList (cause.toList.flatMap fun c =>
    if c = '\n' then '\n' :: margin.toList else [c])

/-- The error that a run ends with, the causes listed under it. -/
def text? (fault : CommandFault) : Option String :=
  match fault.messages with
  | [] => none
  | [message] => some message
  | [message, cause] => some (message ++ "\n\nCaused by:" ++ indented none cause)
  | message :: causes =>
    let list := causes.zipIdx.map fun (cause, place) => indented (some place) cause
    some (message ++ "\n\nCaused by:" ++ String.join list)

end CommandFault

/-- What a run leaves behind. -/
structure Outcome where
  exit : Nat
  output : String
  error : Option String
  deriving DecidableEq, Repr

namespace Request

def configuration (r : Request) (files : FileSystem) (home : String) :
    Except CommandFault Configuration :=
  match r.options.config with
  | some path => (Configuration.load files path).mapError .configuration
  | none => (Configuration.loadDefault files home).mapError .configuration

/-- The directory of the options, else the configured one. -/
def directory (r : Request) (c : Configuration) : String := r.options.directory.getD c.directory

/-- The configured host and, above it, the manager of the directory. -/
def load (r : Request) (files : FileSystem) (c : Configuration) :
    Except CommandFault (PluginManager × World) :=
  let (host, world) := World.addHost { files, scopes := [] } c.hostTypes
  (PluginManager.load world "plugins" (r.directory c) c.options host).mapError
    (.loading (r.directory c))

def sources (m : PluginManager) (world : World) : List String :=
  (world.context? m.context).elim [] fun context => context.sources.map (·.location)

/-- What a query comes to for the command. -/
def outcome {α : Type} : Ending (Except LoadError α × World) → Except CommandFault (α × World)
  | .answer (.ok answer, world) => .ok (answer, world)
  | .answer (.error e, _) => .error (.query e)
  | .crash => .error .crash

/-- The answer to a query under a configuration. -/
def answer (r : Request) (files : FileSystem) (c : Configuration) : Except CommandFault Report := do
  match r.query with
  | .entries path =>
    let archive ← (Archive.open? files path).mapError .query
    return .names (← archive.typeNames.mapError .query)
  | .list =>
    let (m, world) ← r.load files c
    return .names (sources m world)
  | .resolve name =>
    let (m, world) ← r.load files c
    let (handle, _) ← outcome (world.attempt m.context name)
    return .types [.ofHandle handle]
  | .subtypes name =>
    let (m, world) ← r.load files c
    let (base, world) ← outcome (world.attempt m.context name)
    let (handles, _) ← outcome (world.attemptSubtypes m.context base)
    return .types (handles.map .ofHandle)

/-- Read the configuration and answer. -/
def run (r : Request) (files : FileSystem) (home : String) : Except CommandFault Report := do
  r.answer files (← r.configuration files home)

end Request

namespace Command

def version : String := "plugjar 1.0.0\n"

def usage : String :=
  "Usage: plugjar [-c FILE] [--dir DIRECTORY] [-d] [--json] COMMAND\n\n" ++
  "  list              the archives of the directory\n" ++
  "  entries ARCHIVE   the types in an archive\n" ++
  "  resolve NAME      a type\n" ++
  "  subtypes NAME     the types that directly extend a type\n"

/-- Answer a request as the process that was asked does. -/
def respond (r : Request) (files : FileSystem) (home : String) : Outcome :=
  match r.run files home with
  | .ok report => { exit := 0, output := report.print r.options.json, error := none }
  | .error fault => { exit := fault.exit, output := "", error := fault.text? }

/-- Run the command line. Nothing is printed for a line that asks nothing. -/
def run (files : FileSystem) (home : String) (arguments : List String) : Outcome :=
  match Request.ofArguments arguments with
  | .ok request => respond request files home
  | .error .help => { exit := 0, output := usage, error := none }
  | .error .version => { exit := 0, output := version, error := none }
  | .error .misuse => { exit := 2, output := "", error := none }

end Command
end PluginLoader
