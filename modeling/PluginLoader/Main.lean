import PluginLoader.Command

/-!
The command line program. It gathers the files that a request leads to, runs the command on them and
prints what that leaves behind.
-/
namespace PluginLoader.Gather

/-- The location of an absolute path without links. -/
def locationOf (path : String) : Location :=
  ((Path.pieces path).filter Path.leads).map String.ofList

/-- Where a path leads; nothing if it leads nowhere. -/
def real? (path : String) : IO (Option Location) := do
  try return some (locationOf (← IO.FS.realPath path).toString) catch _ => return none

/-- Bind the folders around a location. -/
def around (files : FileSystem) (location : Location) : FileSystem :=
  ((List.range location.length).map location.take).foldl
    (fun files folder =>
      if (files.node? folder).isSome then files else files.bind folder .folder) files

/-- Bind what lies at a location that no link leads to. -/
def bindReal (files : FileSystem) (location : Location) : IO FileSystem := do
  let files := around files location
  let path ← IO.FS.realPath (FileSystem.text location)
  if ← path.isDir then return files.bind location .folder
  try return files.bind location (.file (← IO.FS.readBinFile path)) catch _ => return files

/-- Bind everything on the way of a path, links included. -/
def path (files : FileSystem) (text : String) : IO FileSystem := do
  let mut files := files
  let mut here := FileSystem.origin text files.start
  for step in FileSystem.steps text do
    match step with
    | .stay => pure ()
    | .up => here := here.dropLast
    | .into name =>
      match ← real? (FileSystem.text (here ++ [name])) with
      | none => return files
      | some found =>
        if found ≠ here ++ [name] then
          files := (around files (here ++ [name])).bind (here ++ [name])
            (.link (FileSystem.text found))
        if (files.node? found).isNone then files ← bindReal files found
        here := found
  return files

/-- A folder and the archives in it. -/
def folder (files : FileSystem) (text : String) : IO FileSystem := do
  let mut files ← path files text
  match files.locate text with
  | .ok (location, .folder) =>
    for entry in ← (← IO.FS.realPath (FileSystem.text location)).readDir do
      let inside := Path.join (FileSystem.text location) entry.fileName
      if (PluginSource.make inside).toOption.isSome then files ← path files inside
    return files
  | _ => return files

/-- The files that answering a request may read. -/
def request (files : FileSystem) (home : String) (r : Request) : IO FileSystem := do
  let files ← path files (r.options.config.getD (Configuration.defaultPath home))
  match r.configuration files home, r.query with
  | .ok _, .entries archive => path files archive
  | .ok c, _ => folder files (r.directory c)
  | .error _, _ => return files

end PluginLoader.Gather

open PluginLoader in
def main (arguments : List String) : IO UInt32 := do
  let start := Gather.locationOf (← IO.FS.realPath ".").toString
  let home := (← IO.getEnv "HOME").getD ""
  let files := Gather.around { nodes := [], start } (start ++ ["."])
  let files ← match Request.ofArguments arguments with
    | .ok r => Gather.request files home r
    | .error _ => pure files
  let outcome := Command.run files home arguments
  IO.print outcome.output
  if let some message := outcome.error then IO.eprintln ("Error: " ++ message)
  if outcome.exit = 2 then IO.eprint Command.usage
  return UInt32.ofNat outcome.exit
