import PluginLoader.Path

/-!
A file system as a value. Nodes are bound to locations, the names that lead to them from the root; a
later binding hides an earlier one. Paths are followed as the operating system does: a link in the
middle is always followed, `..` goes to the parent of where the walk has arrived, and a step past a
file fails.
-/
namespace PluginLoader

/-- The names from the root to a node. -/
abbrev Location := List String

inductive FileNode where
  | file (content : ByteArray)
  | folder
  | link (target : String)

inductive FileFault where
  | missing
  | exists
  | notAFolder
  | isAFolder
  | invalidName
  | nameTooLong
  | notEmpty
  | tooManyLinks
  deriving DecidableEq, Repr

def FileFault.message : FileFault → String
  | .missing => "No such file or directory (os error 2)"
  | .exists => "File exists (os error 17)"
  | .notAFolder => "Not a directory (os error 20)"
  | .isAFolder => "Is a directory (os error 21)"
  | .invalidName => "file name contained an unexpected NUL byte"
  | .nameTooLong => "File name too long (os error 36)"
  | .notEmpty => "Directory not empty (os error 39)"
  | .tooManyLinks => "Too many levels of symbolic links (os error 40)"

structure FileSystem where
  nodes : List (Location × FileNode)
  /-- Where relative paths start. -/
  start : Location

namespace FileSystem

inductive Step where
  | stay
  | up
  | into (name : String)

def stepOf (piece : List Char) : Step :=
  if !Path.leads piece then .stay
  else if piece = Path.parent then .up
  else .into (String.ofList piece)

def steps (path : String) : List Step := (Path.pieces path).map stepOf

/-- Links one walk may follow. -/
def linkLimit : Nat := 40

def text (location : Location) : String := "/" ++ String.intercalate "/" location

/-- The node bound to a location; the root is a folder. -/
def node? (fs : FileSystem) (location : Location) : Option FileNode :=
  if location = [] then some .folder else fs.nodes.lookup location

/-- Where a path is followed from. -/
def origin (path : String) (here : Location) : Location := if Path.isAbsolute path then [] else here

/-- Follow steps from a folder. `follow` says whether a link at the very end is followed. -/
def walk (fs : FileSystem) (follow : Bool) (links : Nat) (here : Location) :
    List Step → Except FileFault (Location × FileNode)
  | [] => .ok (here, .folder)
  | .stay :: rest => walk fs follow links here rest
  | .up :: rest => walk fs follow links here.dropLast rest
  | .into name :: rest =>
    if name.utf8ByteSize > 255 then .error .nameTooLong
    else
      match fs.node? (here ++ [name]) with
      | none => .error .missing
      | some .folder => walk fs follow links (here ++ [name]) rest
      | some (.file content) =>
        if rest.isEmpty then .ok (here ++ [name], .file content) else .error .notAFolder
      | some (.link target) =>
        if rest.isEmpty && !follow then .ok (here ++ [name], .link target)
        else
          match links with
          | 0 => .error .tooManyLinks
          | links + 1 =>
            if target.isEmpty then .error .missing
            else walk fs follow links (origin target here) (steps target ++ rest)
termination_by todo => (links, todo.length)

/-- What every path has to satisfy before it is followed. -/
def checked (path : String) : Except FileFault Unit :=
  if path.isEmpty then .error .missing
  else if path.toList.contains '\x00' then .error .invalidName
  else if path.utf8ByteSize ≥ 4096 then .error .nameTooLong
  else .ok ()

def find (fs : FileSystem) (path : String) (follow : Bool) :
    Except FileFault (Location × FileNode) := do
  checked path
  fs.walk follow linkLimit (origin path fs.start) (steps path)

/-- The location a path leads to, links followed. -/
def locate (fs : FileSystem) (path : String) : Except FileFault (Location × FileNode) :=
  fs.find path true

def isFolder (fs : FileSystem) (path : String) : Bool :=
  match fs.locate path with
  | .ok (_, .folder) => true
  | _ => false

/-- Something is there, at the end of all links. -/
def isThere (fs : FileSystem) (path : String) : Bool :=
  match fs.locate path with
  | .ok _ => true
  | .error _ => false

def canonical (fs : FileSystem) (path : String) : Except FileFault String :=
  (fs.locate path).map fun (location, _) => text location

def read (fs : FileSystem) (path : String) : Except FileFault ByteArray := do
  match ← fs.locate path with
  | (_, .file content) => .ok content
  | _ => .error .isAFolder

/-- The name of a location's node inside a folder. -/
def childName? (folder : Location) (location : Location) : Option String :=
  match location.getLast? with
  | some name => if location.dropLast = folder then some name else none
  | none => none

/-- The names bound directly inside a folder, each once. -/
def children (fs : FileSystem) (folder : Location) : List String :=
  (fs.nodes.filterMap fun (location, _) => childName? folder location).eraseDups

def list (fs : FileSystem) (path : String) : Except FileFault (List String) := do
  match ← fs.locate path with
  | (location, .folder) => .ok (fs.children location)
  | _ => .error .notAFolder

/-! ### Changes -/

/-- Bind a node, hiding what was bound there. -/
def bind (fs : FileSystem) (location : Location) (node : FileNode) : FileSystem :=
  { fs with nodes := fs.nodes.filter (·.1 ≠ location) ++ [(location, node)] }

/-- Unbind a location and all below it. -/
def unbind (fs : FileSystem) (location : Location) : FileSystem :=
  { fs with nodes := fs.nodes.filter fun entry => !location.isPrefixOf entry.1 }

/-- The folder a path's last name lies in, and that name. -/
def slot (fs : FileSystem) (path : String) : Except FileFault (Location × String) := do
  checked path
  match Path.directory? path, Path.fileName? path with
  | some directory, some name =>
    if name.utf8ByteSize > 255 then .error .nameTooLong
    match ← fs.locate (if directory.isEmpty then "." else directory) with
    | (location, .folder) => .ok (location, name)
    | _ => .error .notAFolder
  | _, _ => .error .exists

/-- Make one folder in a folder that is there. -/
def makeFolder (fs : FileSystem) (path : String) : Except FileFault FileSystem := do
  let (folder, name) ← fs.slot path
  match fs.node? (folder ++ [name]) with
  | some _ => .error .exists
  | none => .ok (fs.bind (folder ++ [name]) .folder)

/-- The paths of the folders on the way to a path, the path itself last. -/
def ancestry (path : String) : List String :=
  let pieces := (Path.pieces path).filter Path.leads
  (List.range pieces.length).map fun n =>
    let text := String.intercalate "/" ((pieces.take (n + 1)).map String.ofList)
    if Path.isAbsolute path then "/" ++ text else text

/-- Make every folder on the way to a path that is not there yet. -/
def makeFolders (fs : FileSystem) (path : String) : Except FileFault FileSystem :=
  if path.isEmpty then .ok fs
  else
    (ancestry path).foldlM
      (fun fs folder => if fs.isFolder folder then .ok fs else fs.makeFolder folder) fs

/-- Replace whatever file or link is at a path by a new file. -/
def replace (fs : FileSystem) (path : String) (content : ByteArray) :
    Except FileFault FileSystem := do
  let (folder, name) ← fs.slot path
  match fs.node? (folder ++ [name]) with
  | some .folder => .error .isAFolder
  | _ => .ok (fs.bind (folder ++ [name]) (.file content))

/-- Where a file is written when steps are followed from a folder. Links are followed as in a walk,
at the end too; the last name may be free. -/
def destination (fs : FileSystem) (links : Nat) (here : Location) :
    List Step → Except FileFault Location
  | [] => .error .isAFolder
  | .stay :: rest => destination fs links here rest
  | .up :: rest => destination fs links here.dropLast rest
  | .into name :: rest =>
    if name.utf8ByteSize > 255 then .error .nameTooLong
    else
      match fs.node? (here ++ [name]) with
      | none => if rest.isEmpty then .ok (here ++ [name]) else .error .missing
      | some .folder => destination fs links (here ++ [name]) rest
      | some (.file _) => if rest.isEmpty then .ok (here ++ [name]) else .error .notAFolder
      | some (.link target) =>
        match links with
        | 0 => .error .tooManyLinks
        | links + 1 =>
          if target.isEmpty then .error .missing
          else destination fs links (origin target here) (steps target ++ rest)
termination_by todo => (links, todo.length)

/-- Write a file as opening it for writing does: links are followed, old content goes. -/
def write (fs : FileSystem) (path : String) (content : ByteArray) :
    Except FileFault FileSystem := do
  checked path
  let location ← fs.destination linkLimit (origin path fs.start) (steps path)
  .ok (fs.bind location (.file content))

/-- Remove a node and all below it; a link itself, not what it leads to. -/
def remove (fs : FileSystem) (path : String) : Except FileFault FileSystem := do
  let (location, _) ← fs.find path false
  .ok (fs.unbind location)

def link (fs : FileSystem) (path target : String) : Except FileFault FileSystem := do
  let (folder, name) ← fs.slot path
  match fs.node? (folder ++ [name]) with
  | some _ => .error .exists
  | none => .ok (fs.bind (folder ++ [name]) (.link target))

/-- A location with its front `source` replaced by `target`. -/
def moved (source target location : Location) : Location :=
  if source.isPrefixOf location then target ++ location.drop source.length else location

/-- Move a subtree to a goal that nothing is bound to any more. -/
def relocate (fs : FileSystem) (source goal : Location) : FileSystem :=
  { fs with nodes := fs.nodes.map fun (location, node) => (moved source goal location, node) }

/-- Move a node and all below it to a new name, over a file or link that has that name. -/
def rename (fs : FileSystem) (path target : String) : Except FileFault FileSystem := do
  let (source, node) ← fs.find path false
  let (folder, name) ← fs.slot target
  let goal := folder ++ [name]
  if source = goal then .ok fs
  else
    match node, fs.node? goal with
    | .folder, some .folder =>
      if fs.children goal = [] then .ok ((fs.unbind goal).relocate source goal)
      else .error .notEmpty
    | .folder, some _ => .error .notAFolder
    | _, some .folder => .error .isAFolder
    | _, _ => .ok ((fs.unbind goal).relocate source goal)

end FileSystem
end PluginLoader
