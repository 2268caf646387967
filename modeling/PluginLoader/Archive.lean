import PluginLoader.LoadError
import PluginLoader.TypeName
import PluginLoader.Zip.Container

/-!
Plugin archives that have been opened. An open archive keeps the bytes it was opened with, whatever
happens to the file. Enumerating one goes through its entries in order and gives the types among
them; the first entry whose header does not read ends the enumeration.
-/
namespace PluginLoader

/-- How a call ends: it gives its answer, or the process ends in it. -/
inductive Ending (α : Type) where
  | answer (value : α)
  | crash

structure Archive where
  location : String
  container : Zip.Container

namespace Archive

/-- Open the archive at a path. A file that cannot be read is a fault of the archive. -/
def open? (files : FileSystem) (location : String) : Except LoadError Archive :=
  match files.read location with
  | .error fault => .error (.archiveRead location (.file fault))
  | .ok data =>
    match Zip.Container.open? data with
    | .ok container => .ok { location, container }
    | .error fault => .error (.archiveRead location fault)

/-- The content of an entry; none if the archive has no such entry. -/
def readEntry (archive : Archive) (path : String) : Except LoadError (Option ByteArray) :=
  match archive.container.read path with
  | .ok content => .ok content
  | .error fault => .error (.archiveRead archive.location fault)

def entryCount (archive : Archive) : Nat := archive.container.entries.length

/-- The bytes reserved before an entry's content is decoded: as many as the directory declares. -/
def reservation (archive : Archive) (path : String) : Nat :=
  match archive.container.find? path with
  | some e =>
    match archive.container.stored e with
    | .ok _ => e.size
    | .error _ => 0
  | none => 0

/-- The most bytes that can be reserved at once; asking for more is a crash. Up to here a
reservation is taken to succeed: that memory runs out is left aside. -/
def reservationLimit : Nat := 0x7FFFFFFFFFFFFFFF

/-- Read an entry with what it costs: room for its content is reserved first. -/
def read (archive : Archive) (path : String) : Ending (Except LoadError (Option ByteArray)) :=
  if reservationLimit < archive.reservation path then .crash else .answer (archive.readEntry path)

end Archive

/-- An enumeration under way: the entries not yet looked at, none once it has ended. -/
structure Enumeration where
  archive : Archive
  rest : List Zip.Entry

namespace Enumeration

def start (archive : Archive) : Enumeration := ⟨archive, archive.container.entries⟩

/-- Look for the next type from a list of entries on. -/
def advance (archive : Archive) :
    List Zip.Entry → Option (Except LoadError String) × List Zip.Entry
  | [] => (none, [])
  | e :: rest =>
    match archive.container.contentStart e with
    | .error fault => (some (.error (.archiveRead archive.location fault)), [])
    | .ok _ =>
      match TypeName.ofEntryPath? e.name with
      | some name => (some (.ok name), rest)
      | none => advance archive rest

/-- The next type, or the failure that ends the enumeration, or nothing at its end. -/
def next (e : Enumeration) : Option (Except LoadError String) × Enumeration :=
  let (item, rest) := advance e.archive e.rest
  (item, { e with rest })

end Enumeration

namespace Archive

/-- All an enumeration gives, in order: names, and at most one failure at the end. -/
def itemsOf (archive : Archive) : List Zip.Entry → List (Except LoadError String)
  | [] => []
  | e :: rest =>
    match archive.container.contentStart e with
    | .error fault => [.error (.archiveRead archive.location fault)]
    | .ok _ =>
      match TypeName.ofEntryPath? e.name with
      | some name => .ok name :: itemsOf archive rest
      | none => itemsOf archive rest

def items (archive : Archive) : List (Except LoadError String) :=
  itemsOf archive archive.container.entries

/-- The type names of an archive, or the first failure. -/
def typeNames (archive : Archive) : Except LoadError (List String) := archive.items.mapM id

end Archive
end PluginLoader
