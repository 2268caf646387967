import PluginLoader.ClassHeader
import PluginLoader.Host
import PluginLoader.Source

/-!
A loading context: a fixed list of plugin archives and what has been found in them. Archives are
opened when a search first reaches them and stay open; a type found is kept under its name, so that
the name leads to one handle for as long as the context is open. Closing drops all of that for good.
-/
namespace PluginLoader

/-- What becomes of an archive that cannot be read. -/
inductive ArchivePolicy where
  /-- The operation fails. -/
  | abort
  /-- The archive is passed over. -/
  | skip
  deriving DecidableEq, Repr, Inhabited

inductive ContextState where
  | ready
  | closed
  deriving DecidableEq, Repr

/-- Where a context stands with one of its archives. -/
inductive Slot where
  | unopened
  | opened (archive : Archive)
  | unreadable

structure LoadingContext where
  /-- The name an error gives the context by. -/
  label : String
  sources : List PluginSource
  policy : ArchivePolicy
  state : ContextState
  /-- Whether the handles of this context are valid. -/
  live : Bool
  /-- The types found so far, latest first. -/
  defined : List (String × TypeHandle)
  /-- One slot for each source while the context is open. -/
  slots : List Slot
  /-- How many types have been found. -/
  issued : Nat

/-- The type an entry defines. Its header has to read and to declare the name looked for. -/
def describe (location entry expected : String) (content : ByteArray) :
    Except LoadError TypeDescriptor :=
  match ClassHeader.parse content.toList with
  | .error fault => .error (.malformed entry location fault)
  | .ok header =>
    if header.name = expected then
      .ok { name := header.name, superName := header.superName, interfaces := header.interfaces,
            access := header.access, origin := .archive location entry }
    else .error (.misnamed entry location header.name expected)

namespace LoadingContext

def make (label : String) (sources : List PluginSource) (policy : ArchivePolicy) :
    LoadingContext where
  label
  sources
  policy
  state := .ready
  live := true
  defined := []
  slots := sources.map fun _ => .unopened
  issued := 0

/-- A failure to read an archive, under a policy: passed over or final. -/
def tolerate (policy : ArchivePolicy) (e : LoadError) : Except LoadError Unit :=
  match policy with
  | .abort => .error e
  | .skip => .ok ()

/-- The slot of a source once a search has reached it. -/
def reach (files : FileSystem) (policy : ArchivePolicy) (source : PluginSource) :
    Slot → Except LoadError Slot
  | .unopened =>
    match source.archive files with
    | .ok archive => .ok (.opened archive)
    | .error e => (tolerate policy e).map fun _ => .unreadable
  | slot => .ok slot

/-- Look for a type through sources in order; the first readable definition decides. Slots change as
far as the search goes. -/
def search (files : FileSystem) (policy : ArchivePolicy) (name : String) :
    List PluginSource → List Slot → Except LoadError (Option TypeDescriptor) × List Slot
  | source :: sources, slot :: slots =>
    match reach files policy source slot with
    | .error e => (.error e, slot :: slots)
    | .ok (.opened archive) =>
      match archive.readEntry (TypeName.entryPath name) with
      | .ok (some content) =>
        ((describe source.location (TypeName.entryPath name) name content).map some,
          .opened archive :: slots)
      | .ok none =>
        let (answer, slots) := search files policy name sources slots
        (answer, .opened archive :: slots)
      | .error e =>
        match tolerate policy e with
        | .error e => (.error e, .opened archive :: slots)
        | .ok () =>
          let (answer, slots) := search files policy name sources slots
          (answer, .opened archive :: slots)
    | .ok slot =>
      let (answer, slots) := search files policy name sources slots
      (answer, slot :: slots)
  | _, slots => (.ok none, slots)

/-- Whether a search for a type comes to an archive that it cannot read without a crash. -/
def searchCrashes (files : FileSystem) (policy : ArchivePolicy) (name : String) :
    List PluginSource → List Slot → Bool
  | source :: sources, slot :: slots =>
    match reach files policy source slot with
    | .error _ => false
    | .ok (.opened archive) =>
      match archive.read (TypeName.entryPath name) with
      | .crash => true
      | .answer (.ok (some _)) => false
      | .answer (.ok none) => searchCrashes files policy name sources slots
      | .answer (.error _) =>
        match policy with
        | .abort => false
        | .skip => searchCrashes files policy name sources slots
    | .ok _ => searchCrashes files policy name sources slots
  | _, _ => false

/-- The answer a context gives without asking its parent: closed, or found before. -/
def known? (context : LoadingContext) (name : String) : Option (Except LoadError TypeHandle) :=
  match context.state with
  | .closed => some (.error (.contextClosed context.label))
  | .ready => (context.defined.lookup name).map .ok

/-- Look for a type in the context's own archives, the context being the scope `id`. -/
def define (context : LoadingContext) (files : FileSystem) (id : ScopeId) (name : String) :
    Except LoadError TypeHandle × LoadingContext :=
  if TypeName.searchable name then
    match search files context.policy name context.sources context.slots with
    | (.ok (some descriptor), slots) =>
      let handle : TypeHandle := ⟨id, context.issued, descriptor⟩
      (.ok handle, { context with
        slots, defined := (name, handle) :: context.defined, issued := context.issued + 1 })
    | (.ok none, slots) => (.error (.typeNotFound name), { context with slots })
    | (.error e, slots) => (.error e, { context with slots })
  else (.error (.typeNotFound name), context)

/-- Drop types and archives and invalidate the handles. A second time nothing changes. -/
def close (context : LoadingContext) : LoadingContext :=
  match context.state with
  | .closed => context
  | .ready => { context with state := .closed, live := false, defined := [], slots := [] }

end LoadingContext
end PluginLoader
