import PluginLoader.Context

/-!
Hosts and loading contexts in the order they were made, and the files they read. A scope is known by
its number. A context asks its parent, an older scope, before its own archives; it goes on to them
only if the parent has no such type.
-/
namespace PluginLoader

inductive Scope where
  | host (types : HostTypes)
  | context (parent : ScopeId) (context : LoadingContext)

def LoadError.isTypeNotFound : LoadError → Bool
  | .typeNotFound _ => true
  | _ => false

namespace Scope

/-- Resolve a name in the scope numbered `id` of a list of scopes, newest first: the scope's number
is how many are older. A number that no scope has finds nothing. -/
def resolve (files : FileSystem) :
    List Scope → ScopeId → String → Except LoadError TypeHandle × List Scope
  | [], _, name => (.error (.typeNotFound name), [])
  | scope :: older, id, name =>
    if id = older.length then
      match scope with
      | .host types => (types.resolve id name, scope :: older)
      | .context parent own =>
        match own.known? name with
        | some answer => (answer, scope :: older)
        | none =>
          match resolve files older parent name with
          | (.ok handle, older) => (.ok handle, .context parent own :: older)
          | (.error e, older) =>
            if e.isTypeNotFound then
              let (answer, own) := own.define files id name
              (answer, .context parent own :: older)
            else (.error e, .context parent own :: older)
    else
      let (answer, older) := resolve files older id name
      (answer, scope :: older)

/-- Whether resolving a name in the scope numbered `id` comes to a crash: on the way to the parent's
answer, or in the context's own search. -/
def crashes (files : FileSystem) : List Scope → ScopeId → String → Bool
  | [], _, _ => false
  | scope :: older, id, name =>
    if id = older.length then
      match scope with
      | .host _ => false
      | .context parent own =>
        match own.known? name with
        | some _ => false
        | none =>
          crashes files older parent name ||
            match (resolve files older parent name).1 with
            | .ok _ => false
            | .error e => e.isTypeNotFound && TypeName.searchable name &&
                LoadingContext.searchCrashes files own.policy name own.sources own.slots
    else crashes files older id name

/-- The scope numbered `id`. -/
def get? : List Scope → ScopeId → Option Scope
  | [], _ => none
  | scope :: older, id => if id = older.length then some scope else get? older id

/-- Change the context numbered `id`. -/
def modify (change : LoadingContext → LoadingContext) : List Scope → ScopeId → List Scope
  | [], _ => []
  | scope :: older, id =>
    if id = older.length then
      match scope with
      | .host types => .host types :: older
      | .context parent own => .context parent (change own) :: older
    else scope :: modify change older id

/-- Whether handles that the scope defined are valid. -/
def isLive : Scope → Bool
  | .host _ => true
  | .context _ own => own.live

end Scope

structure World where
  files : FileSystem
  /-- Newest first. -/
  scopes : List Scope

namespace World

def addScope (w : World) (scope : Scope) : ScopeId × World :=
  (w.scopes.length, { w with scopes := scope :: w.scopes })

def addHost (w : World) (types : HostTypes) : ScopeId × World := w.addScope (.host types)

def addContext (w : World) (parent : ScopeId) (context : LoadingContext) : ScopeId × World :=
  w.addScope (.context parent context)

def context? (w : World) (id : ScopeId) : Option LoadingContext :=
  match Scope.get? w.scopes id with
  | some (.context _ context) => some context
  | _ => none

/-- A handle is valid until the scope that defined its type is closed. -/
def isValid (w : World) (handle : TypeHandle) : Bool :=
  match Scope.get? w.scopes handle.owner with
  | some scope => scope.isLive
  | none => false

def resolve (w : World) (id : ScopeId) (name : String) : Except LoadError TypeHandle × World :=
  let (answer, scopes) := Scope.resolve w.files w.scopes id name
  (answer, { w with scopes })

def crashes (w : World) (id : ScopeId) (name : String) : Bool :=
  Scope.crashes w.files w.scopes id name

/-- Resolve a name with what reading archives costs. -/
def attempt (w : World) (id : ScopeId) (name : String) :
    Ending (Except LoadError TypeHandle × World) :=
  if w.crashes id name then .crash else .answer (w.resolve id name)

/-- The type a type declares to extend, resolved in a scope; none for a root type. -/
def directSupertype (w : World) (id : ScopeId) (handle : TypeHandle) :
    Except LoadError (Option TypeHandle) × World :=
  if w.isValid handle then
    match handle.superName with
    | none => (.ok none, w)
    | some name =>
      match w.resolve id name with
      | (.ok answer, w) => (.ok (some answer), w)
      | (.error e, w) => (.error e, w)
  else (.error (.handleClosed handle.name), w)

def close (w : World) (id : ScopeId) : World :=
  { w with scopes := Scope.modify LoadingContext.close w.scopes id }

/-- A listed name with its direct supertype. -/
def relate (w : World) (id : ScopeId) (name : String) :
    Except LoadError (TypeHandle × Option TypeHandle) × World :=
  match w.resolve id name with
  | (.error e, w) => (.error e, w)
  | (.ok handle, w) =>
    match w.directSupertype id handle with
    | (.error e, w) => (.error e, w)
    | (.ok supertype, w) => (.ok (handle, supertype), w)

def isSame (base : TypeHandle) : Option TypeHandle → Bool
  | some handle => handle.same base
  | none => false

/-- Go through what one source lists. The types whose direct supertype is `base` come after those
found before; a failure to enumerate ends the source. -/
def subtypesAmong (id : ScopeId) (policy : ArchivePolicy) (base : TypeHandle)
    (source : PluginSource) :
    List (Except LoadError String) → List TypeHandle → World →
      Except LoadError (List TypeHandle) × World
  | [], found, w => (.ok found, w)
  | .error e :: _, found, w =>
    match policy with
    | .abort => (.error e, w)
    | .skip => (.ok found, w)
  | .ok name :: rest, found, w =>
    match w.relate id name with
    | (.error e, w) => (.error (.inconsistent name source.location e), w)
    | (.ok (handle, supertype), w) =>
      subtypesAmong id policy base source rest
        (if isSame base supertype then found ++ [handle] else found) w

/-- Go through sources in order, each opened again. -/
def subtypesIn (id : ScopeId) (policy : ArchivePolicy) (base : TypeHandle) :
    List PluginSource → List TypeHandle → World → Except LoadError (List TypeHandle) × World
  | [], found, w => (.ok found, w)
  | source :: sources, found, w =>
    match source.archive w.files with
    | .error e =>
      match policy with
      | .abort => (.error e, w)
      | .skip => subtypesIn id policy base sources found w
    | .ok archive =>
      match subtypesAmong id policy base source archive.items found w with
      | (.error e, w) => (.error e, w)
      | (.ok found, w) => subtypesIn id policy base sources found w

/-- The types in a context's archives whose direct supertype is `base`, in the order of sources and
of entries. -/
def directSubtypes (w : World) (id : ScopeId) (base : TypeHandle) :
    Except LoadError (List TypeHandle) × World :=
  match w.context? id with
  | some context => subtypesIn id context.policy base context.sources [] w
  | none => (.ok [], w)

/-! ### Crashes -/

/-- Whether asking what a type extends comes to a crash. -/
def supertypeCrashes (w : World) (id : ScopeId) (handle : TypeHandle) : Bool :=
  w.isValid handle && handle.superName.any (w.crashes id)

/-- Ask what a type extends, with what reading archives costs. -/
def attemptSupertype (w : World) (id : ScopeId) (handle : TypeHandle) :
    Ending (Except LoadError (Option TypeHandle) × World) :=
  if w.supertypeCrashes id handle then .crash else .answer (w.directSupertype id handle)

def relateCrashes (w : World) (id : ScopeId) (name : String) : Bool :=
  w.crashes id name ||
    match w.resolve id name with
    | (.ok handle, w) => w.supertypeCrashes id handle
    | (.error _, _) => false

/-- Whether going through what one source lists comes to a crash. -/
def listingCrashes (id : ScopeId) : List (Except LoadError String) → World → Bool
  | .ok name :: rest, w =>
    w.relateCrashes id name ||
      match w.relate id name with
      | (.ok _, w) => listingCrashes id rest w
      | (.error _, _) => false
  | _, _ => false

/-- Whether going through sources comes to a crash. -/
def sourcesCrash (id : ScopeId) (policy : ArchivePolicy) (base : TypeHandle) :
    List PluginSource → World → Bool
  | [], _ => false
  | source :: sources, w =>
    match source.archive w.files with
    | .error _ =>
      match policy with
      | .abort => false
      | .skip => sourcesCrash id policy base sources w
    | .ok archive =>
      listingCrashes id archive.items w ||
        match subtypesAmong id policy base source archive.items [] w with
        | (.ok _, w) => sourcesCrash id policy base sources w
        | (.error _, _) => false

def subtypesCrash (w : World) (id : ScopeId) (base : TypeHandle) : Bool :=
  match w.context? id with
  | some context => sourcesCrash id context.policy base context.sources w
  | none => false

/-- Ask for direct subtypes, with what reading archives costs. -/
def attemptSubtypes (w : World) (id : ScopeId) (base : TypeHandle) :
    Ending (Except LoadError (List TypeHandle) × World) :=
  if w.subtypesCrash id base then .crash else .answer (w.directSubtypes id base)

end World
end PluginLoader
