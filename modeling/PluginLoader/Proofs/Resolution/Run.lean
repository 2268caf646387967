import Mathlib.Logic.Relation
import PluginLoader.Manager
import PluginLoader.Proofs.Resolution.Settled

/-! Runs of a world. Events come in any order: new hosts, contexts and managers, queries of any
scope, closing, and any change of the files. All that a query does to a world is a sequence of
lookups in one scope. -/
namespace PluginLoader

/-- The host that a list of definitions makes, a later one of a name hiding the earlier. -/
def HostTypes.ofDefinitions (definitions : List (String × Option String × AccessFlags)) :
    HostTypes :=
  definitions.foldl
    (fun host (name, superName, access) => host.define name superName access) .empty

inductive Event where
  | addHost (definitions : List (String × Option String × AccessFlags))
  | addContext (parent : ScopeId) (label : String) (sources : List PluginSource)
      (policy : ArchivePolicy)
  | load (parent : ScopeId) (label path : String) (options : LoaderOptions)
  | resolve (id : ScopeId) (name : String)
  | directSupertype (id : ScopeId) (handle : TypeHandle)
  | directSubtypes (id : ScopeId) (base : TypeHandle)
  | close (id : ScopeId)
  | change (files : FileSystem)

namespace World

def start (files : FileSystem) : World := ⟨files, []⟩

def perform (w : World) : Event → World
  | .addHost definitions => (w.addHost (HostTypes.ofDefinitions definitions)).2
  | .addContext parent label sources policy =>
    (w.addContext parent (LoadingContext.make label sources policy)).2
  | .load parent label path options =>
    match PluginManager.load w label path options parent with
    | .ok (_, after) => after
    | .error _ => w
  | .resolve id name => (w.resolve id name).2
  | .directSupertype id handle => (w.directSupertype id handle).2
  | .directSubtypes id base => (w.directSubtypes id base).2
  | .close id => w.close id
  | .change files => { w with files }

def run : World → List Event → World
  | w, [] => w
  | w, e :: rest => run (w.perform e) rest

/-- The contexts a lookup in a scope can pass through: the scope itself if it is a context, its
parent, and so on. -/
def chain (w : World) (id : ScopeId) : List ScopeId := Scope.chain w.scopes id

/-- One world comes from another by lookups in one scope. -/
def Lookups (id : ScopeId) : World → World → Prop :=
  Relation.ReflTransGen fun w after => ∃ name, after = (w.resolve id name).2

/-! ### Queries are lookups -/

section
variable {w after : World} {id : ScopeId} {policy : ArchivePolicy} {base : TypeHandle}

theorem resolve_lookups {name : String} {answer : Except LoadError TypeHandle}
    (asked : w.resolve id name = (answer, after)) : Lookups id w after :=
  .single ⟨name, by rw [asked]⟩

theorem directSupertype_lookups {handle : TypeHandle}
    {answer : Except LoadError (Option TypeHandle)}
    (asked : w.directSupertype id handle = (answer, after)) : Lookups id w after := by
  unfold directSupertype at asked
  split at asked
  · split at asked
    · cases asked
      exact .refl
    · split at asked
      · rename_i resolving
        cases asked
        exact resolve_lookups resolving
      · rename_i resolving
        cases asked
        exact resolve_lookups resolving
  · cases asked
    exact .refl

theorem relate_lookups {name : String}
    {answer : Except LoadError (TypeHandle × Option TypeHandle)}
    (asked : w.relate id name = (answer, after)) : Lookups id w after := by
  unfold relate at asked
  split at asked
  · rename_i resolving
    cases asked
    exact resolve_lookups resolving
  · rename_i resolving
    have first := resolve_lookups resolving
    split at asked
    · rename_i extending
      cases asked
      exact first.trans (directSupertype_lookups extending)
    · rename_i extending
      cases asked
      exact first.trans (directSupertype_lookups extending)

theorem subtypesAmong_lookups {source : PluginSource} {items : List (Except LoadError String)}
    {found : List TypeHandle} {answer : Except LoadError (List TypeHandle)}
    (asked : subtypesAmong id policy base source items found w = (answer, after)) :
    Lookups id w after := by
  induction items generalizing found w with
  | nil => cases asked; exact .refl
  | cons item rest ih =>
    cases item with
    | error e => cases policy <;> cases asked <;> exact .refl
    | ok name =>
      rw [subtypesAmong] at asked
      split at asked
      · rename_i relating
        cases asked
        exact relate_lookups relating
      · rename_i relating
        exact (relate_lookups relating).trans (ih asked)

theorem subtypesIn_lookups {sources : List PluginSource} {found : List TypeHandle}
    {answer : Except LoadError (List TypeHandle)}
    (asked : subtypesIn id policy base sources found w = (answer, after)) :
    Lookups id w after := by
  induction sources generalizing found w with
  | nil => cases asked; exact .refl
  | cons source sources ih =>
    rw [subtypesIn] at asked
    split at asked
    · cases policy with
      | abort => cases asked; exact .refl
      | skip => exact ih asked
    · split at asked
      · rename_i among
        cases asked
        exact subtypesAmong_lookups among
      · rename_i among
        exact (subtypesAmong_lookups among).trans (ih asked)

theorem directSubtypes_lookups {answer : Except LoadError (List TypeHandle)}
    (asked : w.directSubtypes id base = (answer, after)) : Lookups id w after := by
  unfold directSubtypes at asked
  split at asked
  · exact subtypesIn_lookups asked
  · cases asked
    exact .refl

theorem Lookups.keep {P : World → Prop} (lookups : Lookups id w after)
    (step : ∀ w name, P w → P (w.resolve id name).2) (holds : P w) : P after := by
  induction lookups with
  | refl => exact holds
  | tail _ last ih =>
    obtain ⟨name, rfl⟩ := last
    exact step _ name ih

end

end World

/-! ### What an event can do -/

/-- A scope that nobody has asked anything yet. -/
inductive Scope.Fresh : Scope → Prop where
  | host (definitions : List (String × Option String × AccessFlags)) :
      Fresh (.host (HostTypes.ofDefinitions definitions))
  | context (parent : ScopeId) (label : String) (sources : List PluginSource)
      (policy : ArchivePolicy) :
      Fresh (.context parent (LoadingContext.make label sources policy))

theorem PluginManager.load_ok {w after : World} {label path : String} {options : LoaderOptions}
    {parent : ScopeId} {manager : PluginManager}
    (loaded : load w label path options parent = .ok (manager, after)) :
    ∃ directory sources, loadSources w.files path options = .ok (directory, sources) ∧
      manager = { directory := directory.path, options, context := w.scopes.length } ∧
      after = (w.addContext parent
        (LoadingContext.make label sources options.archiveErrors)).2 := by
  unfold load at loaded
  cases loading : loadSources w.files path options with
  | error e => rw [loading] at loaded; cases loaded
  | ok found =>
    obtain ⟨directory, sources⟩ := found
    rw [loading] at loaded
    cases loaded
    exact ⟨directory, sources, rfl, rfl, rfl⟩

namespace World

/-- All that can happen to a world: a fresh scope, lookups in one scope, one scope closed, other
files. -/
inductive Change (w : World) : Event → World → Prop where
  | add (e : Event) {scope : Scope} : scope.Fresh → Change w e (w.addScope scope).2
  | lookups (e : Event) {id : ScopeId} {after : World} : Lookups id w after → Change w e after
  | close (id : ScopeId) : Change w (.close id) (w.close id)
  | change (files : FileSystem) : Change w (.change files) { w with files }

theorem perform_change {w after : World} {e : Event} (happens : w.perform e = after) :
    Change w e after := by
  subst happens
  cases e with
  | addHost definitions => exact .add _ (.host definitions)
  | addContext parent label sources policy => exact .add _ (.context parent label sources policy)
  | load parent label path options =>
    simp only [perform]
    cases loading : PluginManager.load w label path options parent with
    | error e => exact .lookups _ (Relation.ReflTransGen.refl : Lookups 0 w w)
    | ok loaded =>
      obtain ⟨manager, after⟩ := loaded
      obtain ⟨_, sources, _, _, rfl⟩ := PluginManager.load_ok loading
      exact .add _ (.context parent label sources options.archiveErrors)
  | resolve id name => exact .lookups _ (resolve_lookups rfl)
  | directSupertype id handle => exact .lookups _ (directSupertype_lookups rfl)
  | directSubtypes id base => exact .lookups _ (directSubtypes_lookups rfl)
  | close id => exact .close id
  | change files => exact .change files

theorem run_keep {P : World → Prop} {w : World} {events : List Event}
    (step : ∀ w, ∀ e ∈ events, P w → P (w.perform e)) (holds : P w) : P (w.run events) := by
  induction events generalizing w with
  | nil => exact holds
  | cons e rest ih =>
    have head := step w e List.mem_cons_self holds
    exact ih (fun w e member => step w e (List.mem_cons_of_mem _ member)) head

theorem run_append (w : World) (first second : List Event) :
    w.run (first ++ second) = (w.run first).run second := by
  induction first generalizing w with
  | nil => rfl
  | cons e first ih => exact ih (w.perform e)

/-- An invariant: fresh scopes, lookups, and what is closed and changed in a run keep it. -/
theorem run_invariant {P : World → Prop} (files : FileSystem) (events : List Event)
    (empty : P (start files))
    (add : ∀ w scope, Scope.Fresh scope → P w → P (w.addScope scope).2)
    (lookup : ∀ w id name, P w → P (w.resolve id name).2)
    (close : ∀ w id, Event.close id ∈ events → P w → P (w.close id))
    (change : ∀ w files, Event.change files ∈ events → P w → P { w with files }) :
    P ((start files).run events) := by
  refine run_keep (fun w e member holds => ?_) empty
  generalize happens : w.perform e = after
  cases perform_change happens with
  | add _ fresh => exact add w _ fresh holds
  | lookups _ lookups => exact lookups.keep (fun w name => lookup w _ name) holds
  | close id => exact close w id member holds
  | change files => exact change w files member holds

/-! ### What never changes -/

theorem Lookups.blueprint {w after : World} {id : ScopeId} (lookups : Lookups id w after) :
    after.scopes.map Scope.blueprint = w.scopes.map Scope.blueprint := by
  apply lookups.keep (P := fun later =>
    later.scopes.map Scope.blueprint = w.scopes.map Scope.blueprint)
  · intro later name same
    exact (Scope.resolve_blueprint ..).trans same
  · rfl

/-- Scopes are only added, and each keeps what it is over. -/
theorem perform_blueprint (w : World) (e : Event) :
    ∃ newer, (w.perform e).scopes.map Scope.blueprint =
      newer ++ w.scopes.map Scope.blueprint := by
  generalize happens : w.perform e = after
  cases perform_change happens with
  | @add _ scope fresh => exact ⟨[scope.blueprint], rfl⟩
  | lookups _ lookups => exact ⟨[], lookups.blueprint⟩
  | close id => exact ⟨[], Scope.modify_blueprint ..⟩
  | change files => exact ⟨[], rfl⟩

theorem run_blueprint (w : World) (events : List Event) :
    ∃ newer, (w.run events).scopes.map Scope.blueprint =
      newer ++ w.scopes.map Scope.blueprint := by
  induction events generalizing w with
  | nil => exact ⟨[], rfl⟩
  | cons e rest ih =>
    obtain ⟨first, one⟩ := w.perform_blueprint e
    obtain ⟨later, all⟩ := ih (w.perform e)
    exact ⟨later ++ first, by rw [run, all, one, List.append_assoc]⟩

theorem length_le_of_blueprint {w after : World} {newer : List Blueprint}
    (same : after.scopes.map Scope.blueprint = newer ++ w.scopes.map Scope.blueprint) :
    w.scopes.length ≤ after.scopes.length := by
  have lengths := congrArg List.length same
  simp only [List.length_map, List.length_append] at lengths
  omega

theorem chain_of_blueprint {w after : World} {newer : List Blueprint} {id : ScopeId}
    (same : after.scopes.map Scope.blueprint = newer ++ w.scopes.map Scope.blueprint)
    (old : id < w.scopes.length) : after.chain id = w.chain id := by
  unfold chain Scope.chain
  rw [same, Blueprint.chain_append newer _ (by rwa [List.length_map])]

theorem chain_lookups {w after : World} {asker id : ScopeId} (lookups : Lookups asker w after) :
    after.chain id = w.chain id := by
  unfold chain Scope.chain
  rw [lookups.blueprint]

theorem chain_perform {w : World} {id : ScopeId} (old : id < w.scopes.length) (e : Event) :
    (w.perform e).chain id = w.chain id := by
  obtain ⟨_, same⟩ := w.perform_blueprint e
  exact chain_of_blueprint same old

theorem length_perform (w : World) (e : Event) :
    w.scopes.length ≤ (w.perform e).scopes.length := by
  obtain ⟨_, same⟩ := w.perform_blueprint e
  exact length_le_of_blueprint same

end World

/-! ### One archive at the root -/

/-- A stored archive of one type `A`, which extends `O`. -/
def archiveOfA : ByteArray :=
  ⟨#[80, 75, 3, 4, 20, 0, 0, 0, 0, 0, 0, 0, 33, 0, 52, 207, 80, 155, 32, 0, 0, 0, 32, 0, 0, 0, 7, 0,
    0, 0, 65, 46, 99, 108, 97, 115, 115, 202, 254, 186, 190, 0, 0, 0, 52, 0, 5, 1, 0, 1, 65, 7, 0,
    1, 1, 0, 1, 79, 7, 0, 3, 0, 33, 0, 2, 0, 4, 0, 0, 80, 75, 1, 2, 20, 3, 20, 0, 0, 0, 0, 0, 0, 0,
    33, 0, 52, 207, 80, 155, 32, 0, 0, 0, 32, 0, 0, 0, 7, 0, 0, 0, 0, 0, 0, 0, 0, 0, 0, 0, 128, 1,
    0, 0, 0, 0, 65, 46, 99, 108, 97, 115, 115, 80, 75, 5, 6, 0, 0, 0, 0, 1, 0, 1, 0, 53, 0, 0, 0,
    69, 0, 0, 0, 0, 0]⟩

def filesOfA : FileSystem := ⟨[(["a.jar"], .file archiveOfA)], []⟩

/-- A file right below the root, or none, under its absolute path. -/
theorem FileSystem.read_root (fs : FileSystem) {path name : String} (content : Option ByteArray)
    (valid : checked path = .ok ()) (way : steps path = [.stay, .into name])
    (absolute : Path.isAbsolute path = true) (short : ¬ name.utf8ByteSize > 255)
    (there : fs.node? [name] = content.map .file) :
    fs.read path = content.elim (.error .missing) .ok := by
  have root : origin path fs.start = [] := by rw [origin, if_pos absolute]
  cases content <;>
    simp [FileSystem.read, locate, find, walk, Bind.bind, Except.bind, valid, way, root, short,
      there]

theorem FileSystem.read_jar (fs : FileSystem) (content : Option ByteArray)
    (there : fs.node? ["a.jar"] = content.map .file) :
    fs.read "/a.jar" = content.elim (.error .missing) .ok :=
  fs.read_root content (by decide +kernel) (by rfl) (by decide +kernel) (by decide +kernel) there

theorem read_archiveOfA : filesOfA.read "/a.jar" = .ok archiveOfA :=
  FileSystem.read_jar filesOfA (some archiveOfA) (by simp [filesOfA, FileSystem.node?])

theorem Zip.Container.choose_data {data : ByteArray} {positions : List Nat}
    {kept : Option Zip.Fault} {container : Zip.Container}
    (opened : choose data positions kept = .ok container) : container.data = data := by
  induction positions generalizing kept with
  | nil => cases opened
  | cons position rest ih =>
    rw [choose] at opened
    split at opened
    · split at opened
      · cases opened
        rfl
      · exact ih opened
    · exact ih opened
    · exact ih opened

/-- An archive is known by the entries that its file opens with. -/
theorem Archive.open_of_entries {files : FileSystem} {location : String} {data : ByteArray}
    {entries : List Zip.Entry} (read : files.read location = .ok data)
    (listed : (Zip.Container.open? data).map Zip.Container.entries = .ok entries) :
    Archive.open? files location = .ok ⟨location, ⟨data, entries⟩⟩ := by
  unfold Archive.open?
  rw [read]
  dsimp only
  cases opened : Zip.Container.open? data with
  | error fault => rw [opened] at listed; cases listed
  | ok container =>
    rw [opened] at listed
    cases Zip.Container.choose_data opened
    cases listed
    rfl

/-- The one entry of the archive. -/
def entryOfA : Zip.Entry where
  rawName := [65, 46, 99, 108, 97, 115, 115]
  name := "A.class"
  comment := []
  encrypted := false
  strong := false
  method := 0
  crc := 0x9B50CF34
  compressedSize := 32
  size := 32
  headerOffset := 0

/-- The header of the type, which is all the entry holds. -/
def contentOfA : ByteArray := archiveOfA.extract 37 69

theorem entries_archiveOfA :
    (Zip.Container.open? archiveOfA).map Zip.Container.entries = .ok [entryOfA] := by
  decide +kernel

theorem open_archiveOfA : PluginSource.archive ⟨"/a.jar"⟩ filesOfA =
    .ok ⟨"/a.jar", ⟨archiveOfA, [entryOfA]⟩⟩ :=
  Archive.open_of_entries read_archiveOfA entries_archiveOfA

/-- Next to that archive there is none. -/
theorem open_missing_jar : PluginSource.archive ⟨"/b.jar"⟩ filesOfA =
    .error (.archiveRead "/b.jar" (.file .missing)) := by
  have absent : filesOfA.node? ["b.jar"] = (none : Option ByteArray).map .file := by
    simp [filesOfA, FileSystem.node?]
  have read : filesOfA.read "/b.jar" = .error .missing :=
    filesOfA.read_root none (by decide +kernel) (by rfl) (by decide +kernel) (by decide +kernel)
      absent
  rw [PluginSource.archive, Archive.open?, read]

theorem entryPath_A : TypeName.entryPath "A" = "A.class" := by decide +kernel

theorem readEntry_archiveOfA :
    Archive.readEntry ⟨"/a.jar", ⟨archiveOfA, [entryOfA]⟩⟩ "A.class" = .ok (some contentOfA) := by
  decide +kernel

theorem parse_contentOfA : ClassHeader.parse contentOfA.toList =
    .ok ⟨0, 52, ⟨0x21⟩, "A", some "O", []⟩ := by
  decide +kernel

theorem describe_contentOfA : describe "/a.jar" "A.class" "A" contentOfA =
    .ok ⟨"A", some "O", [], ⟨0x21⟩, .archive "/a.jar" "A.class"⟩ := by
  rw [describe, parse_contentOfA]
  rfl

end PluginLoader
