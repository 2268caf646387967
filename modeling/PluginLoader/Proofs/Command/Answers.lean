import PluginLoader.Command
import PluginLoader.Proofs.Resolution.Failures

/-! What a request comes to, said by the library alone: its configuration, its manager, and the
queries on that in the order in which they are made. A run of the request ends as what it comes
to. -/
namespace PluginLoader

/-- A result as the library gives it. -/
inductive CommandResult where
  | name (text : String)
  | type (handle : TypeHandle)

namespace Request
variable {r : Request} {files : FileSystem} {home : String} {c : Configuration}

/-- The configuration of a request: that of the file it names, else of the default file. -/
inductive Configured (r : Request) (files : FileSystem) (home : String) :
    Except ConfigurationFault Configuration → Prop where
  | named {path : String} : r.options.config = some path →
      Configured r files home (Configuration.load files path)
  | default : r.options.config = none →
      Configured r files home (Configuration.loadDefault files home)

/-- The manager of a directory, over the host of a configuration. -/
def managerOf (files : FileSystem) (c : Configuration) (directory : String) :
    Except LoadError (PluginManager × World) :=
  PluginManager.load (World.addHost { files, scopes := [] } c.hostTypes).2 "plugins" directory
    c.options (World.addHost { files, scopes := [] } c.hostTypes).1

/-- The manager for a request: that of the directory it gives, else of the configured one. -/
inductive Loads (r : Request) (files : FileSystem) (c : Configuration) :
    String → Except LoadError (PluginManager × World) → Prop where
  | given {directory : String} : r.options.directory = some directory →
      Loads r files c directory (managerOf files c directory)
  | configured : r.options.directory = none →
      Loads r files c c.directory (managerOf files c c.directory)

/-- A query stops a run: it fails, or the process ends in it. -/
inductive Stops {α : Type} : Ending (Except LoadError α × World) → CommandFault → Prop where
  | failed (e : LoadError) (world : World) : Stops (.answer (.error e, world)) (.query e)
  | crashed : Stops .crash .crash

/-- What the library gives under a configuration: all results in the order in which it does, or what
it stops at. -/
inductive Gives (r : Request) (files : FileSystem) (c : Configuration) :
    Except CommandFault (List CommandResult) → Prop where
  | unopened {path : String} {e : LoadError} : r.query = .entries path →
      Archive.open? files path = .error e → Gives r files c (.error (.query e))
  | enumerated {path : String} {archive : Archive} {names : List String} :
      r.query = .entries path → Archive.open? files path = .ok archive →
      archive.items = names.map .ok → Gives r files c (.ok (names.map .name))
  | brokenOff {path : String} {archive : Archive} {names : List String} {e : LoadError}
      {rest : List (Except LoadError String)} : r.query = .entries path →
      Archive.open? files path = .ok archive → archive.items = names.map .ok ++ .error e :: rest →
      Gives r files c (.error (.query e))
  | unloaded {directory : String} {e : LoadError} : (∀ path, r.query ≠ .entries path) →
      Loads r files c directory (.error e) → Gives r files c (.error (.loading directory e))
  | listed {directory : String} {m : PluginManager} {world : World} {context : LoadingContext} :
      r.query = .list → Loads r files c directory (.ok (m, world)) →
      world.context? m.context = some context →
      Gives r files c (.ok (context.sources.map fun source => .name source.location))
  | resolved {directory name : String} {m : PluginManager} {world after : World}
      {handle : TypeHandle} : r.query = .resolve name →
      Loads r files c directory (.ok (m, world)) →
      world.attempt m.context name = .answer (.ok handle, after) →
      Gives r files c (.ok [.type handle])
  | unresolved {directory name : String} {m : PluginManager} {world : World}
      {fault : CommandFault} : r.query = .resolve name ∨ r.query = .subtypes name →
      Loads r files c directory (.ok (m, world)) →
      Stops (world.attempt m.context name) fault → Gives r files c (.error fault)
  | related {directory base : String} {m : PluginManager} {world middle after : World}
      {handle : TypeHandle} {handles : List TypeHandle} : r.query = .subtypes base →
      Loads r files c directory (.ok (m, world)) →
      world.attempt m.context base = .answer (.ok handle, middle) →
      middle.attemptSubtypes m.context handle = .answer (.ok handles, after) →
      Gives r files c (.ok (handles.map .type))
  | unrelated {directory base : String} {m : PluginManager} {world middle : World}
      {handle : TypeHandle} {fault : CommandFault} : r.query = .subtypes base →
      Loads r files c directory (.ok (m, world)) →
      world.attempt m.context base = .answer (.ok handle, middle) →
      Stops (middle.attemptSubtypes m.context handle) fault → Gives r files c (.error fault)

/-- What a request comes to: nothing but its fault if its configuration cannot be read, else what
the library gives under it. -/
inductive ComesTo (r : Request) (files : FileSystem) (home : String) :
    Except CommandFault (List CommandResult) → Prop where
  | misconfigured {fault : ConfigurationFault} : r.Configured files home (.error fault) →
      ComesTo r files home (.error (.configuration fault))
  | configured {c : Configuration} {result : Except CommandFault (List CommandResult)} :
      r.Configured files home (.ok c) → r.Gives files c result → ComesTo r files home result

end Request

/-- A report holds results, in order. -/
inductive Report.Holds : List CommandResult → Report → Prop where
  | names (texts : List String) : Holds (texts.map .name) (.names texts)
  | types (handles : List TypeHandle) :
      Holds (handles.map .type) (.types (handles.map TypeSummary.ofHandle))

namespace Request
variable {r : Request} {files : FileSystem} {home directory : String} {c : Configuration}
  {result : Except CommandFault (List CommandResult)}

/-- A run ends as what a request comes to. -/
inductive Tells : Except CommandFault (List CommandResult) → Except CommandFault Report → Prop where
  | results {results : List CommandResult} {report : Report} : Report.Holds results report →
      Tells (.ok results) (.ok report)
  | fault (fault : CommandFault) : Tells (.error fault) (.error fault)

theorem configuration_of_configured {found : Except ConfigurationFault Configuration}
    (configured : r.Configured files home found) :
    r.configuration files home = found.mapError .configuration := by
  unfold configuration
  cases configured with
  | named given => rw [given]
  | default none => rw [none]

theorem load_of_loads {found : Except LoadError (PluginManager × World)}
    (loads : r.Loads files c directory found) :
    r.load files c = found.mapError (.loading directory) := by
  unfold load Request.directory
  cases loads with
  | given given =>
    rw [given]
    rfl
  | configured none =>
    rw [none]
    rfl

/-- A manager that was loaded has its context. -/
theorem context_of_loads {m : PluginManager} {world : World}
    (loads : r.Loads files c directory (.ok (m, world))) :
    ∃ context, world.context? m.context = some context := by
  have loaded : ∃ path, managerOf files c path = .ok (m, world) := by
    revert loads
    generalize Except.ok (m, world) = found
    rintro (_ | _)
    · exact ⟨directory, rfl⟩
    · exact ⟨c.directory, rfl⟩
  obtain ⟨_, loaded⟩ := loaded
  obtain ⟨_, sources, _, rfl, rfl⟩ := PluginManager.load_ok loaded
  exact ⟨_, World.context_at (show _ = [] ++ _ :: _ from rfl)⟩

theorem outcome_of_stops {α : Type} {ending : Ending (Except LoadError α × World)}
    {fault : CommandFault} (stops : Stops ending fault) : outcome ending = .error fault := by
  cases stops <;> rfl

theorem stops_of_failed {α : Type} {ending : Ending (Except LoadError α × World)} {e : LoadError}
    {world : World} (failed : ending = .answer (.error e, world)) : Stops ending (.query e) :=
  failed ▸ .failed e world

theorem stops_of_crashed {α : Type} {ending : Ending (Except LoadError α × World)}
    (crashed : ending = .crash) : Stops ending .crash :=
  crashed ▸ .crashed

theorem typeNames_of_names {archive : Archive} {names : List String}
    (items : archive.items = names.map .ok) : archive.typeNames = .ok names := by
  rw [Archive.typeNames, items]
  clear items
  induction names with
  | nil => rfl
  | cons name names ih =>
    rw [List.map_cons, List.mapM_cons, ih]
    rfl

theorem typeNames_of_error {archive : Archive} {names : List String} {e : LoadError}
    {rest : List (Except LoadError String)}
    (items : archive.items = names.map .ok ++ .error e :: rest) : archive.typeNames = .error e := by
  rw [Archive.typeNames, items]
  clear items
  induction names with
  | nil => rfl
  | cons name names ih =>
    rw [List.map_cons, List.cons_append, List.mapM_cons, ih]
    rfl

theorem holds_sources (context : LoadingContext) : Report.Holds
    (context.sources.map fun source => .name source.location)
    (.names (context.sources.map (·.location))) := by
  have same : context.sources.map (fun source => CommandResult.name source.location) =
      (context.sources.map (·.location)).map .name := List.map_map.symm
  rw [same]
  exact .names _

section
variable {α β ε : Type} {x : Except ε α}

theorem bind_ok {a : α} (found : x = .ok a) (f : α → Except ε β) : (x >>= f) = f a := by
  rw [found]
  rfl

theorem bind_error {e : ε} (failed : x = .error e) (f : α → Except ε β) :
    (x >>= f) = .error e := by
  rw [failed]
  rfl

end

/-- The command answers what the library gives. -/
theorem answer_of_gives (gives : r.Gives files c result) : Tells result (r.answer files c) := by
  unfold answer
  cases gives with
  | unopened query opened =>
    rw [query]
    dsimp only
    rw [bind_error (congrArg (Except.mapError _) opened)]
    exact .fault _
  | enumerated query opened items =>
    have names := typeNames_of_names items
    rw [query]
    dsimp only
    rw [bind_ok (congrArg (Except.mapError _) opened),
      bind_ok (congrArg (Except.mapError _) names)]
    exact .results (.names _)
  | brokenOff query opened items =>
    have failed := typeNames_of_error items
    rw [query]
    dsimp only
    rw [bind_ok (congrArg (Except.mapError _) opened),
      bind_error (congrArg (Except.mapError _) failed)]
    exact .fault _
  | unloaded other loads =>
    split
    · exact absurd ‹_› (other _)
    all_goals
      rw [bind_error (load_of_loads loads)]
      exact .fault _
  | listed query loads there =>
    rw [query]
    dsimp only
    rw [bind_ok (load_of_loads loads)]
    dsimp only
    rw [sources, there]
    exact .results (holds_sources _)
  | resolved query loads found =>
    rw [query]
    dsimp only
    rw [bind_ok (load_of_loads loads)]
    dsimp only
    rw [bind_ok (congrArg outcome found)]
    exact .results (.types [_])
  | unresolved query loads stops =>
    rcases query with query | query <;> rw [query] <;> dsimp only <;>
      rw [bind_ok (load_of_loads loads)] <;> dsimp only <;>
      rw [bind_error (outcome_of_stops stops)] <;> exact .fault _
  | related query loads found asked =>
    rw [query]
    dsimp only
    rw [bind_ok (load_of_loads loads)]
    dsimp only
    rw [bind_ok (congrArg outcome found)]
    dsimp only
    rw [bind_ok (congrArg outcome asked)]
    exact .results (.types _)
  | unrelated query loads found stops =>
    rw [query]
    dsimp only
    rw [bind_ok (load_of_loads loads)]
    dsimp only
    rw [bind_ok (congrArg outcome found)]
    dsimp only
    rw [bind_error (outcome_of_stops stops)]
    exact .fault _

/-- The library gives something, or stops. -/
theorem exists_gives (r : Request) (files : FileSystem) (c : Configuration) :
    ∃ result, r.Gives files c result := by
  have loading : ∃ directory found, r.Loads files c directory found := by
    cases given : r.options.directory with
    | some directory => exact ⟨_, _, .given given⟩
    | none => exact ⟨_, _, .configured given⟩
  obtain ⟨directory, found, loads⟩ := loading
  cases query : r.query with
  | entries path =>
    cases opened : Archive.open? files path with
    | error e => exact ⟨_, .unopened query opened⟩
    | ok archive =>
      obtain ⟨tail, items, rfl | ⟨e, rest, rfl⟩⟩ := listedNames_split archive.items
      · rw [List.append_nil] at items
        exact ⟨_, .enumerated query opened items⟩
      · exact ⟨_, .brokenOff query opened items⟩
  | list =>
    rcases found with e | ⟨m, world⟩
    · exact ⟨_, .unloaded (by simp [query]) loads⟩
    · obtain ⟨context, there⟩ := context_of_loads loads
      exact ⟨_, .listed query loads there⟩
  | resolve name =>
    rcases found with e | ⟨m, world⟩
    · exact ⟨_, .unloaded (by simp [query]) loads⟩
    · rcases asked : world.attempt m.context name with ⟨e | handle, after⟩ | _
      · exact ⟨_, .unresolved (.inl query) loads (stops_of_failed asked)⟩
      · exact ⟨_, .resolved query loads asked⟩
      · exact ⟨_, .unresolved (.inl query) loads (stops_of_crashed asked)⟩
  | subtypes base =>
    rcases found with e | ⟨m, world⟩
    · exact ⟨_, .unloaded (by simp [query]) loads⟩
    · rcases asked : world.attempt m.context base with ⟨e | handle, middle⟩ | _
      · exact ⟨_, .unresolved (.inr query) loads (stops_of_failed asked)⟩
      · rcases related : middle.attemptSubtypes m.context handle with ⟨e | handles, after⟩ | _
        · exact ⟨_, .unrelated query loads asked (stops_of_failed related)⟩
        · exact ⟨_, .related query loads asked related⟩
        · exact ⟨_, .unrelated query loads asked (stops_of_crashed related)⟩
      · exact ⟨_, .unresolved (.inr query) loads (stops_of_crashed asked)⟩

/-- A run ends as what its request comes to. -/
theorem run_of_comesTo (comes : r.ComesTo files home result) :
    Tells result (r.run files home) := by
  unfold Request.run
  cases comes with
  | misconfigured configured =>
    rw [bind_error (configuration_of_configured configured)]
    exact .fault _
  | configured configured gives =>
    rw [bind_ok (configuration_of_configured configured)]
    exact answer_of_gives gives

theorem exists_comesTo (r : Request) (files : FileSystem) (home : String) :
    ∃ result, r.ComesTo files home result := by
  have configuring : ∃ found, r.Configured files home found := by
    cases given : r.options.config with
    | some path => exact ⟨_, .named given⟩
    | none => exact ⟨_, .default given⟩
  obtain ⟨fault | c, configured⟩ := configuring
  · exact ⟨_, .misconfigured configured⟩
  · obtain ⟨result, gives⟩ := r.exists_gives files c
    exact ⟨result, .configured configured gives⟩

end Request

end PluginLoader
