import PluginLoader.Proofs.Resolution.SourceOrder
import PluginLoader.Proofs.FileSystem.Names

/-! Opening every archive while loading against opening each when a search reaches it. Verification
leaves out what would be passed over later, or fails where a search could; the answers of a manager
that loads are the same with it and without. -/
namespace PluginLoader

namespace PluginSource

def opens (files : FileSystem) (source : PluginSource) : Bool := (source.archive files).toBool

theorem archive_of_not_opens {files : FileSystem} {source : PluginSource}
    (closed : source.opens files = false) :
    ∃ fault, source.archive files = .error (.archiveRead source.location fault) := by
  cases opening : source.archive files with
  | ok archive => simp [opens, opening, Except.toBool] at closed
  | error e =>
    obtain ⟨fault, rfl⟩ := Archive.open_fault opening
    exact ⟨fault, rfl⟩

end PluginSource

namespace PluginManager
variable {files : FileSystem} {policy : ArchivePolicy} {sources kept : List PluginSource}

/-! ### What verification keeps -/

theorem verify_cons (files : FileSystem) (policy : ArchivePolicy) (source : PluginSource)
    (sources : List PluginSource) :
    verify files policy (source :: sources) =
      match source.archive files with
      | .ok _ => (verify files policy sources).map (source :: ·)
      | .error e =>
        match policy with
        | .skip => verify files policy sources
        | .abort => .error e := by
  cases opening : source.archive files <;> cases policy <;> simp [verify, opening]

theorem verify_skip (files : FileSystem) (sources : List PluginSource) :
    verify files .skip sources = .ok (sources.filter (PluginSource.opens files)) := by
  induction sources with
  | nil => rfl
  | cons source sources ih =>
    rw [verify_cons, ih, List.filter_cons, PluginSource.opens]
    cases source.archive files <;> rfl

/-- The first archive that does not open is the failure of all. -/
theorem verify_abort (files : FileSystem) (sources : List PluginSource) :
    verify files .abort sources =
      match sources.find? fun source => !source.opens files with
      | none => .ok sources
      | some source => (source.archive files).map fun _ => sources := by
  induction sources with
  | nil => rfl
  | cons source sources ih =>
    rw [verify_cons, ih, List.find?_cons, PluginSource.opens]
    cases opening : source.archive files with
    | error e => simp [Except.toBool, opening, Except.map]
    | ok archive =>
      simp only [Except.toBool]
      cases sources.find? fun source => !source.opens files with
      | none => rfl
      | some other => cases failing : other.archive files <;> simp [failing, Except.map]

theorem verify_abort_iff : (∃ kept, verify files .abort sources = .ok kept) ↔
    ∀ source ∈ sources, source.opens files = true := by
  rw [verify_abort]
  cases searching : sources.find? fun source => !source.opens files with
  | none =>
    have all := List.find?_eq_none.mp searching
    simpa using all
  | some source =>
    have closed : source.opens files = false := by simpa using List.find?_some searching
    have member := List.mem_of_find?_eq_some searching
    obtain ⟨fault, opening⟩ := PluginSource.archive_of_not_opens closed
    refine iff_of_false (by simp [opening, Except.map]) fun all => ?_
    cases closed.symm.trans (all source member)

theorem verify_sweep (verified : verify files policy sources = .ok kept) (name : String) :
    Blueprint.sweep files policy name kept = Blueprint.sweep files policy name sources := by
  induction sources generalizing kept with
  | nil => cases verified; rfl
  | cons source sources ih =>
    rw [verify_cons] at verified
    cases opening : source.archive files with
    | ok archive =>
      rw [opening] at verified
      obtain ⟨rest, verifiedRest, rfl⟩ := map_eq_ok.mp verified
      rw [Blueprint.sweep_cons, Blueprint.sweep_cons, opening, ih verifiedRest]
    | error e =>
      rw [opening] at verified
      rw [Blueprint.sweep_cons files policy name source sources]
      cases policy with
      | abort => cases verified
      | skip =>
        simp only [opening]
        exact ih verified

theorem verify_typesIn (verified : verify files policy sources = .ok kept)
    (find : String → Except LoadError TypeDescriptor) :
    typesIn files find policy kept = typesIn files find policy sources := by
  induction sources generalizing kept with
  | nil => cases verified; rfl
  | cons source sources ih =>
    rw [verify_cons] at verified
    cases opening : source.archive files with
    | ok archive =>
      rw [opening] at verified
      obtain ⟨rest, verifiedRest, rfl⟩ := map_eq_ok.mp verified
      rw [typesIn, typesIn, ih verifiedRest]
    | error e =>
      rw [opening] at verified
      cases policy with
      | abort => cases verified
      | skip =>
        have listing : source.listing files = [.error e] := by
          rw [PluginSource.listing, opening]
        rw [ih verified, typesIn, listing, typesAmong]
        cases typesIn files find .skip sources <;> rfl

/-! ### Loading -/

/-- What a manager has been loaded from. -/
def sourcesIn (w : World) (manager : PluginManager) : List PluginSource :=
  match w.context? manager.context with
  | some own => own.sources
  | none => []

theorem load_eq (w : World) (label path : String) (options : LoaderOptions) (parent : ScopeId) :
    load w label path options parent =
      (loadSources w.files path options).map fun (directory, sources) =>
        (⟨directory.path, options, w.scopes.length⟩,
          (w.addContext parent (LoadingContext.make label sources options.archiveErrors)).2) := by
  rw [load]
  cases loadSources w.files path options <;> rfl

theorem loadSources_plain {path : String} {directory : PluginDirectory} :
    loadSources files path ⟨policy, false⟩ = .ok (directory, sources) ↔
      PluginDirectory.open? files path = .ok directory ∧ directory.scan files = .ok sources := by
  simp only [loadSources, Bind.bind, Except.bind, pure, Except.pure]
  cases PluginDirectory.open? files path with
  | error e => simp
  | ok found =>
    dsimp only
    cases scanning : found.scan files with
    | error e =>
      simp only [reduceCtorEq, false_iff, Except.ok.injEq]
      rintro ⟨rfl, other⟩
      cases scanning.symm.trans other
    | ok scanned =>
      simp only [Bool.false_eq_true, if_false, Except.ok.injEq, Prod.mk.injEq]
      refine and_congr_right ?_
      rintro rfl
      rw [scanning, Except.ok.injEq]

theorem loadSources_verified (files : FileSystem) (path : String) (policy : ArchivePolicy) :
    loadSources files path ⟨policy, true⟩ =
      (loadSources files path ⟨policy, false⟩).bind fun (directory, sources) =>
        (verify files policy sources).map fun kept => (directory, kept) := by
  simp only [loadSources, Bind.bind, Except.bind, pure, Except.pure]
  cases PluginDirectory.open? files path with
  | error e => rfl
  | ok directory =>
    dsimp only
    cases directory.scan files with
    | error e => rfl
    | ok scanned =>
      simp only [if_true, Bool.false_eq_true, if_false]
      cases verify files policy scanned <;> rfl

theorem sourcesIn_addContext (w : World) (parent : ScopeId) (own : LoadingContext)
    (directory : String) (options : LoaderOptions) :
    sourcesIn (w.addContext parent own).2 ⟨directory, options, w.scopes.length⟩ = own.sources := by
  rw [sourcesIn, World.context?, World.addContext, World.addScope, Scope.get_top]

/-- The archives of a directory, in the order of its listing. -/
def Scanned (files : FileSystem) (path : String) (scanned : List PluginSource) : Prop :=
  ∃ directory, PluginDirectory.open? files path = .ok directory ∧ directory.scan files = .ok scanned

/-- Loading a directory with verification, against loading it without. -/
structure LoadsVerified (w : World) (label path : String) (parent : ScopeId)
    (policy : ArchivePolicy) : Prop where
  lazily : (∃ loaded, load w label path ⟨policy, false⟩ parent = .ok loaded) ↔
    ∃ scanned, Scanned w.files path scanned
  failed : ∀ e, load w label path ⟨policy, false⟩ parent = .error e →
    load w label path ⟨policy, true⟩ parent = .error e
  skip : policy = .skip → ∀ scanned, Scanned w.files path scanned →
    ∃ manager after, load w label path ⟨policy, true⟩ parent = .ok (manager, after) ∧
      manager.sourcesIn after = scanned.filter (PluginSource.opens w.files)
  abort : policy = .abort → ∀ scanned, Scanned w.files path scanned →
    ((∃ loaded, load w label path ⟨policy, true⟩ parent = .ok loaded) ↔
      ∀ source ∈ scanned, source.opens w.files = true)
  first : policy = .abort → ∀ scanned source, Scanned w.files path scanned →
    (scanned.find? fun source => !source.opens w.files) = some source →
      ∃ fault, source.archive w.files = .error (.archiveRead source.location fault) ∧
        load w label path ⟨policy, true⟩ parent = .error (.archiveRead source.location fault)

theorem load_verified {path : String} {directory : PluginDirectory} {scanned : List PluginSource}
    (w : World) (label : String) (parent : ScopeId)
    (found : loadSources w.files path ⟨policy, false⟩ = .ok (directory, scanned)) :
    load w label path ⟨policy, true⟩ parent = (verify w.files policy scanned).map fun kept =>
      (⟨directory.path, ⟨policy, true⟩, w.scopes.length⟩,
        (w.addContext parent (LoadingContext.make label kept policy)).2) := by
  rw [load_eq, loadSources_verified, found]
  simp only [Except.bind]
  cases verify w.files policy scanned <;> rfl

theorem loadsVerified (w : World) (label path : String) (parent : ScopeId)
    (policy : ArchivePolicy) : LoadsVerified w label path parent policy where
  lazily := by
    rw [load_eq]
    constructor
    · rintro ⟨_, loaded⟩
      obtain ⟨⟨directory, scanned⟩, found, _⟩ := map_eq_ok.mp loaded
      exact ⟨scanned, directory, loadSources_plain.mp found⟩
    · rintro ⟨scanned, directory, found⟩
      rw [loadSources_plain.mpr found]
      exact ⟨_, rfl⟩
  failed e failed := by
    rw [load_eq] at failed ⊢
    rw [loadSources_verified]
    cases found : loadSources w.files path ⟨policy, false⟩ with
    | ok found => rw [found] at failed; cases failed
    | error fault =>
      rw [found] at failed
      cases failed
      rfl
  skip := by
    rintro rfl scanned ⟨directory, found⟩
    rw [load_verified w label parent (loadSources_plain.mpr found), verify_skip]
    exact ⟨_, _, rfl, sourcesIn_addContext ..⟩
  abort := by
    rintro rfl scanned ⟨directory, found⟩
    rw [load_verified w label parent (loadSources_plain.mpr found), ← verify_abort_iff]
    cases verify w.files .abort scanned <;> simp [Except.map]
  first := by
    rintro rfl scanned source ⟨directory, found⟩ searching
    have closed : source.opens w.files = false := by simpa using List.find?_some searching
    obtain ⟨fault, opening⟩ := PluginSource.archive_of_not_opens closed
    refine ⟨fault, opening, ?_⟩
    rw [load_verified w label parent (loadSources_plain.mpr found), verify_abort, searching]
    simp [opening, Except.map]

/-- In the run a manager was loaded. -/
def Loaded (files : FileSystem) (events : List Event) (parent : ScopeId) (path : String)
    (options : LoaderOptions) (manager : PluginManager) : Prop :=
  ∃ before label rest after, events = before ++ .load parent label path options :: rest ∧
    load ((World.start files).run before) label path options parent = .ok (manager, after)

/-- A manager that was loaded stands over its parent on what it was loaded from. -/
theorem Loaded.stands {events : List Event} {parent : ScopeId} {path : String}
    {options : LoaderOptions} {manager : PluginManager}
    (loaded : Loaded files events parent path options manager)
    (unchanged : ∀ other, Event.change other ∉ events) (below : parent < manager.context)
    (spared : ∀ target ∈ ((World.start files).run events).chain manager.context,
      Event.close target ∉ events) :
    ∃ own directory, World.Stands files events parent manager.context own ∧
      own.policy = options.archiveErrors ∧
      loadSources files path options = .ok (directory, own.sources) := by
  obtain ⟨before, label, rest, after, rfl, loading⟩ := loaded
  have same : ((World.start files).run before).files = files :=
    (World.faithful_run files before fun other member =>
      unchanged other (List.mem_append_left _ member)).1
  obtain ⟨directory, sources, found, rfl, rfl⟩ := load_ok loading
  have at_load : Scope.get? (((World.start files).run before).perform
      (.load parent label path options)).scopes ((World.start files).run before).scopes.length =
        some (.context parent (LoadingContext.make label sources options.archiveErrors)) := by
    rw [World.perform, loading]
    exact Scope.get_top ..
  obtain ⟨now, at_now, kept⟩ := World.get_run at_load rest
  cases now with
  | host types => cases kept
  | context above own =>
    obtain ⟨rfl, sources_eq, policy_eq⟩ := Blueprint.context.inj kept
    refine ⟨own, directory, ⟨unchanged, ?_, below, spared⟩, policy_eq, ?_⟩
    · rw [World.run_append]
      exact at_now
    · rw [same] at found
      rw [found, sources_eq]
      rfl

/-- Two managers with the same answers: the same descriptions and the same failures. -/
structure Alike (files : FileSystem) (events : List Event) (one two : PluginManager) : Prop where
  resolve : ∀ name,
    (((World.start files).run events).resolve one.context name).1.map TypeHandle.descriptor =
      (((World.start files).run events).resolve two.context name).1.map TypeHandle.descriptor
  directSupertype : ∀ a b, World.Corresponding files events one.context two.context a b →
    (((World.start files).run events).directSupertype one.context a).1.map
        (Option.map TypeHandle.descriptor) =
      (((World.start files).run events).directSupertype two.context b).1.map
        (Option.map TypeHandle.descriptor)
  directSubtypes : ∀ a b, World.Corresponding files events one.context two.context a b →
    (((World.start files).run events).directSubtypes one.context a).1.map
        (List.map TypeHandle.descriptor) =
      (((World.start files).run events).directSubtypes two.context b).1.map
        (List.map TypeHandle.descriptor)

theorem alike_of_verify {events : List Event} {parent : ScopeId} {one two : PluginManager}
    {own twin : LoadingContext} (first : World.Stands files events parent one.context own)
    (second : World.Stands files events parent two.context twin)
    (policies : own.policy = twin.policy)
    (verified : verify files own.policy own.sources = .ok twin.sources) :
    Alike files events one two := by
  have same : Scope.lookup files ((World.start files).run events).scopes one.context =
      Scope.lookup files ((World.start files).run events).scopes two.context :=
    first.lookup_eq second fun name => policies ▸ (verify_sweep verified name).symm
  refine ⟨fun name => ?_, fun a b corresponding => ?_, fun a b corresponding => ?_⟩
  · rw [first.calm.resolve_eq, second.calm.resolve_eq, same]
  · exact corresponding.directSupertype_eq first second same
  · refine corresponding.directSubtypes_eq first second same fun find => ?_
    exact policies ▸ (verify_typesIn verified find).symm

/-- Verification agrees with opening lazily. Loading with it fails as loading without does. Where
failures are passed over it succeeds otherwise, with the archives of the directory that open, in the
order of the listing; where they are not, exactly if all of them open, and else with the failure of
the first that does not. In any run that leaves the files alone, let a manager be loaded with and
one without verification on the same parent, and none of the contexts be closed that the two are
or inherit from. Then they give the same answers. -/
theorem verification_agrees (path : String) (parent : ScopeId) (policy : ArchivePolicy) :
    (∀ w label, LoadsVerified w label path parent policy) ∧
    ∀ files events lazily verified, (∀ other, Event.change other ∉ events) →
      Loaded files events parent path ⟨policy, false⟩ lazily →
      Loaded files events parent path ⟨policy, true⟩ verified →
      parent < lazily.context → parent < verified.context →
      (∀ target ∈ ((World.start files).run events).chain lazily.context,
        Event.close target ∉ events) →
      (∀ target ∈ ((World.start files).run events).chain verified.context,
        Event.close target ∉ events) →
      Alike files events lazily verified := by
  refine ⟨fun w label => loadsVerified w label path parent policy, ?_⟩
  intro files events lazily verified unchanged loaded loadedVerified below belowVerified spared
    sparedVerified
  obtain ⟨own, directory, first, policy_own, found⟩ := loaded.stands unchanged below spared
  obtain ⟨twin, _, second, policy_twin, kept⟩ :=
    loadedVerified.stands unchanged belowVerified sparedVerified
  rw [loadSources_verified, found] at kept
  obtain ⟨_, verified, same⟩ := map_eq_ok.mp kept
  cases same
  refine alike_of_verify first second (policy_own.trans policy_twin.symm) ?_
  rw [policy_own]
  exact verified

end PluginManager

/-! ### A directory with an archive and a file that is none -/

namespace PluginManager

theorem loadSources_rubbish (policy : ArchivePolicy) :
    loadSources filesWithRubbish "/" ⟨policy, false⟩ =
      .ok (⟨"/"⟩, [⟨"/a.jar"⟩, ⟨"/c.jar"⟩]) := by
  rw [loadSources_plain]
  constructor
  · simp only [PluginDirectory.open?, FileSystem.isFolder, FileSystem.canonical,
      FileSystem.locate_root]
    rfl
  · have children : filesWithRubbish.children [] = ["a.jar", "c.jar"] := by rfl
    simp only [PluginDirectory.scan, FileSystem.list, FileSystem.locate_root, Bind.bind,
      Except.bind, children]
    decide +kernel

def loadedTwice : List Event :=
  [.addHost [("O", none, ⟨0x21⟩)], .load 0 "lazy" "/" ⟨.skip, false⟩,
    .load 0 "verified" "/" ⟨.skip, true⟩]

theorem rubbish_left_out :
    let before := (World.start filesWithRubbish).run (loadedTwice.take 2)
    ∃ manager after, load before "verified" "/" ⟨.skip, true⟩ 0 = .ok (manager, after) ∧
      manager.sourcesIn after = [⟨"/a.jar"⟩] ∧
      Alike filesWithRubbish loadedTwice ⟨"/", ⟨.skip, false⟩, 1⟩ manager := by
  intro before
  let host := (World.start filesWithRubbish).run (loadedTwice.take 1)
  let own := LoadingContext.make "lazy" [⟨"/a.jar"⟩, ⟨"/c.jar"⟩] .skip
  have first : load host "lazy" "/" ⟨.skip, false⟩ 0 =
      .ok (⟨"/", ⟨.skip, false⟩, 1⟩, (host.addContext 0 own).2) := by
    rw [load_eq, show host.files = filesWithRubbish from rfl, loadSources_rubbish]
    rfl
  have second : before = (host.addContext 0 own).2 := by
    change host.perform (.load 0 "lazy" "/" ⟨.skip, false⟩) = _
    rw [World.perform, first]
  obtain ⟨construction, answers⟩ := verification_agrees "/" 0 .skip
  have scanned : Scanned before.files "/" [⟨"/a.jar"⟩, ⟨"/c.jar"⟩] := by
    rw [second]
    exact ⟨_, loadSources_plain.mp (loadSources_rubbish .skip)⟩
  obtain ⟨manager, after, loading, sources⟩ := (construction before "verified").skip rfl _ scanned
  obtain ⟨opens, fails⟩ := open_rubbish
  have at_top : 0 < manager.context := by
    obtain ⟨_, _, _, rfl, _⟩ := load_ok loading
    rw [second]
    exact Nat.succ_pos _
  refine ⟨manager, after, loading, ?_, ?_⟩
  · rw [sources, second]
    change List.filter (PluginSource.opens filesWithRubbish) _ = _
    simp [PluginSource.opens, opens, fails, Except.toBool]
  · exact answers filesWithRubbish loadedTwice _ manager (by simp [loadedTwice])
      ⟨[_], "lazy", [_], _, rfl, first⟩ ⟨[_, _], "verified", [], after, rfl, loading⟩
      (Nat.succ_pos 0) at_top (by simp [loadedTwice]) (by simp [loadedTwice])

end PluginManager
end PluginLoader
