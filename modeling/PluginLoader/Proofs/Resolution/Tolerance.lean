import PluginLoader.Proofs.Resolution.Subtypes
import PluginLoader.Proofs.TypeName

/-! What unreadable archives cost a subtype query that passes them over. Over a host, a type is
found as long as one entry of it can be read, whatever else cannot be opened, enumerated or read.
So a query succeeds while all listed types and what they extend are still there. -/
namespace PluginLoader

/-- What can be read at a path of a source: nothing if its archive does not open, does not have the
entry or cannot read it. -/
def PluginSource.contentAt (files : FileSystem) (path : String) (source : PluginSource) :
    Option ByteArray :=
  match source.archive files with
  | .error _ => none
  | .ok archive =>
    match archive.readEntry path with
    | .error _ => none
    | .ok content => content

/-- The content of a type entry that can be read, by the name that its path gives the type. -/
def Readable (files : FileSystem) (sources : List PluginSource) (name : String)
    (content : ByteArray) : Prop :=
  ∃ path, TypeName.ofEntryPath? path = some name ∧
    ∃ source ∈ sources, source.contentAt files path = some content

/-- A type that is still there: the host has it, or an entry that can be read. -/
def Available (files : FileSystem) (types : HostTypes) (sources : List PluginSource)
    (name : String) : Prop :=
  types.contains name = true ∨ ∃ content, Readable files sources name content

/-- Archives are sound as far as they can be read: no path of an entry has a dot of its own, each
type entry defines the type that its path says, and what that type extends is still there. -/
structure Sound (files : FileSystem) (types : HostTypes) (sources : List PluginSource) : Prop where
  undotted : ∀ source ∈ sources, ∀ archive, source.archive files = .ok archive →
    ∀ entry ∈ archive.container.entries, TypeName.Undotted entry.name
  defined : ∀ name content, Readable files sources name content →
    ∃ header, ClassHeader.parse content.toList = .ok header ∧ header.name = name
  supertypes : ∀ name content header superName, Readable files sources name content →
    ClassHeader.parse content.toList = .ok header → header.superName = some superName →
      Available files types sources superName

/-- Nothing that a query relates is lost: each listed type is still there, and so is what it extends
where it is the host's. -/
structure Covered (files : FileSystem) (types : HostTypes) (sources : List PluginSource) :
    Prop where
  listed : ∀ name ∈ namesIn files sources, Available files types sources name
  extended : ∀ name ∈ namesIn files sources, ∀ entry, types.find? name = some entry →
    ∀ superName, entry.descriptor.superName = some superName →
      Available files types sources superName

/-! ### Searching -/

section
variable {files : FileSystem} {types : HostTypes} {sources : List PluginSource} {name : String}

theorem PluginSource.entry_of_contentAt {path : String} {source : PluginSource}
    {content : ByteArray} (read : source.contentAt files path = some content) :
    ∃ archive, source.archive files = .ok archive ∧
      ∃ entry ∈ archive.container.entries, entry.name = path := by
  unfold contentAt Archive.readEntry Zip.Container.read at read
  cases opening : source.archive files with
  | error e => rw [opening] at read; cases read
  | ok archive =>
    rw [opening] at read
    cases found : archive.container.find? path with
    | none => simp [found] at read
    | some entry =>
      have named : entry.name = path := by simpa using List.find?_some found
      exact ⟨archive, rfl, entry, List.mem_of_find?_eq_some found, named⟩

/-- Where failures are passed over, the first content that can be read decides. -/
theorem sweep_skip (files : FileSystem) (name : String) (sources : List PluginSource) :
    Blueprint.sweep files .skip name sources =
      (sources.findSome? fun source =>
        (source.contentAt files (TypeName.entryPath name)).map
          (describe source.location (TypeName.entryPath name) name)).getD
        (.error (.typeNotFound name)) := by
  induction sources with
  | nil => rfl
  | cons source rest ih =>
    rw [Blueprint.sweep_cons, List.findSome?_cons, PluginSource.contentAt]
    cases source.archive files with
    | error e => exact ih
    | ok archive =>
      dsimp only
      cases archive.readEntry (TypeName.entryPath name) with
      | error e => exact ih
      | ok content =>
        cases content with
        | none => exact ih
        | some content => rfl

theorem Sound.sweep_ok (sound : Sound files types sources) {content : ByteArray}
    (readable : Readable files sources name content) :
    ∃ descriptor, Blueprint.sweep files .skip name sources = .ok descriptor ∧
      ∀ superName, descriptor.superName = some superName →
        Available files types sources superName := by
  obtain ⟨path, defines, source, member, read⟩ := readable
  -- the search looks where the entry is
  have here : TypeName.entryPath name = path := by
    obtain ⟨archive, opens, entry, inside, rfl⟩ := PluginSource.entry_of_contentAt read
    exact TypeName.entryPath_of_undotted defines (sound.undotted _ member _ opens _ inside)
  subst here
  rw [sweep_skip]
  cases searching : sources.findSome? fun source =>
      (source.contentAt files (TypeName.entryPath name)).map
        (describe source.location (TypeName.entryPath name) name) with
  | none =>
    have lost := List.findSome?_eq_none_iff.mp searching source member
    rw [read] at lost
    cases lost
  | some answer =>
    -- another archive may come first, with a content of its own
    obtain ⟨first, inside, decides⟩ := List.exists_of_findSome?_eq_some searching
    obtain ⟨found, reads, rfl⟩ := Option.map_eq_some_iff.mp decides
    have readable : Readable files sources name found := ⟨_, defines, first, inside, reads⟩
    obtain ⟨header, parsed, named⟩ := sound.defined name found readable
    rw [describe, parsed]
    dsimp only [Option.getD_some]
    rw [if_pos named]
    exact ⟨_, rfl, fun superName => sound.supertypes name found header superName readable parsed⟩

end

/-! ### A context over a host -/

namespace Scope
variable {files : FileSystem} {scopes : List Scope} {id : ScopeId} {own : LoadingContext}
  {types : HostTypes} {name : String}

/-- A context whose parent is a host. -/
def OverHost (scopes : List Scope) (id : ScopeId) (own : LoadingContext) (types : HostTypes) :
    Prop :=
  ∃ parent < id, get? scopes id = some (.context parent own) ∧
    get? scopes parent = some (.host types)

theorem OverHost.chain_eq (onHost : OverHost scopes id own types) : chain scopes id = [id] := by
  obtain ⟨parent, below, at_id, at_parent⟩ := onHost
  rw [chain_of_context at_id below, chain_of_host at_parent]

theorem OverHost.lookup_host (onHost : OverHost scopes id own types) {entry : HostEntry}
    (found : types.find? name = some entry) :
    lookup files scopes id name = .ok entry.descriptor := by
  obtain ⟨parent, below, at_id, at_parent⟩ := onHost
  have known : lookup files scopes parent name = .ok entry.descriptor := by
    rw [lookup_of_host at_parent, HostTypes.resolve, found]
    rfl
  rw [← known]
  apply lookup_of_parent at_id below
  simp [known]

theorem OverHost.lookup_own (onHost : OverHost scopes id own types)
    (missing : types.find? name = none) (named : TypeName.searchable name = true) :
    lookup files scopes id name = Blueprint.sweep files own.policy name own.sources := by
  obtain ⟨parent, below, at_id, at_parent⟩ := onHost
  have unknown : lookup files scopes parent name = .error (.typeNotFound name) := by
    rw [lookup_of_host at_parent, HostTypes.resolve, missing]
    rfl
  rw [lookup_of_sources at_id below unknown, if_neg ((TypeName.searchable_iff name).mp named)]

theorem OverHost.lookup_lost (onHost : OverHost scopes id own types) (skips : own.policy = .skip)
    (missing : types.find? name = none) (named : TypeName.searchable name = true)
    (lost : ∀ source ∈ own.sources, source.contentAt files (TypeName.entryPath name) = none) :
    lookup files scopes id name = .error (.typeNotFound name) := by
  rw [onHost.lookup_own missing named, skips, sweep_skip, List.findSome?_eq_none_iff.mpr]
  · rfl
  · intro source member
    rw [lost source member]
    rfl

/-- Over a host, where failures are passed over, what is still there is found. What it extends is
the host's to declare, or is still there too. -/
theorem OverHost.lookup_available (onHost : OverHost scopes id own types)
    (skips : own.policy = .skip) (sound : Sound files types own.sources)
    (available : Available files types own.sources name) :
    ∃ descriptor, lookup files scopes id name = .ok descriptor ∧
      ∀ superName, descriptor.superName = some superName →
        (∃ entry, types.find? name = some entry ∧ entry.descriptor = descriptor) ∨
          Available files types own.sources superName := by
  cases found : types.find? name with
  | some entry => exact ⟨_, onHost.lookup_host found, fun _ _ => .inl ⟨entry, rfl, rfl⟩⟩
  | none =>
    rcases available with had | ⟨content, readable⟩
    · rw [HostTypes.contains, found] at had
      cases had
    · obtain ⟨descriptor, swept, stillThere⟩ := sound.sweep_ok readable
      obtain ⟨path, defines, _⟩ := readable
      refine ⟨descriptor, ?_, fun superName declared => .inr (stillThere superName declared)⟩
      rw [onHost.lookup_own found (TypeName.searchable_of_entry defines), skips, swept]

theorem OverHost.relatable (onHost : OverHost scopes id own types) (skips : own.policy = .skip)
    (sound : Sound files types own.sources) (covered : Covered files types own.sources)
    (listed : name ∈ namesIn files own.sources) :
    Blueprint.Relatable files (scopes.map blueprint) id name := by
  obtain ⟨descriptor, found, extending⟩ :=
    onHost.lookup_available skips sound (covered.listed name listed)
  refine ⟨descriptor, found, fun superName declared => ?_⟩
  have available : Available files types own.sources superName := by
    rcases extending superName declared with ⟨entry, inHost, rfl⟩ | available
    · exact covered.extended name listed entry inHost superName declared
    · exact available
  -- one step suffices: what the supertype extends is not asked
  obtain ⟨supertype, stands, _⟩ := onHost.lookup_available skips sound available
  exact ⟨supertype, stands⟩

end Scope

namespace World
variable {files : FileSystem} {events : List Event} {id : ScopeId}
  {own : LoadingContext} {types : HostTypes}

/-- Over a host, where failures are passed over, only a listed name can make a query fail. -/
theorem directSubtypes_ok_iff (unchanged : ∀ other, Event.change other ∉ events)
    (onHost : Scope.OverHost ((start files).run events).scopes id own types)
    (ready : own.state = .ready) (skips : own.policy = .skip) (base : TypeHandle) :
    (∃ found, (((start files).run events).directSubtypes id base).1 = .ok found) ↔
      ∀ name ∈ namesIn files own.sources,
        Blueprint.Relatable files (((start files).run events).scopes.map Scope.blueprint) id
          name := by
  have ⟨_, _, at_id, _⟩ := onHost
  have calm : ((start files).run events).Undisturbed files id := by
    obtain ⟨same, faithful⟩ := faithful_run files events unchanged
    refine ⟨same, faithful, numbered_run files events, ?_⟩
    intro target inside parent context at_target
    rw [chain, onHost.chain_eq] at inside
    rw [List.mem_singleton.mp inside, at_id] at at_target
    cases at_target
    exact ready
  rw [directSubtypes, context?, at_id]
  refine (subtypesIn_ok_iff calm own.sources []).trans (and_iff_left fun aborts => ?_)
  rw [skips] at aborts
  cases aborts

/-- Unreadable archives are tolerated. In any run that leaves the files alone, let a ready context
over a host pass failures over. If its archives are sound as far as they can be read, and nothing
that a query relates is lost with what cannot be, then every query for direct subtypes succeeds,
whichever archives do not open, cannot be enumerated to the end or have entries that cannot be
read. -/
theorem unreadable_archives_tolerated (files : FileSystem) (events : List Event) (id : ScopeId)
    (own : LoadingContext) (types : HostTypes) (base : TypeHandle)
    (unchanged : ∀ other, Event.change other ∉ events)
    (onHost : Scope.OverHost ((start files).run events).scopes id own types)
    (ready : own.state = .ready) (skips : own.policy = .skip)
    (sound : Sound files types own.sources) (covered : Covered files types own.sources) :
    ∃ found, (((start files).run events).directSubtypes id base).1 = .ok found := by
  rw [directSubtypes_ok_iff unchanged onHost ready skips]
  exact fun name listed => onHost.relatable skips sound covered listed

end World

/-! ### Two copies of one archive -/

/-- The archive of `A` with the last byte of its content changed. -/
def damagedA : ByteArray := archiveOfA.set! 68 1

def filesOfCopies : FileSystem :=
  ⟨[(["a.jar"], .file archiveOfA), (["b.jar"], .file damagedA)], []⟩

theorem open_copies :
    PluginSource.archive ⟨"/a.jar"⟩ filesOfCopies =
        .ok ⟨"/a.jar", ⟨archiveOfA, [entryOfA]⟩⟩ ∧
      PluginSource.archive ⟨"/b.jar"⟩ filesOfCopies =
        .ok ⟨"/b.jar", ⟨damagedA, [entryOfA]⟩⟩ := by
  have readA : filesOfCopies.read "/a.jar" = .ok archiveOfA :=
    FileSystem.read_jar filesOfCopies (some archiveOfA) (by simp [filesOfCopies, FileSystem.node?])
  have way : FileSystem.steps "/b.jar" = [.stay, .into "b.jar"] := by rfl
  have readB : filesOfCopies.read "/b.jar" = .ok damagedA :=
    filesOfCopies.read_root (some damagedA) (by decide +kernel) way (by decide +kernel)
      (by decide +kernel) rfl
  exact ⟨Archive.open_of_entries readA entries_archiveOfA,
    Archive.open_of_entries readB (by decide +kernel)⟩

theorem contentAt_copies (path : String) :
    PluginSource.contentAt filesOfCopies path ⟨"/a.jar"⟩ =
        (if path = "A.class" then some contentOfA else none) ∧
      PluginSource.contentAt filesOfCopies path ⟨"/b.jar"⟩ = none := by
  simp only [PluginSource.contentAt, open_copies]
  by_cases same : path = "A.class"
  · subst same
    rw [readEntry_archiveOfA]
    exact ⟨rfl, by decide +kernel⟩
  · have other : ([entryOfA].find? fun entry => entry.name == path) = none := by
      simpa [entryOfA] using Ne.symm same
    simp [Archive.readEntry, Zip.Container.read, Zip.Container.find?, other, same]

theorem listing_copies :
    PluginSource.listing ⟨"/a.jar"⟩ filesOfCopies = [.ok "A"] ∧
      PluginSource.listing ⟨"/b.jar"⟩ filesOfCopies = [.ok "A"] := by
  simp only [PluginSource.listing, open_copies]
  decide +kernel

section
variable {sources : List PluginSource} (copies : sources ⊆ [⟨"/a.jar"⟩, ⟨"/b.jar"⟩])
include copies

theorem entries_copies {source : PluginSource} {archive : Archive} (member : source ∈ sources)
    (opens : source.archive filesOfCopies = .ok archive) :
    archive.container.entries = [entryOfA] := by
  rcases List.mem_pair.mp (copies member) with rfl | rfl
  · cases open_copies.1.symm.trans opens
    rfl
  · cases open_copies.2.symm.trans opens
    rfl

theorem readable_copies {name : String} {content : ByteArray}
    (readable : Readable filesOfCopies sources name content) :
    name = "A" ∧ content = contentOfA := by
  obtain ⟨path, defines, source, member, read⟩ := readable
  obtain ⟨good, damaged⟩ := contentAt_copies path
  rcases List.mem_pair.mp (copies member) with rfl | rfl
  · rw [good] at read
    split at read
    · rename_i same
      subst same
      have named : TypeName.ofEntryPath? "A.class" = some "A" := by decide +kernel
      exact ⟨Option.some.inj (defines.symm.trans named), (Option.some.inj read).symm⟩
    · cases read
  · rw [damaged] at read
    cases read

theorem sound_copies {types : HostTypes} (root : types.contains "O" = true) :
    Sound filesOfCopies types sources := by
  constructor
  · intro source member archive opens entry inside stem taken
    rw [entries_copies copies member opens, List.mem_singleton] at inside
    subst inside
    have plain : TypeName.stem? entryOfA.name.toList = some ['A'] := by decide +kernel
    cases plain.symm.trans taken
    decide
  · intro name content readable
    obtain ⟨rfl, rfl⟩ := readable_copies copies readable
    exact ⟨_, parse_contentOfA, rfl⟩
  · intro name content header superName readable parsing declared
    obtain ⟨rfl, rfl⟩ := readable_copies copies readable
    cases parse_contentOfA.symm.trans parsing
    cases declared
    exact .inl root

end

namespace World

/-- A query succeeds over a damaged archive while another one has the type it lost. -/
theorem damaged_copy_tolerated :
    let w := (start filesOfCopies).run [.addHost [("O", none, ⟨0x21⟩)],
      .addContext 0 "plugins" [⟨"/b.jar"⟩, ⟨"/a.jar"⟩] .skip]
    PluginSource.contentAt filesOfCopies "A.class" ⟨"/b.jar"⟩ = none ∧
      ∃ found, (w.directSubtypes 1 ⟨0, 0, ⟨"O", none, [], ⟨0x21⟩, .host⟩⟩).1 = .ok found := by
  intro w
  have names : namesIn filesOfCopies [⟨"/b.jar"⟩, ⟨"/a.jar"⟩] = ["A", "A"] := by
    simp only [namesIn, List.flatMap_cons, listing_copies]
    rfl
  have readable : Readable filesOfCopies [⟨"/b.jar"⟩, ⟨"/a.jar"⟩] "A" contentOfA :=
    ⟨"A.class", by decide +kernel, ⟨"/a.jar"⟩, by simp, (contentAt_copies "A.class").1⟩
  refine ⟨(contentAt_copies "A.class").2, ?_⟩
  refine unreadable_archives_tolerated filesOfCopies _ 1
    (LoadingContext.make "plugins" [⟨"/b.jar"⟩, ⟨"/a.jar"⟩] .skip)
    (HostTypes.ofDefinitions [("O", none, ⟨0x21⟩)]) _ (by simp) ⟨0, by decide, rfl, rfl⟩ rfl rfl
    (sound_copies (by simp [LoadingContext.make]) rfl) ⟨?_, ?_⟩
  · intro name listed
    rw [LoadingContext.make, names] at listed
    obtain rfl : name = "A" := by simpa using listed
    exact .inr ⟨_, readable⟩
  · intro name listed entry found
    rw [LoadingContext.make, names] at listed
    obtain rfl : name = "A" := by simpa using listed
    cases found

/-- Without one of the two conditions a query can fail. An archive lists a type whose only entry
cannot be read; or a host has a listed type and extends it from a type that nobody has. -/
theorem lost_types_fail :
    let lost := (start filesOfCopies).run [.addHost [("O", none, ⟨0x21⟩)],
      .addContext 0 "plugins" [⟨"/b.jar"⟩] .skip]
    let hosted := (start filesOfCopies).run
      [.addHost [("O", none, ⟨0x21⟩), ("A", some "P", ⟨0x21⟩)],
        .addContext 0 "plugins" [⟨"/a.jar"⟩] .skip]
    let base : TypeHandle := ⟨0, 0, ⟨"O", none, [], ⟨0x21⟩, .host⟩⟩
    (Sound filesOfCopies (HostTypes.ofDefinitions [("O", none, ⟨0x21⟩)]) [⟨"/b.jar"⟩] ∧
      ¬ ∃ found, (lost.directSubtypes 1 base).1 = .ok found) ∧
    (Sound filesOfCopies (HostTypes.ofDefinitions [("O", none, ⟨0x21⟩), ("A", some "P", ⟨0x21⟩)])
        [⟨"/a.jar"⟩] ∧
      ¬ ∃ found, (hosted.directSubtypes 1 base).1 = .ok found) := by
  intro lost hosted base
  refine ⟨⟨sound_copies (by simp) rfl, ?_⟩, ⟨sound_copies (by simp) rfl, ?_⟩⟩
  · have onHost : Scope.OverHost lost.scopes 1 (LoadingContext.make "plugins" [⟨"/b.jar"⟩] .skip)
        (HostTypes.ofDefinitions [("O", none, ⟨0x21⟩)]) := ⟨0, by decide, rfl, rfl⟩
    have gone : Scope.lookup filesOfCopies lost.scopes 1 "A" = .error (.typeNotFound "A") := by
      refine onHost.lookup_lost rfl rfl (by decide +kernel) fun source member => ?_
      rw [List.mem_singleton.mp member]
      exact (contentAt_copies _).2
    have listed : "A" ∈ namesIn filesOfCopies [⟨"/b.jar"⟩] := by
      simp [namesIn, listing_copies, listedNames]
    rw [directSubtypes_ok_iff (by simp) onHost rfl rfl base]
    intro relatable
    obtain ⟨_, found, _⟩ := relatable "A" listed
    cases gone.symm.trans found
  · have onHost : Scope.OverHost hosted.scopes 1 (LoadingContext.make "plugins" [⟨"/a.jar"⟩] .skip)
        (HostTypes.ofDefinitions [("O", none, ⟨0x21⟩), ("A", some "P", ⟨0x21⟩)]) :=
      ⟨0, by decide, rfl, rfl⟩
    have inHost : (HostTypes.ofDefinitions
        [("O", none, ⟨0x21⟩), ("A", some "P", ⟨0x21⟩)]).find? "A" =
          some ⟨1, "A", some "P", [], ⟨0x21⟩, .host⟩ := rfl
    have given : Scope.lookup filesOfCopies hosted.scopes 1 "A" = _ := onHost.lookup_host inHost
    have gone : Scope.lookup filesOfCopies hosted.scopes 1 "P" = .error (.typeNotFound "P") := by
      refine onHost.lookup_lost rfl rfl (by decide +kernel) fun source member => ?_
      rw [List.mem_singleton.mp member, (contentAt_copies _).1, if_neg (by decide +kernel)]
    have listed : "A" ∈ namesIn filesOfCopies [⟨"/a.jar"⟩] := by
      simp [namesIn, listing_copies, listedNames]
    rw [directSubtypes_ok_iff (by simp) onHost rfl rfl base]
    intro relatable
    obtain ⟨_, found, extended⟩ := relatable "A" listed
    cases given.symm.trans found
    obtain ⟨_, stands⟩ := extended "P" rfl
    cases gone.symm.trans stands

end World
end PluginLoader
