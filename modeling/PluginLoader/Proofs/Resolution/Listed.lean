import PluginLoader.Proofs.Archive.Enumeration
import PluginLoader.Proofs.Resolution.Stateless

/-! Listed types are found. An archive that enumerates to its end gives a name from an entry whose
stem has no dot exactly if the entry of the name is there. So a context that may not pass over
archives never reports a type as missing that one of its archives lists in this way: it gives an
answer of its parent, a type, or the failure of an archive. -/
namespace PluginLoader

namespace Archive
variable {archive : Archive} {name : String}

theorem readEntry_eq_none_iff {path : String} :
    archive.readEntry path = .ok none ↔ ∀ entry ∈ archive.container.entries, entry.name ≠ path := by
  unfold readEntry Zip.Container.read Zip.Container.find?
  cases found : archive.container.entries.find? (·.name == path) with
  | none => simpa using found
  | some entry =>
    have named : entry.name = path := by simpa using List.find?_some found
    have member := List.mem_of_find?_eq_some found
    constructor
    · intro read
      dsimp only at read
      cases content : archive.container.content entry <;> rw [content] at read <;> cases read
    · exact fun absent => absurd named (absent entry member)

/-- An enumeration gives the name, from an entry whose stem has no dot. -/
def Offers (archive : Archive) (name : String) : Prop :=
  ∃ entry ∈ archive.readable archive.container.entries,
    TypeName.ofEntryPath? entry.name = some name ∧ TypeName.Undotted entry.name

theorem Offers.enumerated (offers : archive.Offers name) : .ok name ∈ archive.items := by
  obtain ⟨entry, member, defines, _⟩ := offers
  exact ok_mem_items.mpr ⟨entry, member, defines⟩

theorem Offers.searchable (offers : archive.Offers name) : TypeName.searchable name = true := by
  obtain ⟨_, _, defines, _⟩ := offers
  exact TypeName.searchable_of_entry defines

theorem Offers.there (offers : archive.Offers name) :
    archive.readEntry (TypeName.entryPath name) ≠ .ok none := by
  obtain ⟨entry, member, defines, undotted⟩ := offers
  intro absent
  refine readEntry_eq_none_iff.mp absent entry ?_ ?_
  · exact (List.takeWhile_sublist _).subset member
  · exact (TypeName.entryPath_of_undotted defines undotted).symm

/-- The entry that is looked for under a name is listed under that name. -/
theorem offers_of_there (whole : ∀ e, .error e ∉ archive.items)
    (named : TypeName.searchable name = true)
    (there : archive.readEntry (TypeName.entryPath name) ≠ .ok none) : archive.Offers name := by
  rw [ne_eq, readEntry_eq_none_iff] at there
  push Not at there
  obtain ⟨entry, member, path⟩ := there
  refine ⟨entry, ?_, ?_, ?_⟩
  · rwa [readable_of_whole whole]
  · rw [path, TypeName.ofEntryPath_entryPath named]
  · exact path ▸ TypeName.undotted_entryPath name

end Archive

/-! ### Lookups -/

section
variable {files : FileSystem} {name missing : String}

/-- Where no archive may be passed over, a type is missing only if every archive was read and lacks
its entry. -/
theorem Blueprint.sweep_missing {sources : List PluginSource}
    (absent : sweep files .abort name sources = .error (.typeNotFound missing)) :
    ∀ source ∈ sources, ∃ archive, source.archive files = .ok archive ∧
      archive.readEntry (TypeName.entryPath name) = .ok none := by
  induction sources with
  | nil => simp
  | cons source sources ih =>
    rw [sweep_cons] at absent
    split at absent
    · rename_i e failed
      cases absent
      cases Archive.open_error failed
    · rename_i archive opened
      split at absent
      · rename_i e failed
        cases absent
        cases Archive.readEntry_error failed
      · rename_i lacks
        exact List.forall_mem_cons.mpr ⟨⟨archive, opened, lacks⟩, ih absent⟩
      · cases describe_error absent

/-- What an archive offers is not missing in a context over it that may not pass it over. -/
theorem Archive.Offers.lookup {archive : Archive} (offers : archive.Offers name)
    {scopes : List Scope} {id parent : ScopeId} {own : LoadingContext} {source : PluginSource}
    (at_id : Scope.get? scopes id = some (.context parent own)) (aborts : own.policy = .abort)
    (member : source ∈ own.sources) (opens : source.archive files = .ok archive) :
    Scope.lookup files scopes id name ≠ .error (.typeNotFound missing) := by
  intro absent
  obtain ⟨newer, older, rfl, rfl⟩ := Scope.get_split at_id
  rw [Scope.lookup_append newer (Nat.lt_succ_self _)] at absent
  by_cases asked : ∃ other, Scope.lookup files older parent name = .error (.typeNotFound other)
  · obtain ⟨other, asked⟩ := asked
    have plain := (TypeName.searchable_iff name).mp offers.searchable
    rw [Scope.lookup_own asked, if_neg plain, aborts] at absent
    obtain ⟨_, same, lacks⟩ := Blueprint.sweep_missing absent source member
    cases opens.symm.trans same
    exact offers.there lacks
  · push Not at asked
    rw [Scope.lookup_inherited rfl asked] at absent
    exact asked missing absent

end

namespace World

/-- Enumeration and lookup see the same types. In an archive that opens and enumerates without a
failure, a name without a slash that is not empty is given if its entry is there, and the entry of
a name is there if the name is given from an entry whose stem has no dot. Over files that do not
change, a context that may not pass over the archive, ready or closed, never reports such a name as
missing, whatever other sources and parent it has and whatever has happened before. -/
theorem enumerated_type_never_missing {files : FileSystem} {location : String} {archive : Archive}
    (opened : Archive.open? files location = .ok archive)
    (whole : ∀ e, .error e ∉ archive.items) :
    (∀ name, name ≠ "" → '/' ∉ name.toList →
      archive.readEntry (TypeName.entryPath name) ≠ .ok none → .ok name ∈ archive.items) ∧
    (∀ entry ∈ archive.container.entries, ∀ name,
      TypeName.ofEntryPath? entry.name = some name → .ok name ∈ archive.items ∧
        (TypeName.Undotted entry.name →
          archive.readEntry (TypeName.entryPath name) ≠ .ok none)) ∧
    ∀ (events : List Event) (id parent : ScopeId) (own : LoadingContext),
      (∀ other, Event.change other ∉ events) →
      let w := (start files).run events
      Scope.get? w.scopes id = some (.context parent own) → own.policy = .abort →
      ⟨location⟩ ∈ own.sources →
      ∀ entry ∈ archive.container.entries, ∀ name,
        TypeName.ofEntryPath? entry.name = some name → TypeName.Undotted entry.name →
        ∀ missing, (w.resolve id name).1 ≠ .error (.typeNotFound missing) := by
  have all := Archive.readable_of_whole whole
  have offers : ∀ entry ∈ archive.container.entries, ∀ name,
      TypeName.ofEntryPath? entry.name = some name → TypeName.Undotted entry.name →
        archive.Offers name := by
    intro entry member name defines undotted
    exact ⟨entry, by rwa [all], defines, undotted⟩
  refine ⟨fun name nonempty free there => ?_, fun entry member name defines => ⟨?_, ?_⟩, ?_⟩
  · have named := TypeName.searchable_iff_free.mpr ⟨nonempty, free⟩
    exact (Archive.offers_of_there whole named there).enumerated
  · exact Archive.ok_mem_items.mpr ⟨entry, by rwa [all], defines⟩
  · exact fun undotted => (offers entry member name defines undotted).there
  · intro events id parent own unchanged w at_id aborts source entry member name defines undotted
      missing failed
    obtain ⟨same, faithful⟩ := faithful_run files events unchanged
    have answers : (Scope.resolve files w.scopes id name).1 = .error (.typeNotFound missing) := by
      rw [← same]
      exact failed
    rcases (Scope.resolve_agrees w.scopes id name faithful).1 with agrees | ⟨label, closed⟩
    · rw [answers] at agrees
      have known := offers entry member name defines undotted
      exact known.lookup at_id aborts source opened agrees.symm
    · cases answers.symm.trans closed

/-- The archive in front cannot be opened, which an earlier lookup has met with: the answer is no
missing type. -/
theorem type_behind_missing_archive :
    let events : List Event := [.addHost [],
      .addContext 0 "plugins" [⟨"/b.jar"⟩, ⟨"/a.jar"⟩] .abort, .resolve 1 "A"]
    (∀ e, .error e ∉ Archive.items ⟨"/a.jar", ⟨archiveOfA, [entryOfA]⟩⟩) ∧
      .ok "A" ∈ Archive.items ⟨"/a.jar", ⟨archiveOfA, [entryOfA]⟩⟩ ∧
      ∀ missing, (((start filesOfA).run events).resolve 1 "A").1 ≠
        .error (.typeNotFound missing) := by
  intro events
  have items : Archive.items ⟨"/a.jar", ⟨archiveOfA, [entryOfA]⟩⟩ = [.ok "A"] := by decide +kernel
  have whole : ∀ e, .error e ∉ Archive.items ⟨"/a.jar", ⟨archiveOfA, [entryOfA]⟩⟩ := by
    simp [items]
  have defines : TypeName.ofEntryPath? "A.class" = some "A" := by decide +kernel
  have undotted : TypeName.Undotted "A.class" := entryPath_A ▸ TypeName.undotted_entryPath "A"
  obtain ⟨_, listed, never⟩ := enumerated_type_never_missing open_archiveOfA whole
  have fresh : Scope.get? ((start filesOfA).run (events.take 2)).scopes 1 =
      some (.context 0 (.make "plugins" [⟨"/b.jar"⟩, ⟨"/a.jar"⟩] .abort)) := rfl
  obtain ⟨now, at_now, same⟩ := get_run fresh (events.drop 2)
  refine ⟨whole, (listed entryOfA (by simp) "A" defines).1, ?_⟩
  cases now with
  | host types => cases same
  | context parent own =>
    obtain ⟨rfl, sources, aborts⟩ := Blueprint.context.inj same
    have member : ⟨"/a.jar"⟩ ∈ own.sources := by simp [sources, LoadingContext.make]
    exact never events 1 0 own (by simp [events]) at_now aborts member entryOfA (by simp) "A"
      defines undotted

end World
end PluginLoader
