import PluginLoader.Proofs.Resolution.Policies

/-! The order of sources. It only decides which of two archives is asked first, and that matters
only where both have an entry of the name or where a failure ends the search. Otherwise contexts
over the same sources in another order find the same types. -/
namespace PluginLoader

/-- No path of a type is an entry of both archives. -/
def Apart (files : FileSystem) (source other : PluginSource) : Prop :=
  ∀ archive, source.archive files = .ok archive →
    ∀ otherArchive, other.archive files = .ok otherArchive →
      ∀ entry ∈ archive.container.entries, TypeName.entrySuffix <:+ entry.name.toList →
        ∀ otherEntry ∈ otherArchive.container.entries, otherEntry.name ≠ entry.name

/-- The archive opens, and so do all its entries. -/
def PluginSource.Intact (files : FileSystem) (source : PluginSource) : Prop :=
  ∃ archive, source.archive files = .ok archive ∧
    ∀ path, ∃ content, archive.readEntry path = .ok content

theorem findSome_perm {α β : Type} {f : α → Option β} {xs ys : List α} (perm : xs.Perm ys)
    (agree : ∀ x ∈ xs, ∀ y ∈ xs, ∀ a b, f x = some a → f y = some b → a = b) :
    xs.findSome? f = ys.findSome? f := by
  cases found : xs.findSome? f with
  | none =>
    have nothing := List.findSome?_eq_none_iff.mp found
    exact (List.findSome?_eq_none_iff.mpr fun y member => nothing y (perm.mem_iff.mpr member)).symm
  | some a =>
    obtain ⟨x, inside, hit⟩ := List.exists_of_findSome?_eq_some found
    cases foundOther : ys.findSome? f with
    | none =>
      have nothing := List.findSome?_eq_none_iff.mp foundOther x (perm.mem_iff.mp inside)
      cases hit.symm.trans nothing
    | some b =>
      obtain ⟨y, member, hitOther⟩ := List.exists_of_findSome?_eq_some foundOther
      rw [agree x inside y (perm.mem_iff.mpr member) a b hit hitOther]

section
variable {files : FileSystem} {policy : ArchivePolicy} {name : String}
  {sources others : List PluginSource}

theorem Apart.contentAt {source other : PluginSource} (apart : Apart files source other)
    {content : ByteArray} (read : source.contentAt files (TypeName.entryPath name) = some content) :
    other.contentAt files (TypeName.entryPath name) = none := by
  obtain ⟨archive, opens, entry, inside, named⟩ := PluginSource.entry_of_contentAt read
  by_contra also
  obtain ⟨otherContent, readOther⟩ := Option.ne_none_iff_exists'.mp also
  obtain ⟨otherArchive, opensOther, otherEntry, member, namedOther⟩ :=
    PluginSource.entry_of_contentAt readOther
  have defines : TypeName.entrySuffix <:+ entry.name.toList :=
    named ▸ TypeName.suffix_entryPath name
  exact apart archive opens otherArchive opensOther entry inside defines otherEntry member
    (namedOther.trans named.symm)

theorem sweep_intact (intact : ∀ source ∈ sources, source.Intact files) :
    Blueprint.sweep files policy name sources = Blueprint.sweep files .skip name sources := by
  induction sources with
  | nil => rfl
  | cons source sources ih =>
    obtain ⟨⟨archive, opens, reads⟩, rest⟩ := List.forall_mem_cons.mp intact
    obtain ⟨content, read⟩ := reads (TypeName.entryPath name)
    rw [Blueprint.sweep_cons, Blueprint.sweep_cons, opens]
    dsimp only
    rw [read]
    cases content with
    | none => exact ih rest
    | some content => rfl

theorem sweep_perm (perm : sources.Perm others)
    (apart : ∀ source ∈ sources, ∀ other ∈ sources, source ≠ other → Apart files source other)
    (whole : policy = .skip ∨ ∀ source ∈ sources, source.Intact files) :
    Blueprint.sweep files policy name sources = Blueprint.sweep files policy name others := by
  have skip : ∀ {list : List PluginSource}, list ⊆ sources →
      Blueprint.sweep files policy name list = Blueprint.sweep files .skip name list := by
    intro list part
    rcases whole with rfl | intact
    · rfl
    · exact sweep_intact fun source inside => intact source (part inside)
  rw [skip (List.Subset.refl sources), skip perm.symm.subset, sweep_skip, sweep_skip,
    findSome_perm perm]
  intro source inside other insideOther a b hit hitOther
  by_cases same : source = other
  · subst same
    exact Option.some.inj (hit.symm.trans hitOther)
  · obtain ⟨content, read, _⟩ := Option.map_eq_some_iff.mp hit
    rw [(apart source inside other insideOther same).contentAt read] at hitOther
    cases hitOther

theorem typesIn_ok_perm {find : String → Except LoadError TypeDescriptor}
    (perm : sources.Perm others) :
    (∃ types, typesIn files find policy sources = .ok types) ↔
      ∃ types, typesIn files find policy others = .ok types := by
  have names : ∀ name, name ∈ namesIn files sources ↔ name ∈ namesIn files others := by
    intro name
    exact (perm.flatMap_right _).mem_iff
  simp only [typesIn_ok_iff, exists_and_left, exists_eq, and_true, names, perm.mem_iff]

/-- The types that the listing of a source gives. -/
def block (files : FileSystem) (find : String → Except LoadError TypeDescriptor)
    (picks : TypeDescriptor → Bool) (source : PluginSource) : List TypeDescriptor :=
  (typesOf find (listedNames (source.listing files))).filter picks

theorem filter_typesOf (find : String → Except LoadError TypeDescriptor)
    (picks : TypeDescriptor → Bool) (sources : List PluginSource) :
    (typesOf find (namesIn files sources)).filter picks =
      sources.flatMap (block files find picks) := by
  induction sources with
  | nil => rfl
  | cons source sources ih =>
    rw [List.flatMap_cons, ← ih]
    simp [typesOf, namesIn, block]

theorem typesOf_sublist {find : String → Except LoadError TypeDescriptor}
    (named : ∀ name descriptor, find name = .ok descriptor → descriptor.name = name)
    (names : List String) : ((typesOf find names).map TypeDescriptor.name).Sublist names := by
  induction names with
  | nil => exact .slnil
  | cons name names ih =>
    unfold typesOf at ih ⊢
    cases found : find name with
    | error e => simpa [found, Except.toOption] using ih.cons name
    | ok descriptor => simpa [found, Except.toOption, named name descriptor found] using ih

end

namespace World
variable {files : FileSystem} {w : World} {id : ScopeId} {name : String}

theorem Undisturbed.lookup_named (calm : w.Undisturbed files id) {descriptor : TypeDescriptor}
    (found : Scope.lookup files w.scopes id name = .ok descriptor) : descriptor.name = name := by
  rw [← calm.resolve_eq] at found
  obtain ⟨handle, given, rfl⟩ := map_eq_ok.mp found
  exact (resolve_holds calm.numbered given).1

/-- The order of archives that do not overlap does not show. In any run that leaves the files alone,
let two contexts of one parent and policy have the same sources in different orders, and none be
closed that the two are or inherit from. If no path of a type is an entry of two archives, and
failures are passed over or there are none, then every name has the same type or the same failure in
both, and a query for subtypes of bases that correspond succeeds in both or in neither. Its results
are the same types: what the listing of each source gives, in its order, one source after the
other. -/
theorem source_order_irrelevant (files : FileSystem) (events : List Event)
    (parent id other : ScopeId) (own twin : LoadingContext)
    (first : Stands files events parent id own) (second : Stands files events parent other twin)
    (policies : own.policy = twin.policy) (perm : own.sources.Perm twin.sources)
    (apart : ∀ one ∈ own.sources, ∀ two ∈ own.sources, one ≠ two → Apart files one two)
    (whole : own.policy = .skip ∨ ∀ source ∈ own.sources, source.Intact files) :
    let w := (start files).run events
    (∀ name, (w.resolve id name).1.map TypeHandle.descriptor =
      (w.resolve other name).1.map TypeHandle.descriptor) ∧
    ∀ a b, Corresponding files events id other a b →
      ((∃ types, (w.directSubtypes id a).1 = .ok types) ↔
        ∃ others, (w.directSubtypes other b).1 = .ok others) ∧
      ∀ types others, (w.directSubtypes id a).1 = .ok types →
        (w.directSubtypes other b).1 = .ok others →
        (types.map TypeHandle.descriptor).Perm (others.map TypeHandle.descriptor) ∧
        ∃ part : PluginSource → List TypeDescriptor,
          types.map TypeHandle.descriptor = own.sources.flatMap part ∧
          others.map TypeHandle.descriptor = twin.sources.flatMap part ∧
          ∀ source, ((part source).map TypeDescriptor.name).Sublist
            (listedNames (source.listing files)) := by
  intro w
  have same : Scope.lookup files w.scopes id = Scope.lookup files w.scopes other :=
    first.lookup_eq second fun name => policies ▸ sweep_perm perm apart whole
  constructor
  · intro name
    rw [first.calm.resolve_eq, second.calm.resolve_eq]
    exact congrFun same name
  · intro a b corresponding
    obtain ⟨picks, picking, pickingOther⟩ := corresponding.picks first second
    have one := first.directSubtypes_eq picking
    have two := second.directSubtypes_eq pickingOther
    rw [← same, ← policies] at two
    refine ⟨?_, fun types others found foundOther => ?_⟩
    · rw [exists_ok_of_map one, exists_ok_of_map two, typesIn_ok_perm perm]
    · rw [found] at one
      rw [foundOther] at two
      obtain ⟨_, listed, picked⟩ := map_eq_ok.mp one.symm
      obtain ⟨_, listedOther, pickedOther⟩ := map_eq_ok.mp two.symm
      rw [(typesIn_ok_iff.mp listed).2.2, filter_typesOf] at picked
      rw [(typesIn_ok_iff.mp listedOther).2.2, filter_typesOf] at pickedOther
      refine ⟨?_, block files (Scope.lookup files w.scopes id) picks, picked.symm,
        pickedOther.symm, fun source => ?_⟩
      · rw [← picked, ← pickedOther]
        exact perm.flatMap_right _
      · have named : ∀ name descriptor, Scope.lookup files w.scopes id name = .ok descriptor →
            descriptor.name = name := fun _ _ => first.calm.lookup_named
        exact (List.filter_sublist.map _).trans (typesOf_sublist named _)

end World

/-! ### An archive and a file that is none -/

def filesWithRubbish : FileSystem :=
  ⟨[(["a.jar"], .file archiveOfA), (["c.jar"], .file ⟨#[]⟩)], []⟩

theorem open_rubbish :
    PluginSource.archive ⟨"/a.jar"⟩ filesWithRubbish =
        .ok ⟨"/a.jar", ⟨archiveOfA, [entryOfA]⟩⟩ ∧
      PluginSource.archive ⟨"/c.jar"⟩ filesWithRubbish =
        .error (.archiveRead "/c.jar" (.damaged .noEndRecord)) := by
  have readA : filesWithRubbish.read "/a.jar" = .ok archiveOfA :=
    FileSystem.read_jar filesWithRubbish (some archiveOfA)
      (by simp [filesWithRubbish, FileSystem.node?])
  have way : FileSystem.steps "/c.jar" = [.stay, .into "c.jar"] := by rfl
  have readC : filesWithRubbish.read "/c.jar" = .ok ⟨#[]⟩ :=
    filesWithRubbish.read_root (some ⟨#[]⟩) (by decide +kernel) way (by decide +kernel)
      (by decide +kernel) rfl
  refine ⟨Archive.open_of_entries readA entries_archiveOfA, ?_⟩
  have refused : (Zip.Container.open? ⟨#[]⟩).map Zip.Container.entries =
      .error (.damaged .noEndRecord) := by decide +kernel
  rw [PluginSource.archive, Archive.open?, readC]
  dsimp only
  cases opened : Zip.Container.open? ⟨#[]⟩ with
  | error fault =>
    rw [opened] at refused
    cases refused
    rfl
  | ok container => rw [opened] at refused; cases refused

theorem listing_rubbish :
    PluginSource.listing ⟨"/a.jar"⟩ filesWithRubbish = [.ok "A"] ∧
      ∃ e, PluginSource.listing ⟨"/c.jar"⟩ filesWithRubbish = [.error e] := by
  obtain ⟨opens, fails⟩ := open_rubbish
  rw [PluginSource.listing, PluginSource.listing, opens, fails]
  exact ⟨by decide +kernel, _, rfl⟩

namespace World

def eitherOrder : List Event :=
  [.addHost [("O", none, ⟨0x21⟩)],
    .addContext 0 "one" [⟨"/a.jar"⟩, ⟨"/c.jar"⟩] .skip,
    .addContext 0 "two" [⟨"/c.jar"⟩, ⟨"/a.jar"⟩] .skip, .resolve 0 "O"]

theorem types_in_either_order :
    let w := (start filesWithRubbish).run eitherOrder
    (w.resolve 1 "A").1.map TypeHandle.descriptor = .ok descriptorA ∧
      (w.resolve 2 "A").1.map TypeHandle.descriptor = .ok descriptorA ∧
      ∃ types others, (w.directSubtypes 1 ⟨0, 0, descriptorO⟩).1 = .ok types ∧
        (w.directSubtypes 2 ⟨0, 0, descriptorO⟩).1 = .ok others ∧
        (types.map TypeHandle.descriptor).Perm (others.map TypeHandle.descriptor) := by
  intro w
  let own := LoadingContext.make "one" [⟨"/a.jar"⟩, ⟨"/c.jar"⟩] .skip
  let twin := LoadingContext.make "two" [⟨"/c.jar"⟩, ⟨"/a.jar"⟩] .skip
  have first : Stands filesWithRubbish eitherOrder 0 1 own :=
    ⟨by simp [eitherOrder], rfl, by decide, by simp [eitherOrder]⟩
  have second : Stands filesWithRubbish eitherOrder 0 2 twin :=
    ⟨by simp [eitherOrder], rfl, by decide, by simp [eitherOrder]⟩
  obtain ⟨opens, fails⟩ := open_rubbish
  have apart : ∀ one ∈ own.sources, ∀ two ∈ own.sources, one ≠ two →
      Apart filesWithRubbish one two := by
    intro one inside two member ne archive opened other openedOther
    rcases List.mem_pair.mp inside with rfl | rfl
    · rcases List.mem_pair.mp member with rfl | rfl
      · exact absurd rfl ne
      · cases fails.symm.trans openedOther
    · cases fails.symm.trans opened
  have perm : own.sources.Perm twin.sources := .swap ..
  obtain ⟨answers, queries⟩ := source_order_irrelevant filesWithRubbish eitherOrder 0 1 2 own twin
    first second rfl perm apart (.inl rfl)
  have gave : Gave filesWithRubbish eitherOrder 0 ⟨0, 0, descriptorO⟩ :=
    ⟨[_, _, _], .resolve 0 "O", [], rfl, .resolve (by rfl)⟩
  have corresponding : Corresponding filesWithRubbish eitherOrder 1 2 ⟨0, 0, descriptorO⟩ _ :=
    .shared gave (by decide) (by decide)
  have swept : Blueprint.sweep filesWithRubbish .skip "A" own.sources = .ok descriptorA := by
    simp only [own, LoadingContext.make, Blueprint.sweep_cons, opens, entryPath_A,
      readEntry_archiveOfA, describe_contentOfA]
    rfl
  have listing : ∀ source ∈ own.sources, source.listing filesWithRubbish = [.ok "A"] ∨
      own.policy = .skip ∧ ∃ e, source.listing filesWithRubbish = [.error e] := by
    intro source inside
    rcases List.mem_pair.mp inside with rfl | rfl
    · exact .inl listing_rubbish.1
    · exact .inr ⟨rfl, listing_rubbish.2⟩
  obtain ⟨picks, picking, _⟩ := corresponding.picks first second
  obtain ⟨given, types, found⟩ := answers_over_hostO first rfl picking swept listing
  obtain ⟨succeeds, results⟩ := queries _ _ corresponding
  obtain ⟨others, foundOther⟩ := succeeds.mp ⟨types, found⟩
  exact ⟨given, (answers "A").symm.trans given, types, others, found, foundOther,
    (results types others found foundOther).1⟩

end World
end PluginLoader
