import PluginLoader.Proofs.Resolution.Failures

/-! Declared sizes. Reading an entry reserves room for as many bytes as the directory declares, and
that is all the declared size does: within the limit no answer depends on it, above the limit the
process ends. A lookup ends in this way exactly if it comes to an archive that does for its name,
and a query exactly if it comes to such a lookup. -/
namespace PluginLoader

namespace Archive
variable {archive : Archive} {path : String}

/-- The archive with other sizes declared for its entries. -/
def resize (sizes : Zip.Entry → Nat) (archive : Archive) : Archive :=
  { archive with container.entries := archive.container.entries.map fun entry =>
      { entry with size := sizes entry } }

theorem find_resize (sizes : Zip.Entry → Nat) (archive : Archive) (path : String) :
    (archive.resize sizes).container.find? path =
      (archive.container.find? path).map fun entry => { entry with size := sizes entry } := by
  simp only [resize, Zip.Container.find?, List.find?_map]
  rfl

theorem readEntry_resize (sizes : Zip.Entry → Nat) (archive : Archive) (path : String) :
    (archive.resize sizes).readEntry path = archive.readEntry path := by
  unfold readEntry Zip.Container.read
  rw [find_resize]
  cases archive.container.find? path <;> rfl

theorem read_eq_answer {answer : Except LoadError (Option ByteArray)}
    (read : archive.read path = .answer answer) : archive.readEntry path = answer := by
  unfold Archive.read at read
  split at read
  · cases read
  · cases read
    rfl

/-- Reading crashes on an entry that could be decoded and declares more than can be reserved. -/
theorem read_eq_crash : archive.read path = .crash ↔ ∃ entry bytes,
    archive.container.find? path = some entry ∧ archive.container.stored entry = .ok bytes ∧
      reservationLimit < entry.size := by
  unfold Archive.read reservation
  cases archive.container.find? path with
  | none => simp
  | some entry => cases stored : archive.container.stored entry <;> simp [stored]

theorem read_cases (archive : Archive) (path : String) :
    archive.read path = .crash ∨ archive.read path = .answer (archive.readEntry path) := by
  unfold Archive.read
  split
  · exact .inl rfl
  · exact .inr rfl

theorem readEntry_cases (archive : Archive) (path : String) :
    archive.readEntry path = .ok none ∨ (∃ content, archive.readEntry path = .ok (some content)) ∨
      ∃ fault, archive.readEntry path = .error (.archiveRead archive.location fault) := by
  unfold readEntry
  cases archive.container.read path with
  | error fault => exact .inr (.inr ⟨fault, rfl⟩)
  | ok content =>
    cases content with
    | none => exact .inl rfl
    | some content => exact .inr (.inl ⟨content, rfl⟩)

end Archive

/-! ### Searches -/

namespace LoadingContext
variable {files : FileSystem} {policy : ArchivePolicy} {name : String}

/-- A search for a type comes to an archive, and reads the entry of the type there. -/
inductive Reads (files : FileSystem) (policy : ArchivePolicy) (name : String) (archive : Archive) :
    List PluginSource → List Slot → Prop where
  | here {source : PluginSource} {sources : List PluginSource} {slot : Slot} {slots : List Slot} :
      slot.Reached files policy source (.opened archive) →
      Reads files policy name archive (source :: sources) (slot :: slots)
  | later {source : PluginSource} {sources : List PluginSource} {slot now : Slot}
      {slots : List Slot} : slot.Reached files policy source now →
      verdict policy name source now = none → Reads files policy name archive sources slots →
      Reads files policy name archive (source :: sources) (slot :: slots)

/-- The entry that a slot's archive has for the name crashes. -/
def CrashesOn (name : String) (slot : Slot) : Prop :=
  ∃ archive, slot = .opened archive ∧ archive.read (TypeName.entryPath name) = .crash

theorem searchCrashes_cons {source : PluginSource} {sources : List PluginSource} {slot : Slot}
    {slots : List Slot} :
    searchCrashes files policy name (source :: sources) (slot :: slots) = true ↔
      ∃ now, reach files policy source slot = .ok now ∧ (CrashesOn name now ∨
        verdict policy name source now = none ∧
          searchCrashes files policy name sources slots = true) := by
  simp only [searchCrashes]
  cases reach files policy source slot with
  | error e => simp
  | ok now =>
    cases now with
    | unopened => simp [CrashesOn, verdict]
    | unreadable => simp [CrashesOn, verdict]
    | opened archive =>
      cases reading : archive.read (TypeName.entryPath name) with
      | crash => simp [CrashesOn, reading]
      | answer answer =>
        have read := Archive.read_eq_answer reading
        rcases answer with e | _ | content
        · cases policy <;> simp [CrashesOn, reading, verdict, read]
        · simp [CrashesOn, reading, verdict, read]
        · simp [CrashesOn, reading, verdict, read]

theorem searchCrashes_iff {sources : List PluginSource} {slots : List Slot} :
    searchCrashes files policy name sources slots = true ↔ ∃ archive,
      Reads files policy name archive sources slots ∧
        archive.read (TypeName.entryPath name) = .crash := by
  induction sources generalizing slots with
  | nil =>
    simp only [searchCrashes, Bool.false_eq_true, false_iff]
    rintro ⟨_, ⟨⟩, _⟩
  | cons source sources ih =>
    cases slots with
    | nil =>
      simp only [searchCrashes, Bool.false_eq_true, false_iff]
      rintro ⟨_, ⟨⟩, _⟩
    | cons slot slots =>
      rw [searchCrashes_cons]
      constructor
      · rintro ⟨_, reached, ⟨archive, rfl, crash⟩ | ⟨passed, crashes⟩⟩
        · exact ⟨archive, .here (reach_ok_iff.mp reached), crash⟩
        · obtain ⟨archive, reads, crash⟩ := ih.mp crashes
          exact ⟨archive, .later (reach_ok_iff.mp reached) passed reads, crash⟩
      · rintro ⟨archive, reads, crash⟩
        cases reads with
        | here reached => exact ⟨_, reach_ok_iff.mpr reached, .inl ⟨archive, rfl, crash⟩⟩
        | later reached passed reads =>
          exact ⟨_, reach_ok_iff.mpr reached, .inr ⟨passed, ih.mpr ⟨archive, reads, crash⟩⟩⟩

end LoadingContext

/-! ### Lookups -/

namespace Scope
variable {files : FileSystem} {name : String}

/-- A lookup of a name in a scope reads an archive: on the way to the parent's answer, or in the own
search, which only a parent's report of a missing type brings about. -/
inductive Reads (files : FileSystem) (name : String) (archive : Archive) :
    List Scope → ScopeId → Prop where
  | older (scope : Scope) {older : List Scope} {id : ScopeId} : id ≠ older.length →
      Reads files name archive older id → Reads files name archive (scope :: older) id
  | above {parent : ScopeId} {own : LoadingContext} {older : List Scope} :
      own.known? name = none → Reads files name archive older parent →
      Reads files name archive (.context parent own :: older) older.length
  | own {parent : ScopeId} {own : LoadingContext} {older : List Scope} :
      own.known? name = none →
      (resolve files older parent name).1 = .error (.typeNotFound name) →
      TypeName.searchable name = true →
      LoadingContext.Reads files own.policy name archive own.sources own.slots →
      Reads files name archive (.context parent own :: older) older.length

theorem crashes_older {scope : Scope} {older : List Scope} {id : ScopeId}
    (below : id ≠ older.length) :
    crashes files (scope :: older) id name = crashes files older id name := by
  cases scope <;> simp only [crashes, if_neg below]

theorem crashes_host (types : HostTypes) (older : List Scope) :
    crashes files (.host types :: older) older.length name = false := by
  simp [crashes]

theorem crashes_context {parent : ScopeId} {own : LoadingContext} {older : List Scope} :
    crashes files (.context parent own :: older) older.length name = true ↔
      own.known? name = none ∧ (crashes files older parent name = true ∨
        (resolve files older parent name).1 = .error (.typeNotFound name) ∧
          TypeName.searchable name = true ∧
          LoadingContext.searchCrashes files own.policy name own.sources own.slots = true) := by
  simp only [crashes, if_true]
  cases own.known? name with
  | some answer => simp
  | none =>
    rcases asked : (resolve files older parent name).1 with e | handle
    · have missing : e.isTypeNotFound = true ↔ e = .typeNotFound name :=
        ⟨fun absent => resolve_missing asked absent, fun same => same ▸ rfl⟩
      simp [missing, and_assoc]
    · simp

/-- A lookup crashes exactly if it reads an archive that crashes on the entry of the name. -/
theorem crashes_iff {scopes : List Scope} {id : ScopeId} :
    crashes files scopes id name = true ↔ ∃ archive, Reads files name archive scopes id ∧
      archive.read (TypeName.entryPath name) = .crash := by
  induction scopes generalizing id with
  | nil =>
    simp only [crashes, Bool.false_eq_true, false_iff]
    rintro ⟨_, ⟨⟩, _⟩
  | cons scope older ih =>
    by_cases here : id = older.length
    · subst here
      cases scope with
      | host types =>
        rw [crashes_host]
        simp only [Bool.false_eq_true, false_iff]
        rintro ⟨_, reads, _⟩
        cases reads with
        | older _ below => exact below rfl
      | context parent own =>
        rw [crashes_context, ih, LoadingContext.searchCrashes_iff]
        constructor
        · rintro ⟨fresh, ⟨archive, reads, crash⟩ | ⟨missing, named, archive, reads, crash⟩⟩
          · exact ⟨archive, .above fresh reads, crash⟩
          · exact ⟨archive, .own fresh missing named reads, crash⟩
        · rintro ⟨archive, reads, crash⟩
          cases reads with
          | older _ below => exact absurd rfl below
          | above fresh reads => exact ⟨fresh, .inl ⟨archive, reads, crash⟩⟩
          | own fresh missing named reads =>
            exact ⟨fresh, .inr ⟨missing, named, archive, reads, crash⟩⟩
    · rw [crashes_older here, ih]
      constructor
      · rintro ⟨archive, reads, crash⟩
        exact ⟨archive, .older scope here reads, crash⟩
      · rintro ⟨archive, reads, crash⟩
        cases reads with
        | older _ _ reads => exact ⟨archive, reads, crash⟩
        | above | own => exact absurd rfl here

end Scope

namespace World

theorem attempt_cases (w : World) (id : ScopeId) (name : String) :
    w.attempt id name = .crash ∨ w.attempt id name = .answer (w.resolve id name) := by
  unfold attempt
  split
  · exact .inl rfl
  · exact .inr rfl

theorem attempt_eq_crash {w : World} {id : ScopeId} {name : String} :
    w.attempt id name = .crash ↔ ∃ archive, Scope.Reads w.files name archive w.scopes id ∧
      archive.read (TypeName.entryPath name) = .crash := by
  rw [← Scope.crashes_iff, ← crashes, attempt]
  split <;> simp [*]

/-! ### Queries -/

section
variable {w : World} {id : ScopeId} {policy : ArchivePolicy} {base handle : TypeHandle}
  {name : String}

theorem attempt_crash_iff : w.attempt id name = .crash ↔ w.crashes id name = true := by
  unfold attempt
  split <;> simp [*]

/-- Asking what a type extends crashes exactly if the handle is valid and the lookup of the name it
gives crashes. -/
theorem attemptSupertype_eq_crash : w.attemptSupertype id handle = .crash ↔
    w.isValid handle = true ∧
      ∃ name, handle.superName = some name ∧ w.attempt id name = .crash := by
  simp only [attempt_crash_iff]
  unfold attemptSupertype supertypeCrashes
  cases handle.superName <;> simp

/-- The lookup of a listed name crashes, or that of what its type extends. -/
inductive Crashing (w : World) (id : ScopeId) (name : String) : Prop where
  | type : w.attempt id name = .crash → Crashing w id name
  | supertype {handle : TypeHandle} {middle : World} : w.resolve id name = (.ok handle, middle) →
      middle.attemptSupertype id handle = .crash → Crashing w id name

theorem relateCrashes_iff : w.relateCrashes id name = true ↔ w.Crashing id name := by
  have asks {middle : World} {handle : TypeHandle} : middle.supertypeCrashes id handle = true ↔
      middle.attemptSupertype id handle = .crash := by
    unfold attemptSupertype
    split <;> simp [*]
  rw [relateCrashes, Bool.or_eq_true, ← attempt_crash_iff]
  constructor
  · rintro (crash | crash)
    · exact .type crash
    · split at crash
      · rename_i resolving
        exact .supertype resolving (asks.mp crash)
      · cases crash
  · rintro (crash | ⟨resolving, crash⟩)
    · exact .inl crash
    · rw [resolving]
      exact .inr (asks.mpr crash)

theorem listingCrashes_iff {items : List (Except LoadError String)} :
    listingCrashes id items w = true ↔ ∃ names name rest reached,
      items = names.map .ok ++ .ok name :: rest ∧ Answers id w names reached ∧
        reached.Crashing id name := by
  induction items generalizing w with
  | nil => simp [listingCrashes]
  | cons item rest ih =>
    cases item with
    | error e =>
      simp only [listingCrashes, Bool.false_eq_true, false_iff]
      rintro ⟨names, _, _, _, same, _⟩
      cases names <;> cases same
    | ok name =>
      rw [listingCrashes, Bool.or_eq_true, relateCrashes_iff]
      constructor
      · rintro (crashing | crash)
        · exact ⟨[], name, rest, w, rfl, .nil w, crashing⟩
        · split at crash
          · rename_i relating
            obtain ⟨middle, resolving, extending⟩ := relate_ok_cases relating
            obtain ⟨names, other, later, reached, rfl, answers, crashing⟩ := ih.mp crash
            exact ⟨name :: names, other, later, reached, rfl,
              .cons resolving extending answers, crashing⟩
          · cases crash
      · rintro ⟨names, other, later, reached, same, answers, crashing⟩
        cases answers with
        | nil =>
          cases same
          exact .inl crashing
        | cons resolving extending answers =>
          cases same
          rw [relate_of_answers resolving extending]
          exact .inr (ih.mpr ⟨_, other, later, reached, rfl, answers, crashing⟩)

theorem sourcesCrash_cons (source : PluginSource) (sources : List PluginSource) (w : World) :
    sourcesCrash id policy base (source :: sources) w =
      (listingCrashes id (source.listing w.files) w ||
        match subtypesAmong id policy base source (source.listing w.files) [] w with
        | (.ok _, after) => sourcesCrash id policy base sources after
        | (.error _, _) => false) := by
  simp only [sourcesCrash, PluginSource.listing]
  cases source.archive w.files with
  | ok archive => rfl
  | error e => cases policy <;> rfl

theorem sourcesCrash_iff {sources : List PluginSource} :
    sourcesCrash id policy base sources w = true ↔ ∃ source name reached,
      w.ComesTo id policy sources source (.ok name) reached ∧ reached.Crashing id name := by
  induction sources generalizing w with
  | nil =>
    simp only [sourcesCrash, Bool.false_eq_true, false_iff]
    rintro ⟨_, _, _, ⟨earlier, _, _, _, same, _⟩, _⟩
    cases earlier <;> cases same
  | cons source sources ih =>
    rw [sourcesCrash_cons, Bool.or_eq_true, listingCrashes_iff]
    constructor
    · rintro (⟨names, name, rest, reached, listed, answers, crashing⟩ | crash)
      · refine ⟨source, name, reached, ⟨[], sources, names, rest, rfl, ?_, listed, answers⟩,
          crashing⟩
        exact fun _ => List.forall_mem_nil _
      · split at crash
        · rename_i types middle asked
          obtain ⟨first, whole⟩ := subtypesAmong_ok_answers asked
          obtain ⟨later, name, reached, comes, crashing⟩ := ih.mp crash
          exact ⟨later, name, reached, comes.behind first whole, crashing⟩
        · cases crash
    · rintro ⟨later, name, reached, comes, crashing⟩
      obtain ⟨names, rest, rfl, listed, answers⟩ | ⟨middle, first, whole, comes⟩ :=
        comes.cases_cons
      · exact .inl ⟨names, name, rest, reached, listed, answers, crashing⟩
      · obtain ⟨types, asked⟩ := subtypesAmong_whole base source first whole []
        rw [asked]
        exact .inr (ih.mpr ⟨later, name, reached, comes, crashing⟩)

/-- A query for subtypes crashes exactly if it comes to a listed name whose lookup crashes, or the
lookup of what its type extends does; all names before that were answered. Else it answers. -/
theorem attemptSubtypes_eq_crash {parent : ScopeId} {own : LoadingContext}
    (at_id : Scope.get? w.scopes id = some (.context parent own)) :
    (w.attemptSubtypes id base = .crash ↔ ∃ source name reached,
      w.ComesTo id own.policy own.sources source (.ok name) reached ∧
        reached.Crashing id name) ∧
    (w.attemptSubtypes id base = .crash ∨
      w.attemptSubtypes id base = .answer (w.directSubtypes id base)) := by
  have crashing : sourcesCrash id own.policy base own.sources w = true ↔ _ := sourcesCrash_iff
  rw [← crashing]
  unfold attemptSubtypes subtypesCrash context?
  rw [at_id]
  dsimp only
  split <;> simp [*]

end

/-- What a declared size does, in any archive and at any path. Reading ends in a crash exactly if
the entry is there, is in a form that can be decoded, and declares more than can be reserved. Else
it ends with no entry, a content or the failure of the archive, and the answer is the same for any
other declared sizes that do not crash. A lookup crashes exactly if it reads an archive that does
so on the entry of the name. -/
theorem declared_size_counts_above_limit (archive : Archive) (path : String) (w : World)
    (id : ScopeId) (name : String) :
    (archive.read path = .crash ↔ ∃ entry bytes, archive.container.find? path = some entry ∧
      archive.container.stored entry = .ok bytes ∧ Archive.reservationLimit < entry.size) ∧
    (archive.read path = .crash ∨ archive.read path = .answer (.ok none) ∨
      (∃ content, archive.read path = .answer (.ok (some content))) ∨
      ∃ fault, archive.read path = .answer (.error (.archiveRead archive.location fault))) ∧
    (∀ sizes, (archive.resize sizes).read path = .crash ∨ archive.read path = .crash ∨
      (archive.resize sizes).read path = archive.read path) ∧
    (w.attempt id name = .crash ↔ ∃ archive, Scope.Reads w.files name archive w.scopes id ∧
      archive.read (TypeName.entryPath name) = .crash) ∧
    (w.attempt id name = .crash ∨ w.attempt id name = .answer (w.resolve id name)) := by
  refine ⟨Archive.read_eq_crash, ?_, fun sizes => ?_, attempt_eq_crash, w.attempt_cases id name⟩
  · rcases archive.read_cases path with crash | answer
    · exact .inl crash
    · rw [answer]
      rcases archive.readEntry_cases path with absent | ⟨content, found⟩ | ⟨fault, failed⟩
      · exact .inr (.inl (by rw [absent]))
      · exact .inr (.inr (.inl ⟨content, by rw [found]⟩))
      · exact .inr (.inr (.inr ⟨fault, by rw [failed]⟩))
  · rcases (archive.resize sizes).read_cases path with crash | resized
    · exact .inl crash
    · rcases archive.read_cases path with crash | answer
      · exact .inr (.inl crash)
      · exact .inr (.inr (by rw [resized, answer, Archive.readEntry_resize]))

/-- The archive of `A`, with a directory that declares 2^63 bytes for its entry. -/
def archiveOfLargeA : ByteArray :=
  ⟨#[80, 75, 3, 4, 20, 0, 0, 0, 0, 0, 0, 0, 33, 0, 52, 207, 80, 155, 32, 0, 0, 0, 32, 0, 0, 0, 7,
    0, 0, 0, 65, 46, 99, 108, 97, 115, 115, 202, 254, 186, 190, 0, 0, 0, 52, 0, 5, 1, 0, 1, 65, 7,
    0, 1, 1, 0, 1, 79, 7, 0, 3, 0, 33, 0, 2, 0, 4, 0, 0, 80, 75, 1, 2, 20, 3, 20, 0, 0, 0, 0, 0, 0,
    0, 33, 0, 52, 207, 80, 155, 32, 0, 0, 0, 255, 255, 255, 255, 7, 0, 12, 0, 0, 0, 0, 0, 0, 0, 0,
    0, 128, 1, 0, 0, 0, 0, 65, 46, 99, 108, 97, 115, 115, 1, 0, 8, 0, 0, 0, 0, 0, 0, 0, 0, 128, 80,
    75, 5, 6, 0, 0, 0, 0, 1, 0, 1, 0, 65, 0, 0, 0, 69, 0, 0, 0, 0, 0]⟩

def largeEntryOfA : Zip.Entry := { entryOfA with size := 0x8000000000000000 }

def filesOfLargeA : FileSystem := ⟨[(["a.jar"], .file archiveOfLargeA)], []⟩

theorem open_largeA : Archive.open? filesOfLargeA "/a.jar" =
    .ok ⟨"/a.jar", ⟨archiveOfLargeA, [largeEntryOfA]⟩⟩ :=
  Archive.open_of_entries
    (FileSystem.read_jar filesOfLargeA (some archiveOfLargeA)
      (by simp [filesOfLargeA, FileSystem.node?]))
    (by decide +kernel)

/-- An archive that opens, and whose entry of `A` has a sound content of 32 bytes: reading that
entry crashes, and so does looking for `A`. -/
theorem large_entry_crashes :
    let archive : Archive := ⟨"/a.jar", ⟨archiveOfLargeA, [largeEntryOfA]⟩⟩
    let w := (start filesOfLargeA).run [.addHost [], .addContext 0 "plugins" [⟨"/a.jar"⟩] .abort]
    Archive.open? filesOfLargeA "/a.jar" = .ok archive ∧
      archive.readEntry "A.class" = .ok (some contentOfA) ∧ archive.read "A.class" = .crash ∧
      w.attempt 1 "A" = .crash := by
  intro archive w
  have stored : archive.container.stored largeEntryOfA = .ok contentOfA := by decide +kernel
  have crash : archive.read "A.class" = .crash :=
    Archive.read_eq_crash.mpr ⟨largeEntryOfA, contentOfA, by decide +kernel, stored, by decide⟩
  refine ⟨open_largeA, by decide +kernel, crash, attempt_eq_crash.mpr ⟨archive, ?_, ?_⟩⟩
  · exact .own rfl rfl (by decide +kernel) (.here (.opened open_largeA))
  · rwa [entryPath_A]

end World
end PluginLoader
