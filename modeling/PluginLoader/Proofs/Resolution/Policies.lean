import PluginLoader.Proofs.Resolution.Siblings
import PluginLoader.Proofs.Resolution.Tolerance

/-! What it costs and gains to pass failures over. Where a context that aborts has an answer, one
that passes failures over has the same; what changes is that failures to read an archive become
answers. -/
namespace PluginLoader

/-! ### Without state -/

section
variable {files : FileSystem} {name : String}
  {find other : String → Except LoadError TypeDescriptor}

/-- A sweep that no archive made fail met no failure that could be passed over. -/
theorem sweep_skip_of_abort {sources : List PluginSource}
    (definite : ∀ e, Blueprint.sweep files .abort name sources = .error e →
      e.isArchiveRead = false) :
    Blueprint.sweep files .skip name sources = Blueprint.sweep files .abort name sources := by
  induction sources with
  | nil => rfl
  | cons source sources ih =>
    rw [Blueprint.sweep_cons] at definite ⊢
    rw [Blueprint.sweep_cons]
    cases opening : source.archive files with
    | error e =>
      rw [opening] at definite
      have blamed := definite e rfl
      rw [Archive.open_error opening] at blamed
      cases blamed
    | ok archive =>
      rw [opening] at definite
      dsimp only at definite ⊢
      cases reading : archive.readEntry (TypeName.entryPath name) with
      | error e =>
        rw [reading] at definite
        have blamed := definite e rfl
        rw [Archive.readEntry_error reading] at blamed
        cases blamed
      | ok content =>
        rw [reading] at definite
        cases content with
        | none => exact ih definite
        | some content => rfl

theorem relating_of_agree
    (agree : ∀ name descriptor, find name = .ok descriptor → other name = .ok descriptor)
    {descriptor : TypeDescriptor} (related : relating find name = .ok descriptor) :
    relating other name = .ok descriptor := by
  obtain ⟨found, extended⟩ := relating_ok_iff.mp related
  refine relating_ok_iff.mpr ⟨agree _ _ found, fun superName declared => ?_⟩
  obtain ⟨supertype, stands⟩ := extended superName declared
  exact ⟨supertype, agree _ _ stands⟩

theorem typesIn_skip_of_abort
    (agree : ∀ name descriptor, find name = .ok descriptor → other name = .ok descriptor)
    {sources : List PluginSource} {types : List TypeDescriptor}
    (listed : typesIn files find .abort sources = .ok types) :
    typesIn files other .skip sources = .ok types := by
  obtain ⟨related, _, rfl⟩ := typesIn_ok_iff.mp listed
  refine typesIn_ok_iff.mpr ⟨fun name member => ?_, by rintro ⟨⟩, ?_⟩
  · obtain ⟨descriptor, stands⟩ := related name member
    exact ⟨descriptor, relating_of_agree agree stands⟩
  · refine List.filterMap_congr fun name member => ?_
    obtain ⟨descriptor, stands⟩ := related name member
    have found := (relating_ok_iff.mp stands).1
    rw [found, agree _ _ found]

end

/-! ### Contexts that pass failures over -/

theorem Scope.resolve_tolerant {files : FileSystem} (scopes : List Scope) (id : ScopeId)
    (name : String) (tolerant : Throughout (·.policy = .skip) scopes id) :
    Definitive (resolve files scopes id name).1 := by
  revert tolerant
  apply resolve_induction (P := fun scopes id answer _ =>
    Throughout (·.policy = .skip) scopes id → Definitive answer)
  · rintro _ _ e ⟨⟩
    rfl
  · exact fun _ _ _ _ _ below _ ih tolerant => ih (tolerant.older below)
  · intro types older _ e failed
    unfold HostTypes.resolve at failed
    split at failed <;> cases failed
    rfl
  · intro parent own older answer known _ e failed
    subst failed
    rw [(LoadingContext.known_eq_error known).2]
    rfl
  · exact fun _ _ _ _ _ _ _ _ ih tolerant => ih tolerant.parent.2
  · intro parent own older after _ _ _ tolerant e failed
    rcases LoadingContext.define_fault failed with rfl | ⟨_, aborts⟩ | bad
    · rfl
    · cases tolerant.parent.1.symm.trans aborts
    · cases e <;> first | rfl | cases bad

namespace World
variable {files : FileSystem} {events : List Event} {parent id other : ScopeId}
  {own twin : LoadingContext} {a b : TypeHandle} {name : String}

/-- The scope and all contexts it inherits from pass failures over. -/
def Tolerant (w : World) (id : ScopeId) : Prop := Scope.Throughout (·.policy = .skip) w.scopes id

section
variable (first : Stands files events parent id own) (second : Stands files events parent other twin)
  (sources : own.sources = twin.sources) (aborts : own.policy = .abort)
  (skips : twin.policy = .skip)
include first second sources aborts skips

theorem lookup_skip_of_abort
    (definite : ∀ e, Scope.lookup files ((start files).run events).scopes id name = .error e →
      e.isArchiveRead = false) :
    Scope.lookup files ((start files).run events).scopes other name =
      Scope.lookup files ((start files).run events).scopes id name := by
  rcases first.lookup_cases second name with decided | ⟨one, two⟩
  · exact decided.symm
  · rw [one, aborts] at definite
    rw [one, two, skips, aborts, ← sources, sweep_skip_of_abort definite]

theorem subtypes_skip_of_abort (corresponding : Corresponding files events id other a b)
    {types : List TypeHandle}
    (found : (((start files).run events).directSubtypes id a).1 = .ok types) :
    ∃ others, (((start files).run events).directSubtypes other b).1 = .ok others ∧
      others.map TypeHandle.descriptor = types.map TypeHandle.descriptor := by
  obtain ⟨picks, picking, pickingOther⟩ := corresponding.picks first second
  have one := first.directSubtypes_eq picking
  rw [found, aborts] at one
  obtain ⟨all, listed, picked⟩ := map_eq_ok.mp one.symm
  have agree : ∀ name descriptor,
      Scope.lookup files ((start files).run events).scopes id name = .ok descriptor →
        Scope.lookup files ((start files).run events).scopes other name = .ok descriptor := by
    intro name descriptor stands
    rw [lookup_skip_of_abort first second sources aborts skips, stands]
    rw [stands]
    rintro e ⟨⟩
  have two := second.directSubtypes_eq pickingOther
  rw [skips, ← sources, typesIn_skip_of_abort agree listed] at two
  obtain ⟨others, answer, described⟩ := map_eq_ok.mp two
  exact ⟨others, answer, described.trans picked⟩

end

/-- Passing failures over only turns failures into answers. In any run that leaves the files alone,
let one context abort where another one of the same parent and sources passes over, and none be
closed that the two are or inherit from. Whatever the first answers without blaming an archive, the
second answers too, with the same type or the same failure, and where a query for subtypes succeeds
in the first it gives the same types in the second. In any run at all, a scope that passes failures
over together with all contexts it inherits from never blames an archive. -/
theorem abort_answers_kept (files : FileSystem) (events : List Event) :
    let w := (start files).run events
    (∀ parent id other own twin, Stands files events parent id own →
      Stands files events parent other twin → own.sources = twin.sources →
      own.policy = .abort → twin.policy = .skip →
      (∀ name, Scope.Definitive (w.resolve id name).1 →
        (w.resolve other name).1.map TypeHandle.descriptor =
          (w.resolve id name).1.map TypeHandle.descriptor) ∧
      ∀ a b types, Corresponding files events id other a b →
        (w.directSubtypes id a).1 = .ok types → ∃ others,
          (w.directSubtypes other b).1 = .ok others ∧
          others.map TypeHandle.descriptor = types.map TypeHandle.descriptor) ∧
    ∀ id, w.Tolerant id → ∀ name, Scope.Definitive (w.resolve id name).1 := by
  intro w
  refine ⟨?_, fun id tolerant name => Scope.resolve_tolerant w.scopes id name tolerant⟩
  intro parent id other own twin first second sources aborts skips
  constructor
  · intro name definite
    rw [second.calm.resolve_eq, first.calm.resolve_eq]
    apply lookup_skip_of_abort first second sources aborts skips
    rw [← first.calm.resolve_eq]
    intro e failed
    cases answer : (w.resolve id name).1 with
    | ok handle => rw [answer] at failed; cases failed
    | error fault =>
      rw [answer] at failed
      cases failed
      exact definite e answer
  · intro a b types corresponding found
    exact subtypes_skip_of_abort first second sources aborts skips corresponding found

/-! ### Contexts over a good and a damaged archive -/

/-- The supertype of `A`, as a host has it. -/
def hostO : HostTypes := HostTypes.ofDefinitions [("O", none, ⟨0x21⟩)]

def descriptorO : TypeDescriptor := ⟨"O", none, [], ⟨0x21⟩, .host⟩

def descriptorA : TypeDescriptor := ⟨"A", some "O", [], ⟨0x21⟩, .archive "/a.jar" "A.class"⟩

/-- Over the host, where only `A` is listed and failures are passed over, a context has `A` and
answers queries. -/
theorem answers_over_hostO {base : TypeHandle} {picks : TypeDescriptor → Bool}
    (stands : Stands files events 0 id own)
    (host : Scope.get? ((start files).run events).scopes 0 = some (.host hostO))
    (picking : ((start files).run events).Picks id base picks)
    (swept : Blueprint.sweep files own.policy "A" own.sources = .ok descriptorA)
    (listing : ∀ source ∈ own.sources, source.listing files = [.ok "A"] ∨
      own.policy = .skip ∧ ∃ e, source.listing files = [.error e]) :
    (((start files).run events).resolve id "A").1.map TypeHandle.descriptor = .ok descriptorA ∧
      ∃ types, (((start files).run events).directSubtypes id base).1 = .ok types := by
  have onHost : Scope.OverHost ((start files).run events).scopes id own hostO :=
    ⟨0, stands.below, stands.at_id, host⟩
  have inHost : hostO.find? "O" = some ⟨0, descriptorO⟩ := rfl
  have foundO : Scope.lookup files ((start files).run events).scopes id "O" = .ok descriptorO :=
    onHost.lookup_host inHost
  have foundA : Scope.lookup files ((start files).run events).scopes id "A" = .ok descriptorA := by
    rw [onHost.lookup_own rfl (by decide +kernel), swept]
  refine ⟨(stands.calm.resolve_eq "A").trans foundA, ?_⟩
  have related : relating (Scope.lookup files ((start files).run events).scopes id) "A" = _ :=
    relating_ok_iff.mpr ⟨foundA, by rintro _ ⟨⟩; exact ⟨_, foundO⟩⟩
  rw [exists_ok_of_map (stands.directSubtypes_eq picking)]
  refine ⟨_, typesIn_ok_iff.mpr ⟨fun name member => ?_, ?_, rfl⟩⟩
  · obtain ⟨source, inside, listed⟩ := List.mem_flatMap.mp member
    rcases listing source inside with only | ⟨_, e, lost⟩
    · rw [only] at listed
      exact ⟨_, List.mem_singleton.mp listed ▸ related⟩
    · rw [lost] at listed
      cases listed
  · intro aborts source inside e lost
    rcases listing source inside with only | ⟨skips, _⟩
    · rw [only] at lost
      cases List.mem_singleton.mp lost
    · cases aborts.symm.trans skips

/-- One host with two contexts over the archives. -/
def strictAndLenient : List Event :=
  [.addHost [("O", none, ⟨0x21⟩)],
    .addContext 0 "strict" [⟨"/a.jar"⟩, ⟨"/b.jar"⟩] .abort,
    .addContext 0 "lenient" [⟨"/a.jar"⟩, ⟨"/b.jar"⟩] .skip, .resolve 0 "O"]

theorem strict_answers_kept :
    let w := (start filesOfCopies).run strictAndLenient
    (w.resolve 2 "A").1.map TypeHandle.descriptor = .ok descriptorA ∧
      ∃ types others, (w.directSubtypes 1 ⟨0, 0, descriptorO⟩).1 = .ok types ∧
        (w.directSubtypes 2 ⟨0, 0, descriptorO⟩).1 = .ok others ∧
        others.map TypeHandle.descriptor = types.map TypeHandle.descriptor := by
  intro w
  let own := LoadingContext.make "strict" [⟨"/a.jar"⟩, ⟨"/b.jar"⟩] .abort
  let twin := LoadingContext.make "lenient" [⟨"/a.jar"⟩, ⟨"/b.jar"⟩] .skip
  have first : Stands filesOfCopies strictAndLenient 0 1 own :=
    ⟨by simp [strictAndLenient], rfl, by decide, by simp [strictAndLenient]⟩
  have second : Stands filesOfCopies strictAndLenient 0 2 twin :=
    ⟨by simp [strictAndLenient], rfl, by decide, by simp [strictAndLenient]⟩
  have gave : Gave filesOfCopies strictAndLenient 0 ⟨0, 0, descriptorO⟩ :=
    ⟨[_, _, _], .resolve 0 "O", [], rfl, .resolve (by rfl)⟩
  have corresponding : Corresponding filesOfCopies strictAndLenient 1 2 ⟨0, 0, descriptorO⟩ _ :=
    .shared gave (by decide) (by decide)
  have swept : Blueprint.sweep filesOfCopies .abort "A" own.sources = .ok descriptorA := by
    simp only [own, LoadingContext.make, Blueprint.sweep_cons, open_copies, entryPath_A,
      readEntry_archiveOfA, describe_contentOfA]
    rfl
  have listing : ∀ source ∈ own.sources, source.listing filesOfCopies = [.ok "A"] := by
    simp [own, LoadingContext.make, listing_copies]
  obtain ⟨picks, picking, _⟩ := corresponding.picks first second
  obtain ⟨given, types, found⟩ := answers_over_hostO first rfl picking swept fun source inside =>
    .inl (listing source inside)
  obtain ⟨kept, _⟩ := abort_answers_kept filesOfCopies strictAndLenient
  obtain ⟨answers, queries⟩ := kept 0 1 2 own twin first second rfl rfl rfl
  obtain ⟨handle, answer, _⟩ := map_eq_ok.mp given
  obtain ⟨others, foundOther, same⟩ := queries _ _ types corresponding found
  refine ⟨?_, types, others, found, foundOther, same⟩
  rw [answers "A" (answer ▸ definitive_ok handle), given]

end World
end PluginLoader
