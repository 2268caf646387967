import PluginLoader.Proofs.Resolution.Subtypes

/-! Queries without state. What a type extends and what sources list can be told by lookups alone,
from the files and from what the scopes are over. While the files stay as they are, a query answers
what is told in this way, whatever the world remembers. -/
namespace PluginLoader

/-- The type that a type declares to extend. -/
def extending (find : String → Except LoadError TypeDescriptor) (descriptor : TypeDescriptor) :
    Except LoadError (Option TypeDescriptor) :=
  match descriptor.superName with
  | none => .ok none
  | some superName => (find superName).map some

/-- What a name stands for, if what that extends stands for a type as well. -/
def relating (find : String → Except LoadError TypeDescriptor) (name : String) :
    Except LoadError TypeDescriptor :=
  match find name with
  | .error e => .error e
  | .ok descriptor => (extending find descriptor).map fun _ => descriptor

/-- The types a source lists, in order and as often, from a part of its listing on. -/
def typesAmong (find : String → Except LoadError TypeDescriptor) (policy : ArchivePolicy)
    (source : PluginSource) : List (Except LoadError String) → Except LoadError (List TypeDescriptor)
  | [] => .ok []
  | .error e :: _ =>
    match policy with
    | .abort => .error e
    | .skip => .ok []
  | .ok name :: rest =>
    match relating find name with
    | .error e => .error (.inconsistent name source.location e)
    | .ok descriptor => (typesAmong find policy source rest).map (descriptor :: ·)

/-- The types that sources list, in the order of sources. -/
def typesIn (files : FileSystem) (find : String → Except LoadError TypeDescriptor)
    (policy : ArchivePolicy) : List PluginSource → Except LoadError (List TypeDescriptor)
  | [] => .ok []
  | source :: sources =>
    match typesAmong find policy source (source.listing files) with
    | .error e => .error e
    | .ok types => (typesIn files find policy sources).map (types ++ ·)

/-! ### Listed types -/

theorem map_eq_ok {α β : Type} {answer : Except LoadError α} {f : α → β} {b : β} :
    answer.map f = .ok b ↔ ∃ a, answer = .ok a ∧ f a = b := by
  cases answer <;> simp [Except.map]

theorem exists_ok_of_map {α β γ : Type} {answer : Except LoadError α} {other : Except LoadError β}
    {f : α → γ} {g : β → γ} (same : answer.map f = other.map g) :
    (∃ a, answer = .ok a) ↔ ∃ b, other = .ok b := by
  cases answer <;> cases other <;> simp_all [Except.map]

/-- The types that names stand for. -/
def typesOf (find : String → Except LoadError TypeDescriptor) (names : List String) :
    List TypeDescriptor :=
  names.filterMap fun name => (find name).toOption

section
variable {files : FileSystem} {find : String → Except LoadError TypeDescriptor}
  {policy : ArchivePolicy} {types : List TypeDescriptor}

theorem relating_ok_iff {name : String} {descriptor : TypeDescriptor} :
    relating find name = .ok descriptor ↔
      find name = .ok descriptor ∧ ∀ superName, descriptor.superName = some superName →
        ∃ supertype, find superName = .ok supertype := by
  unfold relating
  cases find name with
  | error e => simp
  | ok other =>
    simp only [map_eq_ok, exists_and_right, Except.ok.injEq]
    rw [and_comm]
    refine and_congr_right ?_
    rintro rfl
    unfold extending
    cases other.superName <;> simp [map_eq_ok, exists_comm]

/-- Going through a source succeeds if every listed name can be related, and nothing is lost where
that is not allowed. -/
theorem typesAmong_ok_iff {source : PluginSource} {items : List (Except LoadError String)} :
    typesAmong find policy source items = .ok types ↔
      (∀ name ∈ listedNames items, ∃ descriptor, relating find name = .ok descriptor) ∧
      (policy = .abort → ∀ e, .error e ∉ items) ∧ types = typesOf find (listedNames items) := by
  induction items generalizing types with
  | nil => simp [typesAmong, listedNames, typesOf, eq_comm]
  | cons item rest ih =>
    cases item with
    | error e =>
      cases policy with
      | abort =>
        simp only [typesAmong, reduceCtorEq, false_iff]
        rintro ⟨_, complete, _⟩
        exact complete trivial e List.mem_cons_self
      | skip => simp [typesAmong, listedNames, typesOf, eq_comm]
    | ok name =>
      rw [typesAmong]
      cases related : relating find name with
      | error e => simp [listedNames, related]
      | ok descriptor =>
        have found := (relating_ok_iff.mp related).1
        have cons : typesOf find (name :: listedNames rest) =
            descriptor :: typesOf find (listedNames rest) := by
          simp [typesOf, found, Except.toOption]
        simp only [map_eq_ok, ih, listedNames, cons, List.forall_mem_cons]
        constructor
        · rintro ⟨_, ⟨names, complete, rfl⟩, rfl⟩
          exact ⟨⟨⟨_, related⟩, names⟩, fun aborts e => by simp [complete aborts e], rfl⟩
        · rintro ⟨⟨_, names⟩, complete, rfl⟩
          exact ⟨_, ⟨names, fun aborts e lost => complete aborts e (.tail _ lost), rfl⟩, rfl⟩

theorem typesIn_ok_iff {sources : List PluginSource} :
    typesIn files find policy sources = .ok types ↔
      (∀ name ∈ namesIn files sources, ∃ descriptor, relating find name = .ok descriptor) ∧
      (policy = .abort → ∀ source ∈ sources, ∀ e, .error e ∉ source.listing files) ∧
      types = typesOf find (namesIn files sources) := by
  induction sources generalizing types with
  | nil => simp [typesIn, namesIn, typesOf, eq_comm]
  | cons source sources ih =>
    have names : namesIn files (source :: sources) =
      listedNames (source.listing files) ++ namesIn files sources := rfl
    rw [typesIn]
    simp only [names, List.forall_mem_append, List.forall_mem_cons]
    cases among : typesAmong find policy source (source.listing files) with
    | error e =>
      simp only [reduceCtorEq, false_iff]
      rintro ⟨⟨here, _⟩, complete, _⟩
      have success : typesAmong find policy source (source.listing files) = .ok _ :=
        typesAmong_ok_iff.mpr ⟨here, fun aborts => (complete aborts).1, rfl⟩
      cases among.symm.trans success
    | ok first =>
      obtain ⟨here, complete, rfl⟩ := typesAmong_ok_iff.mp among
      simp only [map_eq_ok, ih]
      constructor
      · rintro ⟨_, ⟨there, others, rfl⟩, rfl⟩
        refine ⟨⟨here, there⟩, fun aborts => ⟨complete aborts, others aborts⟩, ?_⟩
        simp [typesOf]
      · rintro ⟨⟨_, there⟩, others, rfl⟩
        refine ⟨_, ⟨there, fun aborts => (others aborts).2, rfl⟩, ?_⟩
        simp [typesOf]

end

namespace World
variable {files : FileSystem} {w after : World} {id asker : ScopeId} {policy : ArchivePolicy}
  {base handle : TypeHandle} {source : PluginSource} {picks : TypeDescriptor → Bool}

theorem Lookups.lookup_eq (lookups : Lookups asker w after) :
    Scope.lookup files after.scopes id = Scope.lookup files w.scopes id := by
  funext name
  unfold Scope.lookup
  rw [lookups.blueprint]

/-- From now on the types that have the base as their direct supertype in the scope are those with
a descriptor that is picked. -/
def Picks (w : World) (id : ScopeId) (base : TypeHandle) (picks : TypeDescriptor → Bool) : Prop :=
  ∀ after, Lookups id w after → ∀ handle supertype, after.Extends id handle supertype →
    isSame base supertype = picks handle.descriptor

theorem Picks.lookups (picking : w.Picks id base picks) (lookups : Lookups id w after) :
    after.Picks id base picks :=
  fun later further => picking later (lookups.trans further)

namespace Undisturbed

theorem resolve_eq (calm : w.Undisturbed files id) (name : String) :
    (w.resolve id name).1.map TypeHandle.descriptor = Scope.lookup files w.scopes id name :=
  calm.lookup name

theorem directSupertype_eq (calm : w.Undisturbed files id) (valid : w.isValid handle = true) :
    (w.directSupertype id handle).1.map (Option.map TypeHandle.descriptor) =
      extending (Scope.lookup files w.scopes id) handle.descriptor := by
  have declared : handle.superName = handle.descriptor.superName := rfl
  rw [directSupertype, if_pos valid, extending, declared]
  cases handle.descriptor.superName with
  | none => rfl
  | some superName =>
    dsimp only
    rw [← calm.resolve_eq superName]
    rcases w.resolve id superName with ⟨e | supertype, after⟩ <;> rfl

theorem relate_eq (calm : w.Undisturbed files id) (name : String) :
    (w.relate id name).1.map (fun row => row.1.descriptor) =
      relating (Scope.lookup files w.scopes id) name := by
  rw [relate, relating, ← calm.resolve_eq name]
  rcases asked : w.resolve id name with ⟨e | handle, after⟩
  · rfl
  · have lookups := resolve_lookups asked
    have later := calm.lookups lookups
    have holds := (resolve_holds calm.numbered (congrArg Prod.fst asked)).2
    rw [asked] at holds
    have extended := later.directSupertype_eq (isValid_of_holds later.numbered holds)
    rw [lookups.lookup_eq] at extended
    simp only [Except.map]
    rw [← extended]
    rcases after.directSupertype id handle with ⟨e | supertype, last⟩ <;> rfl

theorem subtypesAmong_eq (calm : w.Undisturbed files id) (picking : w.Picks id base picks)
    (items : List (Except LoadError String)) (found : List TypeHandle) :
    (subtypesAmong id policy base source items found w).1.map (List.map TypeHandle.descriptor) =
      (typesAmong (Scope.lookup files w.scopes id) policy source items).map
        fun types => found.map TypeHandle.descriptor ++ types.filter picks := by
  induction items generalizing found w with
  | nil => simp [subtypesAmong, typesAmong, Except.map]
  | cons item rest ih =>
    cases item with
    | error e => cases policy <;> simp [subtypesAmong, typesAmong, Except.map]
    | ok name =>
      rw [subtypesAmong, typesAmong, ← calm.relate_eq name]
      rcases asked : w.relate id name with ⟨e | ⟨handle, supertype⟩, after⟩
      · rfl
      · have lookups := relate_lookups asked
        have same := picking after lookups handle supertype (relate_ok asked).2
        have rests := fun found => ih (calm.lookups lookups) (picking.lookups lookups) found
        rw [lookups.lookup_eq] at rests
        dsimp only
        rw [rests]
        cases typesAmong (Scope.lookup files w.scopes id) policy source rest with
        | error e => rfl
        | ok types => cases picked : picks handle.descriptor <;> simp [Except.map, same, picked]

theorem subtypesIn_eq (calm : w.Undisturbed files id) (picking : w.Picks id base picks)
    (sources : List PluginSource) (found : List TypeHandle) :
    (subtypesIn id policy base sources found w).1.map (List.map TypeHandle.descriptor) =
      (typesIn files (Scope.lookup files w.scopes id) policy sources).map
        fun types => found.map TypeHandle.descriptor ++ types.filter picks := by
  induction sources generalizing found w with
  | nil => simp [subtypesIn, typesIn, Except.map]
  | cons source sources ih =>
    have among : (subtypesAmong id policy base source (source.listing files) found w).1.map _ = _ :=
      calm.subtypesAmong_eq picking (source.listing files) found
    rw [subtypesIn_cons, typesIn, calm.same]
    rcases asked : subtypesAmong id policy base source (source.listing files) found w with
      ⟨e | types, after⟩
    · rw [asked] at among
      cases listed : typesAmong (Scope.lookup files w.scopes id) policy source
          (source.listing files) with
      | error fault =>
        rw [listed] at among
        cases among
        rfl
      | ok types => rw [listed] at among; cases among
    · rw [asked] at among
      have lookups := subtypesAmong_lookups asked
      have rests := ih (calm.lookups lookups) (picking.lookups lookups) types
      rw [lookups.lookup_eq] at rests
      dsimp only
      rw [rests]
      cases listed : typesAmong (Scope.lookup files w.scopes id) policy source
          (source.listing files) with
      | error fault => rw [listed] at among; cases among
      | ok first =>
        rw [listed] at among
        have described := Except.ok.inj among
        cases typesIn files (Scope.lookup files w.scopes id) policy sources with
        | error e => rfl
        | ok others => simp [Except.map, described]

/-- A query for subtypes gives the listed types that its base picks, or fails as going through the
listings without state does. -/
theorem directSubtypes_eq (calm : w.Undisturbed files id) {parent : ScopeId} {own : LoadingContext}
    (at_id : Scope.get? w.scopes id = some (.context parent own))
    (picking : w.Picks id base picks) :
    (w.directSubtypes id base).1.map (List.map TypeHandle.descriptor) =
      (typesIn files (Scope.lookup files w.scopes id) own.policy own.sources).map
        (List.filter picks) := by
  rw [directSubtypes, context?, at_id]
  exact calm.subtypesIn_eq picking own.sources []

end Undisturbed
end World
end PluginLoader
