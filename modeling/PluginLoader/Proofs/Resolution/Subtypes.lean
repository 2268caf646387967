import PluginLoader.Proofs.Resolution.Listing
import PluginLoader.Proofs.Resolution.Stateless

/-! Subtype queries as filters. In a world whose files stay as they are a query succeeds if and only
if every listed name can be related, and then its result is what its listings give, in order and as
often, of the types that extend the base. For a base that the scope gave, these are the types that
declare to extend its name. -/
namespace PluginLoader

/-- A name stands for a type in a scope, and so does the name which that type declares to extend. -/
def Blueprint.Relatable (files : FileSystem) (scopes : List Blueprint) (id : ScopeId)
    (name : String) : Prop :=
  ∃ descriptor, lookup files scopes id name = .ok descriptor ∧
    ∀ superName, descriptor.superName = some superName →
      ∃ supertype, lookup files scopes id superName = .ok supertype

namespace World
variable {files : FileSystem} {w after : World} {id : ScopeId} {policy : ArchivePolicy}
  {base : TypeHandle} {source : PluginSource}

/-! ### When a query succeeds -/

namespace Undisturbed

theorem lookup_ok_iff (calm : w.Undisturbed files id) (name : String) :
    (∃ descriptor, Blueprint.lookup files (w.scopes.map Scope.blueprint) id name =
      .ok descriptor) ↔ ∃ handle, (w.resolve id name).1 = .ok handle := by
  rw [← calm.lookup name]
  cases (w.resolve id name).1 with
  | ok handle => simp [Except.map]
  | error e => simp [Except.map]

/-- In an undisturbed world a name can be related, now or after any lookups, exactly if it and what
it declares to extend resolve. -/
theorem relatable_iff (calm : w.Undisturbed files id) (name : String) :
    Blueprint.Relatable files (w.scopes.map Scope.blueprint) id name ↔
      ∃ handle, (w.resolve id name).1 = .ok handle ∧
        ∀ superName, handle.superName = some superName →
          ∃ supertype, (w.resolve id superName).1 = .ok supertype := by
  simp only [Blueprint.Relatable, calm.lookup_ok_iff]
  rw [← calm.lookup name]
  cases (w.resolve id name).1 with
  | ok handle => simp [Except.map, TypeHandle.superName]
  | error e => simp [Except.map]

theorem relate_ok_iff (calm : w.Undisturbed files id) (name : String) :
    (∃ row, (w.relate id name).1 = .ok row) ↔
      Blueprint.Relatable files (w.scopes.map Scope.blueprint) id name := by
  rw [calm.relatable_iff, relate]
  rcases asked : w.resolve id name with ⟨e | handle, after⟩
  · simp
  · have lookups := resolve_lookups asked
    have later := calm.lookups lookups
    have holds := (resolve_holds calm.numbered (congrArg Prod.fst asked)).2
    rw [asked] at holds
    have valid : after.isValid handle = true := isValid_of_holds later.numbered holds
    simp only [Except.ok.injEq, exists_eq_left', directSupertype, if_pos valid]
    cases declared : handle.superName with
    | none => simp
    | some superName =>
      simp only [Option.some.injEq, forall_eq']
      rw [← calm.lookup_ok_iff, ← lookups.blueprint, later.lookup_ok_iff]
      rcases after.resolve id superName with ⟨e | supertype, last⟩ <;> simp

end Undisturbed

theorem subtypesAmong_ok_iff (calm : w.Undisturbed files id)
    (items : List (Except LoadError String)) (found : List TypeHandle) :
    (∃ types, (subtypesAmong id policy base source items found w).1 = .ok types) ↔
      (∀ name ∈ listedNames items,
        Blueprint.Relatable files (w.scopes.map Scope.blueprint) id name) ∧
      (policy = .abort → ∀ e, .error e ∉ items) := by
  induction items generalizing found w with
  | nil => simp [subtypesAmong, listedNames]
  | cons item rest ih =>
    cases item with
    | error e =>
      cases policy with
      | abort =>
        simp only [subtypesAmong, reduceCtorEq, exists_false, false_iff]
        rintro ⟨_, listings⟩
        exact listings trivial e List.mem_cons_self
      | skip => simp [subtypesAmong, listedNames]
    | ok name =>
      have relatable := calm.relate_ok_iff name
      rw [subtypesAmong]
      rcases asked : w.relate id name with ⟨e | ⟨handle, supertype⟩, after⟩
      · rw [asked] at relatable
        simp [listedNames, ← relatable]
      · have lookups := relate_lookups asked
        rw [asked] at relatable
        dsimp only
        rw [ih (calm.lookups lookups), lookups.blueprint]
        simp [listedNames, ← relatable]

theorem subtypesIn_ok_iff (calm : w.Undisturbed files id) (sources : List PluginSource)
    (found : List TypeHandle) :
    (∃ types, (subtypesIn id policy base sources found w).1 = .ok types) ↔
      (∀ name ∈ namesIn files sources,
        Blueprint.Relatable files (w.scopes.map Scope.blueprint) id name) ∧
      (policy = .abort → ∀ source ∈ sources, ∀ e, .error e ∉ source.listing files) := by
  induction sources generalizing found w with
  | nil => simp [subtypesIn, namesIn]
  | cons source sources ih =>
    have head : (∃ types, (subtypesAmong id policy base source _ found w).1 = .ok types) ↔ _ :=
      subtypesAmong_ok_iff calm (source.listing files) found
    rw [subtypesIn_cons, calm.same]
    rcases asked : subtypesAmong id policy base source (source.listing files) found w with
      ⟨e | types, after⟩
    · rw [asked] at head
      simp only [reduceCtorEq, exists_false, false_iff] at head
      simp only [reduceCtorEq, exists_false, false_iff]
      rintro ⟨names, listings⟩
      refine head ⟨fun name listed => names name ?_, fun aborts => ?_⟩
      · exact List.mem_append_left _ listed
      · exact listings aborts source List.mem_cons_self
    · have lookups := subtypesAmong_lookups asked
      rw [asked] at head
      dsimp only
      rw [ih (calm.lookups lookups), lookups.blueprint]
      obtain ⟨names, listings⟩ := head.mp ⟨types, rfl⟩
      constructor
      · rintro ⟨others, otherListings⟩
        refine ⟨fun name listed => ?_, fun aborts => ?_⟩
        · exact (List.mem_append.mp listed).elim (names name) (others name)
        · exact List.forall_mem_cons.mpr ⟨listings aborts, otherListings aborts⟩
      · rintro ⟨all, allListings⟩
        refine ⟨fun name listed => ?_, fun aborts => ?_⟩
        · exact all name (List.mem_append_right _ listed)
        · exact fun other member => allListings aborts other (List.mem_cons_of_mem _ member)

/-! ### Types a scope gave -/

/-- An event hands out a type if it asks the scope and succeeds. -/
inductive Gives (w : World) (id : ScopeId) : Event → TypeHandle → Prop where
  | resolve {name : String} {handle : TypeHandle} : (w.resolve id name).1 = .ok handle →
      Gives w id (.resolve id name) handle
  | directSupertype {subtype handle : TypeHandle} :
      (w.directSupertype id subtype).1 = .ok (some handle) →
      Gives w id (.directSupertype id subtype) handle
  | directSubtypes {base handle : TypeHandle} {types : List TypeHandle} :
      (w.directSubtypes id base).1 = .ok types → handle ∈ types →
      Gives w id (.directSubtypes id base) handle

def Gave (files : FileSystem) (events : List Event) (id : ScopeId) (handle : TypeHandle) : Prop :=
  ∃ before e rest, events = before ++ e :: rest ∧
    Gives ((start files).run before) id e handle

theorem Settled.named {name : String} {handle : TypeHandle}
    (settled : w.Settled id name (.ok handle))
    (numbered : Scope.Each Scope.Numbered w.scopes) : handle.name = name ∧ w.Holds handle := by
  have asked := settled.resolve
  have stands := resolve_holds numbered (congrArg Prod.fst asked)
  rwa [asked] at stands

theorem Rows.mem {names : List String} {rows : List (TypeHandle × Option TypeHandle)}
    (related : w.Rows id names rows) {handle : TypeHandle} (member : handle ∈ rows.map Prod.fst) :
    ∃ name, w.Settled id name (.ok handle) := by
  induction related with
  | nil => cases member
  | @cons name row names rows first rest ih =>
    rcases List.mem_cons.mp member with rfl | member
    · exact ⟨name, first.1⟩
    · exact ih member

theorem Gives.settled {e : Event} {handle : TypeHandle} (gives : w.Gives id e handle) :
    ∃ name, (w.perform e).Settled id name (.ok handle) := by
  cases gives with
  | @resolve name _ found =>
    rcases asked : w.resolve id name with ⟨answer, after⟩
    rw [asked] at found
    cases found
    refine ⟨name, ?_⟩
    rw [perform, asked]
    exact resolve_ok_settles asked
  | @directSupertype subtype _ found =>
    rcases asked : w.directSupertype id subtype with ⟨answer, after⟩
    rw [asked] at found
    cases found
    rw [perform, asked]
    cases directSupertype_ok asked with
    | @type name _ _ settled => exact ⟨name, settled⟩
  | @directSubtypes base _ types found member =>
    rcases asked : w.directSubtypes id base with ⟨answer, after⟩
    rw [asked] at found
    cases found
    rw [perform, asked]
    unfold World.directSubtypes at asked
    split at asked
    · obtain ⟨rows, related, rfl⟩ := subtypesIn_ok asked
      refine related.mem ?_
      obtain ⟨row, picked, rfl⟩ := List.mem_map.mp member
      exact List.mem_map_of_mem (List.mem_of_mem_filter picked)
    · cases asked
      cases member

theorem Settled.append {before rest : List Event} {name : String} {handle : TypeHandle}
    (settled : ((start files).run before).Settled id name (.ok handle))
    (spared : ∀ target ∈ ((start files).run (before ++ rest)).chain id,
      Event.close target ∉ before ++ rest) :
    ((start files).run (before ++ rest)).Settled id name (.ok handle) := by
  have there := Scope.Settled.there settled
  obtain ⟨_, same⟩ := ((start files).run before).run_blueprint rest
  rw [run_append] at spared ⊢
  refine settled.run there fun target inside closing => ?_
  rw [← chain_of_blueprint same there] at inside
  exact spared target inside (List.mem_append_right _ closing)

theorem Gave.early {events : List Event} {handle : TypeHandle}
    (gave : Gave files events id handle) :
    ∃ before rest, events = before ++ rest ∧
      ((start files).run before).Settled id handle.name (.ok handle) := by
  obtain ⟨before, e, rest, rfl, gives⟩ := gave
  obtain ⟨name, settled⟩ := gives.settled
  have early : ((start files).run (before ++ [e])).Settled id name (.ok handle) := by
    rw [run_append]
    exact settled
  have named := (early.named (numbered_run files (before ++ [e]))).1
  exact ⟨before ++ [e], rest, by simp, named ▸ early⟩

theorem Gave.settled {events : List Event} {handle : TypeHandle}
    (gave : Gave files events id handle)
    (spared : ∀ target ∈ ((start files).run events).chain id, Event.close target ∉ events) :
    ((start files).run events).Settled id handle.name (.ok handle) := by
  obtain ⟨before, rest, rfl, early⟩ := gave.early
  exact early.append spared

/-! ### The query as a filter -/

/-- Asked in the scope, the type has the base as its direct supertype. -/
def extendsBase (w : World) (id : ScopeId) (base handle : TypeHandle) : Bool :=
  match (w.directSupertype id handle).1 with
  | .ok supertype => isSame base supertype
  | .error _ => false

theorem Rows.pick_eq {names : List String} {rows : List (TypeHandle × Option TypeHandle)}
    (related : w.Rows id names rows) (numbered : Scope.Each Scope.Numbered w.scopes)
    (base : TypeHandle) : pick base rows = (rows.map Prod.fst).filter (w.extendsBase id base) := by
  unfold pick
  induction related with
  | nil => rfl
  | @cons name row names rows first rest ih =>
    obtain ⟨settled, declared⟩ := first
    have valid := isValid_of_holds numbered (settled.named numbered).2
    have same : w.extendsBase id base row.1 = isSame base row.2 := by
      rw [extendsBase, declared.directSupertype valid]
    cases picked : isSame base row.2 <;> simp [picked, same, ih]

/-- A type extends a base that is settled for its own name if and only if it declares that name. -/
theorem Extends.isSame_iff {handle : TypeHandle} {supertype : Option TypeHandle}
    (declared : w.Extends id handle supertype) (numbered : Scope.Each Scope.Numbered w.scopes)
    (given : w.Settled id base.name (.ok base)) :
    isSame base supertype = true ↔ handle.superName = some base.name := by
  cases declared with
  | root none => simp [isSame, none]
  | @type name supertype declares settled =>
    rw [declares, Option.some.injEq]
    obtain ⟨named, holds⟩ := settled.named numbered
    constructor
    · -- one handle for both, so one name
      intro same
      rw [← named, issued_unique numbered holds.issued (given.named numbered).2 same]
    · -- one name, and what is settled for it is unique
      intro names
      subst names
      rw [Except.ok.inj (Scope.Settled.unique settled given)]
      simp [isSame, TypeHandle.same]

theorem Rows.filter_name {names : List String} {rows : List (TypeHandle × Option TypeHandle)}
    (related : w.Rows id names rows) (numbered : Scope.Each Scope.Numbered w.scopes)
    (given : w.Settled id base.name (.ok base)) :
    pick base rows =
      (rows.map Prod.fst).filter fun handle => handle.superName = some base.name := by
  unfold pick
  induction related with
  | nil => rfl
  | @cons name row names rows first rest ih =>
    have declares := first.2.isSame_iff numbered given
    cases picked : isSame base row.2 <;> simp_all

/-- A subtype query is a filter. In any run that leaves the files alone, let a context with no
closed context on its chain list the names of its sources. Its query for the direct subtypes of a
base succeeds if and only if each listed name resolves, and so does what its type declares to
extend, and, where unreadable archives are not tolerated, no listing fails. Then it gives the types
of the listed names, in order and as often, less those whose direct supertype is not the base; and
if the scope gave that base, less those that do not declare its name. How the query ends has nothing
to do with the base. -/
theorem directSubtypes_eq_filter (files : FileSystem) (events : List Event) (id parent : ScopeId)
    (own : LoadingContext) (base : TypeHandle)
    (at_id : Scope.get? ((start files).run events).scopes id = some (.context parent own))
    (unchanged : ∀ other, Event.change other ∉ events)
    (spared : ∀ target ∈ ((start files).run events).chain id, Event.close target ∉ events) :
    let w := (start files).run events
    let after := (w.directSubtypes id base).2
    ((∃ types, (w.directSubtypes id base).1 = .ok types) ↔
      (∀ name ∈ namesIn files own.sources, ∃ handle, (w.resolve id name).1 = .ok handle ∧
        ∀ superName, handle.superName = some superName →
          ∃ supertype, (w.resolve id superName).1 = .ok supertype) ∧
      (own.policy = .abort → ∀ source ∈ own.sources, ∀ e, .error e ∉ source.listing files)) ∧
    (∀ types, (w.directSubtypes id base).1 = .ok types → ∃ handles,
      List.Forall₂ (fun name handle => (after.resolve id name).1 = .ok handle)
        (namesIn files own.sources) handles ∧
      types = handles.filter (after.extendsBase id base) ∧
      (Gave files events id base →
        types = handles.filter fun handle => handle.superName = some base.name)) ∧
    ∀ other, ending (w.directSubtypes id other) = ending (w.directSubtypes id base) := by
  intro w after
  have calm : w.Undisturbed files id := undisturbed_run files events id unchanged spared
  have query : w.directSubtypes id base = subtypesIn id own.policy base own.sources [] w := by
    rw [directSubtypes, context?, at_id]
  refine ⟨?_, ?_, fun other => directSubtypes_ending w id other base⟩
  · rw [query, subtypesIn_ok_iff calm]
    simp only [calm.relatable_iff]
  · intro types succeeded
    have asked : subtypesIn id own.policy base own.sources [] w = (.ok types, after) := by
      rw [← query, ← succeeded]
    obtain ⟨rows, related, rfl⟩ := subtypesIn_ok asked
    have lookups := subtypesIn_lookups asked
    have numbered := (calm.lookups lookups).numbered
    rw [calm.same] at related
    refine ⟨rows.map Prod.fst, ?_, related.pick_eq numbered base, fun gave => ?_⟩
    · rw [List.forall₂_map_right_iff]
      refine List.Forall₂.imp ?_ related
      rintro name row ⟨settled, _⟩
      rw [settled.resolve]
    · exact related.filter_name numbered ((gave.settled spared).lookups lookups)

/-- The type `A` of an archive is the one that extends the host's type `O`. -/
theorem subtypes_of_host_type :
    let w := (start filesOfA).run [.addHost [("O", none, ⟨0x21⟩)],
      .addContext 0 "plugins" [⟨"/a.jar"⟩] .abort, .resolve 1 "O"]
    ∃ base types, (w.resolve 1 "O").1 = .ok base ∧ (w.directSubtypes 1 base).1 = .ok types ∧
      types.map TypeHandle.name = ["A"] := by
  intro w
  let base : TypeHandle := ⟨0, 0, ⟨"O", none, [], ⟨0x21⟩, .host⟩⟩
  have given : (w.resolve 1 "O").1 = .ok base := by rfl
  obtain ⟨success, filtered, _⟩ := directSubtypes_eq_filter filesOfA
    [.addHost [("O", none, ⟨0x21⟩)], .addContext 0 "plugins" [⟨"/a.jar"⟩] .abort, .resolve 1 "O"]
    1 0 (LoadingContext.make "plugins" [⟨"/a.jar"⟩] .abort) base rfl (by simp) (by simp)
  have calm : w.Undisturbed filesOfA 1 := undisturbed_run filesOfA _ 1 (by simp) (by simp)
  have shape : w.scopes.map Scope.blueprint =
      [.context 0 [⟨"/a.jar"⟩] .abort, .host (HostTypes.ofDefinitions [("O", none, ⟨0x21⟩)])] := rfl
  have listing : PluginSource.listing ⟨"/a.jar"⟩ filesOfA = [.ok "A"] := by
    simp only [PluginSource.listing, PluginSource.archive, Archive.open?, read_archiveOfA]
    decide +kernel
  have names : namesIn filesOfA [⟨"/a.jar"⟩] = ["A"] := by
    rw [namesIn, List.flatMap_cons, listing]
    rfl
  have typeA := lookup_filesOfA
  rw [← shape] at typeA
  have succeeds : ∃ types, (w.directSubtypes 1 base).1 = .ok types := by
    apply success.mpr
    constructor
    · intro name listed
      rw [LoadingContext.make, names, List.mem_singleton] at listed
      subst listed
      refine (calm.relatable_iff "A").mp ⟨_, typeA, ?_⟩
      rintro _ ⟨⟩
      exact (calm.lookup_ok_iff "O").mpr ⟨base, given⟩
    · intro _ source member e failing
      rw [List.mem_singleton.mp member, listing] at failing
      cases List.mem_singleton.mp failing
  obtain ⟨types, found⟩ := succeeds
  obtain ⟨handles, resolved, _, chosen⟩ := filtered types found
  have lookups : Lookups 1 w (w.directSubtypes 1 base).2 := directSubtypes_lookups rfl
  change List.Forall₂ _ (namesIn filesOfA [⟨"/a.jar"⟩]) handles at resolved
  rw [names] at resolved
  cases resolved with
  | @cons _ handle _ _ first rest =>
    cases rest
    have described := (calm.lookups lookups).lookup "A"
    rw [first, lookups.blueprint, typeA] at described
    have descriptor := Except.ok.inj described
    refine ⟨base, types, given, found, ?_⟩
    rw [chosen ⟨[.addHost _, .addContext 0 _ _ _], .resolve 1 "O", [], rfl, .resolve given⟩]
    simp [TypeHandle.superName, TypeHandle.name, descriptor, base]

end World
end PluginLoader
