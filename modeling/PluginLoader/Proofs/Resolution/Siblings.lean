import PluginLoader.Proofs.Resolution.Isolation
import PluginLoader.Proofs.Resolution.Precedence
import PluginLoader.Proofs.Resolution.Queries

/-! Two contexts of one parent. A name either has its answer from the parent, then it is the same in
both, or each sweeps its own sources for it. A base that both can be asked about is picked as a
supertype by the same types in both. -/
namespace PluginLoader

namespace World

/-- A context on a parent, in a run that leaves the files alone and closes neither the context nor
any that it inherits from. -/
structure Stands (files : FileSystem) (events : List Event) (parent id : ScopeId)
    (own : LoadingContext) : Prop where
  unchanged : ∀ other, Event.change other ∉ events
  at_id : Scope.get? ((start files).run events).scopes id = some (.context parent own)
  below : parent < id
  spared : ∀ target ∈ ((start files).run events).chain id, Event.close target ∉ events

/-- What two scopes can both be asked about: a type that one of them was given and neither owns, or
the types that they gave for one name. -/
inductive Corresponding (files : FileSystem) (events : List Event) (id other : ScopeId) :
    TypeHandle → TypeHandle → Prop where
  | shared {asker : ScopeId} {handle : TypeHandle} : Gave files events asker handle →
      handle.owner ≠ id → handle.owner ≠ other →
      Corresponding files events id other handle handle
  | named {a b : TypeHandle} : Gave files events id a → Gave files events other b →
      a.name = b.name → Corresponding files events id other a b

variable {files : FileSystem} {events : List Event} {parent id other asker : ScopeId}
  {own twin : LoadingContext} {w : World} {base handle a b : TypeHandle} {name : String}

namespace Stands

theorem calm (stands : Stands files events parent id own) :
    ((start files).run events).Undisturbed files id :=
  undisturbed_run files events id stands.unchanged stands.spared

theorem isOpen (stands : Stands files events parent id own) : ((start files).run events).Open id :=
  stands.calm.ready

theorem lineage_eq (stands : Stands files events parent id own) :
    ((start files).run events).lineage id = id :: ((start files).run events).lineage parent :=
  Scope.lineage_of_context stands.at_id stands.below

theorem spared_above (stands : Stands files events parent id own) {target : ScopeId}
    (inside : target ∈ ((start files).run events).lineage id) :
    ∀ closing ∈ ((start files).run events).chain target, Event.close closing ∉ events :=
  fun closing member => stands.spared closing (Scope.chain_subset inside member)

theorem directSubtypes_eq (stands : Stands files events parent id own)
    {picks : TypeDescriptor → Bool} (picking : ((start files).run events).Picks id base picks) :
    (((start files).run events).directSubtypes id base).1.map (List.map TypeHandle.descriptor) =
      (typesIn files (Scope.lookup files ((start files).run events).scopes id) own.policy
        own.sources).map (List.filter picks) :=
  stands.calm.directSubtypes_eq stands.at_id picking

/-- What a name stands for in two contexts of one parent is decided above both, or each sweeps its
own sources. -/
theorem lookup_cases (first : Stands files events parent id own)
    (second : Stands files events parent other twin) (name : String) :
    let find := Scope.lookup files ((start files).run events).scopes
    find id name = find other name ∨
      find id name = Blueprint.sweep files own.policy name own.sources ∧
      find other name = Blueprint.sweep files twin.policy name twin.sources := by
  intro find
  by_cases missing : ∃ asked, find parent name = .error (.typeNotFound asked)
  · obtain ⟨asked, missing⟩ := missing
    have one : find id name = _ := Scope.lookup_of_sources first.at_id first.below missing
    have two : find other name = _ := Scope.lookup_of_sources second.at_id second.below missing
    rw [one, two]
    by_cases guarded : name = "" ∨ '/' ∈ name.toList
    · exact .inl (by simp only [if_pos guarded])
    · exact .inr (by simp only [if_neg guarded, and_self])
  · push Not at missing
    have one : find id name = _ := Scope.lookup_of_parent first.at_id first.below missing
    have two : find other name = _ := Scope.lookup_of_parent second.at_id second.below missing
    exact .inl (one.trans two.symm)

/-- Where the sweeps agree, names stand for the same. -/
theorem lookup_eq (first : Stands files events parent id own)
    (second : Stands files events parent other twin)
    (same : ∀ name, Blueprint.sweep files own.policy name own.sources =
      Blueprint.sweep files twin.policy name twin.sources) :
    Scope.lookup files ((start files).run events).scopes id =
      Scope.lookup files ((start files).run events).scopes other := by
  funext name
  rcases first.lookup_cases second name with decided | ⟨one, two⟩
  · exact decided
  · rw [one, two, same name]

end Stands

/-! ### Bases that correspond -/

theorem Gave.settled_owner (gave : Gave files events asker handle)
    (spared : ∀ target ∈ ((start files).run events).chain handle.owner,
      Event.close target ∉ events) :
    ((start files).run events).Settled handle.owner handle.name (.ok handle) := by
  obtain ⟨before, rest, rfl, early⟩ := gave.early
  have above : ((start files).run before).Settled handle.owner handle.name (.ok handle) :=
    Scope.Settled.at_owner early (numbered_run files before)
  exact above.append spared

/-- A base that is settled for its name is picked by the types that declare the name. -/
theorem Undisturbed.picks_name (calm : w.Undisturbed files id)
    (given : w.Settled id base.name (.ok base)) :
    w.Picks id base fun descriptor => descriptor.superName = some base.name := by
  intro after lookups handle supertype declared
  have numbered := (calm.lookups lookups).numbered
  have picked := declared.isSame_iff numbered (given.lookups lookups)
  rw [Bool.eq_iff_iff, picked, decide_eq_true_eq]
  rfl

/-- No type picks a base that the scope does not inherit. -/
theorem Undisturbed.picks_none (calm : w.Undisturbed files id)
    (outside : base.owner ∉ w.lineage id) : w.Picks id base fun _ => false := by
  intro after lookups handle supertype declared
  cases declared with
  | root => rfl
  | @type name supertype _ settled =>
    have owned : supertype.owner ∈ after.lineage id :=
      Scope.Settled.owner settled (calm.lookups lookups).numbered
    rw [lineage_lookups lookups] at owned
    have apart : supertype.owner ≠ base.owner := fun same => outside (same ▸ owned)
    exact same_eq_false apart

/-- What an open scope inherits is settled in it. -/
theorem Stands.settled_inherited (stands : Stands files events parent id own)
    (gave : Gave files events asker handle)
    (inside : handle.owner ∈ ((start files).run events).lineage id) :
    ((start files).run events).Settled id handle.name (.ok handle) := by
  have above := gave.settled_owner (stands.spared_above inside)
  have upheld := Upheld.of_settled above (parentsFirst_run files events)
  exact upheld.settled_open inside stands.isOpen

/-- Bases that correspond are picked alike. -/
theorem Corresponding.picks (corresponding : Corresponding files events id other a b)
    (first : Stands files events parent id own) (second : Stands files events parent other twin) :
    ∃ picks, ((start files).run events).Picks id a picks ∧
      ((start files).run events).Picks other b picks := by
  cases corresponding with
  | shared gave notFirst notSecond =>
    by_cases inside : a.owner ∈ ((start files).run events).lineage parent
    · have inFirst : a.owner ∈ ((start files).run events).lineage id := by
        rw [first.lineage_eq]
        exact List.mem_cons_of_mem _ inside
      have inSecond : a.owner ∈ ((start files).run events).lineage other := by
        rw [second.lineage_eq]
        exact List.mem_cons_of_mem _ inside
      exact ⟨_, first.calm.picks_name (first.settled_inherited gave inFirst),
        second.calm.picks_name (second.settled_inherited gave inSecond)⟩
    · refine ⟨_, first.calm.picks_none ?_, second.calm.picks_none ?_⟩
      · rw [first.lineage_eq]
        exact List.not_mem_cons_of_ne_of_not_mem notFirst inside
      · rw [second.lineage_eq]
        exact List.not_mem_cons_of_ne_of_not_mem notSecond inside
  | named gaveFirst gaveSecond names =>
    refine ⟨_, first.calm.picks_name (gaveFirst.settled first.spared), ?_⟩
    rw [names]
    exact second.calm.picks_name (gaveSecond.settled second.spared)

/-! ### Contexts that find the same -/

section
variable (first : Stands files events parent id own) (second : Stands files events parent other twin)
  (same : Scope.lookup files ((start files).run events).scopes id =
    Scope.lookup files ((start files).run events).scopes other)
include first second same

theorem Corresponding.alike (corresponding : Corresponding files events id other a b) :
    a.descriptor = b.descriptor ∧
      ((start files).run events).isValid a = ((start files).run events).isValid b := by
  cases corresponding with
  | shared => exact ⟨rfl, rfl⟩
  | named gaveFirst gaveSecond names =>
    constructor
    · have one := first.calm.resolve_eq a.name
      have two := second.calm.resolve_eq b.name
      rw [(gaveFirst.settled first.spared).resolve] at one
      rw [(gaveSecond.settled second.spared).resolve, ← names, ← same] at two
      exact Except.ok.inj (one.trans two.symm)
    · have numbered := numbered_run files events
      rw [first.isOpen.isValid numbered gaveFirst.owned,
        second.isOpen.isValid numbered gaveSecond.owned]

theorem Corresponding.directSupertype_eq (corresponding : Corresponding files events id other a b) :
    (((start files).run events).directSupertype id a).1.map (Option.map TypeHandle.descriptor) =
      (((start files).run events).directSupertype other b).1.map
        (Option.map TypeHandle.descriptor) := by
  obtain ⟨described, validity⟩ := corresponding.alike first second same
  by_cases valid : ((start files).run events).isValid a = true
  · rw [first.calm.directSupertype_eq valid, second.calm.directSupertype_eq (validity ▸ valid),
      described, same]
  · have names : a.name = b.name := congrArg TypeDescriptor.name described
    rw [directSupertype, directSupertype, if_neg valid, if_neg (validity ▸ valid), names]

theorem Corresponding.directSubtypes_eq (corresponding : Corresponding files events id other a b)
    (listed : ∀ find, typesIn files find own.policy own.sources =
      typesIn files find twin.policy twin.sources) :
    (((start files).run events).directSubtypes id a).1.map (List.map TypeHandle.descriptor) =
      (((start files).run events).directSubtypes other b).1.map
        (List.map TypeHandle.descriptor) := by
  obtain ⟨picks, picking, pickingOther⟩ := corresponding.picks first second
  rw [first.directSubtypes_eq picking, second.directSubtypes_eq pickingOther, same, listed]

end

end World
end PluginLoader
