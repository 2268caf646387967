import PluginLoader.Proofs.Resolution.Closing

/-! What a context looks like at any time. Open archives are those of the sources at their places,
and no archive was reached before the ones in front of it. Each type that is kept is the first
definition of its name among them, and stays it, since a slot that was reached never changes. -/
namespace PluginLoader

/-- What a slot may hold for a source. -/
inductive Slot.Fits (policy : ArchivePolicy) (source : PluginSource) : Slot → Prop where
  | unopened : Fits policy source .unopened
  | opened {archive : Archive} : archive.location = source.location →
      Fits policy source (.opened archive)
  | unreadable : policy = .skip → Fits policy source .unreadable

theorem describe_eq_ok {location entry expected : String} {content : ByteArray}
    {descriptor : TypeDescriptor}
    (found : describe location entry expected content = .ok descriptor) :
    ∃ header, ClassHeader.parse content.toList = .ok header ∧
      descriptor = ⟨expected, header.superName, header.interfaces, header.access,
        .archive location entry⟩ := by
  unfold describe at found
  split at found
  · cases found
  · rename_i header parsed
    split at found
    · rename_i named
      cases found
      exact ⟨header, parsed, by rw [named]⟩
    · cases found

namespace LoadingContext

/-- The type is defined by the entry of its name in an open archive, and no archive in front of that
one has an entry of the name that can be read. -/
def FirstDefinition (own : LoadingContext) (name : String) (descriptor : TypeDescriptor) : Prop :=
  ∃ (i : Nat) (source : PluginSource) (archive : Archive) (content : ByteArray)
    (header : ClassHeader),
    own.sources[i]? = some source ∧ own.slots[i]? = some (.opened archive) ∧
    archive.readEntry (TypeName.entryPath name) = .ok (some content) ∧
    ClassHeader.parse content.toList = .ok header ∧
    descriptor = ⟨name, header.superName, header.interfaces, header.access,
      .archive source.location (TypeName.entryPath name)⟩ ∧
    ∀ j < i, ∀ earlier, own.slots[j]? = some (.opened earlier) →
      ∀ other, earlier.readEntry (TypeName.entryPath name) ≠ .ok (some other)

/-- A context that is ready, the scope numbered `id`. -/
structure WellFormed (id : ScopeId) (own : LoadingContext) : Prop where
  live : own.live = true
  slots : List.Forall₂ (Slot.Fits own.policy) own.sources own.slots
  reached : own.slots.Pairwise fun earlier later => earlier = .unopened → later = .unopened
  searchable : ∀ p ∈ own.defined, p.1 ≠ "" ∧ '/' ∉ p.1.toList
  named : ∀ p ∈ own.defined, p.2.name = p.1
  owned : ∀ p ∈ own.defined, p.2.owner = id
  first : ∀ p ∈ own.defined, own.FirstDefinition p.1 p.2.descriptor

variable {files : FileSystem} {policy : ArchivePolicy} {name : String}

/-! ### Slots -/

theorem reach_fits {source : PluginSource} {slot reached : Slot} (fits : slot.Fits policy source)
    (ok : reach files policy source slot = .ok reached) : reached.Fits policy source := by
  cases reach_ok_iff.mp ok with
  | kept => exact fits
  | opened opening => exact .opened (Archive.open_location opening)
  | unreadable skips => exact .unreadable skips

theorem search_fits {sources : List PluginSource} {slots : List Slot}
    (hold : List.Forall₂ (Slot.Fits policy) sources slots) :
    List.Forall₂ (Slot.Fits policy) sources (search files policy name sources slots).2 := by
  revert hold
  apply search_induction (P := fun sources slots _ after =>
    List.Forall₂ (Slot.Fits policy) sources slots → List.Forall₂ (Slot.Fits policy) sources after)
  · exact fun _ _ _ hold => hold
  · exact fun _ _ _ _ _ _ hold => hold
  · intro source sources slot slots reached found reaching _ hold
    cases hold with
    | cons head tail => exact .cons (reach_fits head reaching) tail
  · intro source sources slot slots reached answer after reaching _ ih hold
    cases hold with
    | cons head tail => exact .cons (reach_fits head reaching) (ih tail)

theorem search_reached {sources : List PluginSource} {slots : List Slot}
    (reached : slots.Pairwise fun earlier later => earlier = .unopened → later = .unopened) :
    (search files policy name sources slots).2.Pairwise
      fun earlier later => earlier = .unopened → later = .unopened := by
  have touched : ∀ {slot : Slot} {rest : List Slot}, slot ≠ .unopened →
      ∀ later ∈ rest, slot = .unopened → later = .unopened :=
    fun ne later _ same => absurd same ne
  revert reached
  apply search_induction (P := fun _ slots _ after =>
    slots.Pairwise (fun earlier later => earlier = .unopened → later = .unopened) →
      after.Pairwise fun earlier later => earlier = .unopened → later = .unopened)
  · exact fun _ _ _ reached => reached
  · exact fun _ _ _ _ _ _ reached => reached
  · intro source sources slot slots now found reaching _ reached
    have rest := (List.pairwise_cons.mp reached).2
    exact List.pairwise_cons.mpr ⟨touched (reach_ne_unopened reaching), rest⟩
  · intro source sources slot slots now answer after reaching _ ih reached
    have rest := ih (List.pairwise_cons.mp reached).2
    exact List.pairwise_cons.mpr ⟨touched (reach_ne_unopened reaching), rest⟩

/-! ### Definitions -/

theorem unread_of_verdict_none {source : PluginSource} {archive : Archive}
    (passed : verdict policy name source (.opened archive) = none) (content : ByteArray) :
    archive.readEntry (TypeName.entryPath name) ≠ .ok (some content) := by
  intro read
  rw [verdict, read] at passed
  cases passed

/-- Where an answer is pinned it comes from the first archive that decides. -/
theorem Pinned.first {own : LoadingContext} {descriptor : TypeDescriptor}
    (pinned : Pinned own.policy name own.sources own.slots (.ok (some descriptor))) :
    own.FirstDefinition name descriptor := by
  unfold FirstDefinition
  generalize own.sources = sources at pinned ⊢
  generalize own.slots = slots at pinned ⊢
  induction sources generalizing slots with
  | nil => cases pinned
  | cons source sources ih =>
    cases slots with
    | nil => cases pinned
    | cons slot slots =>
      obtain ⟨_, decision⟩ := pinned
      cases deciding : verdict own.policy name source slot with
      | some found =>
        rw [deciding] at decision
        obtain ⟨archive, rfl, ⟨content, read, rfl⟩ | ⟨e, _, _, rfl⟩⟩ := verdict_cases deciding
        · cases described : describe source.location (TypeName.entryPath name) name content with
          | error e => rw [described] at decision; cases decision
          | ok found =>
            rw [described] at decision
            cases decision
            obtain ⟨header, parsed, same⟩ := describe_eq_ok described
            refine ⟨0, source, archive, content, header, rfl, rfl, read, parsed, same, ?_⟩
            intro j below
            exact absurd below (Nat.not_lt_zero j)
        · cases decision
      | none =>
        rw [deciding] at decision
        obtain ⟨i, there, archive, content, header, at_source, at_slot, read, parsed, same, front⟩ :=
          ih slots decision
        refine ⟨i + 1, there, archive, content, header, at_source, at_slot, read, parsed, same, ?_⟩
        intro j below earlier at_earlier
        cases j with
        | zero =>
          cases at_earlier
          exact unread_of_verdict_none deciding
        | succ j => exact front j (Nat.lt_of_succ_lt_succ below) earlier at_earlier

/-! ### Steps -/

/-- What all steps keep of a context: its slots, and that its types are pinned by them. -/
structure Backed (own : LoadingContext) : Prop where
  slots : own.state = .ready → List.Forall₂ (Slot.Fits own.policy) own.sources own.slots
  reached : own.slots.Pairwise fun earlier later => earlier = .unopened → later = .unopened
  searchable : ∀ p ∈ own.defined, TypeName.searchable p.1 = true
  pinned : ∀ p ∈ own.defined,
    Pinned own.policy p.1 own.sources own.slots (.ok (some p.2.descriptor))
  closed : own.state = .closed → own.slots = []

theorem make_backed (label : String) (sources : List PluginSource) (policy : ArchivePolicy) :
    (make label sources policy).Backed where
  slots _ := by
    have fits : ∀ source ∈ sources, Slot.Fits policy source .unopened := fun _ _ => .unopened
    exact List.forall₂_map_right_iff.mpr (List.forall₂_same.mpr fits)
  reached := List.pairwise_map.mpr (List.pairwise_of_forall fun _ _ => id)
  searchable p member := by cases member
  pinned p member := by cases member
  closed state := by cases state

theorem Backed.close {own : LoadingContext} (backed : own.Backed) : own.close.Backed := by
  unfold LoadingContext.close
  cases state : own.state with
  | closed => exact backed
  | ready => exact ⟨by rintro ⟨⟩, .nil, by rintro p ⟨⟩, by rintro p ⟨⟩, fun _ => rfl⟩

theorem reached_backed {own : LoadingContext} (backed : own.Backed) (ready : own.state = .ready)
    (files : FileSystem) (name : String) : (own.reached files name).Backed where
  slots _ := search_fits (backed.slots ready)
  reached := search_reached backed.reached
  searchable := backed.searchable
  pinned p member := (backed.pinned p member).grow (search_grows own.sources own.slots)
  closed closed := by cases ready.symm.trans closed

theorem Backed.define {own : LoadingContext} (backed : own.Backed) (ready : own.state = .ready)
    (files : FileSystem) (id : ScopeId) (name : String) :
    (own.define files id name).2.Backed := by
  have stays := reached_backed backed ready files name
  rcases define_cases own files id name with
    ⟨_, same⟩ | ⟨named, ⟨e, _, refused⟩ | ⟨descriptor, searching, found⟩⟩
  · rw [same]
    exact backed
  · rw [refused]
    exact stays
  · rw [found]
    -- the new type is pinned by the search that found it
    have pinned : Pinned own.policy name own.sources (own.reached files name).slots
        (.ok (some descriptor)) := by
      rw [← searching]
      apply search_pinned
      intro e failed
      cases searching.symm.trans failed
    refine ⟨stays.slots, stays.reached, ?_, ?_, stays.closed⟩
    · exact List.forall_mem_cons.mpr ⟨named, stays.searchable⟩
    · exact List.forall_mem_cons.mpr ⟨pinned, stays.pinned⟩

theorem Backed.wellFormed {own : LoadingContext} {id : ScopeId} (backed : own.Backed)
    (numbered : own.Numbered id) (ready : own.state = .ready) : own.WellFormed id where
  live := numbered.live.mpr ready
  slots := backed.slots ready
  reached := backed.reached
  searchable p member := TypeName.searchable_iff_free.mp (backed.searchable p member)
  named := numbered.numbering.named
  owned := numbered.owned
  first p member := (backed.pinned p member).first

end LoadingContext

namespace World

theorem backed_run (files : FileSystem) (events : List Event) {id parent : ScopeId}
    {own : LoadingContext}
    (at_id : Scope.get? ((start files).run events).scopes id = some (.context parent own)) :
    own.Backed := by
  refine context_run (P := LoadingContext.Backed) files events LoadingContext.make_backed ?_ ?_ at_id
  · intro files id name own unknown backed
    exact backed.define (LoadingContext.known_eq_none.mp unknown).1 files id name
  · exact fun own backed => backed.close

/-- What a context looks like in any run, whatever is closed in it and happens to the files. A ready
context is well formed. A closed one is not live, keeps no types and no archives, and stays closed.
Its parent, its sources and its policy never change. That the types kept are still those of the open
archives rests on the assumption that an open archive keeps the bytes it was opened with. -/
theorem context_well_formed (files : FileSystem) (events : List Event) (id parent : ScopeId)
    (own : LoadingContext)
    (at_id : Scope.get? ((start files).run events).scopes id = some (.context parent own)) :
    (own.state = .ready → own.WellFormed id) ∧
    (own.state = .closed → own.live = false ∧ own.defined = [] ∧ own.slots = []) ∧
    ∀ rest, ∃ now, Scope.get? (((start files).run events).run rest).scopes id =
        some (.context parent now) ∧
      now.sources = own.sources ∧ now.policy = own.policy ∧
      (own.state = .closed → now.state = .closed) := by
  have numbered : own.Numbered id := numbered_run files events _ _ at_id
  have backed := backed_run files events at_id
  refine ⟨backed.wellFormed numbered, ?_, fun rest => ?_⟩
  · intro closed
    have dead : own.live ≠ true := by
      rw [ne_eq, numbered.live, closed]
      exact ContextState.noConfusion
    exact ⟨Bool.eq_false_iff.mpr dead, numbered.closed closed, backed.closed closed⟩
  · obtain ⟨now, at_now, same⟩ := get_run at_id rest
    cases now with
    | host types => cases same
    | context above now =>
      obtain ⟨rfl, sources, policy⟩ := Blueprint.context.inj same
      refine ⟨now, at_now, sources, policy, fun closed => ?_⟩
      have kept := closed_run at_id closed rest
      cases at_now.symm.trans kept
      exact closed

/-- The type found in an archive is kept, and says which entry of which archive defines it. -/
theorem kept_type_backed :
    let w := (start filesOfA).run
      [.addHost [], .addContext 0 "plugins" [⟨"/a.jar"⟩] .abort, .resolve 1 "A"]
    ∃ own handle, Scope.get? w.scopes 1 = some (.context 0 own) ∧ own.defined = [("A", handle)] ∧
      own.FirstDefinition "A" handle.descriptor ∧
      handle.descriptor.origin = .archive "/a.jar" "A.class" := by
  intro w
  let context := LoadingContext.make "plugins" [⟨"/a.jar"⟩] .abort
  let own := (context.define filesOfA 1 "A").2
  let typeA : TypeHandle := ⟨1, 0, "A", some "O", [], ⟨0x21⟩, .archive "/a.jar" "A.class"⟩
  have found : (context.define filesOfA 1 "A").1 = .ok typeA := define_filesOfA "plugins" .abort 1
  have kept : own.defined = [("A", typeA)] := (LoadingContext.define_ok found).2.2.2.1
  have ready : own.state = .ready := (context.define_grows filesOfA 1 "A").state
  have at_id : Scope.get? w.scopes 1 = some (.context 0 own) := rfl
  have first := ((context_well_formed filesOfA _ 1 0 own at_id).1 ready).first
  rw [kept] at first
  have defined : own.FirstDefinition "A" typeA.descriptor := first ("A", typeA) (by simp)
  exact ⟨own, typeA, at_id, kept, defined, by simp [typeA]⟩

end World
end PluginLoader
