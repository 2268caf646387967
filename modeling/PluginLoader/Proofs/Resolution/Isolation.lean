import PluginLoader.Proofs.Resolution.Lineage
import PluginLoader.Proofs.Resolution.Subtypes

/-! Isolation and the end of handles. A query only gives types of the scopes that the asked one
inherits from, each standing in its owner's table and valid, so scopes with nothing in common above
them share no handle. A handle is valid until its owner is closed, which nothing undoes. -/
namespace PluginLoader

namespace Scope
variable {files : FileSystem} {scopes : List Scope} {id target : ScopeId}

theorem get_close (scopes : List Scope) (target id : ScopeId) :
    get? (modify LoadingContext.close scopes target) id =
      (get? scopes id).map fun scope => if id = target then scope.close else scope := by
  have along := close_along scopes target
  cases found : get? scopes id with
  | some scope =>
    obtain ⟨now, at_id, rfl⟩ := along.forward found
    exact at_id
  | none =>
    cases after : get? (modify LoadingContext.close scopes target) id with
    | none => rfl
    | some now =>
      obtain ⟨scope, before, _⟩ := along.backward after
      rw [found] at before
      cases before

theorem Defines.isLive {scope now : Scope} (defines : Defines files id scope now) :
    now.isLive = scope.isLive := by
  cases defines with
  | same => rfl
  | @define own name parent fresh => exact (own.define_grows files id name).live

theorem isLive_of_close {scope : Scope} (live : scope.close.isLive = true) :
    scope.isLive = true := by
  cases scope with
  | host types => rfl
  | context parent own =>
    simp only [close, LoadingContext.close, isLive] at live ⊢
    cases state : own.state with
    | closed => rwa [state] at live
    | ready => rw [state] at live; cases live

theorem isLive_close {parent : ScopeId} {own : LoadingContext} (numbered : own.Numbered id) :
    (Scope.context parent own).close.isLive = false := by
  have closed := numbered.close.live
  rw [LoadingContext.close_state] at closed
  exact Bool.eq_false_iff.mpr fun live => by cases closed.mp live

end Scope

namespace World
variable {w after : World} {files : FileSystem} {events : List Event} {id target : ScopeId}
  {handle : TypeHandle} {e : Event}

/-! ### Who owns what is given -/

theorem Gives.lookups (gives : w.Gives id e handle) : Lookups id w (w.perform e) := by
  cases gives with
  | resolve => exact resolve_lookups rfl
  | directSupertype => exact directSupertype_lookups rfl
  | directSubtypes => exact directSubtypes_lookups rfl

theorem Gives.there (gives : w.Gives id e handle) : id < w.scopes.length := by
  obtain ⟨name, settled⟩ := gives.settled
  have same := congrArg List.length gives.lookups.blueprint
  simp only [List.length_map] at same
  exact same ▸ Scope.Settled.there settled

theorem numbered_perform (files : FileSystem) (events : List Event) (e : Event) :
    Scope.Each Scope.Numbered (((start files).run events).perform e).scopes := by
  have whole := numbered_run files (events ++ [e])
  rwa [run_append] at whole

/-- Whatever a query gives is of the lineage of the scope that was asked, stands in its owner's
table, and is valid. -/
theorem Gives.owned (gives : ((start files).run events).Gives id e handle) :
    handle.owner ∈ ((start files).run events).lineage id ∧
      (((start files).run events).perform e).Holds handle ∧
      (((start files).run events).perform e).isValid handle = true := by
  have numbered := numbered_perform files events e
  obtain ⟨name, settled⟩ := gives.settled
  have holds := (settled.named numbered).2
  have owner := Scope.Settled.owner settled numbered
  refine ⟨?_, holds, isValid_of_holds numbered holds⟩
  rwa [← lineage_lookups gives.lookups]

theorem Gave.owned (gave : Gave files events id handle) :
    handle.owner ∈ ((start files).run events).lineage id := by
  obtain ⟨before, e, rest, rfl, gives⟩ := gave
  rw [run_append, lineage_run gives.there]
  exact gives.owned.1

/-! ### How long a handle is valid -/

theorem isValid_iff : w.isValid handle = true ↔
    ∃ scope, Scope.get? w.scopes handle.owner = some scope ∧ scope.isLive = true := by
  unfold isValid
  cases Scope.get? w.scopes handle.owner <;> simp

theorem isValid_close {parent : ScopeId} {own : LoadingContext}
    (numbered : Scope.Each Scope.Numbered w.scopes)
    (at_target : Scope.get? w.scopes target = some (.context parent own)) (handle : TypeHandle) :
    (w.close target).isValid handle = true ↔ w.isValid handle = true ∧ handle.owner ≠ target := by
  have closed : Scope.get? (w.close target).scopes handle.owner = _ :=
    Scope.get_close w.scopes target handle.owner
  rw [isValid_iff, isValid_iff, closed]
  by_cases owned : handle.owner = target
  · subst owned
    have context : own.Numbered handle.owner := numbered _ _ at_target
    simp [at_target, Scope.isLive_close context]
  · simp [owned]

theorem isValid_perform (there : handle.owner < w.scopes.length)
    (valid : (w.perform e).isValid handle = true) : w.isValid handle = true := by
  revert valid
  generalize happens : w.perform e = after
  -- the owner was there before, and nothing makes a scope live
  simp only [isValid_iff]
  rintro ⟨now, at_owner, live⟩
  cases perform_change happens with
  | @add _ scope fresh =>
    rw [show (w.addScope scope).2.scopes = scope :: w.scopes from rfl,
      Scope.get_older (Nat.ne_of_lt there)] at at_owner
    exact ⟨now, at_owner, live⟩
  | lookups _ lookups =>
    apply lookups.keep (P := fun later => (∃ now, Scope.get? later.scopes handle.owner = some now ∧
      now.isLive = true) → ∃ scope, Scope.get? w.scopes handle.owner = some scope ∧
        scope.isLive = true) _ id ⟨now, at_owner, live⟩
    rintro later asked before ⟨now, at_owner, live⟩
    obtain ⟨scope, was, defines⟩ :=
      (Scope.resolve_along later.files later.scopes _ asked).backward at_owner
    exact before ⟨scope, was, defines.isLive ▸ live⟩
  | close target =>
    obtain ⟨scope, was, rfl⟩ := (Scope.close_along w.scopes target).backward at_owner
    refine ⟨scope, was, ?_⟩
    split at live
    · exact Scope.isLive_of_close live
    · exact live
  | change files => exact ⟨now, at_owner, live⟩

theorem invalid_run (there : handle.owner < w.scopes.length) (invalid : w.isValid handle = false)
    (events : List Event) : (w.run events).isValid handle = false := by
  induction events generalizing w with
  | nil => exact invalid
  | cons e rest ih =>
    refine ih (Nat.lt_of_lt_of_le there (w.length_perform e)) ?_
    rw [Bool.eq_false_iff] at invalid ⊢
    exact fun valid => invalid (isValid_perform there valid)

/-! ### Isolation -/

theorem same_eq_false {a b : TypeHandle} (apart : a.owner ≠ b.owner) : a.same b = false := by
  simp [TypeHandle.same, apart]

theorem close_ends_exactly {parent : ScopeId} {own : LoadingContext}
    (numbered : Scope.Each Scope.Numbered w.scopes)
    (at_target : Scope.get? w.scopes target = some (.context parent own)) (handle : TypeHandle) :
    w.isValid handle = true ∧ (w.close target).isValid handle = false ↔
      own.state = .ready ∧ handle.owner = target := by
  have kept := isValid_close numbered at_target handle
  rw [← Bool.not_eq_true, kept]
  constructor
  · rintro ⟨valid, ended⟩
    have owned : handle.owner = target := by
      by_contra other
      exact ended ⟨valid, other⟩
    subst owned
    obtain ⟨scope, at_owner, live⟩ := isValid_iff.mp valid
    cases at_target.symm.trans at_owner
    have context : own.Numbered handle.owner := numbered _ _ at_target
    exact ⟨context.live.mp live, rfl⟩
  · rintro ⟨ready, rfl⟩
    have context : own.Numbered handle.owner := numbered _ _ at_target
    exact ⟨isValid_iff.mpr ⟨_, at_target, context.live.mpr ready⟩, fun both => both.2 rfl⟩

/-- After a context is closed no query of any scope gives a type that it owns. -/
theorem closed_gives_nothing {parent : ScopeId} {own : LoadingContext}
    (at_target : Scope.get? ((start files).run events).scopes target = some (.context parent own))
    {rest : List Event}
    (gives : ((((start files).run events).close target).run rest).Gives id e handle) :
    handle.owner ≠ target := by
  rintro rfl
  have whole : (((start files).run events).close handle.owner).run rest =
      (start files).run (events ++ .close handle.owner :: rest) := by
    rw [run_append]
    rfl
  have valid := (whole ▸ gives).owned.2.2
  rw [← whole] at valid
  have ended : (((start files).run events).close handle.owner).isValid handle = false := by
    rw [Bool.eq_false_iff]
    intro still
    exact ((isValid_close (numbered_run files events) at_target handle).mp still).2 rfl
  have there : handle.owner < (((start files).run events).close handle.owner).scopes.length := by
    rw [show (((start files).run events).close handle.owner).scopes.length = _ from
      Scope.modify_length ..]
    exact Scope.get_lt at_target
  have never := invalid_run there ended (rest ++ [e])
  rw [run_append] at never
  exact Bool.false_ne_true (never.symm.trans valid)

/-- Isolation. In any run, whatever is closed in it and happens to the files, each type that a query
of a scope gives is of the scope, of a context above it or of the host at the root; it stands in its
owner's table and is valid at that moment. Two scopes with nothing in common above them, themselves
included, never give the same type. Closing a ready context ends the validity of all types it owns
and of no others, and no query of any scope gives a type of it afterwards. A type that is not valid
never is again. -/
theorem lineages_isolated (files : FileSystem) (events : List Event) :
    let w := (start files).run events
    (∀ id e handle, w.Gives id e handle → handle.owner ∈ w.lineage id ∧
      (w.perform e).Holds handle ∧ (w.perform e).isValid handle = true) ∧
    (∀ id other, List.Disjoint (w.lineage id) (w.lineage other) →
      ∀ a b, Gave files events id a → Gave files events other b → a.same b = false) ∧
    (∀ target parent own, Scope.get? w.scopes target = some (.context parent own) →
      (∀ handle, w.isValid handle = true ∧ (w.close target).isValid handle = false ↔
        own.state = .ready ∧ handle.owner = target) ∧
      (∀ handle, handle.owner ≠ target → (w.close target).isValid handle = w.isValid handle) ∧
      ∀ rest id e handle, ((w.close target).run rest).Gives id e handle → handle.owner ≠ target) ∧
    ∀ handle, handle.owner < w.scopes.length → w.isValid handle = false →
      ∀ rest, (w.run rest).isValid handle = false := by
  intro w
  have numbered : Scope.Each Scope.Numbered w.scopes := numbered_run files events
  refine ⟨fun id e handle gives => gives.owned, ?_, ?_, fun handle => invalid_run⟩
  · intro id other apart a b gave gaveOther
    apply same_eq_false
    intro owner
    exact apart gave.owned (owner ▸ gaveOther.owned)
  · intro target parent own at_target
    refine ⟨close_ends_exactly numbered at_target, ?_, ?_⟩
    · intro handle other
      rw [Bool.eq_iff_iff, isValid_close numbered at_target]
      exact and_iff_left other
    · exact fun rest id e handle => closed_gives_nothing at_target

/-- Two contexts over one archive, each on a host of its own. -/
def twoOverOne : List Event :=
  [.addHost [], .addHost [],
    .addContext 0 "one" [⟨"/a.jar"⟩] .abort, .addContext 1 "two" [⟨"/a.jar"⟩] .abort]

theorem define_filesOfA (label : String) (policy : ArchivePolicy) (id : ScopeId) :
    ((LoadingContext.make label [⟨"/a.jar"⟩] policy).define filesOfA id "A").1 =
      .ok ⟨id, 0, "A", some "O", [], ⟨0x21⟩, .archive "/a.jar" "A.class"⟩ := by
  have named : TypeName.searchable "A" = true := by decide +kernel
  simp only [LoadingContext.define, LoadingContext.make, List.map, LoadingContext.search,
    LoadingContext.reach, open_archiveOfA, entryPath_A, readEntry_archiveOfA, describe_contentOfA,
    named]
  rfl

/-- The two give types of their own, and closing one leaves the other's type valid. -/
theorem same_archive_apart :
    let before := (start filesOfA).run twoOverOne
    let w := (start filesOfA).run (twoOverOne ++ [.resolve 2 "A", .resolve 3 "A"])
    ∃ a b, (before.resolve 2 "A").1 = .ok a ∧
      ((before.resolve 2 "A").2.resolve 3 "A").1 = .ok b ∧ a.same b = false ∧
      (w.close 2).isValid a = false ∧ (w.close 2).isValid b = true := by
  intro before w
  let typeA : TypeDescriptor := ⟨"A", some "O", [], ⟨0x21⟩, .archive "/a.jar" "A.class"⟩
  have givenA : (before.resolve 2 "A").1 = .ok ⟨2, 0, typeA⟩ :=
    define_filesOfA "one" .abort 2
  have givenB : ((before.resolve 2 "A").2.resolve 3 "A").1 = .ok ⟨3, 0, typeA⟩ :=
    define_filesOfA "two" .abort 3
  refine ⟨_, _, givenA, givenB, ?_⟩
  have givesB : ((start filesOfA).run (twoOverOne ++ [.resolve 2 "A"])).Gives 3
      (.resolve 3 "A") ⟨3, 0, typeA⟩ := .resolve givenB
  have gaveA : Gave filesOfA (twoOverOne ++ [.resolve 2 "A", .resolve 3 "A"]) 2 ⟨2, 0, typeA⟩ :=
    ⟨twoOverOne, .resolve 2 "A", [.resolve 3 "A"], rfl, .resolve givenA⟩
  have gaveB : Gave filesOfA (twoOverOne ++ [.resolve 2 "A", .resolve 3 "A"]) 3 ⟨3, 0, typeA⟩ :=
    ⟨twoOverOne ++ [.resolve 2 "A"], .resolve 3 "A", [], rfl, givesB⟩
  obtain ⟨_, isolated, closing, _⟩ :=
    lineages_isolated filesOfA (twoOverOne ++ [.resolve 2 "A", .resolve 3 "A"])
  have disjoint : (w.lineage 2).Disjoint (w.lineage 3) := by
    rw [show w.lineage 2 = [2, 0] from rfl, show w.lineage 3 = [3, 1] from rfl]
    simp
  obtain ⟨ends, keeps, _⟩ := closing 2 0
    ((LoadingContext.make "one" [⟨"/a.jar"⟩] .abort).define filesOfA 2 "A").2 rfl
  have ready : ((LoadingContext.make "one" [⟨"/a.jar"⟩] .abort).define filesOfA 2 "A").2.state =
      .ready := (LoadingContext.define_grows _ filesOfA 2 "A").state
  refine ⟨isolated 2 3 disjoint _ _ gaveA gaveB, ((ends _).mpr ⟨ready, rfl⟩).2, ?_⟩
  rw [keeps _ (by decide)]
  exact givesB.owned.2.2

end World
end PluginLoader
