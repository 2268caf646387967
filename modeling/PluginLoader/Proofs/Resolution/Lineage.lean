import PluginLoader.Proofs.Resolution.Finality

/-! Where the types of a scope come from: the scope itself, its parent, and so on down to the host
at the root. A lookup only ever gives types of these scopes, and while all contexts among them are
open, every type they own is valid. -/
namespace PluginLoader

namespace Blueprint

/-- A scope with all it can inherit from, itself first and its host last. -/
def lineage : List Blueprint → ScopeId → List ScopeId
  | [], _ => []
  | scope :: older, id =>
    if id = older.length then
      match scope with
      | .host _ => [id]
      | .context parent _ _ => id :: lineage older parent
    else lineage older id

theorem lineage_older (scope : Blueprint) {older : List Blueprint} {id : ScopeId}
    (below : id ≠ older.length) : lineage (scope :: older) id = lineage older id := by
  cases scope <;> simp only [lineage, if_neg below]

theorem lineage_append (newer scopes : List Blueprint) {id : ScopeId} (old : id < scopes.length) :
    lineage (newer ++ scopes) id = lineage scopes id := by
  induction newer with
  | nil => rfl
  | cons scope newer ih =>
    rw [List.cons_append, lineage_older scope (ne_length_append newer old), ih]

end Blueprint

namespace Scope

def lineage (scopes : List Scope) (id : ScopeId) : List ScopeId :=
  Blueprint.lineage (scopes.map blueprint) id

theorem lineage_older (scope : Scope) {older : List Scope} {id : ScopeId}
    (below : id ≠ older.length) : lineage (scope :: older) id = lineage older id :=
  Blueprint.lineage_older _ (by rwa [List.length_map])

theorem lineage_host (types : HostTypes) (older : List Scope) :
    lineage (.host types :: older) older.length = [older.length] := by
  simp only [lineage, List.map_cons, blueprint, Blueprint.lineage, List.length_map, if_pos]

theorem lineage_context (parent : ScopeId) (own : LoadingContext) (older : List Scope) :
    lineage (.context parent own :: older) older.length =
      older.length :: lineage older parent := by
  simp only [lineage, List.map_cons, blueprint, Blueprint.lineage, List.length_map, if_pos]

theorem lineage_append (newer : List Scope) {scopes : List Scope} {id : ScopeId}
    (old : id < scopes.length) :
    lineage (newer ++ scopes) id = lineage scopes id := by
  unfold lineage
  rw [List.map_append, Blueprint.lineage_append _ _ (by rwa [List.length_map])]

theorem lineage_of_context {scopes : List Scope} {id parent : ScopeId} {own : LoadingContext}
    (at_id : get? scopes id = some (.context parent own)) (below : parent < id) :
    lineage scopes id = id :: lineage scopes parent := by
  obtain ⟨newer, older, rfl, rfl⟩ := get_split at_id
  rw [lineage_append newer (Nat.lt_succ_self _), lineage_context,
    lineage_append newer (Nat.lt_succ_of_lt below), lineage_older _ (Nat.ne_of_lt below)]

/-- How a scope comes to be in the lineage of another: it is that one, it is in the lineage of its
parent, or both are among older scopes. -/
theorem lineage_induction {P : List Scope → ScopeId → ScopeId → Prop}
    (self : ∀ scope older, P (scope :: older) older.length older.length)
    (inherited : ∀ parent own older target, target ∈ lineage older parent →
      P older parent target → P (.context parent own :: older) older.length target)
    (older : ∀ scope older id target, id ≠ older.length → target ∈ lineage older id →
      P older id target → P (scope :: older) id target)
    {scopes : List Scope} {id target : ScopeId} (inside : target ∈ lineage scopes id) :
    P scopes id target := by
  induction scopes generalizing id with
  | nil => cases inside
  | cons scope rest ih =>
    by_cases here : id = rest.length
    · subst here
      cases scope with
      | host types =>
        rw [lineage_host] at inside
        rw [List.mem_singleton.mp inside]
        exact self _ rest
      | context parent own =>
        rw [lineage_context] at inside
        rcases List.mem_cons.mp inside with rfl | inside
        · exact self _ rest
        · exact inherited parent own rest target inside (ih inside)
    · rw [lineage_older scope here] at inside
      exact older scope rest id target here inside (ih inside)

theorem lt_of_mem_lineage {scopes : List Scope} {id target : ScopeId}
    (inside : target ∈ lineage scopes id) : target < scopes.length := by
  apply lineage_induction (P := fun scopes _ target => target < scopes.length) _ _ _ inside
  · exact fun _ older => Nat.lt_succ_self _
  · exact fun _ _ _ _ _ below => Nat.lt_succ_of_lt below
  · exact fun _ _ _ _ _ _ below => Nat.lt_succ_of_lt below

theorem mem_lineage_self {scopes : List Scope} {id : ScopeId} (there : id < scopes.length) :
    id ∈ lineage scopes id := by
  induction scopes with
  | nil => cases there
  | cons scope older ih =>
    by_cases here : id = older.length
    · subst here
      cases scope with
      | host types => rw [lineage_host]; exact List.mem_singleton_self _
      | context parent own => rw [lineage_context]; exact List.mem_cons_self
    · rw [lineage_older scope here]
      exact ih (Nat.lt_of_le_of_ne (Nat.le_of_lt_succ there) here)

theorem get_of_lt {scopes : List Scope} {id : ScopeId} (below : id < scopes.length) :
    ∃ scope, get? scopes id = some scope := by
  induction scopes with
  | nil => cases below
  | cons scope older ih =>
    by_cases here : id = older.length
    · subst here
      exact ⟨scope, get_top scope older⟩
    · rw [get_older here]
      exact ih (Nat.lt_of_le_of_ne (Nat.le_of_lt_succ below) here)

theorem mem_chain_of_context {scopes : List Scope} {id target parent : ScopeId}
    {own : LoadingContext} (inside : target ∈ lineage scopes id)
    (found : get? scopes target = some (.context parent own)) : target ∈ chain scopes id := by
  revert found
  apply lineage_induction (P := fun scopes id target =>
    get? scopes target = some (.context parent own) → target ∈ chain scopes id) _ _ _ inside
  · intro scope older found
    rw [get_top] at found
    cases found
    rw [chain_context]
    exact List.mem_cons_self
  · intro above context older target inside ih found
    rw [get_older (Nat.ne_of_lt (lt_of_mem_lineage inside))] at found
    rw [chain_context]
    exact List.mem_cons_of_mem _ (ih found)
  · intro scope older id target below inside ih found
    rw [get_older (Nat.ne_of_lt (lt_of_mem_lineage inside))] at found
    rw [chain_older scope below]
    exact ih found

theorem chain_subset {scopes : List Scope} {id target : ScopeId}
    (inside : target ∈ lineage scopes id) : chain scopes target ⊆ chain scopes id := by
  apply lineage_induction (P := fun scopes id target =>
    chain scopes target ⊆ chain scopes id) _ _ _ inside
  · exact fun _ _ => List.Subset.refl _
  · intro parent own older target inside ih
    rw [chain_older _ (Nat.ne_of_lt (lt_of_mem_lineage inside)), chain_context]
    exact List.subset_cons_of_subset _ ih
  · intro scope older id target below inside ih
    rwa [chain_older _ (Nat.ne_of_lt (lt_of_mem_lineage inside)), chain_older scope below]

/-- The scope and all contexts it inherits from are ready. -/
def Open (scopes : List Scope) (id : ScopeId) : Prop :=
  ∀ target ∈ chain scopes id, ∀ parent own,
    get? scopes target = some (.context parent own) → own.state = .ready

theorem Open.older {scope : Scope} {older : List Scope} {id : ScopeId}
    (isOpen : Open (scope :: older) id) (below : id ≠ older.length) : Open older id :=
  Throughout.older isOpen below

theorem Open.parent {parent : ScopeId} {own : LoadingContext} {older : List Scope}
    (isOpen : Open (.context parent own :: older) older.length) :
    own.state = .ready ∧ Open older parent :=
  Throughout.parent isOpen

/-- What a lookup gives is owned by the scope that was asked or by one it inherits from. -/
theorem Settled.owner {scopes : List Scope} {id : ScopeId} {name : String} {handle : TypeHandle}
    (settled : Settled scopes id name (.ok handle)) (numbered : Each Numbered scopes) :
    handle.owner ∈ lineage scopes id := by
  generalize given : (.ok handle : Except LoadError TypeHandle) = answer at settled
  induction settled with
  | absent => cases given
  | older scope below _ ih =>
    rw [lineage_older scope below]
    exact ih numbered.tail given
  | host types older name =>
    unfold HostTypes.resolve at given
    split at given
    · cases given
      rw [lineage_host]
      exact List.mem_singleton_self _
    · cases given
  | known parent older known =>
    subst given
    obtain ⟨_, owner, _⟩ := holds_of_known (numbered _ _ (get_top ..)) known parent
    rw [owner, lineage_context]
    exact List.mem_cons_self
  | inherited _ _ _ ih =>
    rw [lineage_context]
    exact List.mem_cons_of_mem _ (ih numbered.tail given)
  | refused => cases given

/-- A type that a scope is settled for is settled in its owner as well. -/
theorem Settled.at_owner {scopes : List Scope} {id : ScopeId} {name : String} {handle : TypeHandle}
    (settled : Settled scopes id name (.ok handle))
    (numbered : Each Numbered scopes) : Settled scopes handle.owner name (.ok handle) := by
  generalize given : (.ok handle : Except LoadError TypeHandle) = answer at settled
  induction settled with
  | absent => cases given
  | older scope below _ ih =>
    subst given
    have above := ih numbered.tail rfl
    exact .older scope (Nat.ne_of_lt above.there) above
  | host types older name =>
    have owner : handle.owner = older.length := by
      unfold HostTypes.resolve at given
      split at given <;> cases given
      rfl
    rw [owner]
    exact .host types older name
  | known parent older known =>
    subst given
    obtain ⟨_, owner, _⟩ := holds_of_known (numbered _ _ (get_top ..)) known parent
    rw [owner]
    exact .known parent older known
  | inherited _ _ _ ih =>
    subst given
    have above := ih numbered.tail rfl
    exact .older _ (Nat.ne_of_lt above.there) above
  | refused => cases given

end Scope

namespace World
variable {w after : World} {id target : ScopeId} {handle : TypeHandle}

/-- The scope, its parent, and so on down to the host at the root. -/
def lineage (w : World) (id : ScopeId) : List ScopeId := Scope.lineage w.scopes id

theorem lineage_of_blueprint {newer : List Blueprint}
    (same : after.scopes.map Scope.blueprint = newer ++ w.scopes.map Scope.blueprint)
    (old : id < w.scopes.length) : after.lineage id = w.lineage id := by
  unfold lineage Scope.lineage
  rw [same, Blueprint.lineage_append newer _ (by rwa [List.length_map])]

theorem lineage_lookups {asker : ScopeId} (lookups : Lookups asker w after) (id : ScopeId) :
    after.lineage id = w.lineage id := by
  unfold lineage Scope.lineage
  rw [lookups.blueprint]

theorem lineage_resolve (w : World) (asker : ScopeId) (asked : String) (id : ScopeId) :
    (w.resolve asker asked).2.lineage id = w.lineage id :=
  lineage_lookups (resolve_lookups rfl) id

theorem length_resolve (w : World) (asker : ScopeId) (asked : String) :
    (w.resolve asker asked).2.scopes.length = w.scopes.length :=
  (Scope.length_of_resolve (Prod.ext rfl rfl)).symm

theorem there_of_resolve {name : String} (given : (w.resolve id name).1 = .ok handle) :
    id < w.scopes.length := by
  rw [← length_resolve w id name]
  exact Scope.Settled.there (resolve_ok_settles (Prod.ext given rfl))

theorem lineage_run (old : id < w.scopes.length) (events : List Event) :
    (w.run events).lineage id = w.lineage id := by
  obtain ⟨_, same⟩ := w.run_blueprint events
  exact lineage_of_blueprint same old

def Open (w : World) (id : ScopeId) : Prop := Scope.Open w.scopes id

theorem Open.inherited (isOpen : w.Open id) (inside : target ∈ w.lineage id) : w.Open target :=
  fun other member => isOpen other (Scope.chain_subset inside member)

/-- While a scope is open, all types it can inherit are valid. -/
theorem Open.isValid (isOpen : w.Open id) (numbered : Scope.Each Scope.Numbered w.scopes)
    (owned : handle.owner ∈ w.lineage id) : w.isValid handle = true := by
  obtain ⟨scope, at_owner⟩ := Scope.get_of_lt (Scope.lt_of_mem_lineage owned)
  unfold World.isValid
  rw [at_owner]
  cases scope with
  | host types => rfl
  | context parent own =>
    have ready := isOpen _ (Scope.mem_chain_of_context owned at_owner) parent own at_owner
    have context : own.Numbered handle.owner := numbered _ _ at_owner
    exact context.live.mpr ready

end World
end PluginLoader
