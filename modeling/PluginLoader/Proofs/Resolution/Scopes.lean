import PluginLoader.Proofs.Resolution.Define
import PluginLoader.World

/-! What a lookup does to a list of scopes. A scope and its older ones are changed by contexts that
look into their own archives, each for a name it did not know and its parent does not have. What a
scope is over (a host table; a parent, sources and a policy) never changes. -/
namespace PluginLoader

/-- A scope that is older than another has a lower number. -/
theorem ne_length_append {α : Type} (newer : List α) {scopes : List α} {id : ScopeId}
    (old : id < scopes.length) : id ≠ (newer ++ scopes).length := by
  rw [List.length_append]
  exact Nat.ne_of_lt (Nat.lt_add_left _ old)

/-- What never changes of a scope. -/
inductive Blueprint where
  | host (types : HostTypes)
  | context (parent : ScopeId) (sources : List PluginSource) (policy : ArchivePolicy)

namespace Blueprint

/-- The contexts a lookup can pass through: the scope itself, its parent, and so on. -/
def chain : List Blueprint → ScopeId → List ScopeId
  | [], _ => []
  | scope :: older, id =>
    if id = older.length then
      match scope with
      | .host _ => []
      | .context parent _ _ => id :: chain older parent
    else chain older id

theorem chain_older (scope : Blueprint) {older : List Blueprint} {id : ScopeId}
    (below : id ≠ older.length) : chain (scope :: older) id = chain older id := by
  cases scope <;> simp only [chain, if_neg below]

theorem chain_append (newer scopes : List Blueprint) {id : ScopeId} (old : id < scopes.length) :
    chain (newer ++ scopes) id = chain scopes id := by
  induction newer with
  | nil => rfl
  | cons scope newer ih =>
    rw [List.cons_append, chain_older scope (ne_length_append newer old), ih]

end Blueprint

namespace Scope

def blueprint : Scope → Blueprint
  | .host types => .host types
  | .context parent own => .context parent own.sources own.policy

def close : Scope → Scope
  | .host types => .host types
  | .context parent own => .context parent own.close

/-- A relation between what a scope was and is, along a list of scopes. -/
inductive Along (R : ScopeId → Scope → Scope → Prop) : List Scope → List Scope → Prop where
  | nil : Along R [] []
  | cons {scope after : Scope} {older olderAfter : List Scope} :
      R older.length scope after → Along R older olderAfter →
        Along R (scope :: older) (after :: olderAfter)

namespace Along
variable {R : ScopeId → Scope → Scope → Prop} {scopes after : List Scope}

theorem length_eq (along : Along R scopes after) : after.length = scopes.length := by
  induction along with
  | nil => rfl
  | cons _ _ ih => simp only [List.length_cons, ih]

theorem refl (scopes : List Scope) (each : ∀ id < scopes.length, ∀ scope, R id scope scope) :
    Along R scopes scopes := by
  induction scopes with
  | nil => exact .nil
  | cons scope older ih =>
    refine .cons (each _ (Nat.lt_succ_self _) scope) (ih ?_)
    intro id below
    exact each id (Nat.lt_succ_of_lt below)

theorem forward (along : Along R scopes after) {id : ScopeId} {scope : Scope}
    (found : get? scopes id = some scope) : ∃ now, get? after id = some now ∧ R id scope now := by
  induction along with
  | nil => cases found
  | @cons top topAfter older olderAfter related rest ih =>
    simp only [get?, rest.length_eq] at found ⊢
    by_cases here : id = older.length
    · rw [if_pos here] at found ⊢
      cases found
      exact ⟨topAfter, rfl, here ▸ related⟩
    · rw [if_neg here] at found ⊢
      exact ih found

theorem backward (along : Along R scopes after) {id : ScopeId} {now : Scope}
    (found : get? after id = some now) : ∃ scope, get? scopes id = some scope ∧ R id scope now := by
  induction along with
  | nil => cases found
  | @cons top topAfter older olderAfter related rest ih =>
    simp only [get?, rest.length_eq] at found ⊢
    by_cases here : id = older.length
    · rw [if_pos here] at found ⊢
      cases found
      exact ⟨top, rfl, here ▸ related⟩
    · rw [if_neg here] at found ⊢
      exact ih found

theorem blueprint (along : Along R scopes after)
    (each : ∀ id scope now, R id scope now → now.blueprint = scope.blueprint) :
    after.map Scope.blueprint = scopes.map Scope.blueprint := by
  induction along with
  | nil => rfl
  | cons related _ ih => simp only [List.map_cons, each _ _ _ related, ih]

end Along

theorem get_lt {scopes : List Scope} {id : ScopeId} {scope : Scope}
    (found : get? scopes id = some scope) : id < scopes.length := by
  induction scopes with
  | nil => cases found
  | cons top older ih =>
    rw [get?] at found
    by_cases here : id = older.length
    · simp only [here, List.length_cons, Nat.lt_succ_self]
    · rw [if_neg here] at found
      exact Nat.lt_succ_of_lt (ih found)

def chain (scopes : List Scope) (id : ScopeId) : List ScopeId :=
  Blueprint.chain (scopes.map blueprint) id

theorem chain_older (scope : Scope) {older : List Scope} {id : ScopeId}
    (below : id ≠ older.length) : chain (scope :: older) id = chain older id :=
  Blueprint.chain_older _ (by rwa [List.length_map])

theorem chain_append (newer : List Scope) {scopes : List Scope} {id : ScopeId}
    (old : id < scopes.length) : chain (newer ++ scopes) id = chain scopes id := by
  unfold chain
  rw [List.map_append, Blueprint.chain_append _ _ (by rwa [List.length_map])]

theorem chain_host (types : HostTypes) (older : List Scope) :
    chain (.host types :: older) older.length = [] := by
  simp only [chain, List.map_cons, blueprint, Blueprint.chain, List.length_map, if_pos]

theorem chain_context (parent : ScopeId) (own : LoadingContext) (older : List Scope) :
    chain (.context parent own :: older) older.length = older.length :: chain older parent := by
  simp only [chain, List.map_cons, blueprint, Blueprint.chain, List.length_map, if_pos]

theorem lt_of_mem_chain {scopes : List Scope} {id target : ScopeId}
    (inside : target ∈ chain scopes id) : target < scopes.length := by
  induction scopes generalizing id with
  | nil => cases inside
  | cons scope older ih =>
    by_cases here : id = older.length
    · subst here
      cases scope with
      | host types => rw [chain_host] at inside; cases inside
      | context parent own =>
        rw [chain_context] at inside
        rcases List.mem_cons.mp inside with rfl | inside
        · exact Nat.lt_succ_self _
        · exact Nat.lt_succ_of_lt (ih inside)
    · rw [chain_older scope here] at inside
      exact Nat.lt_succ_of_lt (ih inside)

/-! ### One lookup -/

variable {files : FileSystem}

theorem isTypeNotFound_iff {e : LoadError} :
    e.isTypeNotFound = true ↔ ∃ name, e = .typeNotFound name := by
  cases e <;> simp [LoadError.isTypeNotFound]

theorem resolve_older {scope : Scope} {older : List Scope} {id : ScopeId} (name : String)
    (below : id ≠ older.length) :
    resolve files (scope :: older) id name =
      ((resolve files older id name).1, scope :: (resolve files older id name).2) := by
  cases scope <;> simp only [resolve, if_neg below]

theorem resolve_host (types : HostTypes) (older : List Scope) (name : String) :
    resolve files (.host types :: older) older.length name =
      (types.resolve older.length name, .host types :: older) := by
  rw [resolve, if_pos rfl]

theorem resolve_known {own : LoadingContext} {name : String}
    {answer : Except LoadError TypeHandle} (known : own.known? name = some answer)
    (parent : ScopeId) (older : List Scope) :
    resolve files (.context parent own :: older) older.length name =
      (answer, .context parent own :: older) := by
  rw [resolve, if_pos rfl]
  dsimp only
  rw [known]

theorem define_missing {own : LoadingContext} {id : ScopeId} {name : String} {e : LoadError}
    (failed : (own.define files id name).1 = .error e) (missing : e.isTypeNotFound = true) :
    e = .typeNotFound name := by
  rcases LoadingContext.define_fault failed with same | ⟨read, _⟩ | bad
  · exact same
  · obtain ⟨other, rfl⟩ := isTypeNotFound_iff.mp missing
    cases read
  · obtain ⟨other, rfl⟩ := isTypeNotFound_iff.mp missing
    cases bad

/-- A missing type is reported under the name that was asked for, through any depth of scopes. -/
theorem resolve_missing {scopes : List Scope} {id : ScopeId} {name : String} {e : LoadError}
    (failed : (resolve files scopes id name).1 = .error e) (missing : e.isTypeNotFound = true) :
    e = .typeNotFound name := by
  induction scopes generalizing id with
  | nil => cases failed; rfl
  | cons scope older ih =>
    by_cases here : id = older.length
    · subst here
      cases scope with
      | host types =>
        rw [resolve_host] at failed
        unfold HostTypes.resolve at failed
        split at failed
        · cases failed
        · cases failed; rfl
      | context parent own =>
        cases known : own.known? name with
        | some answer =>
          rw [resolve_known known] at failed
          cases failed
          obtain ⟨_, rfl⟩ := LoadingContext.known_eq_error known
          cases missing
        | none =>
          rw [resolve, if_pos rfl] at failed
          dsimp only at failed
          rw [known] at failed
          rcases asked : resolve files older parent name with ⟨answer, after⟩
          rw [asked] at failed
          cases answer with
          | ok handle => cases failed
          | error fault =>
            dsimp only at failed
            split at failed
            · exact define_missing failed missing
            · cases failed
              exact ih (congrArg Prod.fst asked)
    · rw [resolve_older name here] at failed
      exact ih failed

/-- The parent's answer is the answer, unless the parent has no such type. -/
theorem resolve_inherited {own : LoadingContext} {parent : ScopeId} {older after : List Scope}
    {name : String} {answer : Except LoadError TypeHandle} (fresh : own.known? name = none)
    (asked : resolve files older parent name = (answer, after))
    (final : answer ≠ .error (.typeNotFound name)) :
    resolve files (.context parent own :: older) older.length name =
      (answer, .context parent own :: after) := by
  rw [resolve, if_pos rfl]
  dsimp only
  rw [fresh, asked]
  cases answer with
  | ok handle => rfl
  | error e =>
    have other : e.isTypeNotFound ≠ true := by
      intro missing
      apply final
      rw [resolve_missing (congrArg Prod.fst asked) missing]
    dsimp only
    rw [if_neg other]

/-- Only for a type the parent does not have does a context look into its own archives. -/
theorem resolve_own {own : LoadingContext} {parent : ScopeId} {older after : List Scope}
    {name : String} (fresh : own.known? name = none)
    (asked : resolve files older parent name = (.error (.typeNotFound name), after)) :
    resolve files (.context parent own :: older) older.length name =
      ((own.define files older.length name).1,
        .context parent (own.define files older.length name).2 :: after) := by
  rw [resolve, if_pos rfl]
  dsimp only
  rw [fresh, asked]
  rfl

/-- All that a lookup can be: of no scope, in an older scope, in a host, known, inherited, or in the
context's own archives. -/
theorem resolve_induction {name : String}
    {P : List Scope → ScopeId → Except LoadError TypeHandle → List Scope → Prop}
    (absent : ∀ id, P [] id (.error (.typeNotFound name)) [])
    (older : ∀ scope older id answer after, id ≠ older.length →
      resolve files older id name = (answer, after) →
      P older id answer after → P (scope :: older) id answer (scope :: after))
    (host : ∀ types older, P (.host types :: older) older.length
      (types.resolve older.length name) (.host types :: older))
    (known : ∀ parent own older answer, own.known? name = some answer →
      P (.context parent own :: older) older.length answer (.context parent own :: older))
    (inherited : ∀ parent own older answer after, own.known? name = none →
      resolve files older parent name = (answer, after) → answer ≠ .error (.typeNotFound name) →
      P older parent answer after →
        P (.context parent own :: older) older.length answer (.context parent own :: after))
    (archives : ∀ parent own older after, own.known? name = none →
      resolve files older parent name = (.error (.typeNotFound name), after) →
      P older parent (.error (.typeNotFound name)) after →
        P (.context parent own :: older) older.length (own.define files older.length name).1
          (.context parent (own.define files older.length name).2 :: after))
    (scopes : List Scope) (id : ScopeId) :
    P scopes id (resolve files scopes id name).1 (resolve files scopes id name).2 := by
  induction scopes generalizing id with
  | nil => exact absent id
  | cons scope rest ih =>
    by_cases here : id = rest.length
    · subst here
      cases scope with
      | host types =>
        rw [resolve_host]
        exact host types rest
      | context parent own =>
        cases knowing : own.known? name with
        | some answer =>
          rw [resolve_known knowing]
          exact known parent own rest answer knowing
        | none =>
          have asking := ih parent
          rcases asked : resolve files rest parent name with ⟨answer, after⟩
          rw [asked] at asking
          by_cases missing : answer = .error (.typeNotFound name)
          · subst missing
            rw [resolve_own knowing asked]
            exact archives parent own rest after knowing asked asking
          · rw [resolve_inherited knowing asked missing]
            exact inherited parent own rest answer after knowing asked missing asking
    · rw [resolve_older name here]
      exact older scope rest id _ _ here rfl (ih id)

/-- What a lookup may do to one scope. -/
inductive Defines (files : FileSystem) (id : ScopeId) : Scope → Scope → Prop where
  | same (scope : Scope) : Defines files id scope scope
  | define {own : LoadingContext} {name : String} (parent : ScopeId)
      (fresh : own.known? name = none) :
      Defines files id (.context parent own) (.context parent (own.define files id name).2)

theorem Defines.blueprint {id : ScopeId} {scope now : Scope}
    (defines : Defines files id scope now) : now.blueprint = scope.blueprint := by
  cases defines with
  | same => rfl
  | @define own name parent fresh =>
    have grows := own.define_grows files id name
    simp only [Scope.blueprint, grows.sources, grows.policy]

theorem resolve_along (files : FileSystem) (scopes : List Scope) (id : ScopeId) (name : String) :
    Along (Defines files) scopes (resolve files scopes id name).2 := by
  have same : ∀ scopes, Along (Defines files) scopes scopes := fun scopes =>
    Along.refl scopes fun _ _ scope => .same scope
  apply resolve_induction (P := fun scopes _ _ after => Along (Defines files) scopes after)
  · exact fun _ => .nil
  · exact fun scope _ _ _ _ _ _ ih => .cons (.same scope) ih
  · exact fun types older => same (.host types :: older)
  · exact fun parent own older _ _ => same (.context parent own :: older)
  · exact fun parent own _ _ _ _ _ _ ih => .cons (.same _) ih
  · exact fun parent own _ _ fresh _ ih => .cons (.define parent fresh) ih

theorem resolve_blueprint (files : FileSystem) (scopes : List Scope) (id : ScopeId)
    (name : String) :
    (resolve files scopes id name).2.map blueprint = scopes.map blueprint :=
  (resolve_along files scopes id name).blueprint fun _ _ _ => Defines.blueprint

theorem blueprint_of_resolve {scopes after : List Scope} {id : ScopeId} {name : String}
    {answer : Except LoadError TypeHandle}
    (asked : resolve files scopes id name = (answer, after)) :
    after.map blueprint = scopes.map blueprint := by
  rw [← resolve_blueprint files scopes id name, asked]

theorem length_of_resolve {scopes after : List Scope} {id : ScopeId} {name : String}
    {answer : Except LoadError TypeHandle}
    (asked : resolve files scopes id name = (answer, after)) : scopes.length = after.length := by
  have same := congrArg List.length (blueprint_of_resolve asked)
  simpa only [List.length_map] using same.symm

/-! ### Closing -/

theorem modify_top (scope : Scope) (older : List Scope) :
    modify LoadingContext.close (scope :: older) older.length = scope.close :: older := by
  cases scope <;> simp only [modify, close, if_pos]

theorem modify_older (scope : Scope) {older : List Scope} {id : ScopeId}
    (below : id ≠ older.length) :
    modify LoadingContext.close (scope :: older) id =
      scope :: modify LoadingContext.close older id := by
  cases scope <;> simp only [modify, if_neg below]

theorem close_along (scopes : List Scope) (id : ScopeId) :
    Along (fun i scope now => now = if i = id then scope.close else scope) scopes
      (modify LoadingContext.close scopes id) := by
  induction scopes with
  | nil => exact .nil
  | cons scope older ih =>
    by_cases here : id = older.length
    · subst here
      rw [modify_top]
      refine .cons (by rw [if_pos rfl]) (Along.refl older fun i below scope => ?_)
      rw [if_neg (Nat.ne_of_lt below)]
    · rw [modify_older scope here]
      exact .cons (by rw [if_neg (Ne.symm here)]) ih

theorem modify_length (scopes : List Scope) (id : ScopeId) :
    (modify LoadingContext.close scopes id).length = scopes.length :=
  (close_along scopes id).length_eq

theorem close_blueprint (scope : Scope) : scope.close.blueprint = scope.blueprint := by
  cases scope with
  | host types => rfl
  | context parent own =>
    simp only [close, LoadingContext.close]
    cases own.state <;> rfl

theorem modify_blueprint (scopes : List Scope) (id : ScopeId) :
    (modify LoadingContext.close scopes id).map blueprint = scopes.map blueprint := by
  apply (close_along scopes id).blueprint
  rintro i scope now rfl
  split
  · exact scope.close_blueprint
  · rfl

end Scope
end PluginLoader
