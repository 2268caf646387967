import PluginLoader.Proofs.Resolution.Run

/-! The tables of hosts and contexts, and the handles that stand in them. A handle that a lookup
gives stands in the table of the scope that owns it, and stays there until that scope is closed; no
table gives one number to two types. -/
namespace PluginLoader

/-- Entries of a table carry numbers below the next one to be given, no two the same, and each is
kept under its own name. -/
structure Numbering {β : Type} (name : β → String) (serial : β → Nat) (issued : Nat)
    (table : List (String × β)) : Prop where
  named : ∀ p ∈ table, name p.2 = p.1
  below : ∀ p ∈ table, serial p.2 < issued
  apart : ∀ p ∈ table, ∀ q ∈ table, serial p.2 = serial q.2 → p = q

namespace Numbering
variable {β : Type} {name : β → String} {serial : β → Nat} {issued : Nat}
  {table : List (String × β)}

theorem empty (issued : Nat) : Numbering name serial issued [] where
  named := by intro p member; cases member
  below := by intro p member; cases member
  apart := by intro p member; cases member

theorem subset {part : List (String × β)} (numbering : Numbering name serial issued table)
    (sub : part ⊆ table) : Numbering name serial issued part where
  named p member := numbering.named p (sub member)
  below p member := numbering.below p (sub member)
  apart p hp q hq := numbering.apart p (sub hp) q (sub hq)

theorem cons {key : String} {value : β} (numbering : Numbering name serial issued table)
    (named : name value = key) (next : serial value = issued) :
    Numbering name serial (issued + 1) ((key, value) :: table) where
  named p member := by
    rcases List.mem_cons.mp member with rfl | old
    · exact named
    · exact numbering.named p old
  below p member := by
    rcases List.mem_cons.mp member with rfl | old
    · exact next ▸ Nat.lt_succ_self _
    · exact Nat.lt_succ_of_lt (numbering.below p old)
  apart p hp q hq same := by
    rcases List.mem_cons.mp hp with rfl | hp
    · rcases List.mem_cons.mp hq with rfl | hq
      · rfl
      · have less := numbering.below q hq
        dsimp only at same
        omega
    · rcases List.mem_cons.mp hq with rfl | hq
      · have less := numbering.below p hp
        dsimp only at same
        omega
      · exact numbering.apart p hp q hq same

end Numbering

def HostTypes.Numbered (types : HostTypes) : Prop :=
  Numbering (fun entry => entry.descriptor.name) HostEntry.serial types.issued types.table

theorem HostTypes.define_numbered {types : HostTypes} (numbered : types.Numbered) (name : String)
    (superName : Option String) (access : AccessFlags) :
    (types.define name superName access).Numbered :=
  (numbered.subset (List.filter_subset_self _)).cons rfl rfl

theorem HostTypes.ofDefinitions_numbered
    (definitions : List (String × Option String × AccessFlags)) :
    (HostTypes.ofDefinitions definitions).Numbered := by
  unfold ofDefinitions
  have empty : HostTypes.empty.Numbered := Numbering.empty 0
  generalize HostTypes.empty = types at empty ⊢
  induction definitions generalizing types with
  | nil => exact empty
  | cons definition rest ih => exact ih _ (define_numbered empty ..)

/-- The table of a context, the scope numbered `id`: its handles are its own, it is live as long as
it is open, and nothing is kept once it is closed. -/
structure LoadingContext.Numbered (id : ScopeId) (own : LoadingContext) : Prop where
  numbering : Numbering TypeHandle.name TypeHandle.serial own.issued own.defined
  owned : ∀ p ∈ own.defined, p.2.owner = id
  live : own.live = true ↔ own.state = .ready
  closed : own.state = .closed → own.defined = []

namespace LoadingContext

theorem make_numbered (id : ScopeId) (label : String) (sources : List PluginSource)
    (policy : ArchivePolicy) : (make label sources policy).Numbered id where
  numbering := Numbering.empty 0
  owned := by intro p member; cases member
  live := by simp [make]
  closed := by intro state; cases state

theorem Numbered.define {id : ScopeId} {own : LoadingContext} (numbered : own.Numbered id)
    {name : String} (fresh : own.known? name = none) (files : FileSystem) :
    (own.define files id name).2.Numbered id := by
  have grows := own.define_grows files id name
  have ready := (known_eq_none.mp fresh).1
  have live : (own.define files id name).2.live = true ↔
      (own.define files id name).2.state = .ready := by
    rw [grows.live, grows.state]
    exact numbered.live
  have closed : ¬ (own.define files id name).2.state = .closed := by
    rw [grows.state, ready]
    exact ContextState.noConfusion
  cases found : (own.define files id name).1 with
  | error e =>
    obtain ⟨defined, issued⟩ := define_error found
    refine ⟨?_, ?_, live, fun state => absurd state closed⟩
    · rw [defined, issued]
      exact numbered.numbering
    · rw [defined]
      exact numbered.owned
  | ok handle =>
    obtain ⟨owner, serial, named, defined, issued⟩ := define_ok found
    refine ⟨?_, ?_, live, fun state => absurd state closed⟩
    · rw [defined, issued]
      exact numbered.numbering.cons named serial
    · rw [defined]
      intro p member
      rcases List.mem_cons.mp member with rfl | old
      · exact owner
      · exact numbered.owned p old

theorem Numbered.close {id : ScopeId} {own : LoadingContext} (numbered : own.Numbered id) :
    own.close.Numbered id := by
  unfold LoadingContext.close
  cases state : own.state with
  | closed => exact numbered
  | ready =>
    refine ⟨Numbering.empty _, ?_, by simp, fun _ => rfl⟩
    intro p member
    cases member

end LoadingContext

namespace Scope

def Numbered (id : ScopeId) : Scope → Prop
  | .host types => types.Numbered
  | .context _ own => own.Numbered id

/-- The handle stands in the scope's table. -/
def Holds (handle : TypeHandle) : Scope → Prop
  | .host types => (handle.name, ⟨handle.serial, handle.descriptor⟩) ∈ types.table
  | .context _ own => own.state = .ready ∧ (handle.name, handle) ∈ own.defined

def Each (P : ScopeId → Scope → Prop) (scopes : List Scope) : Prop :=
  ∀ id scope, get? scopes id = some scope → P id scope

theorem get_older {top : Scope} {older : List Scope} {id : ScopeId} (below : id ≠ older.length) :
    get? (top :: older) id = get? older id := by
  rw [get?, if_neg below]

theorem get_top (top : Scope) (older : List Scope) :
    get? (top :: older) older.length = some top := by
  rw [get?, if_pos rfl]

/-- Where a scope stands: newer scopes, the scope, and as many older ones as its number says. -/
theorem get_split {scopes : List Scope} {id : ScopeId} {scope : Scope}
    (found : get? scopes id = some scope) :
    ∃ newer older, scopes = newer ++ scope :: older ∧ older.length = id := by
  induction scopes with
  | nil => cases found
  | cons top rest ih =>
    by_cases here : id = rest.length
    · subst here
      rw [get_top] at found
      cases found
      exact ⟨[], rest, rfl, rfl⟩
    · rw [get_older here] at found
      obtain ⟨newer, older, rfl, length⟩ := ih found
      exact ⟨top :: newer, older, rfl, length⟩

theorem chain_of_host {scopes : List Scope} {id : ScopeId} {types : HostTypes}
    (at_id : get? scopes id = some (.host types)) : chain scopes id = [] := by
  obtain ⟨newer, older, rfl, rfl⟩ := get_split at_id
  rw [chain_append newer (Nat.lt_succ_self _), chain_host]

theorem chain_of_context {scopes : List Scope} {id parent : ScopeId} {own : LoadingContext}
    (at_id : get? scopes id = some (.context parent own)) (below : parent < id) :
    chain scopes id = id :: chain scopes parent := by
  obtain ⟨newer, older, rfl, rfl⟩ := get_split at_id
  rw [chain_append newer (Nat.lt_succ_self _), chain_context,
    chain_append newer (Nat.lt_succ_of_lt below), chain_older _ (Nat.ne_of_lt below)]

/-- A property of all contexts that a lookup in a scope can pass through. -/
def Throughout (P : LoadingContext → Prop) (scopes : List Scope) (id : ScopeId) : Prop :=
  ∀ target ∈ chain scopes id, ∀ parent own,
    get? scopes target = some (.context parent own) → P own

theorem Throughout.older {P : LoadingContext → Prop} {scope : Scope} {older : List Scope}
    {id : ScopeId} (all : Throughout P (scope :: older) id) (below : id ≠ older.length) :
    Throughout P older id := by
  intro target inside parent own at_target
  refine all target ?_ parent own ?_
  · rwa [chain_older scope below]
  · rwa [get_older (Nat.ne_of_lt (get_lt at_target))]

theorem Throughout.parent {P : LoadingContext → Prop} {parent : ScopeId} {own : LoadingContext}
    {older : List Scope} (all : Throughout P (.context parent own :: older) older.length) :
    P own ∧ Throughout P older parent := by
  unfold Throughout at all
  rw [chain_context] at all
  constructor
  · exact all _ List.mem_cons_self parent own (get_top ..)
  · intro target inside above context at_target
    refine all target (List.mem_cons_of_mem _ inside) above context ?_
    rwa [get_older (Nat.ne_of_lt (get_lt at_target))]

theorem Each.cons {P : ScopeId → Scope → Prop} {scopes : List Scope} (each : Each P scopes)
    {scope : Scope} (top : P scopes.length scope) : Each P (scope :: scopes) := by
  intro id found at_id
  by_cases here : id = scopes.length
  · subst here
    rw [get_top] at at_id
    cases at_id
    exact top
  · rw [get_older here] at at_id
    exact each id found at_id

theorem Each.tail {P : ScopeId → Scope → Prop} {scope : Scope} {older : List Scope}
    (each : Each P (scope :: older)) : Each P older := by
  intro id found at_id
  apply each id found
  rw [get_older (Nat.ne_of_lt (get_lt at_id)), at_id]

theorem Each.along {P : ScopeId → Scope → Prop} {R : ScopeId → Scope → Scope → Prop}
    {scopes after : List Scope} (each : Each P scopes) (along : Along R scopes after)
    (step : ∀ id scope now, R id scope now → P id scope → P id now) : Each P after := by
  intro id now at_id
  obtain ⟨scope, before, related⟩ := along.backward at_id
  exact step id scope now related (each id scope before)

end Scope

theorem Scope.Defines.numbered {files : FileSystem} {id : ScopeId} {scope now : Scope}
    (defines : Defines files id scope now) (numbered : scope.Numbered id) : now.Numbered id := by
  cases defines with
  | same => exact numbered
  | define parent fresh => exact LoadingContext.Numbered.define numbered fresh files

theorem World.get_perform {w : World} {id : ScopeId} {scope : Scope}
    (at_id : Scope.get? w.scopes id = some scope) (e : Event) :
    ∃ now, Scope.get? (w.perform e).scopes id = some now ∧ now.blueprint = scope.blueprint := by
  generalize happens : w.perform e = after
  cases perform_change happens with
  | add _ _ =>
    have below := Nat.ne_of_lt (Scope.get_lt at_id)
    exact ⟨scope, (Scope.get_older below).trans at_id, rfl⟩
  | @lookups _ asker _ lookups =>
    apply lookups.keep (P := fun later =>
      ∃ now, Scope.get? later.scopes id = some now ∧ now.blueprint = scope.blueprint)
    · rintro later name ⟨now, at_now, same⟩
      have along := Scope.resolve_along later.files later.scopes asker name
      obtain ⟨next, at_next, defines⟩ := along.forward at_now
      exact ⟨next, at_next, defines.blueprint.trans same⟩
    · exact ⟨scope, at_id, rfl⟩
  | close target =>
    obtain ⟨now, at_now, rfl⟩ := (Scope.close_along w.scopes target).forward at_id
    refine ⟨_, at_now, ?_⟩
    split
    · exact scope.close_blueprint
    · rfl
  | change files => exact ⟨scope, at_id, rfl⟩

/-- Whatever happens, a scope stays under its number and keeps what it is over. -/
theorem World.get_run {w : World} {id : ScopeId} {scope : Scope}
    (at_id : Scope.get? w.scopes id = some scope) (events : List Event) :
    ∃ now, Scope.get? (w.run events).scopes id = some now ∧ now.blueprint = scope.blueprint := by
  induction events generalizing w scope with
  | nil => exact ⟨scope, at_id, rfl⟩
  | cons e rest ih =>
    obtain ⟨next, at_next, same⟩ := get_perform at_id e
    obtain ⟨now, at_now, later⟩ := ih at_next
    exact ⟨now, at_now, later.trans same⟩

/-- A property of every scope is an invariant of runs if fresh scopes have it, a context keeps it
when it looks for a name it does not know, and what is closed in the run keeps it. -/
theorem World.each_run {P : ScopeId → Scope → Prop} (files : FileSystem) (events : List Event)
    (fresh : ∀ id scope, Scope.Fresh scope → P id scope)
    (define : ∀ files id parent own name, own.known? name = none →
      P id (.context parent own) → P id (.context parent (own.define files id name).2))
    (close : ∀ id scope, Event.close id ∈ events → P id scope → P id scope.close) :
    Scope.Each P ((start files).run events).scopes := by
  apply run_invariant (P := fun w => Scope.Each P w.scopes)
  · intro id scope found
    cases found
  · intro w scope isFresh each
    exact each.cons (fresh _ scope isFresh)
  · intro w id name each
    refine each.along (Scope.resolve_along w.files w.scopes id name) ?_
    intro id scope now defines holds
    cases defines with
    | same => exact holds
    | define parent unknown => exact define w.files id parent _ _ unknown holds
  · intro w target member each
    refine each.along (Scope.close_along w.scopes target) ?_
    rintro id scope now rfl holds
    split
    · rename_i here
      exact close id scope (here ▸ member) holds
    · exact holds
  · exact fun _ _ _ each => each

/-- What a fresh context has, and keeps when it looks for a name it does not know and when it is
closed, every context of a run has. -/
theorem World.context_run {P : LoadingContext → Prop} (files : FileSystem) (events : List Event)
    (fresh : ∀ label sources policy, P (LoadingContext.make label sources policy))
    (define : ∀ files id name own, own.known? name = none → P own → P (own.define files id name).2)
    (close : ∀ own, P own → P own.close) {id parent : ScopeId} {own : LoadingContext}
    (at_id : Scope.get? ((start files).run events).scopes id = some (.context parent own)) :
    P own := by
  have each : Scope.Each (fun _ scope => ∀ parent own, scope = .context parent own → P own)
      ((start files).run events).scopes := by
    apply each_run
    · rintro id scope isFresh parent own rfl
      cases isFresh
      exact fresh ..
    · rintro files id parent own name unknown holds _ _ ⟨⟩
      exact define files id name own unknown (holds parent own rfl)
    · rintro id scope _ holds parent own same
      cases scope with
      | host types => cases same
      | context above was =>
        cases same
        exact close was (holds parent was rfl)
  exact each id _ at_id parent own rfl

theorem World.numbered_run (files : FileSystem) (events : List Event) :
    Scope.Each Scope.Numbered ((start files).run events).scopes := by
  apply each_run
  · intro id scope fresh
    cases fresh with
    | host definitions => exact HostTypes.ofDefinitions_numbered definitions
    | context parent label sources policy => exact LoadingContext.make_numbered ..
  · exact fun files id parent own name fresh numbered => numbered.define fresh files
  · intro id scope _ numbered
    cases scope with
    | host types => exact numbered
    | context parent own => exact LoadingContext.Numbered.close numbered

theorem World.ready_run (files : FileSystem) (events : List Event) {target parent : ScopeId}
    {own : LoadingContext} (spared : Event.close target ∉ events)
    (at_target : Scope.get? ((start files).run events).scopes target = some (.context parent own)) :
    own.state = .ready := by
  have ready : Scope.Each (fun id scope => ∀ parent own, id = target →
      scope = .context parent own → own.state = .ready) ((start files).run events).scopes := by
    apply each_run
    · rintro id scope fresh parent own rfl rfl
      cases fresh
      rfl
    · rintro files id parent own name _ ready _ _ rfl same
      cases same
      rw [(own.define_grows files id name).state]
      exact ready parent own rfl rfl
    · rintro id scope member _ _ _ rfl
      exact absurd member spared
  exact ready target _ at_target parent own rfl rfl

/-- Lookups leave contexts ready. -/
theorem World.ready_lookups {w after : World} {asker id : ScopeId}
    (ready : Scope.Throughout (·.state = .ready) w.scopes id) (lookups : Lookups asker w after) :
    Scope.Throughout (·.state = .ready) after.scopes id := by
  apply lookups.keep (P := fun later => Scope.Throughout (·.state = .ready) later.scopes id) _ ready
  intro later name ready target inside parent own at_target
  have step : Lookups asker later (later.resolve asker name).2 := resolve_lookups rfl
  have same : (later.resolve asker name).2.chain id = later.chain id := chain_lookups step
  have inside : target ∈ later.chain id := same ▸ inside
  have along := Scope.resolve_along later.files later.scopes asker name
  obtain ⟨scope, before, defines⟩ := along.backward at_target
  cases defines with
  | same => exact ready target inside parent own before
  | @define was name _ fresh =>
    rw [(was.define_grows later.files target name).state]
    exact ready target inside parent was before

/-! ### Handles in tables -/

theorem mem_of_lookup {β : Type} {table : List (String × β)} {key : String} {value : β}
    (found : table.lookup key = some value) : (key, value) ∈ table := by
  obtain ⟨front, back, rfl, _⟩ := List.lookup_eq_some_iff.mp found
  exact List.mem_append_right front List.mem_cons_self

theorem lookup_of_key {β : Type} {table : List (String × β)} {key : String}
    (kept : key ∈ table.map Prod.fst) : ∃ value, table.lookup key = some value := by
  obtain ⟨p, inside, rfl⟩ := List.mem_map.mp kept
  apply Option.ne_none_iff_exists'.mp
  intro absent
  simpa using List.lookup_eq_none_iff.mp absent p inside

namespace Scope
variable {files : FileSystem}

theorem holds_of_known {id : ScopeId} {own : LoadingContext} {name : String}
    {handle : TypeHandle} (numbered : own.Numbered id)
    (known : own.known? name = some (.ok handle)) (parent : ScopeId) :
    handle.name = name ∧ handle.owner = id ∧ (Scope.context parent own).Holds handle := by
  obtain ⟨ready, looked⟩ := LoadingContext.known_eq_ok known
  have member := mem_of_lookup looked
  have named : handle.name = name := numbered.numbering.named _ member
  exact ⟨named, numbered.owned _ member, ready, named ▸ member⟩

/-- A handle that a lookup gives has the name that was asked for and stands in its owner's table. -/
theorem resolve_holds (scopes : List Scope) (id : ScopeId) (name : String)
    (numbered : Each Numbered scopes) {handle : TypeHandle}
    (found : (resolve files scopes id name).1 = .ok handle) :
    handle.name = name ∧ ∃ scope,
      get? (resolve files scopes id name).2 handle.owner = some scope ∧ scope.Holds handle := by
  revert numbered handle
  apply resolve_induction (P := fun scopes _ answer after => Each Numbered scopes →
    ∀ {handle}, answer = .ok handle → handle.name = name ∧ ∃ scope,
      get? after handle.owner = some scope ∧ scope.Holds handle)
  · intro _ _ _ found
    cases found
  · intro top older id answer after _ _ ih numbered handle found
    obtain ⟨named, scope, at_owner, holds⟩ := ih numbered.tail found
    refine ⟨named, scope, ?_, holds⟩
    rw [get_older (Nat.ne_of_lt (get_lt at_owner)), at_owner]
  · intro types older numbered handle found
    have entries : types.Numbered := numbered _ _ (get_top ..)
    unfold HostTypes.resolve at found
    split at found
    · rename_i entry looked
      cases found
      have member := mem_of_lookup looked
      have named : entry.descriptor.name = name := entries.named _ member
      refine ⟨named, _, get_top .., ?_⟩
      unfold Holds TypeHandle.name
      rw [named]
      exact member
    · cases found
  · intro parent own older answer known numbered handle found
    subst found
    obtain ⟨named, owner, holds⟩ := holds_of_known (numbered _ _ (get_top ..)) known parent
    exact ⟨named, _, owner ▸ get_top .., holds⟩
  · intro parent own older answer after _ _ _ ih numbered handle found
    obtain ⟨named, scope, at_owner, holds⟩ := ih numbered.tail found
    refine ⟨named, scope, ?_, holds⟩
    rw [get_older (Nat.ne_of_lt (get_lt at_owner)), at_owner]
  · intro parent own older after fresh asked ih numbered handle found
    have length := length_of_resolve asked
    obtain ⟨owner, _, named, defined, _⟩ := LoadingContext.define_ok found
    have ready := (LoadingContext.known_eq_none.mp fresh).1
    have state := (own.define_grows files older.length name).state.trans ready
    rw [length] at owner defined state ⊢
    have member : (handle.name, handle) ∈ (own.define files after.length name).2.defined := by
      rw [defined, named]
      exact List.mem_cons_self
    refine ⟨named, .context parent (own.define files after.length name).2, ?_, state, member⟩
    rw [owner, get_top]

theorem holds_unique {scopes : List Scope} (numbered : Each Numbered scopes) {scope : Scope}
    {a b : TypeHandle} (at_owner : get? scopes a.owner = some scope) (first : scope.Holds a)
    (second : scope.Holds b) (same : a.same b = true) : a = b := by
  simp only [TypeHandle.same, Bool.and_eq_true, beq_iff_eq] at same
  obtain ⟨owner, serial⟩ := same
  have at_scope := numbered _ _ at_owner
  cases scope with
  | host types =>
    have entries : types.Numbered := at_scope
    have equal := entries.apart _ first _ second serial
    have described := congrArg (fun p => p.2.descriptor) equal
    cases a
    cases b
    simp only at owner serial described
    subst owner serial described
    rfl
  | context parent own =>
    have context : own.Numbered a.owner := at_scope
    exact congrArg Prod.snd (context.numbering.apart _ first.2 _ second.2 serial)

theorem live_of_holds {id : ScopeId} {scope : Scope} {handle : TypeHandle}
    (numbered : scope.Numbered id) (holds : scope.Holds handle) : scope.isLive = true := by
  cases scope with
  | host types => rfl
  | context parent own => exact (show own.Numbered id from numbered).live.mpr holds.1

theorem Defines.holds {id : ScopeId} {scope now : Scope} {handle : TypeHandle}
    (defines : Defines files id scope now) (holds : scope.Holds handle) : now.Holds handle := by
  cases defines with
  | same => exact holds
  | @define own name parent fresh =>
    have grows := own.define_grows files id name
    exact ⟨grows.state.trans holds.1, grows.defined.subset holds.2⟩

/-- A scope closed for good, as no host ever is. -/
def Closed : Scope → Prop
  | .host _ => False
  | .context _ own => own.state = .closed

theorem Defines.closed {id : ScopeId} {scope now : Scope} (defines : Defines files id scope now)
    (closed : scope.Closed) : now.Closed := by
  cases defines with
  | same => exact closed
  | @define own name parent fresh =>
    exact (own.define_grows files id name).state.trans closed

theorem close_closed {scope : Scope} (closed : scope.Closed) : scope.close.Closed := by
  cases scope with
  | host types => exact closed
  | context parent own =>
    have state : own.state = .closed := closed
    simp only [close, LoadingContext.close, state]
    exact state

theorem close_holds {scope : Scope} {handle : TypeHandle} (holds : scope.Holds handle) :
    scope.close.Holds handle ∨ scope.close.Closed := by
  cases scope with
  | host types => exact .inl holds
  | context parent own =>
    obtain ⟨ready, _⟩ := holds
    simp only [close, LoadingContext.close, ready]
    exact .inr rfl

theorem not_closed_of_holds {scope : Scope} {handle : TypeHandle} (holds : scope.Holds handle) :
    ¬ scope.Closed := by
  intro closed
  cases scope with
  | host types => exact closed
  | context parent own =>
    have state : own.state = .closed := closed
    rw [holds.1] at state
    cases state

end Scope

namespace World

/-- The handle stands in the table of its owner. -/
def Holds (w : World) (handle : TypeHandle) : Prop :=
  ∃ scope, Scope.get? w.scopes handle.owner = some scope ∧ scope.Holds handle

/-- The handle stands in its owner's table, or did until its owner was closed. -/
def Issued (w : World) (handle : TypeHandle) : Prop :=
  ∃ scope, Scope.get? w.scopes handle.owner = some scope ∧ (scope.Holds handle ∨ scope.Closed)

theorem Holds.issued {w : World} {handle : TypeHandle} (holds : w.Holds handle) :
    w.Issued handle := by
  obtain ⟨scope, at_owner, stands⟩ := holds
  exact ⟨scope, at_owner, .inl stands⟩

theorem resolve_holds {w : World} (numbered : Scope.Each Scope.Numbered w.scopes) {id : ScopeId}
    {name : String} {handle : TypeHandle} (found : (w.resolve id name).1 = .ok handle) :
    handle.name = name ∧ (w.resolve id name).2.Holds handle :=
  Scope.resolve_holds w.scopes id name numbered found

theorem Issued.along {w after : World} {handle : TypeHandle}
    {R : ScopeId → Scope → Scope → Prop} (issued : w.Issued handle)
    (along : Scope.Along R w.scopes after.scopes)
    (step : ∀ id scope now, R id scope now → scope.Holds handle ∨ scope.Closed →
      now.Holds handle ∨ now.Closed) : after.Issued handle := by
  obtain ⟨scope, at_owner, stands⟩ := issued
  obtain ⟨now, at_now, related⟩ := along.forward at_owner
  exact ⟨now, at_now, step _ scope now related stands⟩

theorem Issued.perform {w : World} {handle : TypeHandle} (issued : w.Issued handle) (e : Event) :
    (w.perform e).Issued handle := by
  generalize happens : w.perform e = after
  cases perform_change happens with
  | @add _ scope fresh =>
    obtain ⟨owner, at_owner, stands⟩ := issued
    have below := Scope.get_lt at_owner
    exact ⟨owner, (Scope.get_older (Nat.ne_of_lt below)).trans at_owner, stands⟩
  | lookups _ lookups =>
    apply lookups.keep (P := fun later => later.Issued handle) _ issued
    intro later name issued
    refine issued.along (Scope.resolve_along later.files later.scopes _ name) ?_
    intro id scope now defines stands
    exact stands.imp defines.holds defines.closed
  | close target =>
    refine issued.along (Scope.close_along w.scopes target) ?_
    rintro id scope now rfl stands
    split
    · rcases stands with holds | closed
      · exact Scope.close_holds holds
      · exact .inr (Scope.close_closed closed)
    · exact stands
  | change files => exact issued

theorem Issued.run {w : World} {handle : TypeHandle} (issued : w.Issued handle)
    (events : List Event) : (w.run events).Issued handle :=
  run_keep (P := fun w => w.Issued handle) (fun _ e _ issued => Issued.perform issued e) issued

/-- Of all handles ever issued, two of the same identity are the same, once one of them stands in
its owner's table. -/
theorem issued_unique {w : World} (numbered : Scope.Each Scope.Numbered w.scopes)
    {a b : TypeHandle} (first : w.Issued a) (second : w.Holds b) (same : a.same b = true) :
    a = b := by
  have owner : a.owner = b.owner := by
    simp only [TypeHandle.same, Bool.and_eq_true, beq_iff_eq] at same
    exact same.1
  obtain ⟨scope, at_owner, stands⟩ := first
  obtain ⟨other, at_other, holds⟩ := second
  have equal : scope = other := by
    rw [owner, at_other] at at_owner
    exact (Option.some.inj at_owner).symm
  subst equal
  have stays := stands.resolve_right (Scope.not_closed_of_holds holds)
  exact Scope.holds_unique numbered at_owner stays holds same

theorem isValid_of_holds {w : World} (numbered : Scope.Each Scope.Numbered w.scopes)
    {handle : TypeHandle} (holds : w.Holds handle) : w.isValid handle = true := by
  obtain ⟨scope, at_owner, stands⟩ := holds
  unfold isValid
  rw [at_owner]
  exact Scope.live_of_holds (numbered _ _ at_owner) stands

end World
end PluginLoader
