import PluginLoader.Proofs.Resolution.Scopes

/-! Answers that are final. An answer is settled for a name in a scope if what has been found and
reached so far decides it alone, along the whole chain of parents. Every answer of a lookup but an
unreadable archive is settled by it; a settled answer is what every later lookup gives, whatever
happens to the files, until a context on the chain is closed. -/
namespace PluginLoader.Scope

/-- No file has a say in the answer to a name any more. -/
inductive Settled : List Scope → ScopeId → String → Except LoadError TypeHandle → Prop where
  | absent (id : ScopeId) (name : String) : Settled [] id name (.error (.typeNotFound name))
  | older (scope : Scope) {older : List Scope} {id : ScopeId} {name : String}
      {answer : Except LoadError TypeHandle} : id ≠ older.length →
        Settled older id name answer → Settled (scope :: older) id name answer
  | host (types : HostTypes) (older : List Scope) (name : String) :
      Settled (.host types :: older) older.length name (types.resolve older.length name)
  | known (parent : ScopeId) {own : LoadingContext} (older : List Scope) {name : String}
      {answer : Except LoadError TypeHandle} : own.known? name = some answer →
        Settled (.context parent own :: older) older.length name answer
  | inherited {parent : ScopeId} {own : LoadingContext} {older : List Scope} {name : String}
      {answer : Except LoadError TypeHandle} : own.known? name = none →
        answer ≠ .error (.typeNotFound name) → Settled older parent name answer →
        Settled (.context parent own :: older) older.length name answer
  | refused {parent : ScopeId} {own : LoadingContext} {older : List Scope} {name : String}
      {e : LoadError} : own.known? name = none →
        Settled older parent name (.error (.typeNotFound name)) → own.Refuses name e →
        Settled (.context parent own :: older) older.length name (.error e)

variable {files : FileSystem} {scopes : List Scope} {id : ScopeId} {name : String}
  {answer : Except LoadError TypeHandle}

/-- A settled answer is the answer, and giving it changes nothing. -/
theorem Settled.resolve (settled : Settled scopes id name answer) (files : FileSystem) :
    resolve files scopes id name = (answer, scopes) := by
  induction settled with
  | absent => rfl
  | older scope below _ ih => rw [resolve_older _ below, ih]
  | host => exact resolve_host ..
  | known parent older known => exact resolve_known known ..
  | inherited fresh final _ ih => exact resolve_inherited fresh ih final
  | refused fresh _ refuses ih => rw [resolve_own fresh ih, refuses.define]

theorem Settled.there {handle : TypeHandle} (settled : Settled scopes id name (.ok handle)) :
    id < scopes.length := by
  generalize found : (.ok handle : Except LoadError TypeHandle) = answer at settled
  induction settled with
  | absent => cases found
  | older _ _ _ ih => exact Nat.lt_succ_of_lt (ih found)
  | host | known | inherited | refused => exact Nat.lt_succ_self _

theorem Settled.unique {other : Except LoadError TypeHandle}
    (settled : Settled scopes id name answer) (also : Settled scopes id name other) :
    answer = other := by
  have first := settled.resolve ⟨[], []⟩
  rw [also.resolve ⟨[], []⟩] at first
  exact (congrArg Prod.fst first).symm

/-- An answer that no unreadable archive is to blame for. -/
def Definitive (answer : Except LoadError TypeHandle) : Prop :=
  ∀ e, answer = .error e → e.isArchiveRead = false

theorem resolve_settles (final : Definitive (Scope.resolve files scopes id name).1) :
    Settled (Scope.resolve files scopes id name).2 id name
      (Scope.resolve files scopes id name).1 := by
  revert final
  apply resolve_induction (P := fun _ id answer after =>
    Definitive answer → Settled after id name answer)
  · exact fun id _ => .absent id name
  · intro scope older id answer after below asked ih final
    exact .older scope (length_of_resolve asked ▸ below) (ih final)
  · exact fun types older _ => .host types older name
  · exact fun parent own older answer known _ => .known parent older known
  · intro parent own older answer after fresh asked missing ih final
    have length := length_of_resolve asked
    rw [length]
    exact .inherited fresh missing (ih final)
  · intro parent own older after fresh asked ih final
    have length := length_of_resolve asked
    have missing : Definitive (.error (.typeNotFound name)) := by
      rintro e ⟨⟩
      rfl
    have ready := (LoadingContext.known_eq_none.mp fresh).1
    have grows := own.define_grows files older.length name
    cases found : (own.define files older.length name).1 with
    | ok handle =>
      have kept := (LoadingContext.define_ok found).2.2.2.1
      rw [length] at found kept grows ⊢
      refine .known parent after ?_
      unfold LoadingContext.known?
      rw [grows.state, ready, kept]
      simp only [List.lookup_cons_self, Option.map_some]
    | error e =>
      have refuses := LoadingContext.define_refuses found (final e found)
      have same := (LoadingContext.define_error found).1
      have unknown : (own.define files older.length name).2.known? name = none := by
        rw [LoadingContext.known_eq_none, grows.state, same]
        exact LoadingContext.known_eq_none.mp fresh
      rw [length] at refuses unknown ⊢
      exact .refused unknown (ih missing) refuses

theorem Settled.replace_older {scope : Scope} {older after : List Scope}
    (settled : Settled (scope :: older) id name answer) (length : older.length = after.length)
    (keeps : ∀ {id name answer}, Settled older id name answer → Settled after id name answer) :
    Settled (scope :: after) id name answer := by
  cases settled with
  | older _ below rest => exact .older scope (length ▸ below) (keeps rest)
  | host types => rw [length]; exact .host types after name
  | known parent _ known => rw [length]; exact .known parent after known
  | inherited fresh final rest => rw [length]; exact .inherited fresh final (keeps rest)
  | refused fresh rest refuses => rw [length]; exact .refused fresh (keeps rest) refuses

/-- A context that looks for a name its parent does not have keeps all that is settled in it. -/
theorem Settled.define {parent : ScopeId} {own : LoadingContext} {older after : List Scope}
    {asked : String} (settled : Settled (.context parent own :: older) id name answer)
    (unknown : own.known? asked = none)
    (resolving : Scope.resolve files older parent asked = (.error (.typeNotFound asked), after)) :
    Settled (.context parent (own.define files older.length asked).2 :: older) id name answer := by
  cases settled with
  | older _ below rest => exact .older _ below rest
  | known _ _ known => exact .known parent older (LoadingContext.known_define unknown known)
  | inherited fresh final rest =>
    -- the parent answers this name, so it is another one that is looked for here
    have ne : name ≠ asked := by
      rintro rfl
      rw [rest.resolve files] at resolving
      exact final (congrArg Prod.fst resolving)
    exact .inherited ((LoadingContext.known_define_of_ne ne).trans fresh) final rest
  | refused fresh rest refuses =>
    refine .refused ?_ rest (refuses.grow (own.define_grows files older.length asked))
    by_cases same : name = asked
    · subst same
      rw [refuses.define]
      exact fresh
    · exact (LoadingContext.known_define_of_ne same).trans fresh

/-- No lookup of any name in any scope changes a settled answer. -/
theorem Settled.lookup (settled : Settled scopes id name answer) (files : FileSystem)
    (asker : ScopeId) (asked : String) :
    Settled (Scope.resolve files scopes asker asked).2 id name answer := by
  revert id name answer
  apply resolve_induction (P := fun scopes _ _ after => ∀ {id name answer},
    Settled scopes id name answer → Settled after id name answer)
  · exact fun _ _ _ _ settled => settled
  · intro scope older asker given after _ resolving ih id name answer settled
    exact settled.replace_older (length_of_resolve resolving) ih
  · exact fun _ _ _ _ _ settled => settled
  · exact fun _ _ _ _ _ _ _ _ settled => settled
  · intro parent own older given after _ resolving _ ih id name answer settled
    exact settled.replace_older (length_of_resolve resolving) ih
  · intro parent own older after unknown resolving ih id name answer settled
    exact (settled.define unknown resolving).replace_older (length_of_resolve resolving) ih

/-! ### Closing -/

theorem close_known (own : LoadingContext) (name : String) :
    own.close.known? name = some (.error (.contextClosed own.label)) := by
  unfold LoadingContext.close LoadingContext.known?
  cases state : own.state with
  | ready => rfl
  | closed => simp only [state]

/-- Closing a context that is not on the chain changes nothing that is settled. -/
theorem Settled.close_outside (settled : Settled scopes id name answer) {target : ScopeId}
    (outside : target ∉ chain scopes id) :
    Settled (modify LoadingContext.close scopes target) id name answer := by
  have apart : ∀ {parent own} {older : List Scope},
      target ∉ chain (.context parent own :: older) older.length →
        target ≠ older.length ∧ target ∉ chain older parent := by
    intro parent own older outside
    rw [chain_context] at outside
    exact List.ne_and_not_mem_of_not_mem_cons outside
  induction settled with
  | absent => exact .absent ..
  | @older scope older id name answer below rest ih =>
    rw [chain_older scope below] at outside
    by_cases top : target = older.length
    · subst top
      rw [modify_top]
      exact .older _ below rest
    · rw [modify_older scope top]
      exact .older _ (by rwa [modify_length]) (ih outside)
  | host types older name =>
    by_cases top : target = older.length
    · subst top
      rw [modify_top]
      exact .host types older name
    · rw [modify_older _ top, ← modify_length older target]
      exact .host types _ name
  | @known parent own older name answer known =>
    rw [modify_older _ (apart outside).1, ← modify_length older target]
    exact .known parent _ known
  | inherited fresh final _ ih =>
    rw [modify_older _ (apart outside).1, ← modify_length _ target]
    exact .inherited fresh final (ih (apart outside).2)
  | refused fresh _ refuses ih =>
    rw [modify_older _ (apart outside).1, ← modify_length _ target]
    exact .refused fresh (ih (apart outside).2) refuses

/-- What a definitive answer is once a context on the chain has been closed: the handle that is kept
further down, or the report of a closed context. -/
def Fades (answer now : Except LoadError TypeHandle) : Prop :=
  (∃ handle, answer = .ok handle ∧ now = .ok handle) ∨ ∃ label, now = .error (.contextClosed label)

theorem settled_closed (parent : ScopeId) (own : LoadingContext) (older : List Scope)
    (name : String) :
    Settled (modify LoadingContext.close (.context parent own :: older) older.length)
      older.length name (.error (.contextClosed own.label)) := by
  rw [modify_top]
  exact .known parent older (close_known own name)

theorem Settled.close_inside (settled : Settled scopes id name answer) {target : ScopeId}
    (inside : target ∈ chain scopes id) :
    ∃ now, Settled (modify LoadingContext.close scopes target) id name now ∧ Fades answer now := by
  have above : ∀ {parent own} {older : List Scope}, target ≠ older.length →
      target ∈ chain (.context parent own :: older) older.length → target ∈ chain older parent := by
    intro parent own older ne inside
    rw [chain_context] at inside
    exact (List.mem_cons.mp inside).resolve_left ne
  induction settled with
  | absent => cases inside
  | @older scope older id name answer below _ ih =>
    rw [chain_older scope below] at inside
    obtain ⟨now, after, fades⟩ := ih inside
    refine ⟨now, ?_, fades⟩
    rw [modify_older scope (Nat.ne_of_lt (lt_of_mem_chain inside))]
    exact .older scope (by rwa [modify_length]) after
  | host types older name =>
    rw [chain_host] at inside
    cases inside
  | @known parent own older name answer known =>
    by_cases top : target = older.length
    · subst top
      exact ⟨_, settled_closed parent own older name, .inr ⟨own.label, rfl⟩⟩
    · refine ⟨answer, ?_, ?_⟩
      · rw [modify_older _ top, ← modify_length older target]
        exact .known parent _ known
      · cases answer with
        | ok handle => exact .inl ⟨handle, rfl, rfl⟩
        | error e => exact .inr ⟨own.label, congrArg _ (LoadingContext.known_eq_error known).2⟩
  | @inherited parent own older name answer fresh final _ ih =>
    by_cases top : target = older.length
    · subst top
      exact ⟨_, settled_closed parent own older name, .inr ⟨own.label, rfl⟩⟩
    · obtain ⟨now, after, fades⟩ := ih (above top inside)
      refine ⟨now, ?_, fades⟩
      have found : now ≠ .error (.typeNotFound name) := by
        rintro rfl
        rcases fades with ⟨_, _, same⟩ | ⟨_, same⟩ <;> cases same
      rw [modify_older _ top, ← modify_length older target]
      exact .inherited fresh found after
  | @refused parent own older name e fresh _ refuses ih =>
    by_cases top : target = older.length
    · subst top
      exact ⟨_, settled_closed parent own older name, .inr ⟨own.label, rfl⟩⟩
    · obtain ⟨now, after, fades⟩ := ih (above top inside)
      -- a type that was missing is not there now, so the parent reports a closed context
      rcases fades with ⟨handle, same, _⟩ | ⟨label, rfl⟩
      · cases same
      · refine ⟨_, ?_, .inr ⟨label, rfl⟩⟩
        rw [modify_older _ top, ← modify_length older target]
        exact .inherited fresh (by rintro ⟨⟩) after

end PluginLoader.Scope
