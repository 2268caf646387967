import PluginLoader.Proofs.Resolution.Search

/-! What looking for a type in its own archives does to a context: slots are reached, one type may
be added, and nothing else changes. A context that refused a name without an unreadable archive
refuses it for good. -/
namespace PluginLoader.LoadingContext

/-- What one context may become of another while lookups go on. -/
structure Grows (before after : LoadingContext) : Prop where
  label : after.label = before.label
  sources : after.sources = before.sources
  policy : after.policy = before.policy
  state : after.state = before.state
  live : after.live = before.live
  slots : List.Forall₂ Slot.Grows before.slots after.slots
  defined : before.defined <:+ after.defined
  issued : before.issued ≤ after.issued

variable {files : FileSystem} {id : ScopeId} {name : String} {own : LoadingContext}

def reached (own : LoadingContext) (files : FileSystem) (name : String) : LoadingContext :=
  { own with slots := (search files own.policy name own.sources own.slots).2 }

def extend (own : LoadingContext) (name : String) (handle : TypeHandle) : LoadingContext :=
  { own with defined := (name, handle) :: own.defined, issued := own.issued + 1 }

/-- The three ways to look for a type in a context: the name is no type's name, the archives refuse
it, or a definition is found. -/
theorem define_cases (own : LoadingContext) (files : FileSystem) (id : ScopeId) (name : String) :
    (TypeName.searchable name = false ∧
        own.define files id name = (.error (.typeNotFound name), own)) ∨
      TypeName.searchable name = true ∧
        ((∃ e, ((search files own.policy name own.sources own.slots).1 = .error e ∨
              (search files own.policy name own.sources own.slots).1 = .ok none ∧
                e = .typeNotFound name) ∧
            own.define files id name = (.error e, own.reached files name)) ∨
          ∃ descriptor,
            (search files own.policy name own.sources own.slots).1 = .ok (some descriptor) ∧
            own.define files id name = (.ok ⟨id, own.issued, descriptor⟩,
              (own.reached files name).extend name ⟨id, own.issued, descriptor⟩)) := by
  unfold define
  cases named : TypeName.searchable name with
  | false => exact .inl ⟨rfl, rfl⟩
  | true =>
    refine .inr ⟨rfl, ?_⟩
    rcases searching : search files own.policy name own.sources own.slots with ⟨answer, slots⟩
    cases answer with
    | error e => exact .inl ⟨e, .inl rfl, by simp [reached, searching]⟩
    | ok found =>
      cases found with
      | none => exact .inl ⟨_, .inr ⟨rfl, rfl⟩, by simp [reached, searching]⟩
      | some descriptor => exact .inr ⟨descriptor, rfl, by simp [reached, extend, searching]⟩

theorem Grows.refl (own : LoadingContext) : own.Grows own where
  label := rfl
  sources := rfl
  policy := rfl
  state := rfl
  live := rfl
  slots := List.forall₂_same.mpr fun _ _ => .inl rfl
  defined := List.suffix_rfl
  issued := Nat.le_refl _

theorem reached_grows (own : LoadingContext) (files : FileSystem) (name : String) :
    own.Grows (own.reached files name) :=
  { Grows.refl own with slots := search_grows own.sources own.slots }

theorem define_grows (own : LoadingContext) (files : FileSystem) (id : ScopeId) (name : String) :
    own.Grows (own.define files id name).2 := by
  rcases define_cases own files id name with
    ⟨_, same⟩ | ⟨_, ⟨e, _, refused⟩ | ⟨descriptor, _, found⟩⟩
  · rw [same]
    exact Grows.refl own
  · rw [refused]
    exact reached_grows own files name
  · rw [found]
    exact { reached_grows own files name with
      defined := List.suffix_cons _ _
      issued := Nat.le_succ _ }

theorem define_error {e : LoadError} (failed : (own.define files id name).1 = .error e) :
    (own.define files id name).2.defined = own.defined ∧
      (own.define files id name).2.issued = own.issued := by
  rcases define_cases own files id name with
    ⟨_, same⟩ | ⟨_, ⟨fault, _, refused⟩ | ⟨descriptor, _, found⟩⟩
  · rw [same]
    exact ⟨rfl, rfl⟩
  · rw [refused]
    exact ⟨rfl, rfl⟩
  · rw [found] at failed
    cases failed

theorem define_ok {handle : TypeHandle} (found : (own.define files id name).1 = .ok handle) :
    handle.owner = id ∧ handle.serial = own.issued ∧ handle.name = name ∧
      (own.define files id name).2.defined = (name, handle) :: own.defined ∧
      (own.define files id name).2.issued = own.issued + 1 := by
  rcases define_cases own files id name with
    ⟨_, same⟩ | ⟨_, ⟨fault, _, refused⟩ | ⟨descriptor, searching, defined⟩⟩
  · rw [same] at found
    cases found
  · rw [refused] at found
    cases found
  · rw [defined] at found ⊢
    cases found
    exact ⟨rfl, rfl, search_named searching, rfl, rfl⟩

/-- Looking in archives ends without a type, or by an archive that may not be passed over, or by a
definition that is no type; only the first is reported as missing, and under the name that was asked
for. -/
theorem define_fault {e : LoadError} (failed : (own.define files id name).1 = .error e) :
    e = .typeNotFound name ∨ (e.isArchiveRead = true ∧ own.policy = .abort) ∨
      e.isBadDefinition = true := by
  rcases define_cases own files id name with
    ⟨_, same⟩ | ⟨_, ⟨fault, searching, refused⟩ | ⟨descriptor, _, found⟩⟩
  · rw [same] at failed
    cases failed
    exact .inl rfl
  · rw [refused] at failed
    cases failed
    rcases searching with searching | ⟨_, missing⟩
    · exact .inr (search_error searching)
    · exact .inl missing
  · rw [found] at failed
    cases failed

/-! ### Names found before -/

theorem known_eq_none : own.known? name = none ↔
    own.state = .ready ∧ own.defined.lookup name = none := by
  unfold known?
  cases own.state with
  | closed => simp
  | ready => simp

theorem known_eq_ok {handle : TypeHandle} (known : own.known? name = some (.ok handle)) :
    own.state = .ready ∧ own.defined.lookup name = some handle := by
  unfold known? at known
  cases state : own.state with
  | closed => rw [state] at known; cases known
  | ready =>
    rw [state] at known
    obtain ⟨found, looked, same⟩ := Option.map_eq_some_iff.mp known
    cases same
    exact ⟨rfl, looked⟩

theorem known_eq_error {e : LoadError} (known : own.known? name = some (.error e)) :
    own.state = .closed ∧ e = .contextClosed own.label := by
  unfold known? at known
  cases state : own.state with
  | closed =>
    rw [state] at known
    cases known
    exact ⟨rfl, rfl⟩
  | ready =>
    rw [state] at known
    obtain ⟨found, _, same⟩ := Option.map_eq_some_iff.mp known
    cases same

theorem known_define_of_ne {other : String} (ne : other ≠ name) :
    (own.define files id name).2.known? other = own.known? other := by
  rcases define_cases own files id name with
    ⟨_, same⟩ | ⟨_, ⟨e, _, refused⟩ | ⟨descriptor, _, found⟩⟩
  · rw [same]
  · rw [refused]
    rfl
  · rw [found]
    have missed : (other == name) = false := beq_false_of_ne ne
    simp only [known?, extend, reached, List.lookup_cons, missed]

theorem known_define {other : String} {answer : Except LoadError TypeHandle}
    (fresh : own.known? name = none) (known : own.known? other = some answer) :
    (own.define files id name).2.known? other = some answer := by
  have ne : other ≠ name := by
    intro same
    rw [same, fresh] at known
    cases known
  rw [known_define_of_ne ne, known]

/-! ### Names refused for good -/

/-- The context's own archives refuse a name, whatever becomes of the files. -/
def Refuses (own : LoadingContext) (name : String) (e : LoadError) : Prop :=
  (TypeName.searchable name = false ∧ e = .typeNotFound name) ∨
    TypeName.searchable name = true ∧ ∃ answer,
      Pinned own.policy name own.sources own.slots answer ∧
        (answer = .error e ∨ answer = .ok none ∧ e = .typeNotFound name)

theorem define_refuses {e : LoadError} (failed : (own.define files id name).1 = .error e)
    (final : e.isArchiveRead = false) : (own.define files id name).2.Refuses name e := by
  rcases define_cases own files id name with
    ⟨unnamed, same⟩ | ⟨named, ⟨fault, searching, refused⟩ | ⟨descriptor, _, found⟩⟩
  · rw [same] at failed ⊢
    cases failed
    exact .inl ⟨unnamed, rfl⟩
  · rw [refused] at failed ⊢
    cases failed
    have decided : ∀ fault, (search files own.policy name own.sources own.slots).1 = .error fault →
        fault.isArchiveRead = false := by
      intro fault failing
      rcases searching with searching | ⟨searching, _⟩
      · rw [searching] at failing
        cases failing
        exact final
      · rw [searching] at failing
        cases failing
    exact .inr ⟨named, _, search_pinned decided, searching⟩
  · rw [found] at failed
    cases failed

theorem Refuses.define {e : LoadError} (refuses : own.Refuses name e) (files : FileSystem)
    (id : ScopeId) : own.define files id name = (.error e, own) := by
  unfold LoadingContext.define
  rcases refuses with ⟨unnamed, rfl⟩ | ⟨named, answer, pinned, decides⟩
  · rw [unnamed]
    rfl
  · rw [if_pos named, pinned.search files]
    rcases decides with rfl | ⟨rfl, rfl⟩
    · rfl
    · rfl

theorem Refuses.grow {after : LoadingContext} {e : LoadError} (refuses : own.Refuses name e)
    (grows : own.Grows after) : after.Refuses name e := by
  rcases refuses with unnamed | ⟨named, answer, pinned, decides⟩
  · exact .inl unnamed
  · refine .inr ⟨named, answer, ?_, decides⟩
    rw [grows.policy, grows.sources]
    exact pinned.grow grows.slots

end PluginLoader.LoadingContext
