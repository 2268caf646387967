import PluginLoader.Proofs.Resolution.Isolation

/-! Use after close. A closed context never changes again and refuses every lookup, and with it
every query that comes to a lookup. Two queries may end before that: for the supertype of a valid
root type, and for subtypes when going through the sources meets no name. -/
namespace PluginLoader

/-- The answer is the report of an illegal state. -/
def Illegal {α : Type} (answer : Except LoadError α) : Prop :=
  ∃ e, answer = .error e ∧ e.kind = .illegalState

/-- What going through sources meets first: a name and its source, or a failure that is not passed
over, or nothing. -/
def firstMet (files : FileSystem) (policy : ArchivePolicy) :
    List PluginSource → Option (Except LoadError (String × PluginSource))
  | [] => none
  | source :: sources =>
    match source.listing files with
    | .ok name :: _ => some (.ok (name, source))
    | .error e :: _ =>
      match policy with
      | .abort => some (.error e)
      | .skip => firstMet files policy sources
    | [] => firstMet files policy sources

theorem Archive.itemsOf_fault {archive : Archive} {entries : List Zip.Entry} {e : LoadError}
    (listed : .error e ∈ archive.itemsOf entries) :
    ∃ fault, e = .archiveRead archive.location fault := by
  induction entries with
  | nil => cases listed
  | cons entry rest ih =>
    rw [Archive.itemsOf] at listed
    split at listed
    · rename_i fault _
      cases List.mem_singleton.mp listed
      exact ⟨fault, rfl⟩
    · split at listed
      · exact ih ((List.mem_cons.mp listed).resolve_left (by rintro ⟨⟩))
      · exact ih listed

/-- A source that cannot be opened or enumerated to its end fails under its location. -/
theorem PluginSource.listing_fault {source : PluginSource} {files : FileSystem} {e : LoadError}
    (listed : .error e ∈ source.listing files) :
    ∃ fault, e = .archiveRead source.location fault := by
  unfold PluginSource.listing at listed
  split at listed
  · rename_i archive opened
    rw [← Archive.open_location opened]
    exact Archive.itemsOf_fault listed
  · rename_i failed
    cases List.mem_singleton.mp listed
    exact Archive.open_fault failed

theorem PluginSource.listing_error {source : PluginSource} {files : FileSystem} {e : LoadError}
    (listed : .error e ∈ source.listing files) : e.isArchiveRead = true := by
  obtain ⟨fault, rfl⟩ := PluginSource.listing_fault listed
  rfl

theorem firstMet_error {files : FileSystem} {policy : ArchivePolicy} {sources : List PluginSource}
    {e : LoadError} (met : firstMet files policy sources = some (.error e)) :
    e.isArchiveRead = true := by
  induction sources with
  | nil => cases met
  | cons source sources ih =>
    rw [firstMet] at met
    split at met
    · cases met
    · rename_i fault rest listed
      cases policy with
      | abort =>
        cases met
        exact PluginSource.listing_error (listed ▸ List.mem_cons_self)
      | skip => exact ih met
    · exact ih met

theorem not_illegal_ok {α : Type} (value : α) : ¬ Illegal (.ok value) := by
  rintro ⟨_, ⟨⟩, _⟩

theorem archiveRead_kind {e : LoadError} (read : e.isArchiveRead = true) :
    e.kind = .archiveRead := by
  cases e with
  | archiveRead => rfl
  | _ => cases read

theorem not_illegal_archiveRead {α : Type} {e : LoadError} (read : e.isArchiveRead = true) :
    ¬ Illegal (.error e : Except LoadError α) := by
  rintro ⟨_, ⟨⟩, illegal⟩
  cases (archiveRead_kind read).symm.trans illegal

namespace Scope
variable {scopes : List Scope} {id parent : ScopeId} {own : LoadingContext}

theorem settled_of_closed (at_id : get? scopes id = some (.context parent own))
    (closed : own.state = .closed) (name : String) :
    Settled scopes id name (.error (.contextClosed own.label)) := by
  induction scopes with
  | nil => cases at_id
  | cons scope older ih =>
    by_cases here : id = older.length
    · subst here
      rw [get_top] at at_id
      cases at_id
      refine .known parent older ?_
      simp only [LoadingContext.known?, closed]
    · rw [get_older here] at at_id
      exact .older scope here (ih at_id)

end Scope

namespace World
variable {w : World} {id parent : ScopeId} {own : LoadingContext} {policy : ArchivePolicy}

/-! ### A closed context stays as it is -/

theorem closed_resolve (at_id : Scope.get? w.scopes id = some (.context parent own))
    (closed : own.state = .closed) (name : String) :
    w.resolve id name = (.error (.contextClosed own.label), w) :=
  Settled.resolve (Scope.settled_of_closed at_id closed name)

theorem closed_perform (at_id : Scope.get? w.scopes id = some (.context parent own))
    (closed : own.state = .closed) (e : Event) :
    Scope.get? (w.perform e).scopes id = some (.context parent own) := by
  generalize happens : w.perform e = after
  cases perform_change happens with
  | @add _ scope fresh => exact (Scope.get_older (Nat.ne_of_lt (Scope.get_lt at_id))).trans at_id
  | lookups _ lookups =>
    apply lookups.keep (P := fun later =>
      Scope.get? later.scopes id = some (.context parent own)) _ at_id
    intro later name standing
    obtain ⟨now, at_now, defines⟩ :=
      (Scope.resolve_along later.files later.scopes _ name).forward standing
    cases defines with
    | same => exact at_now
    | define _ fresh =>
      -- only an open context looks into its archives
      rw [(LoadingContext.known_eq_none.mp fresh).1] at closed
      cases closed
  | close target =>
    refine (Scope.get_close w.scopes target id).trans ?_
    have stays : (Scope.context parent own).close = .context parent own := by
      simp only [Scope.close, LoadingContext.close, closed]
    simp [at_id, stays]
  | change files => exact at_id

theorem closed_run (at_id : Scope.get? w.scopes id = some (.context parent own))
    (closed : own.state = .closed) (events : List Event) :
    Scope.get? (w.run events).scopes id = some (.context parent own) :=
  run_keep (P := fun w => Scope.get? w.scopes id = some (.context parent own))
    (fun _ e _ standing => closed_perform standing closed e) at_id

/-! ### What it answers -/

theorem closed_directSupertype (at_id : Scope.get? w.scopes id = some (.context parent own))
    (closed : own.state = .closed) (handle : TypeHandle) :
    (w.directSupertype id handle).1 =
      if w.isValid handle then
        if handle.superName = none then .ok none else .error (.contextClosed own.label)
      else .error (.handleClosed handle.name) := by
  unfold directSupertype
  split
  · cases declared : handle.superName with
    | none => rfl
    | some name =>
      dsimp only
      rw [closed_resolve at_id closed name]
      rfl
  · rfl

theorem closed_relate (at_id : Scope.get? w.scopes id = some (.context parent own))
    (closed : own.state = .closed) (name : String) :
    w.relate id name = (.error (.contextClosed own.label), w) := by
  unfold relate
  rw [closed_resolve at_id closed name]

/-- The answer of a query for subtypes to what its sources met first. -/
def closedAnswer (label : String) (found : List TypeHandle) :
    Option (Except LoadError (String × PluginSource)) → Except LoadError (List TypeHandle)
  | none => .ok found
  | some (.error e) => .error e
  | some (.ok (name, source)) => .error (.inconsistent name source.location (.contextClosed label))

theorem closed_subtypesIn (at_id : Scope.get? w.scopes id = some (.context parent own))
    (closed : own.state = .closed) (base : TypeHandle) (sources : List PluginSource)
    (found : List TypeHandle) :
    (subtypesIn id policy base sources found w).1 =
      closedAnswer own.label found (firstMet w.files policy sources) := by
  induction sources with
  | nil => rfl
  | cons source sources ih =>
    rw [subtypesIn_cons, firstMet]
    cases source.listing w.files with
    | nil => exact ih
    | cons item rest =>
      cases item with
      | ok name =>
        rw [subtypesAmong, closed_relate at_id closed name]
        rfl
      | error e =>
        cases policy with
        | abort => rfl
        | skip => exact ih

theorem closed_directSubtypes (at_id : Scope.get? w.scopes id = some (.context parent own))
    (closed : own.state = .closed) (base : TypeHandle) :
    (w.directSubtypes id base).1 =
      closedAnswer own.label [] (firstMet w.files own.policy own.sources) := by
  unfold directSubtypes context?
  rw [at_id]
  exact closed_subtypesIn at_id closed base own.sources []

theorem illegal_directSupertype_iff (at_id : Scope.get? w.scopes id = some (.context parent own))
    (closed : own.state = .closed) (handle : TypeHandle) :
    Illegal (w.directSupertype id handle).1 ↔
      ¬ (w.isValid handle = true ∧ handle.superName = none) := by
  rw [closed_directSupertype at_id closed handle]
  by_cases valid : w.isValid handle = true
  · by_cases root : handle.superName = none
    · simp [valid, root, not_illegal_ok]
    · simp [valid, root, Illegal, LoadError.kind]
  · simp [valid, Illegal, LoadError.kind]

theorem illegal_directSubtypes_iff (at_id : Scope.get? w.scopes id = some (.context parent own))
    (closed : own.state = .closed) (base : TypeHandle) :
    Illegal (w.directSubtypes id base).1 ↔
      ∃ listed, firstMet w.files own.policy own.sources = some (.ok listed) := by
  rw [closed_directSubtypes at_id closed base]
  rcases meets : firstMet w.files own.policy own.sources with _ | e | listed
  · simp [closedAnswer, not_illegal_ok]
  · simp [closedAnswer, not_illegal_archiveRead (firstMet_error meets)]
  · simp [closedAnswer, Illegal, LoadError.kind]

/-- Use after close. A context that is closed at some time of a run refuses every lookup from then
on, whatever happens. It refuses to say what a type extends, except that a valid type which extends
nothing still does. It refuses a query for subtypes exactly if going through its sources meets a
name; else the query finds nothing, or fails by the first archive that may not be passed over. -/
theorem closed_context_refuses (files : FileSystem) (events rest : List Event)
    (id parent : ScopeId) (own : LoadingContext)
    (at_id : Scope.get? ((start files).run events).scopes id = some (.context parent own))
    (closed : own.state = .closed) :
    let w := ((start files).run events).run rest
    let met := firstMet w.files own.policy own.sources
    (∀ name, Illegal (w.resolve id name).1) ∧
    (∀ handle, (Illegal (w.directSupertype id handle).1 ↔
        ¬ (w.isValid handle = true ∧ handle.superName = none)) ∧
      (w.isValid handle = true → handle.superName = none →
        (w.directSupertype id handle).1 = .ok none)) ∧
    ∀ base, (Illegal (w.directSubtypes id base).1 ↔ ∃ listed, met = some (.ok listed)) ∧
      (met = none → (w.directSubtypes id base).1 = .ok []) ∧
      ∀ e, met = some (.error e) →
        (w.directSubtypes id base).1 = .error e ∧ e.kind = .archiveRead := by
  intro w met
  have standing : Scope.get? w.scopes id = some (.context parent own) :=
    closed_run at_id closed rest
  refine ⟨fun name => ?_, fun handle => ⟨?_, fun valid root => ?_⟩, fun base => ⟨?_, ?_, ?_⟩⟩
  · rw [closed_resolve standing closed name]
    exact ⟨_, rfl, rfl⟩
  · exact illegal_directSupertype_iff standing closed handle
  · rw [closed_directSupertype standing closed handle, if_pos valid, if_pos root]
  · exact illegal_directSubtypes_iff standing closed base
  · intro nothing
    rw [closed_directSubtypes standing closed base, show firstMet .. = none from nothing]
    rfl
  · intro e failing
    rw [closed_directSubtypes standing closed base, show firstMet .. = some (.error e) from failing]
    exact ⟨rfl, archiveRead_kind (firstMet_error failing)⟩

/-- A context over the archive of `A`, closed before it was ever asked, refuses all three. -/
theorem closed_over_archive_refuses :
    let w := ((start filesOfA).run [.addHost [("O", none, ⟨0x21⟩)],
      .addContext 0 "plugins" [⟨"/a.jar"⟩] .skip, .close 1]).run [.resolve 0 "O"]
    let extending : TypeHandle := ⟨0, 1, ⟨"B", some "O", [], ⟨0x21⟩, .host⟩⟩
    Illegal (w.resolve 1 "O").1 ∧ Illegal (w.directSupertype 1 extending).1 ∧
      Illegal (w.directSubtypes 1 extending).1 := by
  intro w extending
  obtain ⟨lookups, supertypes, subtypes⟩ := closed_context_refuses filesOfA
    [.addHost [("O", none, ⟨0x21⟩)], .addContext 0 "plugins" [⟨"/a.jar"⟩] .skip, .close 1]
    [.resolve 0 "O"] 1 0 _ rfl rfl
  refine ⟨lookups "O", (supertypes extending).1.mpr ?_, (subtypes extending).1.mpr ?_⟩
  · rintro ⟨_, ⟨⟩⟩
  · have met : firstMet filesOfA .skip [⟨"/a.jar"⟩] = some (.ok ("A", ⟨"/a.jar"⟩)) := by
      rw [firstMet, listing_filesOfA]
    exact ⟨_, met⟩

/-- A closed context without archives still says that a root type extends nothing, and finds no
subtypes. -/
theorem closed_context_answers :
    let w := (start ⟨[], []⟩).run [.addHost [("O", none, ⟨0x21⟩)],
      .addContext 0 "plugins" [] .abort, .close 1]
    let root : TypeHandle := ⟨0, 0, ⟨"O", none, [], ⟨0x21⟩, .host⟩⟩
    (∃ own, Scope.get? w.scopes 1 = some (.context 0 own) ∧ own.state = .closed) ∧
      (w.resolve 0 "O").1 = .ok root ∧ (w.directSupertype 1 root).1 = .ok none ∧
      (w.directSubtypes 1 root).1 = .ok [] :=
  ⟨⟨_, rfl, rfl⟩, rfl, rfl, rfl⟩

end World
end PluginLoader
