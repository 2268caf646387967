import PluginLoader.Proofs.Resolution.Tables
import PluginLoader.Proofs.TypeName

/-! Lookup without state. What a world remembers (types found before, archives opened before) does
not show in its answers: while the files stay as they are, every lookup describes the type that a
search from scratch describes, in which each archive is opened afresh, or fails as that search
does. -/
namespace PluginLoader

namespace Blueprint

/-- Under a policy the failure to read an archive is the answer, or is passed over. -/
def passOver (policy : ArchivePolicy) (e : LoadError)
    (rest : Except LoadError TypeDescriptor) : Except LoadError TypeDescriptor :=
  match policy with
  | .abort => .error e
  | .skip => rest

/-- The first readable definition of a name in sources, each opened afresh. It has to be a class
header, and to be that of the name. -/
def sweep (files : FileSystem) (policy : ArchivePolicy) (name : String) :
    List PluginSource → Except LoadError TypeDescriptor
  | [] => .error (.typeNotFound name)
  | source :: sources =>
    match source.archive files with
    | .error e => passOver policy e (sweep files policy name sources)
    | .ok archive =>
      match archive.readEntry (TypeName.entryPath name) with
      | .error e => passOver policy e (sweep files policy name sources)
      | .ok none => sweep files policy name sources
      | .ok (some content) =>
        match ClassHeader.parse content.toList with
        | .error fault => .error (.malformed (TypeName.entryPath name) source.location fault)
        | .ok header =>
          if header.name = name then
            .ok { name := header.name, superName := header.superName,
                  interfaces := header.interfaces, access := header.access,
                  origin := .archive source.location (TypeName.entryPath name) }
          else .error (.misnamed (TypeName.entryPath name) source.location header.name name)

theorem sweep_cons (files : FileSystem) (policy : ArchivePolicy) (name : String)
    (source : PluginSource) (sources : List PluginSource) :
    sweep files policy name (source :: sources) =
      match source.archive files with
      | .error e => passOver policy e (sweep files policy name sources)
      | .ok archive =>
        match archive.readEntry (TypeName.entryPath name) with
        | .error e => passOver policy e (sweep files policy name sources)
        | .ok none => sweep files policy name sources
        | .ok (some content) =>
          describe source.location (TypeName.entryPath name) name content := rfl

/-- What a name stands for in the scope numbered `id`. Nothing is remembered: a host has its table;
a context asks its parent and goes on to its own sources if the parent has no such type. -/
def lookup (files : FileSystem) :
    List Blueprint → ScopeId → String → Except LoadError TypeDescriptor
  | [], _, name => .error (.typeNotFound name)
  | scope :: older, id, name =>
    if id = older.length then
      match scope with
      | .host types =>
        match types.find? name with
        | some entry => .ok entry.descriptor
        | none => .error (.typeNotFound name)
      | .context parent sources policy =>
        match lookup files older parent name with
        | .error (.typeNotFound _) =>
          if name = "" ∨ '/' ∈ name.toList then .error (.typeNotFound name)
          else sweep files policy name sources
        | answer => answer
    else lookup files older id name

end Blueprint

/-! ### One context -/

/-- A slot stands as opening its archive from the files would have it. -/
inductive Slot.Agrees (files : FileSystem) (policy : ArchivePolicy) (source : PluginSource) :
    Slot → Prop where
  | unopened : Agrees files policy source .unopened
  | opened {archive : Archive} : source.archive files = .ok archive →
      Agrees files policy source (.opened archive)
  | unreadable {e : LoadError} : policy = .skip → source.archive files = .error e →
      Agrees files policy source .unreadable

namespace LoadingContext
variable {files : FileSystem} {policy : ArchivePolicy} {name : String}

theorem agrees_reached {source : PluginSource} {slot reached : Slot}
    (agrees : slot.Agrees files policy source)
    (ok : reach files policy source slot = .ok reached) : reached.Agrees files policy source := by
  cases reach_ok_iff.mp ok with
  | kept => exact agrees
  | opened opening => exact .opened opening
  | unreadable skips failing => exact .unreadable skips failing

theorem sweep_reached {source : PluginSource} {slot : Slot} (sources : List PluginSource)
    (agrees : slot.Agrees files policy source) (touched : slot ≠ .unopened) :
    Blueprint.sweep files policy name (source :: sources) =
      match verdict policy name source slot with
      | some found => found
      | none => Blueprint.sweep files policy name sources := by
  rw [Blueprint.sweep_cons]
  cases agrees with
  | unopened => exact absurd rfl touched
  | unreadable skips failing =>
    rw [failing, skips]
    rfl
  | @opened archive opening =>
    rw [opening]
    simp only [verdict]
    cases archive.readEntry (TypeName.entryPath name) with
    | error e => cases policy <;> rfl
    | ok content => cases content <;> rfl

def outcome (name : String) :
    Except LoadError (Option TypeDescriptor) → Except LoadError TypeDescriptor
  | .ok (some descriptor) => .ok descriptor
  | .ok none => .error (.typeNotFound name)
  | .error e => .error e

theorem outcome_map (name : String) (found : Except LoadError TypeDescriptor) :
    outcome name (found.map some) = found := by
  cases found <;> rfl

theorem search_agrees (name : String) {sources : List PluginSource} {slots : List Slot}
    (agree : List.Forall₂ (fun source slot => slot.Agrees files policy source) sources slots) :
    outcome name (search files policy name sources slots).1 =
        Blueprint.sweep files policy name sources ∧
      List.Forall₂ (fun source slot => slot.Agrees files policy source) sources
        (search files policy name sources slots).2 := by
  revert agree
  apply search_induction (P := fun sources slots answer after =>
    List.Forall₂ (fun source slot => Slot.Agrees files policy source slot) sources slots →
      outcome name answer = Blueprint.sweep files policy name sources ∧
      List.Forall₂ (fun source slot => Slot.Agrees files policy source slot) sources after)
  · intro sources slots ended agree
    cases agree with
    | nil => exact ⟨rfl, .nil⟩
    | cons => rcases ended with ended | ended <;> cases ended
  · intro source sources slot slots e reaching agree
    obtain ⟨_, aborts, failing⟩ := reach_error reaching
    refine ⟨?_, agree⟩
    rw [Blueprint.sweep_cons, failing, aborts]
    rfl
  · intro source sources slot slots reached found reaching deciding agree
    cases agree with
    | cons head tail =>
      have agrees := agrees_reached head reaching
      refine ⟨?_, .cons agrees tail⟩
      rw [outcome_map, sweep_reached sources agrees (reach_ne_unopened reaching), deciding]
  · intro source sources slot slots reached answer after reaching deciding ih agree
    cases agree with
    | cons head tail =>
      have agrees := agrees_reached head reaching
      obtain ⟨same, rest⟩ := ih tail
      refine ⟨?_, .cons agrees rest⟩
      rw [same, sweep_reached sources agrees (reach_ne_unopened reaching), deciding]

/-- A context whose slots all stand as the files have them. -/
def SlotsAgree (files : FileSystem) (own : LoadingContext) : Prop :=
  List.Forall₂ (fun source slot => Slot.Agrees files own.policy source slot) own.sources own.slots

theorem make_agrees (files : FileSystem) (label : String) (sources : List PluginSource)
    (policy : ArchivePolicy) : (make label sources policy).SlotsAgree files := by
  unfold SlotsAgree make
  induction sources with
  | nil => exact .nil
  | cons source sources ih => exact .cons .unopened ih

theorem close_state (own : LoadingContext) : own.close.state = .closed := by
  unfold LoadingContext.close
  cases state : own.state with
  | ready => rfl
  | closed => exact state

theorem define_agrees {own : LoadingContext} (agree : own.SlotsAgree files) (id : ScopeId)
    (name : String) :
    (own.define files id name).1.map TypeHandle.descriptor =
        (if name = "" ∨ '/' ∈ name.toList then .error (.typeNotFound name)
          else Blueprint.sweep files own.policy name own.sources) ∧
      (own.define files id name).2.SlotsAgree files := by
  obtain ⟨same, after⟩ := search_agrees name agree
  rcases define_cases own files id name with
    ⟨unnamed, kept⟩ | ⟨named, ⟨e, searching, refused⟩ | ⟨descriptor, searching, found⟩⟩
  · have guarded : name = "" ∨ '/' ∈ name.toList := by
      by_contra free
      rw [(TypeName.searchable_iff name).mpr free] at unnamed
      cases unnamed
    rw [kept, if_pos guarded]
    exact ⟨rfl, agree⟩
  · rw [refused, if_neg ((TypeName.searchable_iff name).mp named), ← same]
    refine ⟨?_, after⟩
    rcases searching with searching | ⟨searching, rfl⟩
    · rw [searching]
      rfl
    · rw [searching]
      rfl
  · rw [found, if_neg ((TypeName.searchable_iff name).mp named), ← same, searching]
    exact ⟨rfl, after⟩

end LoadingContext

/-! ### Chains of scopes -/

namespace Scope
variable {files : FileSystem} {scopes older : List Scope} {id : ScopeId} {name : String}

def lookup (files : FileSystem) (scopes : List Scope) (id : ScopeId) (name : String) :
    Except LoadError TypeDescriptor :=
  Blueprint.lookup files (scopes.map blueprint) id name

theorem lookup_older (scope : Scope) (below : id ≠ older.length) :
    lookup files (scope :: older) id name = lookup files older id name := by
  unfold lookup
  cases scope <;>
    simp only [List.map_cons, blueprint, Blueprint.lookup, List.length_map, if_neg below]

theorem lookup_append (newer : List Scope) (old : id < scopes.length) :
    lookup files (newer ++ scopes) id name = lookup files scopes id name := by
  induction newer with
  | nil => rfl
  | cons scope newer ih =>
    rw [List.cons_append, lookup_older scope (ne_length_append newer old), ih]

theorem lookup_host (types : HostTypes) :
    lookup files (.host types :: older) older.length name =
      (types.resolve older.length name).map TypeHandle.descriptor := by
  simp only [lookup, List.map_cons, blueprint, Blueprint.lookup, List.length_map, if_pos,
    HostTypes.resolve]
  cases types.find? name <;> rfl

theorem lookup_inherited {parent : ScopeId} {own : LoadingContext}
    {answer : Except LoadError TypeDescriptor} (asked : lookup files older parent name = answer)
    (final : ∀ other, answer ≠ .error (.typeNotFound other)) :
    lookup files (.context parent own :: older) older.length name = answer := by
  unfold lookup at asked ⊢
  simp only [List.map_cons, blueprint, Blueprint.lookup, List.length_map, if_pos]
  rw [asked]
  split
  · rename_i other
    exact absurd rfl (final other)
  · rfl

theorem lookup_own {parent : ScopeId} {own : LoadingContext} {other : String}
    (missing : lookup files older parent name = .error (.typeNotFound other)) :
    lookup files (.context parent own :: older) older.length name =
      if name = "" ∨ '/' ∈ name.toList then .error (.typeNotFound name)
      else Blueprint.sweep files own.policy name own.sources := by
  unfold lookup at missing ⊢
  simp only [List.map_cons, blueprint, Blueprint.lookup, List.length_map, if_pos]
  rw [missing]

theorem lookup_of_host {types : HostTypes} (at_id : get? scopes id = some (.host types)) :
    lookup files scopes id name = (types.resolve id name).map TypeHandle.descriptor := by
  obtain ⟨newer, older, rfl, rfl⟩ := get_split at_id
  rw [lookup_append newer (Nat.lt_succ_self _), lookup_host]

theorem lookup_behind (newer : List Scope) (scope : Scope)
    (behind : id < scopes.length) :
    lookup files (newer ++ scope :: scopes) id name = lookup files scopes id name := by
  rw [lookup_append newer (Nat.lt_succ_of_lt behind), lookup_older _ (Nat.ne_of_lt behind)]

theorem lookup_of_parent {parent : ScopeId} {own : LoadingContext}
    (at_id : get? scopes id = some (.context parent own)) (below : parent < id)
    (final : ∀ other, lookup files scopes parent name ≠ .error (.typeNotFound other)) :
    lookup files scopes id name = lookup files scopes parent name := by
  obtain ⟨newer, older, rfl, rfl⟩ := get_split at_id
  rw [lookup_behind newer _ below] at final ⊢
  rw [lookup_append newer (Nat.lt_succ_self _)]
  exact lookup_inherited rfl final

theorem lookup_of_sources {parent : ScopeId} {own : LoadingContext} {other : String}
    (at_id : get? scopes id = some (.context parent own)) (below : parent < id)
    (missing : lookup files scopes parent name = .error (.typeNotFound other)) :
    lookup files scopes id name =
      if name = "" ∨ '/' ∈ name.toList then .error (.typeNotFound name)
      else Blueprint.sweep files own.policy name own.sources := by
  obtain ⟨newer, older, rfl, rfl⟩ := get_split at_id
  rw [lookup_behind newer _ below] at missing
  rw [lookup_append newer (Nat.lt_succ_self _)]
  exact lookup_own missing

/-- Every open context has its slots as the files have them, and keeps types that a lookup without
state describes alike. -/
def Faithful (files : FileSystem) (scopes : List Scope) : Prop :=
  ∀ id parent own, get? scopes id = some (.context parent own) → own.state = .ready →
    own.SlotsAgree files ∧ ∀ name handle, own.defined.lookup name = some handle →
      lookup files scopes id name = .ok handle.descriptor

theorem Faithful.tail {scope : Scope} (faithful : Faithful files (scope :: older)) :
    Faithful files older := by
  intro id parent own at_id ready
  have below := Nat.ne_of_lt (get_lt at_id)
  obtain ⟨slots, kept⟩ := faithful id parent own ((get_older below).trans at_id) ready
  refine ⟨slots, fun name handle found => ?_⟩
  rw [← lookup_older scope below]
  exact kept name handle found

theorem Faithful.cons {scope : Scope} (faithful : Faithful files older)
    (top : ∀ parent own, scope = .context parent own → own.state = .ready →
      own.SlotsAgree files ∧ ∀ name handle, own.defined.lookup name = some handle →
        lookup files (scope :: older) older.length name = .ok handle.descriptor) :
    Faithful files (scope :: older) := by
  intro id parent own at_id ready
  by_cases here : id = older.length
  · subst here
    rw [get_top] at at_id
    exact top parent own (Option.some.inj at_id) ready
  · rw [get_older here] at at_id
    obtain ⟨slots, kept⟩ := faithful id parent own at_id ready
    refine ⟨slots, fun name handle found => ?_⟩
    rw [lookup_older scope here]
    exact kept name handle found

/-- Answers agree with a lookup without state: the same description or the same failure. Only a
closed context says something that no such lookup says. -/
def Agrees (answer : Except LoadError TypeHandle) (expected : Except LoadError TypeDescriptor) :
    Prop :=
  answer.map TypeHandle.descriptor = expected ∨ ∃ label, answer = .error (.contextClosed label)

theorem Faithful.replace_older {scope : Scope} {after : List Scope}
    (faithful : Faithful files (scope :: older)) (rest : Faithful files after)
    (same : after.map blueprint = older.map blueprint) : Faithful files (scope :: after) := by
  apply rest.cons
  intro parent own is_context ready
  subst is_context
  have length : after.length = older.length := by
    have lengths := congrArg List.length same
    simpa only [List.length_map] using lengths
  obtain ⟨slots, kept⟩ := faithful _ parent own (get_top ..) ready
  refine ⟨slots, fun name handle found => ?_⟩
  rw [← kept name handle found]
  simp only [lookup, List.map_cons, same, length]

/-- A context that looks for a name its parent does not have finds what a search from scratch
finds, so it may keep it. -/
theorem Faithful.define {parent : ScopeId} {own : LoadingContext} {after : List Scope}
    (faithful : Faithful files (.context parent own :: older)) (rest : Faithful files after)
    (same : after.map blueprint = older.map blueprint) (fresh : own.known? name = none)
    (missing : lookup files older parent name = .error (.typeNotFound name)) :
    (own.define files older.length name).1.map TypeHandle.descriptor =
        lookup files (.context parent own :: older) older.length name ∧
      Faithful files (.context parent (own.define files older.length name).2 :: after) := by
  have ready := (LoadingContext.known_eq_none.mp fresh).1
  obtain ⟨slots, kept⟩ := faithful _ parent own (get_top ..) ready
  obtain ⟨found, slotsAfter⟩ := LoadingContext.define_agrees slots older.length name
  have expected : (own.define files older.length name).1.map TypeHandle.descriptor =
      lookup files (.context parent own :: older) older.length name := by
    rw [found, lookup_own missing]
  refine ⟨expected, rest.cons ?_⟩
  rintro _ _ ⟨⟩ _
  have alike : ∀ asked, lookup files
      (.context parent (own.define files older.length name).2 :: after) after.length asked =
        lookup files (.context parent own :: older) older.length asked := by
    intro asked
    have length := congrArg List.length same
    have grows := own.define_grows files older.length name
    simp only [List.length_map] at length
    simp only [lookup, List.map_cons, blueprint, same, length, grows.sources, grows.policy]
  refine ⟨slotsAfter, fun asked handle standing => ?_⟩
  rw [alike]
  cases answering : (own.define files older.length name).1 with
  | error e =>
    rw [(LoadingContext.define_error answering).1] at standing
    exact kept asked handle standing
  | ok new =>
    -- the table has one more entry, under the name that was asked for
    rw [(LoadingContext.define_ok answering).2.2.2.1, List.lookup_cons] at standing
    split at standing
    · rename_i same
      cases standing
      rw [eq_of_beq same, ← expected, answering]
      rfl
    · exact kept asked handle standing

theorem resolve_agrees (scopes : List Scope) (id : ScopeId) (name : String)
    (faithful : Faithful files scopes) :
    Agrees (resolve files scopes id name).1 (lookup files scopes id name) ∧
      Faithful files (resolve files scopes id name).2 := by
  revert faithful
  apply resolve_induction (P := fun scopes id answer after => Faithful files scopes →
    Agrees answer (lookup files scopes id name) ∧ Faithful files after)
  · exact fun _ faithful => ⟨.inl rfl, faithful⟩
  · intro scope older id answer after below asked ih faithful
    obtain ⟨agrees, rest⟩ := ih faithful.tail
    have same := blueprint_of_resolve asked
    rw [lookup_older scope below]
    exact ⟨agrees, faithful.replace_older rest same⟩
  · intro types older faithful
    exact ⟨.inl (lookup_host types).symm, faithful⟩
  · intro parent own older answer known faithful
    refine ⟨?_, faithful⟩
    cases answer with
    | error e => exact .inr ⟨own.label, congrArg _ (LoadingContext.known_eq_error known).2⟩
    | ok handle =>
      obtain ⟨ready, found⟩ := LoadingContext.known_eq_ok known
      exact .inl ((faithful _ parent own (get_top ..) ready).2 name handle found).symm
  · intro parent own older answer after fresh asked final ih faithful
    obtain ⟨agrees, rest⟩ := ih faithful.tail
    have same := blueprint_of_resolve asked
    refine ⟨?_, faithful.replace_older rest same⟩
    rcases agrees with agrees | closed
    · refine .inl (lookup_inherited agrees.symm ?_).symm
      intro other missing
      cases answer with
      | ok handle => cases missing
      | error e =>
        cases missing
        exact final (by rw [resolve_missing (congrArg Prod.fst asked) rfl])
    · exact .inr closed
  · intro parent own older after fresh asked ih faithful
    obtain ⟨agrees, rest⟩ := ih faithful.tail
    have same := blueprint_of_resolve asked
    have missing : lookup files older parent name = .error (.typeNotFound name) := by
      rcases agrees with agrees | ⟨label, closed⟩
      · exact agrees.symm
      · cases closed
    obtain ⟨expected, stays⟩ := faithful.define rest same fresh missing
    exact ⟨.inl expected, stays⟩

theorem Faithful.close (faithful : Faithful files scopes) (target : ScopeId) :
    Faithful files (modify LoadingContext.close scopes target) := by
  intro id parent own at_id ready
  obtain ⟨scope, before, same⟩ := (close_along scopes target).backward at_id
  have kept : scope = .context parent own := by
    split at same
    · cases scope with
      | host types => cases same
      | context above was =>
        cases same
        rw [LoadingContext.close_state] at ready
        cases ready
    · exact same.symm
  subst kept
  unfold lookup
  rw [modify_blueprint]
  exact faithful id parent own before ready

/-- While every context on the chain is open, no lookup reports a closed one. -/
theorem resolve_open (scopes : List Scope) (id : ScopeId) (name : String)
    (openChain : Throughout (·.state = .ready) scopes id) (label : String) :
    (resolve files scopes id name).1 ≠ .error (.contextClosed label) := by
  revert openChain
  apply resolve_induction (P := fun scopes id answer _ =>
    Throughout (·.state = .ready) scopes id → answer ≠ .error (.contextClosed label))
  · intro _ _ closed
    cases closed
  · exact fun _ _ _ _ _ below _ ih openChain => ih (openChain.older below)
  · intro types older _ closed
    unfold HostTypes.resolve at closed
    split at closed <;> cases closed
  · intro parent own older answer known openChain closed
    subst closed
    have ready := openChain.parent.1
    rw [(LoadingContext.known_eq_error known).1] at ready
    cases ready
  · exact fun _ _ _ _ _ _ _ _ ih openChain => ih openChain.parent.2
  · intro parent own older after _ _ _ _ closed
    rcases LoadingContext.define_fault closed with same | ⟨read, _⟩ | bad
    · cases same
    · cases read
    · cases bad

end Scope

namespace World

theorem faithful_run (files : FileSystem) (events : List Event)
    (unchanged : ∀ other, Event.change other ∉ events) :
    ((start files).run events).files = files ∧
      Scope.Faithful files ((start files).run events).scopes := by
  apply run_invariant (P := fun w => w.files = files ∧ Scope.Faithful files w.scopes)
  · refine ⟨rfl, ?_⟩
    intro id parent own absent
    cases absent
  · rintro w scope fresh ⟨same, faithful⟩
    refine ⟨same, faithful.cons ?_⟩
    rintro parent own rfl _
    cases fresh
    refine ⟨LoadingContext.make_agrees .., ?_⟩
    intro name handle found
    cases found
  · rintro w id name ⟨rfl, faithful⟩
    exact ⟨rfl, (Scope.resolve_agrees w.scopes id name faithful).2⟩
  · rintro w id _ ⟨same, faithful⟩
    exact ⟨same, faithful.close id⟩
  · intro w other member
    exact absurd member (unchanged other)

/-- A world whose files are as they were and in which no context on the chain of a scope is
closed. -/
structure Undisturbed (files : FileSystem) (id : ScopeId) (w : World) : Prop where
  same : w.files = files
  faithful : Scope.Faithful files w.scopes
  numbered : Scope.Each Scope.Numbered w.scopes
  ready : ∀ target ∈ w.chain id, ∀ parent own,
    Scope.get? w.scopes target = some (.context parent own) → own.state = .ready

theorem undisturbed_run (files : FileSystem) (events : List Event) (id : ScopeId)
    (unchanged : ∀ other, Event.change other ∉ events)
    (spared : ∀ target ∈ ((start files).run events).chain id, Event.close target ∉ events) :
    ((start files).run events).Undisturbed files id := by
  obtain ⟨same, faithful⟩ := faithful_run files events unchanged
  refine ⟨same, faithful, numbered_run files events, ?_⟩
  intro target inside parent own at_target
  exact ready_run files events (spared target inside) at_target

namespace Undisturbed
variable {files : FileSystem} {w after : World} {id : ScopeId}

theorem lookups {asker : ScopeId} (calm : w.Undisturbed files id)
    (lookups : Lookups asker w after) : after.Undisturbed files id := by
  apply lookups.keep (P := fun later => later.Undisturbed files id) _ calm
  rintro later name ⟨rfl, faithful, numbered, ready⟩
  have along := Scope.resolve_along later.files later.scopes asker name
  refine ⟨rfl, (Scope.resolve_agrees later.scopes asker name faithful).2, ?_, ?_⟩
  · exact numbered.along along fun _ _ _ => Scope.Defines.numbered
  · exact ready_lookups ready (resolve_lookups rfl)

theorem lookup (calm : w.Undisturbed files id) (name : String) :
    (w.resolve id name).1.map TypeHandle.descriptor =
      Blueprint.lookup files (w.scopes.map Scope.blueprint) id name := by
  obtain ⟨rfl, faithful, _, ready⟩ := calm
  rcases (Scope.resolve_agrees w.scopes id name faithful).1 with agrees | ⟨label, closed⟩
  · exact agrees
  · exact absurd closed (Scope.resolve_open w.scopes id name ready label)

end Undisturbed

/-- What a world remembers does not show. In any run that leaves the files alone, a lookup in a
scope with no closed context on its chain gives the type that a lookup without state describes, or
fails as that lookup does. -/
theorem resolve_eq_lookup (files : FileSystem) (events : List Event) (id : ScopeId) (name : String)
    (unchanged : ∀ other, Event.change other ∉ events)
    (spared : ∀ target ∈ ((start files).run events).chain id, Event.close target ∉ events) :
    (((start files).run events).resolve id name).1.map TypeHandle.descriptor =
      Blueprint.lookup files (((start files).run events).scopes.map Scope.blueprint) id name := by
  have calm := undisturbed_run files events id unchanged spared
  exact calm.lookup name

theorem lookup_filesOfA :
    Blueprint.lookup filesOfA
        [.context 0 [⟨"/a.jar"⟩] .abort, .host (HostTypes.ofDefinitions [("O", none, ⟨0x21⟩)])]
        1 "A" =
      .ok ⟨"A", some "O", [], ⟨0x21⟩, .archive "/a.jar" "A.class"⟩ := by
  simp only [Blueprint.lookup, Blueprint.sweep_cons, open_archiveOfA, entryPath_A,
    readEntry_archiveOfA, describe_contentOfA]
  decide +kernel

/-- A type that was found before and is kept is the type that the archive has. -/
theorem kept_type_eq_lookup :
    let w := (start filesOfA).run [.addHost [("O", none, ⟨0x21⟩)],
      .addContext 0 "plugins" [⟨"/a.jar"⟩] .abort, .resolve 1 "A"]
    (w.resolve 1 "A").1.map TypeHandle.descriptor =
      .ok ⟨"A", some "O", [], ⟨0x21⟩, .archive "/a.jar" "A.class"⟩ := by
  intro w
  have described := resolve_eq_lookup filesOfA [.addHost [("O", none, ⟨0x21⟩)],
    .addContext 0 "plugins" [⟨"/a.jar"⟩] .abort, .resolve 1 "A"] 1 "A" (by simp) (by simp)
  have shape : w.scopes.map Scope.blueprint =
      [.context 0 [⟨"/a.jar"⟩] .abort, .host (HostTypes.ofDefinitions [("O", none, ⟨0x21⟩)])] :=
    Scope.resolve_blueprint filesOfA
      [.context 0 (LoadingContext.make "plugins" [⟨"/a.jar"⟩] .abort),
        .host (HostTypes.ofDefinitions [("O", none, ⟨0x21⟩)])] 1 "A"
  rw [described, shape, lookup_filesOfA]

end World
end PluginLoader
