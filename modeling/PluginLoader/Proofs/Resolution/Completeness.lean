import Mathlib.Data.List.Dedup
import PluginLoader.Proofs.Resolution.Precedence
import PluginLoader.Proofs.Resolution.Representation
import PluginLoader.Proofs.Resolution.Tolerance

/-! What a subtype query leaves behind. Where unreadable archives are not tolerated, a query that
succeeds has gone through all that the sources list. Each listed type is then kept by the context or
is the parent's, and each type that is kept is listed, since an entry that defines it is: the table
is complete, and asking for what was listed adds nothing to it. -/
namespace PluginLoader

/-! ### Entries are listed -/

theorem Archive.mem_listedNames {archive : Archive} {entries : List Zip.Entry} {entry : Zip.Entry}
    {name : String} (readable : ∀ e, .error e ∉ archive.itemsOf entries) (member : entry ∈ entries)
    (defines : TypeName.ofEntryPath? entry.name = some name) :
    name ∈ listedNames (archive.itemsOf entries) := by
  induction entries with
  | nil => cases member
  | cons first rest ih =>
    rw [itemsOf] at readable ⊢
    cases starts : archive.container.contentStart first with
    | error fault =>
      rw [starts] at readable
      exact absurd (List.mem_singleton_self _) (readable _)
    | ok start =>
      rw [starts] at readable
      dsimp only at readable ⊢
      cases here : TypeName.ofEntryPath? first.name with
      | none =>
        rw [here] at readable
        rcases List.mem_cons.mp member with rfl | member
        · cases here.symm.trans defines
        · exact ih readable member
      | some other =>
        rw [here] at readable
        rcases List.mem_cons.mp member with rfl | member
        · cases here.symm.trans defines
          exact List.mem_cons_self
        · have later := ih (fun e listed => readable e (List.mem_cons_of_mem _ listed)) member
          exact List.mem_cons_of_mem _ later

namespace LoadingContext
variable {files : FileSystem} {own : LoadingContext} {name : String}

/-- Where every listing can be read, a type that an archive of a source defines is listed. -/
theorem FirstDefinition.listed {descriptor : TypeDescriptor}
    (first : own.FirstDefinition name descriptor) (agree : own.SlotsAgree files)
    (named : TypeName.searchable name = true)
    (readable : ∀ source ∈ own.sources, ∀ e, .error e ∉ source.listing files) :
    name ∈ namesIn files own.sources := by
  obtain ⟨i, source, archive, content, _, at_source, at_slot, read, _⟩ := first
  obtain ⟨inSources, rfl⟩ := List.getElem?_eq_some_iff.mp at_source
  obtain ⟨inSlots, is_open⟩ := List.getElem?_eq_some_iff.mp at_slot
  have agrees := agree.get inSources inSlots
  simp only [List.get_eq_getElem, is_open] at agrees
  cases agrees with
  | opened opens =>
    have content : own.sources[i].contentAt files (TypeName.entryPath name) = some content := by
      rw [PluginSource.contentAt, opens]
      dsimp only
      rw [read]
    obtain ⟨_, same, entry, member, path⟩ := PluginSource.entry_of_contentAt content
    cases opens.symm.trans same
    have inside := List.getElem_mem inSources
    have whole := readable _ inside
    have listing : own.sources[i].listing files = archive.items := by
      rw [PluginSource.listing, opens]
    rw [listing] at whole
    refine List.mem_flatMap.mpr ⟨_, inside, ?_⟩
    rw [listing]
    exact Archive.mem_listedNames whole member (path ▸ TypeName.ofEntryPath_entryPath named)

end LoadingContext

namespace Scope

theorem Settled.kept_or_inherited {scopes : List Scope} {id parent : ScopeId}
    {own : LoadingContext} {name : String} {handle : TypeHandle}
    (settled : Settled scopes id name (.ok handle))
    (at_id : get? scopes id = some (.context parent own)) (below : parent < id) :
    own.defined.lookup name = some handle ∨ Settled scopes parent name (.ok handle) := by
  induction scopes with
  | nil => cases at_id
  | cons scope older ih =>
    by_cases here : id = older.length
    · subst here
      rw [get_top] at at_id
      cases at_id
      cases settled with
      | older _ wrong => exact absurd rfl wrong
      | known _ _ known => exact .inl (LoadingContext.known_eq_ok known).2
      | inherited _ _ above => exact .inr (.older _ (Nat.ne_of_lt below) above)
    · -- both are among older scopes
      rw [get_older here] at at_id
      have lower := Nat.ne_of_lt (Nat.lt_trans below (get_lt at_id))
      exact (ih (settled.of_older here) at_id).imp_right (.older scope lower)

end Scope

namespace World
variable {w after : World} {files : FileSystem} {id parent : ScopeId} {own : LoadingContext}
  {policy : ArchivePolicy} {base : TypeHandle} {source : PluginSource} {name : String}

/-! ### Invariants of contexts -/

theorem keys_run (files : FileSystem) (events : List Event)
    (at_id : Scope.get? ((start files).run events).scopes id = some (.context parent own)) :
    (own.defined.map Prod.fst).Nodup := by
  refine context_run (P := fun own => (own.defined.map Prod.fst).Nodup) files events
    (fun _ _ _ => List.nodup_nil) ?_ ?_ at_id
  · intro files id name own unknown nodup
    cases found : (own.define files id name).1 with
    | error e => rwa [(LoadingContext.define_error found).1]
    | ok handle =>
      rw [(LoadingContext.define_ok found).2.2.2.1, List.map_cons, List.nodup_cons]
      refine ⟨fun member => ?_, nodup⟩
      -- a name is looked for only while the table does not have it
      obtain ⟨_, looked⟩ := lookup_of_key member
      cases (LoadingContext.known_eq_none.mp unknown).2.symm.trans looked
  · intro own nodup
    unfold LoadingContext.close
    split
    · exact nodup
    · exact List.nodup_nil

/-- Open contexts with this number or a later one have their slots as the files have them. -/
def AgreeFrom (files : FileSystem) (first : ScopeId) (w : World) : Prop :=
  w.files = files ∧ ∀ id parent own, Scope.get? w.scopes id = some (.context parent own) →
    first ≤ id → own.state = .ready → own.SlotsAgree files

namespace AgreeFrom
variable {first : ScopeId}

theorem start (w : World) : AgreeFrom w.files w.scopes.length w :=
  ⟨rfl, fun _ _ _ at_id new => absurd (Scope.get_lt at_id) (Nat.not_lt.mpr new)⟩

theorem add (agree : AgreeFrom files first w) {scope : Scope} (fresh : scope.Fresh) :
    AgreeFrom files first (w.addScope scope).2 := by
  refine ⟨agree.1, fun id parent own at_id new ready => ?_⟩
  by_cases here : id = w.scopes.length
  · subst here
    rw [addScope, Scope.get_top] at at_id
    cases at_id
    cases fresh
    exact LoadingContext.make_agrees ..
  · rw [addScope, Scope.get_older here] at at_id
    exact agree.2 id parent own at_id new ready

theorem resolve (agree : AgreeFrom files first w) (asker : ScopeId) (asked : String) :
    AgreeFrom files first (w.resolve asker asked).2 := by
  refine ⟨agree.1, fun id parent own at_id new ready => ?_⟩
  obtain ⟨scope, before, defines⟩ :=
    (Scope.resolve_along w.files w.scopes asker asked).backward at_id
  cases defines with
  | same => exact agree.2 id parent own before new ready
  | @define was name _ unknown =>
    have slots := agree.2 id parent was before new (LoadingContext.known_eq_none.mp unknown).1
    rw [agree.1]
    exact (LoadingContext.define_agrees slots id name).2

theorem close (agree : AgreeFrom files first w) (target : ScopeId) :
    AgreeFrom files first (w.close target) := by
  refine ⟨agree.1, fun id parent own at_id new ready => ?_⟩
  obtain ⟨scope, before, same⟩ := (Scope.close_along w.scopes target).backward at_id
  split at same
  · cases scope with
    | host types => cases same
    | context above was =>
      cases same
      cases was.close_state.symm.trans ready
  · subst same
    exact agree.2 id parent own before new ready

theorem run (agree : AgreeFrom files first w) {events : List Event}
    (unchanged : ∀ other, Event.change other ∉ events) : AgreeFrom files first (w.run events) := by
  refine run_keep (P := AgreeFrom files first) (fun w e member agree => ?_) agree
  generalize happens : w.perform e = after
  cases perform_change happens with
  | add _ fresh => exact agree.add fresh
  | lookups _ lookups => exact lookups.keep (fun _ name agree => agree.resolve _ name) agree
  | close target => exact agree.close target
  | change other => exact absurd member (unchanged other)

end AgreeFrom

/-! ### Listings that were gone through -/

theorem subtypesAmong_readable {items : List (Except LoadError String)}
    {found types : List TypeHandle}
    (asked : subtypesAmong id .abort base source items found w = (.ok types, after)) :
    ∀ e, .error e ∉ items := by
  induction items generalizing found w with
  | nil => exact fun _ => List.not_mem_nil
  | cons item rest ih =>
    cases item with
    | error e => cases asked
    | ok name =>
      rw [subtypesAmong] at asked
      split at asked
      · cases asked
      · intro e listed
        exact ih asked e ((List.mem_cons.mp listed).resolve_left (by rintro ⟨⟩))

/-- Where failures are not passed over, a query that succeeds has met none. -/
theorem subtypesIn_readable {sources : List PluginSource} {found types : List TypeHandle}
    (asked : subtypesIn id .abort base sources found w = (.ok types, after)) :
    ∀ source ∈ sources, ∀ e, .error e ∉ source.listing w.files := by
  induction sources generalizing found w with
  | nil => exact fun _ member => absurd member List.not_mem_nil
  | cons source sources ih =>
    rw [subtypesIn_cons] at asked
    split at asked
    · cases asked
    · rename_i among
      have others := ih asked
      rw [(subtypesAmong_lookups among).files] at others
      exact List.forall_mem_cons.mpr ⟨subtypesAmong_readable among, others⟩

/-! ### Asking again -/

/-- A name has its type for good, and so has what that type extends. -/
def Related (w : World) (id : ScopeId) (name : String) : Prop :=
  ∃ handle supertype, w.Settled id name (.ok handle) ∧ w.Extends id handle supertype

theorem Rows.related {names : List String} {rows : List (TypeHandle × Option TypeHandle)}
    (rows : w.Rows id names rows) : ∀ name ∈ names, w.Related id name := by
  induction rows with
  | nil => exact fun _ member => absurd member List.not_mem_nil
  | @cons name row names rows first _ ih =>
    exact List.forall_mem_cons.mpr ⟨⟨row.1, row.2, first⟩, ih⟩

theorem Related.relate (related : w.Related id name)
    (numbered : Scope.Each Scope.Numbered w.scopes) : ∃ row, w.relate id name = (.ok row, w) := by
  obtain ⟨handle, supertype, settled, declared⟩ := related
  have valid := isValid_of_holds numbered (settled.named numbered).2
  refine ⟨(handle, supertype), ?_⟩
  rw [World.relate, settled.resolve]
  dsimp only
  rw [declared.directSupertype valid]

theorem subtypesAmong_idle (numbered : Scope.Each Scope.Numbered w.scopes)
    {items : List (Except LoadError String)}
    (related : ∀ name ∈ listedNames items, w.Related id name) (found : List TypeHandle) :
    (subtypesAmong id policy base source items found w).2 = w := by
  induction items generalizing found with
  | nil => rfl
  | cons item rest ih =>
    cases item with
    | error e => cases policy <;> rfl
    | ok name =>
      obtain ⟨first, others⟩ := List.forall_mem_cons.mp related
      obtain ⟨row, relates⟩ := first.relate numbered
      rw [subtypesAmong, relates]
      exact ih others _

theorem subtypesIn_idle (numbered : Scope.Each Scope.Numbered w.scopes)
    {sources : List PluginSource}
    (related : ∀ name ∈ namesIn w.files sources, w.Related id name) (found : List TypeHandle) :
    (subtypesIn id policy base sources found w).2 = w := by
  induction sources generalizing found with
  | nil => rfl
  | cons source sources ih =>
    obtain ⟨here, others⟩ := List.forall_mem_append.mp related
    have stays : (subtypesAmong id policy base source _ found w).2 = w :=
      subtypesAmong_idle numbered here found
    rw [subtypesIn_cons]
    rcases asked : subtypesAmong id policy base source (source.listing w.files) found w with
      ⟨e | found, after⟩
    · rw [asked] at stays
      exact stays
    · rw [asked] at stays
      cases stays
      exact ih others found

/-- Queries for names and for what their types extend, and subtype queries. -/
inductive Asks (w : World) (id : ScopeId) (names : List String) : Event → Prop where
  | name {name : String} : name ∈ names → Asks w id names (.resolve id name)
  | superName {name superName : String} {handle : TypeHandle} : name ∈ names →
      (w.resolve id name).1 = .ok handle → handle.superName = some superName →
      Asks w id names (.resolve id superName)
  | supertype {name : String} {handle : TypeHandle} : name ∈ names →
      (w.resolve id name).1 = .ok handle → Asks w id names (.directSupertype id handle)
  | subtypes (base : TypeHandle) : Asks w id names (.directSubtypes id base)

theorem Related.extends {handle : TypeHandle} (related : w.Related id name)
    (found : (w.resolve id name).1 = .ok handle) :
    w.Settled id name (.ok handle) ∧ ∃ supertype, w.Extends id handle supertype := by
  obtain ⟨type, supertype, settled, declared⟩ := related
  rw [settled.resolve] at found
  cases found
  exact ⟨settled, supertype, declared⟩

theorem Asks.idle {names : List String} {e : Event} (asks : w.Asks id names e)
    (numbered : Scope.Each Scope.Numbered w.scopes)
    (related : ∀ name ∈ names, w.Related id name)
    (listed : ∀ own, w.context? id = some own → namesIn w.files own.sources = names) :
    w.perform e = w := by
  cases asks with
  | name member =>
    obtain ⟨_, _, settled, _⟩ := related _ member
    rw [perform, settled.resolve]
  | superName member found declares =>
    obtain ⟨_, supertype, declared⟩ := (related _ member).extends found
    cases declared with
    | root none => cases none.symm.trans declares
    | type declares' settled =>
      cases declares'.symm.trans declares
      rw [perform, settled.resolve]
  | supertype member found =>
    obtain ⟨settled, supertype, declared⟩ := (related _ member).extends found
    have valid := isValid_of_holds numbered (settled.named numbered).2
    rw [perform, declared.directSupertype valid]
  | subtypes base =>
    rw [perform, directSubtypes]
    cases there : w.context? id with
    | none => rfl
    | some own =>
      rw [← listed own there] at related
      exact subtypesIn_idle numbered related []

theorem run_idle {events : List Event} (idle : ∀ e ∈ events, w.perform e = w) :
    w.run events = w := by
  induction events with
  | nil => rfl
  | cons e rest ih =>
    obtain ⟨first, others⟩ := List.forall_mem_cons.mp idle
    rw [run, first, ih others]

/-! ### The table after a query -/

/-- The names that sources list and a parent lacks, each once. -/
def lackedNames (w : World) (parent : ScopeId) (sources : List PluginSource) : List String :=
  (namesIn w.files sources).dedup.filter fun name =>
    (w.resolve parent name).1 = .error (.typeNotFound name)

theorem mem_lackedNames {sources : List PluginSource} :
    name ∈ w.lackedNames parent sources ↔
      name ∈ namesIn w.files sources ∧ (w.resolve parent name).1 = .error (.typeNotFound name) := by
  rw [lackedNames, List.mem_filter, List.mem_dedup, decide_eq_true_iff]

theorem Open.of_context (isOpen : w.Open id)
    (at_id : Scope.get? w.scopes id = some (.context parent own)) (below : parent < id) :
    own.state = .ready ∧ w.Open parent := by
  have there := Scope.get_lt at_id
  have inside : id ∈ w.chain id := Scope.mem_chain_of_context (Scope.mem_lineage_self there) at_id
  have above : parent ∈ w.lineage id := by
    rw [lineage, Scope.lineage_of_context at_id below]
    exact List.mem_cons_of_mem _ (Scope.mem_lineage_self (Nat.lt_trans below there))
  exact ⟨isOpen id inside parent own at_id, isOpen.inherited above⟩

theorem Related.kept (related : w.Related id name)
    (at_id : Scope.get? w.scopes id = some (.context parent own)) (below : parent < id)
    (missing : (w.resolve parent name).1 = .error (.typeNotFound name)) :
    name ∈ own.defined.map Prod.fst := by
  obtain ⟨handle, _, settled, _⟩ := related
  rcases Scope.Settled.kept_or_inherited settled at_id below with kept | inherited
  · exact List.mem_map_of_mem (mem_of_lookup kept)
  · have found : w.Settled parent name (.ok handle) := inherited
    rw [found.resolve] at missing
    cases missing

theorem missing_of_kept (files : FileSystem) (events : List Event)
    (at_id : Scope.get? ((start files).run events).scopes id = some (.context parent own))
    (below : parent < id) (parentOpen : ((start files).run events).Open parent)
    (kept : name ∈ own.defined.map Prod.fst) :
    (((start files).run events).resolve parent name).1 = .error (.typeNotFound name) := by
  obtain ⟨handle, looked⟩ := lookup_of_key kept
  have lacking := lacking_run files events _ _ _ (Scope.KeptBelow.of_parent at_id below looked)
  rw [(lacking.missing parentOpen).resolve]

theorem listed_of_kept (files : FileSystem) (events : List Event)
    (at_id : Scope.get? ((start files).run events).scopes id = some (.context parent own))
    {now : FileSystem} (agree : own.SlotsAgree now)
    (readable : ∀ source ∈ own.sources, ∀ e, .error e ∉ source.listing now)
    (kept : name ∈ own.defined.map Prod.fst) : name ∈ namesIn now own.sources := by
  obtain ⟨p, inside, rfl⟩ := List.mem_map.mp kept
  have backed := backed_run files events at_id
  exact (backed.pinned p inside).first.listed agree (backed.searchable p inside) readable

/-- A context that was made after the files last changed, and that has gone through all that its
sources list, keeps the listed names that its parent lacks. -/
theorem table_perm (files : FileSystem) (before rest : List Event)
    (at_id : Scope.get? ((start files).run (before ++ rest)).scopes id =
      some (.context parent own))
    (below : parent < id) (new : ((start files).run before).scopes.length ≤ id)
    (unchanged : ∀ other, Event.change other ∉ rest)
    (isOpen : ((start files).run (before ++ rest)).Open id)
    (readable : ∀ source ∈ own.sources, ∀ e,
      .error e ∉ source.listing ((start files).run (before ++ rest)).files)
    (related : ∀ name ∈ namesIn ((start files).run (before ++ rest)).files own.sources,
      ((start files).run (before ++ rest)).Related id name) :
    (own.defined.map Prod.fst).Perm
      (((start files).run (before ++ rest)).lackedNames parent own.sources) := by
  obtain ⟨ready, parentOpen⟩ := isOpen.of_context at_id below
  have agree : own.SlotsAgree ((start files).run (before ++ rest)).files := by
    have later := (AgreeFrom.start ((start files).run before)).run unchanged
    rw [← run_append] at later
    rw [later.1]
    exact later.2 id parent own at_id new ready
  refine (List.perm_ext_iff_of_nodup (keys_run files _ at_id)
    ((List.nodup_dedup _).filter _)).mpr fun name => ?_
  rw [← lackedNames, mem_lackedNames]
  constructor
  · intro kept
    exact ⟨listed_of_kept files _ at_id agree readable kept,
      missing_of_kept files _ at_id below parentOpen kept⟩
  · rintro ⟨listed, missing⟩
    exact (related name listed).kept at_id below missing

/-- A subtype query that succeeds leaves the table complete. In any run, let a context on an older
scope, which does not tolerate unreadable archives, be made after the files last changed, and let it
and all contexts it inherits from be ready. Once a query for the direct subtypes of any base has
succeeded, the names in the table are those that the sources list and the parent lacks, each once,
so there are as many. No further queries for listed names, for what their types extend or for
subtypes change anything. -/
theorem subtype_query_completes_table (files : FileSystem) (before rest : List Event)
    (id parent : ScopeId) (own : LoadingContext) (base : TypeHandle) (types : List TypeHandle)
    (at_id : Scope.get? ((start files).run (before ++ rest)).scopes id =
      some (.context parent own))
    (below : parent < id) (aborts : own.policy = .abort)
    (new : ((start files).run before).scopes.length ≤ id)
    (unchanged : ∀ other, Event.change other ∉ rest)
    (isOpen : ((start files).run (before ++ rest)).Open id)
    (succeeded : (((start files).run (before ++ rest)).directSubtypes id base).1 = .ok types) :
    let after := (((start files).run (before ++ rest)).directSubtypes id base).2
    ∃ now, Scope.get? after.scopes id = some (.context parent now) ∧
      (now.defined.map Prod.fst).Perm (after.lackedNames parent own.sources) ∧
      now.defined.length = (after.lackedNames parent own.sources).length ∧
      ∀ queries, (∀ e ∈ queries, after.Asks id (namesIn after.files own.sources) e) →
        after.run queries = after := by
  intro after
  have asked : subtypesIn id .abort base own.sources [] ((start files).run (before ++ rest)) =
      (.ok types, after) := by
    rw [← succeeded, ← aborts]
    simp only [after, directSubtypes, context?, at_id]
  have lookups := subtypesIn_lookups asked
  have readable := subtypesIn_readable asked
  obtain ⟨rows, relating, _⟩ := subtypesIn_ok asked
  have related := relating.related
  rw [← lookups.files] at readable related
  obtain ⟨scope, at_now, same⟩ := get_perform at_id (.directSubtypes id base)
  change Scope.get? after.scopes id = some scope at at_now
  cases scope with
  | host types => cases same
  | context above now =>
    obtain ⟨rfl, sources, _⟩ := Blueprint.context.inj same
    have stillOpen : after.Open id := ready_lookups isOpen lookups
    -- the query is the last event of a run, and what holds in runs holds after it
    have last : after = (start files).run (before ++ (rest ++ [.directSubtypes id base])) := by
      rw [← List.append_assoc, run_append]
      rfl
    have spared : ∀ other, Event.change other ∉ rest ++ [.directSubtypes id base] := by
      simpa using unchanged
    have numbered : Scope.Each Scope.Numbered after.scopes := last ▸ numbered_run files _
    rw [← sources] at readable related ⊢
    have perm : (now.defined.map Prod.fst).Perm (after.lackedNames above now.sources) := by
      clear_value after
      subst last
      exact table_perm files before _ at_now below new spared stillOpen readable related
    refine ⟨now, at_now, perm, by rw [← perm.length_eq, List.length_map], ?_⟩
    intro queries asks
    refine run_idle fun e member => (asks e member).idle numbered related fun context there => ?_
    rw [context?, at_now] at there
    cases there
    rfl

/-- The archive has one type, which the host lacks. -/
theorem table_of_archiveOfA :
    let w := (start filesOfA).run [.addHost [("O", none, ⟨0x21⟩)],
      .addContext 0 "plugins" [⟨"/a.jar"⟩] .abort]
    let base : TypeHandle := ⟨0, 0, "O", none, [], ⟨0x21⟩, .host⟩
    ∃ types now, (w.directSubtypes 1 base).1 = .ok types ∧
      Scope.get? (w.directSubtypes 1 base).2.scopes 1 = some (.context 0 now) ∧
      now.defined.map Prod.fst = ["A"] ∧
      (w.directSubtypes 1 base).2.run [.resolve 1 "A", .directSubtypes 1 base] =
        (w.directSubtypes 1 base).2 := by
  intro w base
  let own := LoadingContext.make "plugins" [⟨"/a.jar"⟩] .abort
  have calm : ∀ id, w.Undisturbed filesOfA id :=
    fun id => undisturbed_run filesOfA _ id (by simp) (by simp)
  have shape : w.scopes.map Scope.blueprint =
      [.context 0 [⟨"/a.jar"⟩] .abort, .host (HostTypes.ofDefinitions [("O", none, ⟨0x21⟩)])] := rfl
  have names : namesIn filesOfA own.sources = ["A"] := by
    simp only [own, LoadingContext.make, namesIn, List.flatMap_cons, listing_filesOfA]
    rfl
  have succeeds : ∃ types, (w.directSubtypes 1 base).1 = .ok types := by
    refine (subtypesIn_ok_iff (calm 1) own.sources []).mpr ⟨fun name listed => ?_, ?_⟩
    · rw [names] at listed
      rw [List.mem_singleton.mp listed, shape]
      refine ⟨_, lookup_filesOfA, ?_⟩
      rintro _ ⟨⟩
      exact ⟨⟨"O", none, [], ⟨0x21⟩, .host⟩, by rfl⟩
    · intro _ source member e failing
      rw [List.mem_singleton.mp member, listing_filesOfA] at failing
      cases List.mem_singleton.mp failing
  obtain ⟨types, succeeded⟩ := succeeds
  obtain ⟨now, at_now, perm, _, idle⟩ := subtype_query_completes_table filesOfA []
    [.addHost [("O", none, ⟨0x21⟩)], .addContext 0 "plugins" [⟨"/a.jar"⟩] .abort] 1 0 own base types
    rfl (by decide) rfl (Nat.zero_le 1) (by simp) (calm 1).ready succeeded
  have lookups : Lookups 1 w (w.directSubtypes 1 base).2 := directSubtypes_lookups rfl
  have same := ((calm 1).lookups lookups).same
  have missing : ((w.directSubtypes 1 base).2.resolve 0 "A").1 = .error (.typeNotFound "A") := by
    have described := ((calm 0).lookups lookups).lookup "A"
    rw [lookups.blueprint, shape] at described
    cases answer : ((w.directSubtypes 1 base).2.resolve 0 "A").1 with
    | ok handle => rw [answer] at described; cases described
    | error e => rw [answer] at described; cases described; rfl
  have lacked : (w.directSubtypes 1 base).2.lackedNames 0 own.sources = ["A"] := by
    rw [lackedNames, same, names]
    simp [missing]
  have listed : "A" ∈ namesIn (w.directSubtypes 1 base).2.files own.sources := by
    rw [same, names]
    exact List.mem_singleton_self "A"
  refine ⟨types, now, succeeded, at_now, List.perm_singleton.mp (perm.trans (.of_eq lacked)), ?_⟩
  exact idle _ (List.forall_mem_cons.mpr
    ⟨.name listed, List.forall_mem_singleton.mpr (.subtypes base)⟩)

end World
end PluginLoader
