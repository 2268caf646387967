import PluginLoader.Proofs.Resolution.Representation

/-! What one lookup may change. A context that knows the name, inherits the answer or is asked for
what is no type's name stays as it is. One that looks into its archives reaches its sources in
order, up to the one that decides, and fills the slots of these alone. An archive that fails to open
and may not be passed over leaves its slot unopened, so the next lookup opens it again. -/
namespace PluginLoader

namespace LoadingContext
variable {files : FileSystem} {policy : ArchivePolicy} {name : String} {source : PluginSource}

/-- Sources that a search passes by: each is reached, and has nothing to say of the name. -/
inductive Passes (files : FileSystem) (policy : ArchivePolicy) (name : String) :
    List PluginSource → List Slot → List Slot → Prop where
  | nil : Passes files policy name [] [] []
  | cons {source : PluginSource} {sources : List PluginSource} {slot now : Slot}
      {slots after : List Slot} : slot.Reached files policy source now →
      verdict policy name source now = none → Passes files policy name sources slots after →
      Passes files policy name (source :: sources) (slot :: slots) (now :: after)

theorem Passes.search {front : List PluginSource} {before reached : List Slot}
    (passes : Passes files policy name front before reached) (sources : List PluginSource)
    (slots : List Slot) :
    search files policy name (front ++ sources) (before ++ slots) =
      ((search files policy name sources slots).1,
        reached ++ (search files policy name sources slots).2) := by
  induction passes with
  | nil => rfl
  | cons here passed _ ih =>
    simp only [List.cons_append, search_cons, reach_ok_iff.mpr here, passed, ih]

theorem Passes.again {front : List PluginSource} {before reached : List Slot}
    (passes : Passes files policy name front before reached) (others : FileSystem) :
    Passes others policy name front reached reached := by
  induction passes with
  | nil => exact .nil
  | cons here passed _ ih =>
    exact .cons (.kept (reach_ne_unopened (reach_ok_iff.mpr here))) passed ih

/-- How a search ends: all sources are passed by, or one that it comes to fails to open or
decides. -/
inductive Ends (files : FileSystem) (policy : ArchivePolicy) (name : String) :
    List PluginSource → List Slot → Except LoadError (Option TypeDescriptor) → List Slot → Prop where
  | exhausted {sources : List PluginSource} {slots reached : List Slot} :
      Passes files policy name sources slots reached →
      Ends files policy name sources slots (.ok none) reached
  | unopenable {front rest : List PluginSource} {source : PluginSource}
      {before reached later : List Slot} {slot : Slot} {e : LoadError} :
      Passes files policy name front before reached → reach files policy source slot = .error e →
      Ends files policy name (front ++ source :: rest) (before ++ slot :: later) (.error e)
        (reached ++ slot :: later)
  | decided {front rest : List PluginSource} {source : PluginSource}
      {before reached later : List Slot} {slot now : Slot} {found : Except LoadError TypeDescriptor} :
      Passes files policy name front before reached → slot.Reached files policy source now →
      verdict policy name source now = some found →
      Ends files policy name (front ++ source :: rest) (before ++ slot :: later) (found.map some)
        (reached ++ now :: later)

theorem Ends.pass {sources : List PluginSource} {slots after : List Slot} {slot now : Slot}
    {answer : Except LoadError (Option TypeDescriptor)} (here : slot.Reached files policy source now)
    (passed : verdict policy name source now = none)
    (ends : Ends files policy name sources slots answer after) :
    Ends files policy name (source :: sources) (slot :: slots) answer (now :: after) := by
  cases ends with
  | exhausted passes => exact .exhausted (.cons here passed passes)
  | unopenable passes failing =>
    simp only [← List.cons_append]
    exact .unopenable (.cons here passed passes) failing
  | decided passes reached decides =>
    simp only [← List.cons_append]
    exact .decided (.cons here passed passes) reached decides

theorem search_ends {sources : List PluginSource} {slots : List Slot}
    (lengths : sources.length = slots.length) :
    Ends files policy name sources slots (search files policy name sources slots).1
      (search files policy name sources slots).2 := by
  revert lengths
  apply search_induction (P := fun sources slots answer after => sources.length = slots.length →
    Ends files policy name sources slots answer after)
  · intro sources slots ended lengths
    have none : sources = [] ∧ slots = [] := by
      rcases ended with rfl | rfl
      · exact ⟨rfl, List.length_eq_zero_iff.mp lengths.symm⟩
      · exact ⟨List.length_eq_zero_iff.mp lengths, rfl⟩
    obtain ⟨rfl, rfl⟩ := none
    exact .exhausted .nil
  · exact fun _ _ _ _ _ reaching _ => .unopenable .nil reaching
  · exact fun _ _ _ _ _ _ reaching deciding _ =>
      .decided .nil (reach_ok_iff.mp reaching) deciding
  · exact fun _ _ _ _ _ _ _ reaching deciding ih lengths =>
      (ih (Nat.succ.inj lengths)).pass (reach_ok_iff.mp reaching) deciding

/-- A search of a context comes to one of its sources, having passed by all in front of it. -/
def Arrives (own : LoadingContext) (files : FileSystem) (name : String) (source : PluginSource)
    (slot : Slot) (reached later : List Slot) : Prop :=
  ∃ front rest before, own.sources = front ++ source :: rest ∧ own.slots = before ++ slot :: later ∧
    Passes files own.policy name front before reached

/-- What a search of a context, the scope numbered `id`, gives and leaves: no source has the type; a
source fails to open and may not be passed over; the entry fails to be read, or to define the type;
it is found. -/
inductive Searched (own : LoadingContext) (files : FileSystem) (id : ScopeId) (name : String) :
    Except LoadError TypeHandle → LoadingContext → Prop where
  | missing {reached : List Slot} :
      Passes files own.policy name own.sources own.slots reached →
      Searched own files id name (.error (.typeNotFound name)) { own with slots := reached }
  | unopenable {source : PluginSource} {reached later : List Slot} {e : LoadError} :
      own.policy = .abort → own.Arrives files name source .unopened reached later →
      source.archive files = .error e →
      Searched own files id name (.error e) { own with slots := reached ++ .unopened :: later }
  | failed {source : PluginSource} {slot : Slot} {archive : Archive} {reached later : List Slot}
      {e : LoadError} : own.Arrives files name source slot reached later →
      slot.Reached files own.policy source (.opened archive) →
      verdict own.policy name source (.opened archive) = some (.error e) →
      Searched own files id name (.error e)
        { own with slots := reached ++ .opened archive :: later }
  | found {source : PluginSource} {slot : Slot} {archive : Archive} {reached later : List Slot}
      {descriptor : TypeDescriptor} : own.Arrives files name source slot reached later →
      slot.Reached files own.policy source (.opened archive) →
      verdict own.policy name source (.opened archive) = some (.ok descriptor) →
      Searched own files id name (.ok ⟨id, own.issued, descriptor⟩)
        { own with
          slots := reached ++ .opened archive :: later
          defined := (name, ⟨id, own.issued, descriptor⟩) :: own.defined
          issued := own.issued + 1 }

theorem define_searched {own : LoadingContext} (lengths : own.sources.length = own.slots.length)
    (files : FileSystem) (id : ScopeId) (named : TypeName.searchable name = true) :
    own.Searched files id name (own.define files id name).1 (own.define files id name).2 := by
  rw [define, if_pos named]
  have ends : Ends files own.policy name own.sources own.slots _ _ := search_ends lengths
  generalize search files own.policy name own.sources own.slots = result at ends
  obtain ⟨answer, after⟩ := result
  obtain ⟨sources, allSources⟩ : ∃ sources, own.sources = sources := ⟨_, rfl⟩
  obtain ⟨slots, allSlots⟩ : ∃ slots, own.slots = slots := ⟨_, rfl⟩
  rw [allSources, allSlots] at ends
  cases ends with
  | exhausted passes =>
    rw [← allSources, ← allSlots] at passes
    exact .missing passes
  | unopenable passes failing =>
    obtain ⟨rfl, aborts, opening⟩ := reach_error failing
    exact .unopenable aborts ⟨_, _, _, allSources, allSlots, passes⟩ opening
  | @decided _ _ _ _ _ _ _ _ found passes here decides =>
    obtain ⟨archive, rfl, _⟩ := verdict_cases decides
    cases found with
    | error e => exact .failed ⟨_, _, _, allSources, allSlots, passes⟩ here decides
    | ok descriptor => exact .found ⟨_, _, _, allSources, allSlots, passes⟩ here decides

/-! ### An archive that is tried again -/

section
variable {own : LoadingContext} {id : ScopeId} {reached later : List Slot}

theorem define_slots (own : LoadingContext) (files : FileSystem) (id : ScopeId)
    (named : TypeName.searchable name = true) :
    (own.define files id name).2.slots =
      (search files own.policy name own.sources own.slots).2 := by
  rw [define, if_pos named]
  rcases search files own.policy name own.sources own.slots with ⟨e | _ | descriptor, slots⟩ <;> rfl

theorem Arrives.again {slot : Slot} (arrives : own.Arrives files name source slot reached later)
    (others : FileSystem) :
    { own with slots := reached ++ slot :: later }.Arrives others name source slot reached
      later := by
  obtain ⟨front, rest, before, sources, _, passes⟩ := arrives
  exact ⟨front, rest, reached, sources, rfl, passes.again others⟩

theorem Arrives.unopenable (arrives : own.Arrives files name source .unopened reached later)
    (aborts : own.policy = .abort) {e : LoadError} (failed : source.archive files = .error e)
    (named : TypeName.searchable name = true) (id : ScopeId) :
    own.define files id name =
      (.error e, { own with slots := reached ++ .unopened :: later }) := by
  obtain ⟨front, rest, before, sources, slots, passes⟩ := arrives
  have stops : reach files own.policy source .unopened = .error e := by
    rw [reach, failed, aborts]
    rfl
  rw [define, if_pos named, sources, slots, passes.search, search_cons, stops]

theorem Arrives.opens (arrives : own.Arrives files name source .unopened reached later)
    {archive : Archive} (opening : source.archive files = .ok archive)
    (named : TypeName.searchable name = true) (id : ScopeId) :
    ∃ rest, (own.define files id name).2.slots = reached ++ .opened archive :: rest := by
  obtain ⟨front, rest, before, sources, slots, passes⟩ := arrives
  have goes : reach files own.policy source .unopened = .ok (.opened archive) :=
    reach_ok_iff.mpr (.opened opening)
  rw [define_slots own files id named, sources, slots, passes.search, search_cons, goes]
  dsimp only
  cases verdict own.policy name source (.opened archive) with
  | some found => exact ⟨later, rfl⟩
  | none => exact ⟨_, rfl⟩

end

end LoadingContext

namespace Scope

theorem resolve_append {files : FileSystem} (newer : List Scope) {scopes : List Scope}
    {id : ScopeId} (old : id < scopes.length) (name : String) :
    resolve files (newer ++ scopes) id name =
      ((resolve files scopes id name).1, newer ++ (resolve files scopes id name).2) := by
  induction newer with
  | nil => rfl
  | cons scope newer ih =>
    rw [List.cons_append, resolve_older name (ne_length_append newer old), ih]
    rfl

theorem get_append (newer : List Scope) {scopes : List Scope} {id : ScopeId}
    (old : id < scopes.length) : get? (newer ++ scopes) id = get? scopes id := by
  induction newer with
  | nil => rfl
  | cons scope newer ih => rw [List.cons_append, get_older (ne_length_append newer old), ih]

end Scope

namespace World
variable {w : World} {newer older : List Scope} {parent : ScopeId} {own : LoadingContext}
  {name : String}

theorem resolve_at (stands : w.scopes = newer ++ .context parent own :: older) (name : String) :
    w.resolve older.length name =
      ((Scope.resolve w.files (.context parent own :: older) older.length name).1,
        ⟨w.files, newer ++
          (Scope.resolve w.files (.context parent own :: older) older.length name).2⟩) := by
  rw [World.resolve, stands, Scope.resolve_append newer (Nat.lt_succ_self _)]

theorem resolve_above (stands : w.scopes = newer ++ .context parent own :: older)
    (below : parent < older.length) (name : String) :
    w.resolve parent name = ((Scope.resolve w.files older parent name).1,
      ⟨w.files, newer ++ .context parent own :: (Scope.resolve w.files older parent name).2⟩) := by
  rw [World.resolve, stands, Scope.resolve_append newer (Nat.lt_succ_of_lt below),
    Scope.resolve_older name (Nat.ne_of_lt below)]

theorem context_at (stands : w.scopes = newer ++ .context parent own :: older) :
    w.context? older.length = some own := by
  rw [context?, stands, Scope.get_append newer (Nat.lt_succ_self _), Scope.get_top]

/-- The next lookup of the name, whatever the files are then, opens the source in the context's
place `k`: it fails as the source does, or the context holds the archive. -/
def TriesAgain (w : World) (id : ScopeId) (name : String) (source : PluginSource) (k : Nat) :
    Prop :=
  ∀ files, let again := World.resolve { w with files } id name
    (∀ fault, source.archive files = .error fault → again.1 = .error fault) ∧
    ∀ archive, source.archive files = .ok archive → ∃ own, again.2.context? id = some own ∧
      own.slots[k]? = some (.opened archive)

/-- The context keeps at least the types of a table. -/
def Keeps (w : World) (id parent : ScopeId) (table : List (String × TypeHandle)) : Prop :=
  ∃ own, Scope.get? w.scopes id = some (.context parent own) ∧ table <:+ own.defined

section
variable {id : ScopeId} {table : List (String × TypeHandle)}

theorem Keeps.lookup (keeps : w.Keeps id parent table) (asker : ScopeId) (asked : String) :
    (w.resolve asker asked).2.Keeps id parent table := by
  obtain ⟨own, at_id, kept⟩ := keeps
  obtain ⟨now, at_now, defines⟩ :=
    (Scope.resolve_along w.files w.scopes asker asked).forward at_id
  cases defines with
  | same => exact ⟨own, at_now, kept⟩
  | define _ fresh => exact ⟨_, at_now, kept.trans (own.define_grows _ id _).defined⟩

theorem Keeps.perform (keeps : w.Keeps id parent table) {e : Event} (spared : e ≠ .close id) :
    (w.perform e).Keeps id parent table := by
  generalize happens : w.perform e = after
  cases perform_change happens with
  | @add _ scope fresh =>
    obtain ⟨own, at_id, kept⟩ := keeps
    exact ⟨own, (Scope.get_older (Nat.ne_of_lt (Scope.get_lt at_id))).trans at_id, kept⟩
  | lookups _ lookups =>
    exact lookups.keep (P := fun later => later.Keeps id parent table)
      (fun _ asked keeps => keeps.lookup _ asked) keeps
  | close target =>
    obtain ⟨own, at_id, kept⟩ := keeps
    have apart : id ≠ target := fun same => spared (congrArg Event.close same.symm)
    refine ⟨own, (Scope.get_close w.scopes target id).trans ?_, kept⟩
    simp [at_id, apart]
  | change files => exact keeps

theorem Keeps.run (keeps : w.Keeps id parent table) {events : List Event}
    (spared : Event.close id ∉ events) : (w.run events).Keeps id parent table :=
  run_keep (P := fun later => later.Keeps id parent table)
    (fun _ _ member keeps => keeps.perform fun same => spared (same ▸ member)) keeps

end

/-- A type that the parent has reported missing is missing there for good, so the next lookup goes
to the context's own archives at once. -/
theorem resolve_again (newer : List Scope) {files : FileSystem} {after : List Scope}
    {now : LoadingContext}
    (asked : Scope.resolve files older parent name = (.error (.typeNotFound name), after))
    (unknown : now.known? name = none) (others : FileSystem) :
    World.resolve ⟨others, newer ++ .context parent now :: after⟩ older.length name =
      ((now.define others older.length name).1,
        ⟨others, newer ++ .context parent (now.define others older.length name).2 :: after⟩) := by
  have final : Scope.Definitive (Scope.resolve files older parent name).1 := by
    rw [asked]
    rintro e ⟨⟩
    rfl
  have settled := Scope.resolve_settles final
  rw [asked] at settled
  have lookup := Scope.resolve_own unknown (settled.resolve others)
  rw [Scope.length_of_resolve asked]
  refine (resolve_at rfl name).trans ?_
  rw [lookup]

theorem tries_again {files : FileSystem} {after : List Scope} {source : PluginSource}
    {reached later : List Slot} {e : LoadError}
    (asked : Scope.resolve files older parent name = (.error (.typeNotFound name), after))
    (unknown : own.known? name = none) (named : TypeName.searchable name = true)
    (aborts : own.policy = .abort)
    (arrives : own.Arrives files name source .unopened reached later)
    (failed : source.archive files = .error e) :
    TriesAgain
      ⟨files, newer ++ .context parent (own.define files older.length name).2 :: after⟩
      older.length name source reached.length := by
  rw [arrives.unopenable aborts failed named]
  intro others
  have still : LoadingContext.known? { own with slots := reached ++ .unopened :: later } name =
      none := unknown
  have again := resolve_again newer asked still others
  dsimp only
  rw [again]
  constructor
  · intro fault failing
    rw [(arrives.again others).unopenable aborts failing named]
  · intro archive opening
    obtain ⟨rest, slots⟩ := (arrives.again others).opens opening named older.length
    refine ⟨_, ?_, by rw [slots]; simp⟩
    rw [Scope.length_of_resolve asked]
    exact context_at rfl

/-- What one lookup may change, in any run, for a ready context and any name. Newer scopes are not
touched. A name that the context keeps changes nothing. For another name older scopes change as the
parent's lookup of it changes them. If the parent gives a type, or fails otherwise than by a missing
type, its answer is the answer and the context stays as it is. If it reports a missing type and the
name is no type's name, so does the context, and stays as it is. Else the context searches its
sources. It gains the type under the name if it gives one, and keeps its table if it fails; slots
are filled up to the source that decides; a source that fails to open and may not be passed over
stays unopened, and the next lookup of the name opens it again. So as long as it is not closed a
context loses no type. -/
theorem resolve_effect (files : FileSystem) (events : List Event) (newer older : List Scope)
    (parent : ScopeId) (own : LoadingContext) (name : String)
    (stands : ((start files).run events).scopes = newer ++ .context parent own :: older)
    (ready : own.state = .ready) :
    let w := (start files).run events
    let id := older.length
    let asked := Scope.resolve w.files older parent name
    let leaving (now : LoadingContext) : World := ⟨w.files, newer ++ .context parent now :: asked.2⟩
    (parent < id → w.resolve parent name = (asked.1, leaving own)) ∧
    (∀ handle, own.defined.lookup name = some handle → w.resolve id name = (.ok handle, w)) ∧
    (own.defined.lookup name = none →
      ((∀ missing, asked.1 ≠ .error (.typeNotFound missing)) →
        w.resolve id name = (asked.1, leaving own)) ∧
      ∀ missing, asked.1 = .error (.typeNotFound missing) →
        (name = "" ∨ '/' ∈ name.toList →
          w.resolve id name = (.error (.typeNotFound name), leaving own)) ∧
        (¬ (name = "" ∨ '/' ∈ name.toList) → ∃ now,
          (w.resolve id name).2 = leaving now ∧
          own.Searched w.files id name (w.resolve id name).1 now ∧
          (∀ handle, (w.resolve id name).1 = .ok handle →
            now.defined = (name, handle) :: own.defined) ∧
          (∀ e, (w.resolve id name).1 = .error e → now.defined = own.defined) ∧
          ∀ source reached later e, own.policy = .abort →
            own.Arrives w.files name source .unopened reached later →
            source.archive w.files = .error e →
            (w.resolve id name).1 = .error e ∧ now.slots = reached ++ .unopened :: later ∧
              (leaving now).TriesAgain id name source reached.length)) ∧
    ∀ rest, Event.close id ∉ rest → ∃ now,
      Scope.get? (w.run rest).scopes id = some (.context parent now) ∧
      own.defined <:+ now.defined ∧ own.defined.length ≤ now.defined.length := by
  intro w id asked leaving
  have at_id : Scope.get? w.scopes id = some (.context parent own) := by
    rw [stands, Scope.get_append newer (Nat.lt_succ_self _), Scope.get_top]
  refine ⟨fun below => resolve_above stands below name, fun handle kept => ?_,
    fun unknown => ⟨?_, ?_⟩, fun rest spared => ?_⟩
  · have known : own.known? name = some (.ok handle) := by
      simp [LoadingContext.known?, ready, kept]
    rw [resolve_at stands, Scope.resolve_known known, ← stands]
  · intro final
    have fresh := LoadingContext.known_eq_none.mpr ⟨ready, unknown⟩
    have lookup : Scope.resolve w.files older parent name = (asked.1, asked.2) := rfl
    rw [resolve_at stands, Scope.resolve_inherited fresh lookup (final name)]
  · intro missing absent
    have fresh := LoadingContext.known_eq_none.mpr ⟨ready, unknown⟩
    cases LoadError.typeNotFound.inj (Scope.resolve_missing absent rfl)
    have lookup : Scope.resolve w.files older parent name =
      (.error (.typeNotFound name), asked.2) := Prod.ext absent rfl
    have searches : w.resolve id name = ((own.define w.files id name).1,
        leaving (own.define w.files id name).2) := by
      rw [resolve_at stands, Scope.resolve_own fresh lookup]
    rw [searches]
    constructor
    · intro unnamed
      have refuses : own.Refuses name (.typeNotFound name) := by
        refine .inl ⟨Bool.eq_false_iff.mpr fun named => ?_, rfl⟩
        exact (TypeName.searchable_iff name).mp named unnamed
      rw [refuses.define]
    · intro plain
      have named : TypeName.searchable name = true := (TypeName.searchable_iff name).mpr plain
      have lengths : own.sources.length = own.slots.length :=
        ((backed_run files events at_id).slots ready).length_eq
      refine ⟨_, rfl, LoadingContext.define_searched lengths w.files id named, ?_, ?_, ?_⟩
      · exact fun handle found => (LoadingContext.define_ok found).2.2.2.1
      · exact fun e failed => (LoadingContext.define_error failed).1
      · intro source reached later e aborts arrives failed
        have stops := arrives.unopenable aborts failed named id
        refine ⟨by rw [stops], by rw [stops], ?_⟩
        exact tries_again lookup fresh named aborts arrives failed
  · have keeps : w.Keeps id parent own.defined := ⟨own, at_id, List.suffix_rfl⟩
    obtain ⟨now, at_now, kept⟩ := keeps.run spared
    exact ⟨now, at_now, kept, kept.length_le⟩

/-- An archive in front of the one that has the type is missing: the lookup fails with no archive
opened and no type kept, and the next one looks for that archive again. -/
theorem missing_archive_tried_again :
    let w := (start filesOfA).run
      [.addHost [], .addContext 0 "plugins" [⟨"/b.jar"⟩, ⟨"/a.jar"⟩] .abort]
    let after := (w.resolve 1 "A").2
    (w.resolve 1 "A").1 = .error (.archiveRead "/b.jar" (.file .missing)) ∧
      (∃ now, after.context? 1 = some now ∧ now.slots = [.unopened, .unopened] ∧
        now.defined = []) ∧
      after.TriesAgain 1 "A" ⟨"/b.jar"⟩ 0 := by
  intro w after
  let own := LoadingContext.make "plugins" [⟨"/b.jar"⟩, ⟨"/a.jar"⟩] .abort
  obtain ⟨_, _, searches, _⟩ := resolve_effect filesOfA
    [.addHost [], .addContext 0 "plugins" [⟨"/b.jar"⟩, ⟨"/a.jar"⟩] .abort] []
    [.host (HostTypes.ofDefinitions [])] 0 own "A" rfl rfl
  obtain ⟨now, leaves, _, _, keeps, tries⟩ := ((searches rfl).2 "A" rfl).2 (by decide)
  have arrives : own.Arrives filesOfA "A" ⟨"/b.jar"⟩ .unopened [] [.unopened] :=
    ⟨[], [⟨"/a.jar"⟩], [], rfl, rfl, .nil⟩
  obtain ⟨answer, slots, again⟩ := tries _ _ _ _ rfl arrives open_missing_jar
  rw [← leaves] at again
  refine ⟨answer, ⟨now, ?_, slots, keeps _ answer⟩, again⟩
  exact (congrArg (context? · 1) leaves).trans rfl

end World
end PluginLoader
