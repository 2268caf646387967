import PluginLoader.Proofs.Resolution.Effects

/-! How a query for subtypes fails. It asks for the listed names one after another and for what each
of their types extends. The first failure among these is reported as the inconsistency of the name
and its source. A source that cannot be opened or enumerated to its end is a failure of the query
only where such archives are not tolerated, and then it is reported as it is. -/
namespace PluginLoader

theorem listedNames_split (items : List (Except LoadError String)) :
    ∃ tail, items = (listedNames items).map .ok ++ tail ∧
      (tail = [] ∨ ∃ e rest, tail = .error e :: rest) := by
  induction items with
  | nil => exact ⟨[], rfl, .inl rfl⟩
  | cons item rest ih =>
    cases item with
    | error e => exact ⟨.error e :: rest, rfl, .inr ⟨e, rest, rfl⟩⟩
    | ok name =>
      obtain ⟨tail, split, ends⟩ := ih
      exact ⟨tail, congrArg (Except.ok name :: ·) split, ends⟩

namespace World
variable {w after : World} {id : ScopeId} {policy : ArchivePolicy} {base : TypeHandle}
  {source : PluginSource}

/-! ### Names asked for one after another -/

/-- A scope answers names in turn, each with its type and with what that extends. -/
inductive Answers (id : ScopeId) : World → List String → World → Prop where
  | nil (w : World) : Answers id w [] w
  | cons {w middle later after : World} {name : String} {names : List String}
      {handle : TypeHandle} {supertype : Option TypeHandle} :
      w.resolve id name = (.ok handle, middle) →
      middle.directSupertype id handle = (.ok supertype, later) →
      Answers id later names after → Answers id w (name :: names) after

/-- A scope fails to resolve a name, or to say what its type extends. -/
inductive Rejects (w : World) (id : ScopeId) (name : String) (cause : LoadError) : Prop where
  | type : (w.resolve id name).1 = .error cause → Rejects w id name cause
  | supertype {handle : TypeHandle} {middle : World} : w.resolve id name = (.ok handle, middle) →
      (middle.directSupertype id handle).1 = .error cause → Rejects w id name cause

theorem relate_ok_cases {name : String} {row : TypeHandle × Option TypeHandle}
    (asked : w.relate id name = (.ok row, after)) :
    ∃ middle, w.resolve id name = (.ok row.1, middle) ∧
      middle.directSupertype id row.1 = (.ok row.2, after) := by
  unfold relate at asked
  split at asked
  · cases asked
  · rename_i handle middle resolving
    split at asked
    · cases asked
    · rename_i extending
      cases asked
      exact ⟨middle, resolving, extending⟩

theorem relate_of_answers {middle later : World} {name : String} {handle : TypeHandle}
    {supertype : Option TypeHandle} (resolving : w.resolve id name = (.ok handle, middle))
    (extending : middle.directSupertype id handle = (.ok supertype, later)) :
    w.relate id name = (.ok (handle, supertype), later) := by
  rw [relate, resolving]
  dsimp only
  rw [extending]

theorem relate_error_iff {name : String} {cause : LoadError} :
    (w.relate id name).1 = .error cause ↔ w.Rejects id name cause := by
  unfold relate
  constructor
  · intro failed
    split at failed
    · rename_i resolving
      cases failed
      exact .type (congrArg Prod.fst resolving)
    · rename_i handle middle resolving
      split at failed
      · rename_i extending
        cases failed
        exact .supertype resolving (congrArg Prod.fst extending)
      · cases failed
  · rintro (resolving | ⟨resolving, extending⟩)
    · have asked : w.resolve id name = (.error cause, _) := Prod.ext resolving rfl
      rw [asked]
    · rename_i handle middle
      have asked : middle.directSupertype id handle = (.error cause, _) := Prod.ext extending rfl
      rw [resolving]
      dsimp only
      rw [asked]

theorem Answers.append {middle : World} {names others : List String}
    (first : Answers id w names middle) (second : Answers id middle others after) :
    Answers id w (names ++ others) after := by
  induction first with
  | nil => exact second
  | cons resolving extending _ ih => exact .cons resolving extending (ih second)

theorem Answers.split {names others : List String}
    (answers : Answers id w (names ++ others) after) :
    ∃ middle, Answers id w names middle ∧ Answers id middle others after := by
  induction names generalizing w with
  | nil => exact ⟨w, .nil w, answers⟩
  | cons name names ih =>
    cases answers with
    | cons resolving extending rest =>
      obtain ⟨middle, first, second⟩ := ih rest
      exact ⟨middle, .cons resolving extending first, second⟩

theorem Answers.lookups {names : List String} (answers : Answers id w names after) :
    Lookups id w after := by
  induction answers with
  | nil w => exact .refl
  | cons resolving extending _ ih =>
    exact ((resolve_lookups resolving).trans (directSupertype_lookups extending)).trans ih

/-! ### Where a query stops -/

/-- An item of a listing is the end of a query: an archive that is not passed over, or a name that
the scope rejects. -/
inductive Stops (w : World) (id : ScopeId) (policy : ArchivePolicy) (source : PluginSource) :
    Except LoadError String → LoadError → Prop where
  | archive {e : LoadError} : policy = .abort → Stops w id policy source (.error e) e
  | name {name : String} {cause : LoadError} : w.Rejects id name cause →
      Stops w id policy source (.ok name) (.inconsistent name source.location cause)

/-- A query comes to an item of a source. The scope has answered all names before it, of earlier
sources and of its own; where archives are not tolerated, the earlier sources were all listed to
their ends. -/
def ComesTo (w : World) (id : ScopeId) (policy : ArchivePolicy) (sources : List PluginSource)
    (source : PluginSource) (item : Except LoadError String) (reached : World) : Prop :=
  ∃ earlier later names rest, sources = earlier ++ source :: later ∧
    (policy = .abort → ∀ other ∈ earlier, ∀ e, .error e ∉ other.listing w.files) ∧
    source.listing w.files = names.map .ok ++ item :: rest ∧
    Answers id w (namesIn w.files earlier ++ names) reached

/-- What a query comes to behind a source that was listed to its end. -/
theorem ComesTo.behind {middle reached : World} {sources : List PluginSource}
    {later : PluginSource} {item : Except LoadError String}
    (comes : middle.ComesTo id policy sources later item reached)
    (first : Answers id w (listedNames (source.listing w.files)) middle)
    (whole : policy = .abort → ∀ e, .error e ∉ source.listing w.files) :
    w.ComesTo id policy (source :: sources) later item reached := by
  obtain ⟨earlier, others, names, rest, rfl, wholes, listed, answers⟩ := comes
  rw [first.lookups.files] at wholes listed answers
  refine ⟨source :: earlier, others, names, rest, rfl, ?_, listed, ?_⟩
  · exact fun aborts => List.forall_mem_cons.mpr ⟨whole aborts, wholes aborts⟩
  · rw [namesIn, List.flatMap_cons, List.append_assoc]
    exact first.append answers

/-- A query comes to an item of its first source, or lists that source to its end. -/
theorem ComesTo.cases_cons {reached : World} {sources : List PluginSource} {later : PluginSource}
    {item : Except LoadError String}
    (comes : w.ComesTo id policy (source :: sources) later item reached) :
    (∃ names rest, source = later ∧ later.listing w.files = names.map .ok ++ item :: rest ∧
      Answers id w names reached) ∨
    ∃ middle, Answers id w (listedNames (source.listing w.files)) middle ∧
      (policy = .abort → ∀ e, .error e ∉ source.listing w.files) ∧
      middle.ComesTo id policy sources later item reached := by
  obtain ⟨earlier, others, names, rest, same, wholes, listed, answers⟩ := comes
  cases earlier with
  | nil =>
    cases same
    exact .inl ⟨names, rest, rfl, listed, answers⟩
  | cons first earlier =>
    cases same
    rw [namesIn, List.flatMap_cons, List.append_assoc] at answers
    obtain ⟨middle, before, after⟩ := answers.split
    refine .inr ⟨middle, before, fun aborts => wholes aborts source List.mem_cons_self, ?_⟩
    refine ⟨earlier, others, names, rest, rfl, ?_, ?_, ?_⟩ <;> rw [before.lookups.files]
    · exact fun aborts other member => wholes aborts other (List.mem_cons_of_mem _ member)
    · exact listed
    · exact after

theorem subtypesAmong_answers (policy : ArchivePolicy) (base : TypeHandle)
    (source : PluginSource) {names : List String} (answers : Answers id w names after)
    (rest : List (Except LoadError String)) (found : List TypeHandle) :
    ∃ picked, subtypesAmong id policy base source (names.map .ok ++ rest) found w =
      subtypesAmong id policy base source rest picked after := by
  induction answers generalizing found with
  | nil w => exact ⟨found, rfl⟩
  | @cons w middle later after name names handle supertype resolving extending _ ih =>
    rw [List.map_cons, List.cons_append, subtypesAmong, relate_of_answers resolving extending]
    exact ih _

theorem subtypesAmong_stops (base : TypeHandle) {item : Except LoadError String} {e : LoadError}
    (stops : w.Stops id policy source item e) (rest : List (Except LoadError String))
    (found : List TypeHandle) :
    (subtypesAmong id policy base source (item :: rest) found w).1 = .error e := by
  cases stops with
  | archive aborts =>
    subst aborts
    rfl
  | @name name cause rejects =>
    have asked : w.relate id name = (.error cause, _) :=
      Prod.ext (relate_error_iff.mpr rejects) rfl
    rw [subtypesAmong, asked]

theorem subtypesAmong_error {items : List (Except LoadError String)} {found : List TypeHandle}
    {e : LoadError}
    (failed : (subtypesAmong id policy base source items found w).1 = .error e) :
    ∃ names item rest reached, items = names.map .ok ++ item :: rest ∧
      Answers id w names reached ∧ reached.Stops id policy source item e := by
  induction items generalizing found w with
  | nil => cases failed
  | cons item rest ih =>
    cases item with
    | error fault =>
      cases policy with
      | skip => cases failed
      | abort =>
        cases failed
        exact ⟨[], _, rest, w, rfl, .nil w, .archive rfl⟩
    | ok name =>
      rw [subtypesAmong] at failed
      split at failed
      · rename_i cause _ asked
        cases failed
        have rejects := relate_error_iff.mp (congrArg Prod.fst asked)
        exact ⟨[], _, rest, w, rfl, .nil w, .name rejects⟩
      · rename_i asked
        obtain ⟨middle, resolving, extending⟩ := relate_ok_cases asked
        obtain ⟨names, item, rest, reached, rfl, answers, stops⟩ := ih failed
        exact ⟨name :: names, item, rest, reached, rfl, .cons resolving extending answers, stops⟩

theorem subtypesAmong_ok_answers {items : List (Except LoadError String)}
    {found types : List TypeHandle}
    (asked : subtypesAmong id policy base source items found w = (.ok types, after)) :
    Answers id w (listedNames items) after ∧ (policy = .abort → ∀ e, .error e ∉ items) := by
  induction items generalizing found w with
  | nil =>
    cases asked
    exact ⟨.nil _, fun _ e => List.not_mem_nil⟩
  | cons item rest ih =>
    cases item with
    | error fault =>
      cases policy with
      | abort => cases asked
      | skip =>
        cases asked
        exact ⟨.nil _, by rintro ⟨⟩⟩
    | ok name =>
      rw [subtypesAmong] at asked
      split at asked
      · cases asked
      · rename_i relating
        obtain ⟨middle, resolving, extending⟩ := relate_ok_cases relating
        obtain ⟨answers, whole⟩ := ih asked
        refine ⟨.cons resolving extending answers, fun aborts e member => ?_⟩
        exact whole aborts e ((List.mem_cons.mp member).resolve_left (by rintro ⟨⟩))

theorem subtypesAmong_whole (base : TypeHandle) (source : PluginSource)
    {items : List (Except LoadError String)}
    (answers : Answers id w (listedNames items) after)
    (whole : policy = .abort → ∀ e, .error e ∉ items) (found : List TypeHandle) :
    ∃ types, subtypesAmong id policy base source items found w = (.ok types, after) := by
  obtain ⟨tail, split, ends⟩ := listedNames_split items
  obtain ⟨types, asked⟩ := subtypesAmong_answers policy base source answers tail found
  rw [← split] at asked
  refine ⟨types, asked.trans ?_⟩
  rcases ends with rfl | ⟨e, rest, rfl⟩
  · rfl
  · cases policy with
    | skip => rfl
    | abort =>
      refine absurd ?_ (whole rfl e)
      rw [split]
      exact List.mem_append_right _ List.mem_cons_self

theorem subtypesIn_answers (base : TypeHandle) {earlier : List PluginSource}
    (answers : Answers id w (namesIn w.files earlier) after)
    (whole : policy = .abort → ∀ other ∈ earlier, ∀ e, .error e ∉ other.listing w.files)
    (sources : List PluginSource) (found : List TypeHandle) :
    ∃ picked, subtypesIn id policy base (earlier ++ sources) found w =
      subtypesIn id policy base sources picked after := by
  induction earlier generalizing found w with
  | nil =>
    cases answers
    exact ⟨found, rfl⟩
  | cons source earlier ih =>
    obtain ⟨middle, first, second⟩ := answers.split
    obtain ⟨types, asked⟩ := subtypesAmong_whole base source first
      (fun aborts => whole aborts source List.mem_cons_self) found
    rw [← first.lookups.files] at second whole
    rw [List.cons_append, subtypesIn_cons, asked]
    exact ih second (fun aborts other member => whole aborts other (List.mem_cons_of_mem _ member))
      types

theorem subtypesIn_error {sources : List PluginSource} {found : List TypeHandle} {e : LoadError}
    (failed : (subtypesIn id policy base sources found w).1 = .error e) :
    ∃ source item reached, w.ComesTo id policy sources source item reached ∧
      reached.Stops id policy source item e := by
  induction sources generalizing found w with
  | nil => cases failed
  | cons source sources ih =>
    rw [subtypesIn_cons] at failed
    split at failed
    · rename_i asked
      cases failed
      obtain ⟨names, item, rest, reached, listed, answers, stops⟩ :=
        subtypesAmong_error (congrArg Prod.fst asked)
      refine ⟨source, item, reached, ⟨[], sources, names, rest, rfl, ?_, listed, answers⟩, stops⟩
      rintro _ _ ⟨⟩
    · rename_i types middle asked
      obtain ⟨first, whole⟩ := subtypesAmong_ok_answers asked
      obtain ⟨later, item, reached, comes, stops⟩ := ih failed
      exact ⟨later, item, reached, comes.behind first whole, stops⟩

theorem ComesTo.error {sources : List PluginSource} {item : Except LoadError String}
    {reached : World} {e : LoadError} (comes : w.ComesTo id policy sources source item reached)
    (stops : reached.Stops id policy source item e) (found : List TypeHandle) :
    (subtypesIn id policy base sources found w).1 = .error e := by
  obtain ⟨earlier, later, names, rest, rfl, whole, listed, answers⟩ := comes
  obtain ⟨middle, first, second⟩ := answers.split
  obtain ⟨picked, skipped⟩ := subtypesIn_answers base first whole (source :: later) found
  obtain ⟨types, asked⟩ := subtypesAmong_answers policy base source second (item :: rest) picked
  have stopped : subtypesAmong id policy base source (item :: rest) types reached =
      (.error e, _) := Prod.ext (subtypesAmong_stops base stops rest types) rfl
  rw [skipped, subtypesIn_cons, first.lookups.files, listed, asked, stopped]

theorem ComesTo.location {sources : List PluginSource} {e : LoadError} {reached : World}
    (comes : w.ComesTo id policy sources source (.error e) reached) :
    ∃ fault, e = .archiveRead source.location fault := by
  obtain ⟨_, _, names, rest, _, _, listed, _⟩ := comes
  have inside : .error e ∈ source.listing w.files := by
    rw [listed]
    exact List.mem_append_right _ List.mem_cons_self
  exact PluginSource.listing_fault inside

theorem directSubtypes_error_iff {parent : ScopeId} {own : LoadingContext} {e : LoadError}
    (at_id : Scope.get? w.scopes id = some (.context parent own)) :
    (w.directSubtypes id base).1 = .error e ↔
      ∃ source item reached, w.ComesTo id own.policy own.sources source item reached ∧
        reached.Stops id own.policy source item e := by
  rw [directSubtypes, context?, at_id]
  constructor
  · exact subtypesIn_error
  · rintro ⟨source, item, reached, comes, stops⟩
    exact comes.error stops []

/-- How a query for subtypes fails, in any context and any state. It never fails by a missing type.
It fails by reading an archive only where unreadable archives are not tolerated, and then as the
first source fails that cannot be opened or enumerated to its end, all names before that failure
having been answered. Any other failure is an illegal state, which names the first listed name that
the context does not resolve, or whose supertype it does not, and quotes the failure of that. Where
a query comes to such an archive or name it does fail so. And a type that a lookup reports missing
is the one that it was asked for, whichever context it was that missed it. -/
theorem subtype_failure_located (w : World) (id parent : ScopeId) (own : LoadingContext)
    (base : TypeHandle) (at_id : Scope.get? w.scopes id = some (.context parent own)) :
    (∀ e, (w.directSubtypes id base).1 = .error e →
      e.kind ≠ .typeNotFound ∧
      (e.kind = .archiveRead → own.policy = .abort ∧ ∃ source fault reached,
        e = .archiveRead source.location fault ∧
        w.ComesTo id own.policy own.sources source (.error e) reached) ∧
      (e.kind ≠ .archiveRead → e.kind = .illegalState ∧ ∃ source name reached cause,
        w.ComesTo id own.policy own.sources source (.ok name) reached ∧
        reached.Rejects id name cause ∧ e = .inconsistent name source.location cause ∧
        e.message = "Illegal state: Failed to resolve '" ++ name ++ "' listed in " ++
          source.location ++ ": " ++ cause.message)) ∧
    (∀ source e reached, own.policy = .abort →
      w.ComesTo id own.policy own.sources source (.error e) reached →
      (w.directSubtypes id base).1 = .error e) ∧
    (∀ source name reached cause, w.ComesTo id own.policy own.sources source (.ok name) reached →
      reached.Rejects id name cause →
      (w.directSubtypes id base).1 = .error (.inconsistent name source.location cause)) ∧
    ∀ asker name missing, (w.resolve asker name).1 = .error (.typeNotFound missing) →
      missing = name := by
  refine ⟨fun e failed => ?_, ?_, ?_, fun asker name missing failed => ?_⟩
  · obtain ⟨source, item, reached, comes, stops⟩ := (directSubtypes_error_iff at_id).mp failed
    cases stops with
    | archive aborts =>
      obtain ⟨fault, rfl⟩ := comes.location
      exact ⟨by rintro ⟨⟩, fun _ => ⟨aborts, source, fault, reached, rfl, comes⟩,
        fun other => absurd rfl other⟩
    | name rejects =>
      exact ⟨by rintro ⟨⟩, by rintro ⟨⟩,
        fun _ => ⟨rfl, source, _, reached, _, comes, rejects, rfl, rfl⟩⟩
  · intro source e reached aborts comes
    exact (directSubtypes_error_iff at_id).mpr ⟨source, _, reached, comes, .archive aborts⟩
  · intro source name reached cause comes rejects
    exact (directSubtypes_error_iff at_id).mpr ⟨source, _, reached, comes, .name rejects⟩
  · exact LoadError.typeNotFound.inj (Scope.resolve_missing failed rfl)

/-- A parent whose only archive is missing: its own query reports that archive as it is, its
child's reports the listed name that led there. -/
theorem missing_archive_reported :
    let w := (start filesOfA).run [.addHost [], .addContext 0 "parent" [⟨"/b.jar"⟩] .abort,
      .addContext 1 "child" [⟨"/a.jar"⟩] .abort]
    let base : TypeHandle := ⟨0, 0, ⟨"O", none, [], ⟨0x21⟩, .host⟩⟩
    (w.directSubtypes 1 base).1 = .error (.archiveRead "/b.jar" (.file .missing)) ∧
      (w.directSubtypes 2 base).1 =
        .error (.inconsistent "A" "/a.jar" (.archiveRead "/b.jar" (.file .missing))) := by
  intro w base
  have listing : PluginSource.listing ⟨"/b.jar"⟩ filesOfA =
      [.error (.archiveRead "/b.jar" (.file .missing))] := by
    rw [PluginSource.listing, open_missing_jar]
  have rejects : w.Rejects 2 "A" (.archiveRead "/b.jar" (.file .missing)) := by
    let above := LoadingContext.make "parent" [⟨"/b.jar"⟩] .abort
    let child := LoadingContext.make "child" [⟨"/a.jar"⟩] .abort
    let host := Scope.host (HostTypes.ofDefinitions [])
    have arrives : above.Arrives filesOfA "A" ⟨"/b.jar"⟩ .unopened [] [] :=
      ⟨[], [], [], rfl, rfl, .nil⟩
    have stops := arrives.unopenable rfl open_missing_jar (by decide +kernel) [host].length
    have asked : Scope.resolve filesOfA [.context 0 above, host] 1 "A" =
        (.error (.archiveRead "/b.jar" (.file .missing)), [.context 0 above, host]) := by
      refine (Scope.resolve_own rfl rfl).trans ?_
      rw [stops]
      rfl
    have inherits : Scope.resolve filesOfA [.context 1 child, .context 0 above, host] 2 "A" =
        (.error (.archiveRead "/b.jar" (.file .missing)),
          [.context 1 child, .context 0 above, host]) :=
      Scope.resolve_inherited rfl asked (by rintro ⟨⟩)
    exact .type (congrArg Prod.fst inherits)
  obtain ⟨_, archives, _⟩ := subtype_failure_located w 1 0
    (LoadingContext.make "parent" [⟨"/b.jar"⟩] .abort) base rfl
  obtain ⟨_, _, names, _⟩ := subtype_failure_located w 2 1
    (LoadingContext.make "child" [⟨"/a.jar"⟩] .abort) base rfl
  constructor
  · refine archives ⟨"/b.jar"⟩ _ w rfl ⟨[], [], [], [], rfl, ?_, listing, .nil w⟩
    rintro _ _ ⟨⟩
  · refine names ⟨"/a.jar"⟩ "A" w _ ⟨[], [], [], [], rfl, ?_, listing_filesOfA, .nil w⟩ rejects
    rintro _ _ ⟨⟩

end World
end PluginLoader
