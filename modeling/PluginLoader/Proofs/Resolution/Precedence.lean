import PluginLoader.Proofs.Resolution.Lineage
import PluginLoader.Proofs.Resolution.Subtypes

/-! Parents come first, over time. A context looks at its own table before it asks its parent, so
that a parent's answer is binding for its children is no single step's doing: it holds because a
context only keeps a type under a name that all scopes above it have refused, and because a name
that a scope has answered is never refused there again. -/
namespace PluginLoader

namespace Scope
variable {files : FileSystem} {scopes after older : List Scope} {id target : ScopeId}
  {name : String} {handle : TypeHandle}

/-! ### Where an answer comes from -/

/-- Some context that inherits from a scope keeps the type under the name. -/
inductive KeptBelow (target : ScopeId) (name : String) (handle : TypeHandle) :
    List Scope → Prop where
  | top {parent : ScopeId} {own : LoadingContext} {older : List Scope} :
      target ∈ lineage older parent → own.defined.lookup name = some handle →
      KeptBelow target name handle (.context parent own :: older)
  | older (scope : Scope) {older : List Scope} : KeptBelow target name handle older →
      KeptBelow target name handle (scope :: older)

theorem KeptBelow.there (kept : KeptBelow target name handle scopes) : target < scopes.length := by
  induction kept with
  | top inside => exact Nat.lt_succ_of_lt (lt_of_mem_lineage inside)
  | older _ _ ih => exact Nat.lt_succ_of_lt ih

theorem KeptBelow.of_parent {scopes : List Scope} {id parent : ScopeId} {own : LoadingContext}
    {name : String} {handle : TypeHandle} (at_id : get? scopes id = some (.context parent own))
    (below : parent < id) (found : own.defined.lookup name = some handle) :
    KeptBelow parent name handle scopes := by
  induction scopes with
  | nil => cases at_id
  | cons scope older ih =>
    by_cases here : id = older.length
    · subst here
      rw [get_top] at at_id
      cases at_id
      exact .top (mem_lineage_self below) found
    · rw [get_older here] at at_id
      exact .older scope (ih at_id)

theorem Settled.of_older {scope : Scope} {answer : Except LoadError TypeHandle}
    (settled : Settled (scope :: older) id name answer) (below : id ≠ older.length) :
    Settled older id name answer := by
  cases settled with
  | older _ _ rest => exact rest
  | host | known | inherited | refused => exact absurd rfl below

theorem Settled.missing_above {answer : Except LoadError TypeHandle}
    (settled : Settled scopes id name answer) (missing : answer = .error (.typeNotFound name))
    (inside : target ∈ lineage scopes id) :
    Settled scopes target name (.error (.typeNotFound name)) := by
  induction settled with
  | absent => cases inside
  | older scope below _ ih =>
    rw [lineage_older scope below] at inside
    exact .older scope (Nat.ne_of_lt (lt_of_mem_lineage inside)) (ih missing inside)
  | host types older name =>
    rw [lineage_host] at inside
    rw [List.mem_singleton.mp inside, ← missing]
    exact .host types older name
  | known parent older known =>
    subst missing
    cases (LoadingContext.known_eq_error known).2
  | inherited _ final _ _ => exact absurd missing final
  | @refused parent own older name e fresh rest refuses ih =>
    cases missing
    rw [lineage_context] at inside
    rcases List.mem_cons.mp inside with rfl | inside
    · exact .refused fresh rest refuses
    · exact .older _ (Nat.ne_of_lt (lt_of_mem_lineage inside)) (ih rfl inside)

/-- What a scope is settled for, a scope above it is settled for too, or a context below that one
keeps it. -/
theorem Settled.above (settled : Settled scopes id name (.ok handle))
    (inside : target ∈ lineage scopes id) :
    Settled scopes target name (.ok handle) ∨ KeptBelow target name handle scopes := by
  generalize given : (.ok handle : Except LoadError TypeHandle) = answer at settled ⊢
  induction settled with
  | absent => cases given
  | older scope below _ ih =>
    rw [lineage_older scope below] at inside
    have lower := Nat.ne_of_lt (lt_of_mem_lineage inside)
    exact (ih inside given).imp (.older scope lower) (.older scope)
  | host types older name =>
    rw [lineage_host] at inside
    rw [List.mem_singleton.mp inside]
    exact .inl (.host types older name)
  | @known parent own older name answer known =>
    subst given
    rw [lineage_context] at inside
    rcases List.mem_cons.mp inside with rfl | inside
    · exact .inl (.known parent older known)
    · exact .inr (.top inside (LoadingContext.known_eq_ok known).2)
  | @inherited parent own older name answer fresh final rest ih =>
    rw [lineage_context] at inside
    rcases List.mem_cons.mp inside with rfl | inside
    · exact .inl (.inherited fresh final rest)
    · have lower := Nat.ne_of_lt (lt_of_mem_lineage inside)
      exact (ih inside given).imp (.older _ lower) (.older _)
  | refused => cases given

/-- Where nothing is kept below it, a scope's answer is the answer of every open scope that inherits
from it. -/
theorem Settled.descend (settled : Settled scopes target name (.ok handle))
    (inside : target ∈ lineage scopes id) (isOpen : Open scopes id)
    (reserved : ∀ type, ¬ KeptBelow target name type scopes) :
    Settled scopes id name (.ok handle) := by
  revert settled isOpen reserved
  apply lineage_induction (P := fun scopes id target =>
    Settled scopes target name (.ok handle) → Open scopes id →
      (∀ type, ¬ KeptBelow target name type scopes) → Settled scopes id name (.ok handle)) _ _ _
      inside
  · exact fun _ _ settled _ _ => settled
  · intro parent own older target inside ih settled isOpen reserved
    obtain ⟨ready, parentOpen⟩ := isOpen.parent
    -- nothing kept here under the name, so the parent is asked
    have fresh : own.known? name = none := by
      rw [LoadingContext.known_eq_none]
      refine ⟨ready, ?_⟩
      cases found : own.defined.lookup name with
      | none => rfl
      | some type => exact absurd (.top inside found) (reserved type)
    have above := settled.of_older (Nat.ne_of_lt (lt_of_mem_lineage inside))
    have answered := ih above parentOpen fun type kept => reserved type (.older _ kept)
    exact .inherited fresh (by rintro ⟨⟩) answered
  · intro scope older id target below inside ih settled isOpen reserved
    have above := settled.of_older (Nat.ne_of_lt (lt_of_mem_lineage inside))
    exact .older scope below (ih above (isOpen.older below) fun type kept =>
      reserved type (.older scope kept))

/-! ### What is kept, step by step -/

theorem lineage_of_resolve {answer : Except LoadError TypeHandle}
    (asked : resolve files scopes id name = (answer, after)) (other : ScopeId) :
    lineage after other = lineage scopes other := by
  unfold lineage
  rw [blueprint_of_resolve asked]

/-- What is kept below a scope after a lookup of a name was kept before, or is of that name, which
the scope has just refused. -/
def Adds (name : String) (scopes after : List Scope) : Prop :=
  ∀ {target key handle}, KeptBelow target key handle after →
    KeptBelow target key handle scopes ∨
      key = name ∧ Settled after target name (.error (.typeNotFound name))

theorem Adds.cons {scope now : Scope} (adds : Adds name older after)
    (top : ∀ {target key handle parent context}, now = .context parent context →
      target ∈ lineage after parent → context.defined.lookup key = some handle →
        KeptBelow target key handle (scope :: older) ∨
          key = name ∧ Settled after target name (.error (.typeNotFound name))) :
    Adds name (scope :: older) (now :: after) := by
  intro target key handle kept
  have below : target ≠ after.length := by
    cases kept with
    | top inside _ => exact Nat.ne_of_lt (lt_of_mem_lineage inside)
    | older _ kept => exact Nat.ne_of_lt kept.there
  cases kept with
  | top inside found =>
    exact (top rfl inside found).imp id fun ⟨same, missing⟩ => ⟨same, .older _ below missing⟩
  | older _ kept =>
    exact (adds kept).imp (.older scope) fun ⟨same, missing⟩ => ⟨same, .older now below missing⟩

theorem Adds.keep {scope : Scope} (adds : Adds name older after)
    (same : ∀ parent, lineage after parent = lineage older parent) :
    Adds name (scope :: older) (scope :: after) := by
  refine adds.cons ?_
  rintro target key handle parent context rfl inside found
  exact .inl (.top (same parent ▸ inside) found)

theorem resolve_adds (files : FileSystem) (scopes : List Scope) (id : ScopeId) (name : String) :
    Adds name scopes (resolve files scopes id name).2 := by
  apply resolve_induction (P := fun scopes _ _ after => Adds name scopes after)
  · exact fun _ => .inl
  · exact fun scope _ _ _ _ _ asked ih => ih.keep (lineage_of_resolve asked)
  · exact fun _ _ => .inl
  · exact fun _ _ _ _ _ => .inl
  · exact fun _ _ _ _ _ _ asked _ ih => ih.keep (lineage_of_resolve asked)
  · intro parent own older after fresh asked ih
    refine ih.cons ?_
    rintro target key handle _ _ ⟨⟩ inside found
    have before : target ∈ lineage older parent := lineage_of_resolve asked parent ▸ inside
    cases answering : (own.define files older.length name).1 with
    | error e =>
      rw [(LoadingContext.define_error answering).1] at found
      exact .inl (.top before found)
    | ok new =>
      rw [(LoadingContext.define_ok answering).2.2.2.1, List.lookup_cons] at found
      split at found
      · -- the new entry: the parent was asked first, and what it refuses all above it refuse
        rename_i same
        have final : Definitive (.error (.typeNotFound name)) := by
          rintro e ⟨⟩
          rfl
        have missing : Definitive (resolve files older parent name).1 → _ := resolve_settles
        rw [asked] at missing
        exact .inr ⟨eq_of_beq same, (missing final).missing_above rfl inside⟩
      · exact .inl (.top before found)

theorem lookup_of_close {own : LoadingContext}
    (found : own.close.defined.lookup name = some handle) :
    own.defined.lookup name = some handle := by
  unfold LoadingContext.close at found
  cases state : own.state with
  | closed => rwa [state] at found
  | ready => rw [state] at found; cases found

theorem KeptBelow.of_close {closing : ScopeId}
    (kept : KeptBelow target name handle (modify LoadingContext.close scopes closing)) :
    KeptBelow target name handle scopes := by
  induction scopes with
  | nil => exact kept
  | cons scope older ih =>
    by_cases here : closing = older.length
    · subst here
      rw [modify_top] at kept
      cases scope with
      | host types =>
        cases kept with
        | older _ kept => exact .older _ kept
      | context parent own =>
        cases kept with
        | top inside found => exact .top inside (lookup_of_close found)
        | older _ kept => exact .older _ kept
    · rw [modify_older scope here] at kept
      cases kept with
      | top inside found =>
        unfold lineage at inside
        rw [modify_blueprint] at inside
        exact .top inside found
      | older _ kept => exact .older _ (ih kept)

theorem KeptBelow.of_fresh {scope : Scope} (fresh : scope.Fresh)
    (kept : KeptBelow target name handle (scope :: older)) :
    KeptBelow target name handle older := by
  cases kept with
  | top _ found => cases fresh; cases found
  | older _ kept => exact kept

end Scope

namespace World
variable {w after : World} {files : FileSystem} {id target : ScopeId} {name : String}
  {handle : TypeHandle}

/-! ### Parents first -/

/-- What is kept below a scope, the scope has refused. -/
def ParentsFirst (w : World) : Prop :=
  ∀ target name handle, Scope.KeptBelow target name handle w.scopes →
    ∃ e, w.Settled target name (.error e)

/-- The scope lacks the name, or a context it would have to ask is closed. -/
def Lacking (w : World) (id : ScopeId) (name : String) : Prop :=
  ∃ e, w.Settled id name (.error e) ∧ (e = .typeNotFound name ∨ ∃ label, e = .contextClosed label)

theorem Lacking.close (lacking : w.Lacking id name) (closing : ScopeId) :
    (w.close closing).Lacking id name := by
  obtain ⟨e, settled, reason⟩ := lacking
  by_cases inside : closing ∈ w.chain id
  · obtain ⟨now, closed, fades⟩ := settled.perform_close inside
    rcases fades with ⟨_, same, _⟩ | ⟨label, rfl⟩
    · cases same
    · exact ⟨_, closed, .inr ⟨label, rfl⟩⟩
  · exact ⟨e, Scope.Settled.close_outside settled inside, reason⟩

/-- An open scope that is lacking a name reports the type as missing. -/
theorem Lacking.missing (lacking : w.Lacking id name) (isOpen : w.Open id) :
    w.Settled id name (.error (.typeNotFound name)) := by
  obtain ⟨e, settled, rfl | ⟨label, rfl⟩⟩ := lacking
  · exact settled
  · have asked := congrArg Prod.fst (Scope.Settled.resolve settled w.files)
    exact absurd asked (Scope.resolve_open w.scopes id name isOpen label)

/-- What is kept below a scope, the scope is lacking. -/
theorem lacking_run (files : FileSystem) (events : List Event) :
    ∀ target name handle, Scope.KeptBelow target name handle ((start files).run events).scopes →
      ((start files).run events).Lacking target name := by
  apply run_invariant (P := fun w => ∀ target name handle,
    Scope.KeptBelow target name handle w.scopes → w.Lacking target name)
  · intro target name handle kept
    cases kept
  · intro w scope fresh first target name handle kept
    have before := kept.of_fresh fresh
    obtain ⟨e, refused, reason⟩ := first target name handle before
    exact ⟨e, .older scope (Nat.ne_of_lt before.there) refused, reason⟩
  · intro w asker asked first target name handle kept
    rcases Scope.resolve_adds w.files w.scopes asker asked kept with before | ⟨rfl, missing⟩
    · obtain ⟨e, refused, reason⟩ := first target name handle before
      exact ⟨e, refused.lookups (resolve_lookups rfl), reason⟩
    · exact ⟨_, missing, .inl rfl⟩
  · intro w closing _ first target name handle kept
    exact (first target name handle kept.of_close).close closing
  · exact fun _ _ _ first => first

theorem parentsFirst_run (files : FileSystem) (events : List Event) :
    ((start files).run events).ParentsFirst := by
  intro target name handle kept
  obtain ⟨e, refused, _⟩ := lacking_run files events target name handle kept
  exact ⟨e, refused⟩

/-! ### Answers that are upheld -/

/-- A scope has answered a name with a handle: it still does, or a closed context is reported, and
nothing is kept under the name below it. -/
structure Upheld (w : World) (target : ScopeId) (name : String) (handle : TypeHandle) : Prop where
  there : target < w.scopes.length
  answer : ∃ now, w.Settled target name now ∧ Scope.Fades (.ok handle) now
  reserved : ∀ type, ¬ Scope.KeptBelow target name type w.scopes

namespace Upheld

theorem of_settled (settled : w.Settled target name (.ok handle)) (first : w.ParentsFirst) :
    w.Upheld target name handle where
  there := Scope.Settled.there settled
  answer := ⟨_, settled, .inl ⟨handle, rfl, rfl⟩⟩
  reserved := by
    intro type kept
    obtain ⟨e, refused⟩ := first target name type kept
    cases Scope.Settled.unique settled refused

theorem answer_perform (upheld : w.Upheld target name handle) (e : Event) :
    ∃ now, (w.perform e).Settled target name now ∧ Scope.Fades (.ok handle) now := by
  obtain ⟨now, settled, fades⟩ := upheld.answer
  obtain ⟨later, after, relation⟩ := settled.run_fades upheld.there [e]
  exact ⟨later, after, fades_trans fades relation⟩

theorem lookup (upheld : w.Upheld target name handle) (asker : ScopeId) (asked : String) :
    (w.resolve asker asked).2.Upheld target name handle := by
  have answer : ∃ now, (w.resolve asker asked).2.Settled target name now ∧
      Scope.Fades (.ok handle) now := upheld.answer_perform (.resolve asker asked)
  refine ⟨Nat.lt_of_lt_of_le upheld.there (length_perform w (.resolve asker asked)), answer, ?_⟩
  intro type kept
  rcases Scope.resolve_adds w.files w.scopes asker asked kept with before | ⟨rfl, missing⟩
  · exact upheld.reserved type before
  · -- a name that still has its answer was not just refused
    obtain ⟨now, settled, ⟨_, _, rfl⟩ | ⟨_, rfl⟩⟩ := answer <;>
      cases Scope.Settled.unique settled missing

theorem perform (upheld : w.Upheld target name handle) (e : Event) :
    (w.perform e).Upheld target name handle := by
  refine ⟨Nat.lt_of_lt_of_le upheld.there (length_perform w e), upheld.answer_perform e, ?_⟩
  generalize happens : w.perform e = after
  cases perform_change happens with
  | add _ fresh => exact fun type kept => upheld.reserved type (kept.of_fresh fresh)
  | lookups _ lookups =>
    have kept := lookups.keep (P := fun later => later.Upheld target name handle)
      (fun _ asked upheld => upheld.lookup _ asked) upheld
    exact kept.reserved
  | close closing => exact fun type kept => upheld.reserved type kept.of_close
  | change files => exact upheld.reserved

theorem run (upheld : w.Upheld target name handle) (events : List Event) :
    (w.run events).Upheld target name handle :=
  run_keep (P := fun w => w.Upheld target name handle) (fun _ e _ upheld => upheld.perform e) upheld

theorem eq_of_settled (upheld : w.Upheld target name handle) (inside : target ∈ w.lineage id)
    {other : TypeHandle} (settled : w.Settled id name (.ok other)) : other = handle := by
  rcases Scope.Settled.above settled inside with above | kept
  · obtain ⟨now, stands, ⟨type, same, rfl⟩ | ⟨label, rfl⟩⟩ := upheld.answer
    · cases same
      exact Except.ok.inj (Scope.Settled.unique above stands)
    · cases Scope.Settled.unique above stands
  · exact absurd kept (upheld.reserved other)

theorem settled_open (upheld : w.Upheld target name handle) (inside : target ∈ w.lineage id)
    (isOpen : w.Open id) : w.Settled id name (.ok handle) := by
  obtain ⟨now, stands, ⟨type, same, rfl⟩ | ⟨label, rfl⟩⟩ := upheld.answer
  · cases same
    exact Scope.Settled.descend stands inside isOpen upheld.reserved
  · have asked := Scope.Settled.resolve stands w.files
    refine absurd (congrArg Prod.fst asked) (Scope.resolve_open w.scopes target name ?_ label)
    exact isOpen.inherited inside

end Upheld

/-! ### Answers of ancestors -/

/-- In the run a lookup of the name in the scope gave the handle. -/
def Answered (files : FileSystem) (events : List Event) (id : ScopeId) (name : String)
    (handle : TypeHandle) : Prop :=
  ∃ before rest, events = before ++ .resolve id name :: rest ∧
    (((start files).run before).resolve id name).1 = .ok handle

/-- In the run the scope said what a type extends. -/
def SupertypeAnswered (files : FileSystem) (events : List Event) (id : ScopeId)
    (type : TypeHandle) (supertype : Option TypeHandle) : Prop :=
  ∃ before rest, events = before ++ .directSupertype id type :: rest ∧
    (((start files).run before).directSupertype id type).1 = .ok supertype

theorem parentsFirst_perform (files : FileSystem) (events : List Event) (e : Event) :
    (((start files).run events).perform e).ParentsFirst := by
  have whole := parentsFirst_run files (events ++ [e])
  rwa [run_append] at whole

theorem Answered.upheld {events : List Event}
    (answered : Answered files events target name handle) :
    ((start files).run events).Upheld target name handle := by
  obtain ⟨before, rest, rfl, given⟩ := answered
  have settled := resolve_ok_settles (Prod.ext given rfl)
  have first := parentsFirst_perform files before (.resolve target name)
  rw [run_append]
  exact (Upheld.of_settled settled first).run rest

theorem Upheld.eq_of_resolve (upheld : w.Upheld target name handle) (inside : target ∈ w.lineage id)
    {other : TypeHandle} (given : (w.resolve id name).1 = .ok other) : other = handle := by
  have settled := resolve_ok_settles (Prod.ext given rfl)
  refine (upheld.lookup id name).eq_of_settled ?_ settled
  rwa [lineage_resolve]

/-- If a scope gave a handle first, one above it that answers the name later gives the same. -/
theorem Settled.eq_of_resolve_above (settled : w.Settled id name (.ok handle))
    (first : w.ParentsFirst) (inside : target ∈ w.lineage id) (events : List Event)
    {other : TypeHandle} (given : ((w.run events).resolve target name).1 = .ok other) :
    handle = other := by
  have there := Scope.lt_of_mem_lineage inside
  have answer : ∃ now, w.Settled target name now ∧
      (now = .ok handle ∨ ∃ e, now = .error e) := by
    rcases Scope.Settled.above settled inside with above | kept
    · exact ⟨_, above, .inl rfl⟩
    · obtain ⟨e, refused⟩ := first target name handle kept
      exact ⟨_, refused, .inr ⟨e, rfl⟩⟩
  obtain ⟨now, early, shape⟩ := answer
  obtain ⟨later, stands, relation⟩ := early.run_fades there events
  rw [stands.resolve] at given
  subst given
  rcases shape with rfl | ⟨e, rfl⟩
  · rcases relation with same | ⟨type, same, same'⟩ | ⟨_, same⟩
    · exact Except.ok.inj same
    · exact (Except.ok.inj same).trans (Except.ok.inj same').symm
    · cases same
  · rcases relation with same | ⟨_, same, _⟩ | ⟨_, same⟩ <;> cases same

theorem lineage_split {before rest : List Event} {e : Event}
    (there : id < ((start files).run before).scopes.length)
    (inside : target ∈ ((start files).run (before ++ e :: rest)).lineage id) :
    target ∈ ((start files).run before).lineage id := by
  rwa [run_append, lineage_run there] at inside

/-- Whichever of the two was asked first, a scope and one above it give one handle for a name. -/
theorem Answered.unique {events : List Event} {other : TypeHandle}
    (inside : target ∈ ((start files).run events).lineage id)
    (answered : Answered files events target name handle)
    (also : Answered files events id name other) : other = handle := by
  obtain ⟨before, rest, rfl, given⟩ := answered
  obtain ⟨before', rest', split, givenBelow⟩ := also
  have within : target ∈ ((start files).run before').lineage id := by
    rw [split] at inside
    exact lineage_split (there_of_resolve givenBelow) inside
  rcases List.append_eq_append_iff.mp split with ⟨between, rfl, tail⟩ | ⟨between, rfl, tail⟩
  · cases between with
    | nil =>
      cases tail
      rw [List.append_nil, given] at givenBelow
      exact (Except.ok.inj givenBelow).symm
    | cons e between =>
      cases tail
      have earlier : Answered files (before ++ .resolve target name :: between) target name
          handle := ⟨before, between, rfl, given⟩
      exact earlier.upheld.eq_of_resolve within givenBelow
  · cases between with
    | nil =>
      cases tail
      rw [List.append_nil, givenBelow] at given
      exact Except.ok.inj given
    | cons e between =>
      cases tail
      have settled := resolve_ok_settles (Prod.ext givenBelow rfl)
      have first := parentsFirst_perform files before' (.resolve id name)
      rw [run_append] at given
      refine settled.eq_of_resolve_above first ?_ between given
      rwa [lineage_resolve]

theorem SupertypeAnswered.declares {events : List Event} {type : TypeHandle}
    {supertype : Option TypeHandle} (inside : target ∈ ((start files).run events).lineage id)
    (answered : SupertypeAnswered files events target type supertype)
    (isOpen : ((start files).run events).Open id) :
    ((start files).run events).Extends id type supertype := by
  obtain ⟨before, rest, rfl, given⟩ := answered
  cases directSupertype_ok (Prod.ext given rfl) with
  | root declared => exact .root declared
  | type declared settled =>
    have first := parentsFirst_perform files before (.directSupertype target type)
    rw [run_append] at inside isOpen ⊢
    have upheld := (Upheld.of_settled settled first).run rest
    exact .type declared (upheld.settled_open inside isOpen)

/-- A scope and those it inherits from never disagree on a name. In any run, whatever is closed in
it and happens to the files: once an ancestor has given a handle for a name, the scope never gave
and never gives another one for it, and gives that one as long as it and its ancestors are ready.
Likewise, once an ancestor has said what a type extends, the scope says the same of the type, if
that is its own or an ancestor's. -/
theorem ancestor_answer_binding (files : FileSystem) (events : List Event) (id ancestor : ScopeId)
    (above : ancestor ∈ ((start files).run events).lineage id) :
    let w := (start files).run events
    (∀ name handle, Answered files events ancestor name handle →
      (∀ other, Answered files events id name other → other = handle) ∧
      (w.Open id → (w.resolve id name).1 = .ok handle)) ∧
    ∀ type supertype, SupertypeAnswered files events ancestor type supertype →
      type.owner ∈ w.lineage id → w.Open id → (w.directSupertype id type).1 = .ok supertype := by
  intro w
  constructor
  · intro name handle answered
    refine ⟨fun other also => answered.unique above also, fun isOpen => ?_⟩
    have settled := answered.upheld.settled_open above isOpen
    rw [settled.resolve]
  · intro type supertype answered owned isOpen
    have valid : w.isValid type = true := isOpen.isValid (numbered_run files events) owned
    rw [(answered.declares above isOpen).directSupertype valid]

/-- The parent's type is the child's type still when the archive of both is gone. -/
theorem inherited_type_outlives_archive :
    let before := (start filesOfA).run [.addHost [("O", none, ⟨0x21⟩)],
      .addContext 0 "parent" [⟨"/a.jar"⟩] .abort, .addContext 1 "child" [⟨"/a.jar"⟩] .skip]
    let w := (before.resolve 1 "A").2.run [.change ⟨[], []⟩]
    ∃ handle, (before.resolve 1 "A").1 = .ok handle ∧ (w.resolve 2 "A").1 = .ok handle := by
  intro before w
  let events : List Event := [.addHost [("O", none, ⟨0x21⟩)],
    .addContext 0 "parent" [⟨"/a.jar"⟩] .abort, .addContext 1 "child" [⟨"/a.jar"⟩] .skip]
  have calm : before.Undisturbed filesOfA 1 :=
    undisturbed_run filesOfA events 1 (by simp [events]) (by simp [events])
  obtain ⟨handle, given⟩ := (calm.lookup_ok_iff "A").mp ⟨_, lookup_filesOfA⟩
  refine ⟨handle, given, ?_⟩
  have answered : Answered filesOfA (events ++ [.resolve 1 "A", .change ⟨[], []⟩]) 1 "A" handle :=
    ⟨events, [.change ⟨[], []⟩], rfl, given⟩
  have above : 1 ∈ ((start filesOfA).run
      (events ++ [.resolve 1 "A", .change ⟨[], []⟩])).lineage 2 := by
    rw [run_append, lineage_run (Nat.lt_succ_self 2)]
    decide
  refine ((ancestor_answer_binding filesOfA _ 2 1 above).1 "A" handle answered).2 ?_
  intro target _ parent own at_target
  exact ready_run filesOfA _ (by simp [events]) at_target

end World
end PluginLoader
