import Mathlib.Data.List.Forall2
import PluginLoader.Context

/-! How a search through archives depends on the file system. A slot that is not unopened never
changes again, so an answer that was decided by such slots alone is pinned: no file matters to
it. -/
namespace PluginLoader

/-- The failure to read an archive, the one kind of error that a later lookup may not repeat. -/
def LoadError.isArchiveRead : LoadError → Bool
  | .archiveRead _ _ => true
  | _ => false

/-- The failure of an entry to define the type that its path promises. -/
def LoadError.isBadDefinition : LoadError → Bool
  | .malformed .. => true
  | .misnamed .. => true
  | _ => false

/-- What a later state of a slot may be: only an unopened slot changes. -/
def Slot.Grows (before after : Slot) : Prop := after = before ∨ before = .unopened

/-- What becomes of a slot that a search reaches. -/
inductive Slot.Reached (files : FileSystem) (policy : ArchivePolicy) (source : PluginSource) :
    Slot → Slot → Prop where
  | kept {slot : Slot} : slot ≠ .unopened → Reached files policy source slot slot
  | opened {archive : Archive} : source.archive files = .ok archive →
      Reached files policy source .unopened (.opened archive)
  | unreadable {e : LoadError} : policy = .skip → source.archive files = .error e →
      Reached files policy source .unopened .unreadable

theorem Archive.open_location {files : FileSystem} {location : String} {archive : Archive}
    (opened : Archive.open? files location = .ok archive) : archive.location = location := by
  unfold Archive.open? at opened
  split at opened
  · cases opened
  · split at opened
    · cases opened
      rfl
    · cases opened

theorem Archive.open_fault {files : FileSystem} {location : String} {e : LoadError}
    (failed : Archive.open? files location = .error e) :
    ∃ fault, e = .archiveRead location fault := by
  unfold Archive.open? at failed
  split at failed
  · cases failed
    exact ⟨_, rfl⟩
  · split at failed
    · cases failed
    · cases failed
      exact ⟨_, rfl⟩

theorem Archive.open_error {files : FileSystem} {location : String} {e : LoadError}
    (failed : Archive.open? files location = .error e) : e.isArchiveRead = true := by
  obtain ⟨fault, rfl⟩ := Archive.open_fault failed
  rfl

theorem Archive.readEntry_error {archive : Archive} {path : String} {e : LoadError}
    (failed : archive.readEntry path = .error e) : e.isArchiveRead = true := by
  unfold Archive.readEntry at failed
  split at failed
  · contradiction
  · cases failed; rfl

theorem describe_ok {location entry expected : String} {content : ByteArray}
    {descriptor : TypeDescriptor}
    (found : describe location entry expected content = .ok descriptor) :
    descriptor.name = expected := by
  unfold describe at found
  split at found
  · contradiction
  · split at found
    · rename_i named
      cases found
      exact named
    · contradiction

theorem describe_error {location entry expected : String} {content : ByteArray} {e : LoadError}
    (failed : describe location entry expected content = .error e) :
    e.isBadDefinition = true := by
  unfold describe at failed
  split at failed
  · cases failed; rfl
  · split at failed
    · contradiction
    · cases failed; rfl

namespace LoadingContext

/-- What a slot that was reached says of a name: the answer of the search, or nothing if the search
goes on. -/
def verdict (policy : ArchivePolicy) (name : String) (source : PluginSource) :
    Slot → Option (Except LoadError TypeDescriptor)
  | .opened archive =>
    match archive.readEntry (TypeName.entryPath name) with
    | .ok (some content) =>
      some (describe source.location (TypeName.entryPath name) name content)
    | .ok none => none
    | .error e =>
      match policy with
      | .abort => some (.error e)
      | .skip => none
  | _ => none

theorem search_nil (files : FileSystem) (policy : ArchivePolicy) (name : String)
    (slots : List Slot) : search files policy name [] slots = (.ok none, slots) := by
  simp [search]

theorem search_nil_slots (files : FileSystem) (policy : ArchivePolicy) (name : String)
    (sources : List PluginSource) : search files policy name sources [] = (.ok none, []) := by
  cases sources <;> simp [search]

theorem search_cons (files : FileSystem) (policy : ArchivePolicy) (name : String)
    (source : PluginSource) (sources : List PluginSource) (slot : Slot) (slots : List Slot) :
    search files policy name (source :: sources) (slot :: slots) =
      match reach files policy source slot with
      | .error e => (.error e, slot :: slots)
      | .ok reached =>
        match verdict policy name source reached with
        | some found => (found.map some, reached :: slots)
        | none =>
          ((search files policy name sources slots).1,
            reached :: (search files policy name sources slots).2) := by
  rw [search]
  cases reach files policy source slot with
  | error e => rfl
  | ok reached =>
    cases reached with
    | unopened => rfl
    | unreadable => rfl
    | opened archive =>
      simp only [verdict]
      cases archive.readEntry (TypeName.entryPath name) with
      | error e => cases policy <;> rfl
      | ok content => cases content <;> rfl

theorem reach_of_ne {files : FileSystem} {policy : ArchivePolicy} {source : PluginSource}
    {slot : Slot} (touched : slot ≠ .unopened) : reach files policy source slot = .ok slot := by
  cases slot with
  | unopened => exact absurd rfl touched
  | opened archive => rfl
  | unreadable => rfl

theorem reach_ok_iff {files : FileSystem} {policy : ArchivePolicy} {source : PluginSource}
    {slot now : Slot} :
    reach files policy source slot = .ok now ↔ slot.Reached files policy source now := by
  constructor
  · intro ok
    by_cases fresh : slot = .unopened
    · subst fresh
      unfold reach at ok
      cases opening : source.archive files with
      | ok archive =>
        rw [opening] at ok
        cases ok
        exact .opened opening
      | error e =>
        rw [opening] at ok
        cases policy with
        | abort => cases ok
        | skip =>
          cases ok
          exact .unreadable rfl opening
    · rw [reach_of_ne fresh] at ok
      cases ok
      exact .kept fresh
  · rintro (touched | opening | ⟨skips, failing⟩)
    · exact reach_of_ne touched
    · rw [reach, opening]
    · rw [reach, failing, skips]
      rfl

theorem reach_error {files : FileSystem} {policy : ArchivePolicy} {source : PluginSource}
    {slot : Slot} {e : LoadError} (failed : reach files policy source slot = .error e) :
    slot = .unopened ∧ policy = .abort ∧ source.archive files = .error e := by
  cases slot with
  | opened archive => cases failed
  | unreadable => cases failed
  | unopened =>
    unfold reach at failed
    cases opening : source.archive files with
    | ok archive => rw [opening] at failed; cases failed
    | error fault =>
      rw [opening] at failed
      cases policy with
      | skip => cases failed
      | abort =>
        cases failed
        exact ⟨rfl, rfl, rfl⟩

theorem reach_ne_unopened {files : FileSystem} {policy : ArchivePolicy} {source : PluginSource}
    {slot reached : Slot} (ok : reach files policy source slot = .ok reached) :
    reached ≠ .unopened := by
  cases reach_ok_iff.mp ok with
  | kept touched => exact touched
  | opened => exact Slot.noConfusion
  | unreadable => exact Slot.noConfusion

theorem reach_grows {files : FileSystem} {policy : ArchivePolicy} {source : PluginSource}
    {slot reached : Slot} (ok : reach files policy source slot = .ok reached) :
    slot.Grows reached := by
  cases reach_ok_iff.mp ok with
  | kept => exact .inl rfl
  | opened => exact .inr rfl
  | unreadable => exact .inr rfl

section
variable {files : FileSystem} {policy : ArchivePolicy} {name : String}

/-- The four ways a search goes on or ends: nothing left, an archive that may not be passed over, a
decision, or the next source. -/
theorem search_induction
    {P : List PluginSource → List Slot → Except LoadError (Option TypeDescriptor) → List Slot →
      Prop}
    (exhausted : ∀ sources slots, sources = [] ∨ slots = [] → P sources slots (.ok none) slots)
    (unopenable : ∀ source sources slot slots e,
      reach files policy source slot = .error e →
        P (source :: sources) (slot :: slots) (.error e) (slot :: slots))
    (decided : ∀ source sources slot slots reached found,
      reach files policy source slot = .ok reached →
      verdict policy name source reached = some found →
        P (source :: sources) (slot :: slots) (found.map some) (reached :: slots))
    (passed : ∀ source sources slot slots reached answer after,
      reach files policy source slot = .ok reached →
      verdict policy name source reached = none →
      P sources slots answer after →
        P (source :: sources) (slot :: slots) answer (reached :: after))
    (sources : List PluginSource) (slots : List Slot) :
    P sources slots (search files policy name sources slots).1
      (search files policy name sources slots).2 := by
  induction sources generalizing slots with
  | nil =>
    rw [search_nil]
    exact exhausted [] slots (.inl rfl)
  | cons source sources ih =>
    cases slots with
    | nil =>
      rw [search_nil_slots]
      exact exhausted _ [] (.inr rfl)
    | cons slot slots =>
      rw [search_cons]
      cases reaching : reach files policy source slot with
      | error e => exact unopenable source sources slot slots e reaching
      | ok reached =>
        dsimp only
        cases deciding : verdict policy name source reached with
        | some found => exact decided source sources slot slots reached found reaching deciding
        | none => exact passed source sources slot slots reached _ _ reaching deciding (ih slots)

theorem search_grows (sources : List PluginSource) (slots : List Slot) :
    List.Forall₂ Slot.Grows slots (search files policy name sources slots).2 := by
  have same : ∀ slots : List Slot, List.Forall₂ Slot.Grows slots slots :=
    fun slots => List.forall₂_same.mpr fun slot _ => .inl rfl
  apply search_induction (P := fun _ slots _ after => List.Forall₂ Slot.Grows slots after)
  · exact fun _ slots _ => same slots
  · exact fun _ _ slot slots _ _ => same (slot :: slots)
  · exact fun _ _ _ slots _ _ reaching _ => .cons (reach_grows reaching) (same slots)
  · exact fun _ _ _ _ _ _ _ reaching _ ih => .cons (reach_grows reaching) ih

/-- Only an open archive decides: by the definition in its entry, or by failing to read it. -/
theorem verdict_cases {source : PluginSource} {slot : Slot}
    {found : Except LoadError TypeDescriptor}
    (decided : verdict policy name source slot = some found) :
    ∃ archive, slot = .opened archive ∧
      ((∃ content, archive.readEntry (TypeName.entryPath name) = .ok (some content) ∧
          found = describe source.location (TypeName.entryPath name) name content) ∨
        ∃ e, archive.readEntry (TypeName.entryPath name) = .error e ∧ policy = .abort ∧
          found = .error e) := by
  cases slot with
  | unopened => cases decided
  | unreadable => cases decided
  | opened archive =>
    refine ⟨archive, rfl, ?_⟩
    simp only [verdict] at decided
    cases reading : archive.readEntry (TypeName.entryPath name) with
    | error e =>
      rw [reading] at decided
      cases policy with
      | skip => cases decided
      | abort =>
        cases decided
        exact .inr ⟨e, rfl, rfl, rfl⟩
    | ok content =>
      rw [reading] at decided
      cases content with
      | none => cases decided
      | some content =>
        cases decided
        exact .inl ⟨content, rfl, rfl⟩

theorem verdict_error {source : PluginSource} {slot : Slot} {e : LoadError}
    (failed : verdict policy name source slot = some (.error e)) :
    (e.isArchiveRead = true ∧ policy = .abort) ∨ e.isBadDefinition = true := by
  obtain ⟨archive, _, ⟨content, _, described⟩ | ⟨fault, unreadable, aborts, same⟩⟩ :=
    verdict_cases failed
  · exact .inr (describe_error described.symm)
  · cases same
    exact .inl ⟨Archive.readEntry_error unreadable, aborts⟩

theorem verdict_ok {source : PluginSource} {slot : Slot} {descriptor : TypeDescriptor}
    (found : verdict policy name source slot = some (.ok descriptor)) : descriptor.name = name := by
  obtain ⟨archive, _, ⟨content, _, described⟩ | ⟨_, _, _, same⟩⟩ := verdict_cases found
  · exact describe_ok described.symm
  · cases same

/-- A search fails by an archive that may not be passed over or by a definition in one, never by a
missing type. -/
theorem search_error {sources : List PluginSource} {slots : List Slot} {e : LoadError}
    (failed : (search files policy name sources slots).1 = .error e) :
    (e.isArchiveRead = true ∧ policy = .abort) ∨ e.isBadDefinition = true := by
  revert failed
  apply search_induction (P := fun _ _ answer _ =>
    answer = .error e → (e.isArchiveRead = true ∧ policy = .abort) ∨ e.isBadDefinition = true)
  · intro _ _ _ failed; cases failed
  · intro source _ slot _ fault reaching failed
    cases failed
    obtain ⟨_, aborts, failing⟩ := reach_error reaching
    exact .inl ⟨Archive.open_error failing, aborts⟩
  · intro source _ _ _ reached found _ deciding failed
    cases found with
    | ok descriptor => cases failed
    | error fault =>
      cases failed
      exact verdict_error deciding
  · exact fun _ _ _ _ _ _ _ _ _ ih => ih

theorem search_named {sources : List PluginSource} {slots : List Slot}
    {descriptor : TypeDescriptor}
    (found : (search files policy name sources slots).1 = .ok (some descriptor)) :
    descriptor.name = name := by
  revert found
  apply search_induction (P := fun _ _ answer _ =>
    answer = .ok (some descriptor) → descriptor.name = name)
  · intro _ _ _ found; cases found
  · intro _ _ _ _ _ _ found; cases found
  · intro _ _ _ _ _ verdict _ deciding found
    cases verdict with
    | error fault => cases found
    | ok descriptor =>
      cases found
      exact verdict_ok deciding
  · exact fun _ _ _ _ _ _ _ _ _ ih => ih

/-- An answer that no file has a say in: all slots up to the one that decides have been reached. -/
def Pinned (policy : ArchivePolicy) (name : String) :
    List PluginSource → List Slot → Except LoadError (Option TypeDescriptor) → Prop
  | source :: sources, slot :: slots, answer =>
    slot ≠ .unopened ∧
      match verdict policy name source slot with
      | some found => answer = found.map some
      | none => Pinned policy name sources slots answer
  | _, _, answer => answer = .ok none

theorem search_pinned {sources : List PluginSource} {slots : List Slot}
    (final : ∀ e, (search files policy name sources slots).1 = .error e →
      e.isArchiveRead = false) :
    Pinned policy name sources (search files policy name sources slots).2
      (search files policy name sources slots).1 := by
  revert final
  apply search_induction (P := fun sources _ answer after =>
    (∀ e, answer = .error e → e.isArchiveRead = false) →
      Pinned policy name sources after answer)
  · intro sources slots ended _
    rcases ended with rfl | rfl
    · rfl
    · cases sources <;> rfl
  · intro _ _ _ _ e reaching final
    have read := Archive.open_error (reach_error reaching).2.2
    rw [final e rfl] at read
    cases read
  · intro _ _ _ _ _ _ reaching deciding _
    refine ⟨reach_ne_unopened reaching, ?_⟩
    rw [deciding]
  · intro _ _ _ _ _ _ _ reaching deciding ih final
    refine ⟨reach_ne_unopened reaching, ?_⟩
    rw [deciding]
    exact ih final

theorem Pinned.grow {sources : List PluginSource} {slots after : List Slot}
    {answer : Except LoadError (Option TypeDescriptor)}
    (pinned : Pinned policy name sources slots answer)
    (grows : List.Forall₂ Slot.Grows slots after) : Pinned policy name sources after answer := by
  induction sources generalizing slots after with
  | nil => exact pinned
  | cons source sources ih =>
    cases grows with
    | nil => exact pinned
    | cons head tail =>
      obtain ⟨touched, decision⟩ := pinned
      rcases head with rfl | fresh
      · refine ⟨touched, ?_⟩
        split
        · rename_i found deciding
          rw [deciding] at decision
          exact decision
        · rename_i deciding
          rw [deciding] at decision
          exact ih decision tail
      · exact absurd fresh touched

theorem Pinned.search {sources : List PluginSource} {slots : List Slot}
    {answer : Except LoadError (Option TypeDescriptor)}
    (pinned : Pinned policy name sources slots answer) (files : FileSystem) :
    search files policy name sources slots = (answer, slots) := by
  induction sources generalizing slots with
  | nil => rw [search_nil, show answer = .ok none from pinned]
  | cons source sources ih =>
    cases slots with
    | nil => rw [show answer = .ok none from pinned, search_nil_slots]
    | cons slot slots =>
      obtain ⟨touched, decision⟩ := pinned
      rw [search_cons, reach_of_ne touched]
      dsimp only
      split
      · rename_i found deciding
        rw [deciding] at decision
        rw [show answer = found.map some from decision]
      · rename_i deciding
        rw [deciding] at decision
        rw [ih decision]

end

end LoadingContext
end PluginLoader
