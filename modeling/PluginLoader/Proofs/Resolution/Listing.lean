import Mathlib.Data.List.Forall2
import PluginLoader.Proofs.Resolution.Finality

/-! What a query for subtypes goes through. It relates each listed name to the type it leads to and
to the type that one extends, in the order of the listings; which of them it picks has no part in
how it goes on. -/
namespace PluginLoader

/-- All that going through a source can give: names, and at most one failure at the end. An archive
that does not open gives its failure alone. -/
def PluginSource.listing (source : PluginSource) (files : FileSystem) :
    List (Except LoadError String) :=
  match source.archive files with
  | .ok archive => archive.items
  | .error e => [.error e]

/-- The names of a listing before its first failure. -/
def listedNames : List (Except LoadError String) → List String
  | .ok name :: rest => name :: listedNames rest
  | _ => []

/-- The names that sources list, in the order of sources and of entries. -/
def namesIn (files : FileSystem) (sources : List PluginSource) : List String :=
  sources.flatMap fun source => listedNames (source.listing files)

theorem listing_filesOfA : PluginSource.listing ⟨"/a.jar"⟩ filesOfA = [.ok "A"] := by
  rw [PluginSource.listing, open_archiveOfA]
  decide +kernel

namespace World
variable {w after : World} {id : ScopeId} {policy : ArchivePolicy} {base : TypeHandle}
  {source : PluginSource}

theorem subtypesIn_cons (source : PluginSource) (sources : List PluginSource)
    (found : List TypeHandle) (w : World) :
    subtypesIn id policy base (source :: sources) found w =
      match subtypesAmong id policy base source (source.listing w.files) found w with
      | (.error e, after) => (.error e, after)
      | (.ok found, after) => subtypesIn id policy base sources found after := by
  rw [subtypesIn, PluginSource.listing]
  cases source.archive w.files with
  | ok archive => rfl
  | error e => cases policy <;> rfl

/-! ### How a query ends -/

/-- The end of a query: its success or failure, and the world it leaves. -/
def ending (result : Except LoadError (List TypeHandle) × World) : Except LoadError Unit × World :=
  (result.1.map fun _ => (), result.2)

theorem subtypesAmong_ending (other : TypeHandle) (items : List (Except LoadError String))
    (found foundOther : List TypeHandle) (w : World) :
    ending (subtypesAmong id policy base source items found w) =
      ending (subtypesAmong id policy other source items foundOther w) := by
  induction items generalizing found foundOther w with
  | nil => rfl
  | cons item rest ih =>
    cases item with
    | error e => cases policy <;> rfl
    | ok name =>
      rw [subtypesAmong, subtypesAmong]
      rcases w.relate id name with ⟨e | ⟨handle, supertype⟩, after⟩
      · rfl
      · exact ih _ _ after

/-- The base has no part in how a query ends. -/
theorem subtypesIn_ending (other : TypeHandle) (sources : List PluginSource)
    (found foundOther : List TypeHandle) (w : World) :
    ending (subtypesIn id policy base sources found w) =
      ending (subtypesIn id policy other sources foundOther w) := by
  induction sources generalizing found foundOther w with
  | nil => rfl
  | cons source sources ih =>
    rw [subtypesIn_cons, subtypesIn_cons]
    have among : ending (subtypesAmong id policy base source _ found w) =
        ending (subtypesAmong id policy other source _ foundOther w) :=
      subtypesAmong_ending other (source.listing w.files) found foundOther w
    generalize subtypesAmong id policy base source (source.listing w.files) found w = mine
      at among ⊢
    generalize subtypesAmong id policy other source (source.listing w.files) foundOther w = others
      at among ⊢
    obtain ⟨mine, after⟩ := mine
    obtain ⟨others, afterOther⟩ := others
    cases mine <;> cases others <;> cases among
    · rfl
    · exact ih _ _ after

theorem directSubtypes_ending (w : World) (id : ScopeId) (base other : TypeHandle) :
    ending (w.directSubtypes id base) = ending (w.directSubtypes id other) := by
  unfold directSubtypes
  cases w.context? id with
  | none => rfl
  | some context => exact subtypesIn_ending other context.sources [] [] w

/-! ### What a query relates -/

/-- What a type extends in a scope: nothing, or the type its declared name is settled for. -/
inductive Extends (w : World) (id : ScopeId) (handle : TypeHandle) : Option TypeHandle → Prop where
  | root : handle.superName = none → Extends w id handle none
  | type {name : String} {supertype : TypeHandle} : handle.superName = some name →
      w.Settled id name (.ok supertype) → Extends w id handle (some supertype)

theorem Extends.lookups {asker : ScopeId} {handle : TypeHandle} {supertype : Option TypeHandle}
    (related : w.Extends id handle supertype) (lookups : Lookups asker w after) :
    after.Extends id handle supertype := by
  cases related with
  | root declared => exact .root declared
  | type declared settled => exact .type declared (settled.lookups lookups)

theorem directSupertype_ok {handle : TypeHandle} {supertype : Option TypeHandle}
    (asked : w.directSupertype id handle = (.ok supertype, after)) :
    after.Extends id handle supertype := by
  unfold directSupertype at asked
  split at asked
  · split at asked
    · rename_i declared
      cases asked
      exact .root declared
    · rename_i declared
      split at asked
      · rename_i resolving
        cases asked
        exact .type declared (resolve_ok_settles resolving)
      · cases asked
  · cases asked

theorem Extends.directSupertype {handle : TypeHandle} {supertype : Option TypeHandle}
    (related : w.Extends id handle supertype) (valid : w.isValid handle = true) :
    w.directSupertype id handle = (.ok supertype, w) := by
  rw [World.directSupertype, if_pos valid]
  cases related with
  | root declared => rw [declared]
  | type declared settled =>
    rw [declared]
    dsimp only
    rw [settled.resolve]

theorem relate_ok {name : String} {handle : TypeHandle} {supertype : Option TypeHandle}
    (asked : w.relate id name = (.ok (handle, supertype), after)) :
    after.Settled id name (.ok handle) ∧ after.Extends id handle supertype := by
  unfold relate at asked
  split at asked
  · cases asked
  · rename_i resolving
    split at asked
    · cases asked
    · rename_i extending
      cases asked
      have settled := resolve_ok_settles resolving
      exact ⟨settled.lookups (directSupertype_lookups extending), directSupertype_ok extending⟩

/-- Each name with the type it is settled for and what that type extends. -/
def Rows (w : World) (id : ScopeId) : List String → List (TypeHandle × Option TypeHandle) → Prop :=
  List.Forall₂ fun name row => w.Settled id name (.ok row.1) ∧ w.Extends id row.1 row.2

/-- The types among rows that extend a base. -/
def pick (base : TypeHandle) (rows : List (TypeHandle × Option TypeHandle)) : List TypeHandle :=
  (rows.filter fun row => isSame base row.2).map Prod.fst

theorem Rows.lookups {asker : ScopeId} {names : List String}
    {rows : List (TypeHandle × Option TypeHandle)} (related : w.Rows id names rows)
    (lookups : Lookups asker w after) : after.Rows id names rows := by
  refine List.Forall₂.imp ?_ related
  rintro name row ⟨settled, declared⟩
  exact ⟨settled.lookups lookups, declared.lookups lookups⟩

theorem pick_cons (row : TypeHandle × Option TypeHandle)
    (rows : List (TypeHandle × Option TypeHandle)) (found : List TypeHandle) :
    found ++ pick base (row :: rows) =
      (if isSame base row.2 then found ++ [row.1] else found) ++ pick base rows := by
  unfold pick
  cases picked : isSame base row.2 <;> simp [picked]

theorem pick_append (first second : List (TypeHandle × Option TypeHandle)) :
    pick base (first ++ second) = pick base first ++ pick base second := by
  simp [pick]

theorem subtypesAmong_ok {items : List (Except LoadError String)} {found types : List TypeHandle}
    (asked : subtypesAmong id policy base source items found w = (.ok types, after)) :
    ∃ rows, after.Rows id (listedNames items) rows ∧ types = found ++ pick base rows := by
  induction items generalizing found w with
  | nil =>
    cases asked
    exact ⟨[], .nil, by simp [pick]⟩
  | cons item rest ih =>
    cases item with
    | error e =>
      cases policy with
      | abort => cases asked
      | skip =>
        cases asked
        exact ⟨[], .nil, by simp [pick]⟩
    | ok name =>
      rw [subtypesAmong] at asked
      split at asked
      · cases asked
      · rename_i handle supertype middle relating
        obtain ⟨settled, declared⟩ := relate_ok relating
        obtain ⟨rows, related, types_eq⟩ := ih asked
        have later := subtypesAmong_lookups asked
        refine ⟨(handle, supertype) :: rows, ?_, ?_⟩
        · exact .cons ⟨settled.lookups later, declared.lookups later⟩ related
        · rw [types_eq, pick_cons]

theorem Lookups.files (lookups : Lookups id w after) : after.files = w.files := by
  apply lookups.keep (P := fun later => later.files = w.files)
  · exact fun _ _ same => same
  · rfl

/-- A query that succeeds has related every listed name, and gives those that extend the base. -/
theorem subtypesIn_ok {sources : List PluginSource} {found types : List TypeHandle}
    (asked : subtypesIn id policy base sources found w = (.ok types, after)) :
    ∃ rows, after.Rows id (namesIn w.files sources) rows ∧ types = found ++ pick base rows := by
  induction sources generalizing found w with
  | nil =>
    cases asked
    exact ⟨[], .nil, by simp [pick]⟩
  | cons source sources ih =>
    rw [subtypesIn_cons] at asked
    split at asked
    · cases asked
    · rename_i among
      obtain ⟨first, here, rfl⟩ := subtypesAmong_ok among
      obtain ⟨second, others, rfl⟩ := ih asked
      rw [(subtypesAmong_lookups among).files] at others
      refine ⟨first ++ second, ?_, ?_⟩
      · exact List.rel_append (here.lookups (subtypesIn_lookups asked)) others
      · rw [pick_append, List.append_assoc]

end World
end PluginLoader
