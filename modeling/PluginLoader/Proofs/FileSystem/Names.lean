import PluginLoader.FileSystem
import PluginLoader.Proofs.Path

/-! The names under which nodes are bound. Changes bind what a path leads to, so that every name on
the way to a node is one a directory can hold; a directory lists each of its names once. -/
namespace PluginLoader

def Location.Named (location : Location) : Prop := ∀ name ∈ location, Path.IsName name

instance (location : Location) : Decidable location.Named :=
  inferInstanceAs (Decidable (∀ name ∈ location, Path.IsName name))

theorem Location.named_nil : Location.Named [] := by simp [Named]

theorem Location.named_append {front back : Location} :
    Location.Named (front ++ back) ↔ Location.Named front ∧ Location.Named back :=
  List.forall_mem_append

theorem Location.Named.into {folder : Location} (named : folder.Named) {name : String}
    (legal : Path.IsName name) : Location.Named (folder ++ [name]) :=
  named_append.mpr ⟨named, List.forall_mem_singleton.mpr legal⟩

namespace FileSystem

/-- Every name in use is one that a directory can hold. Changes keep it so, from a blank file system
on. -/
structure Named (files : FileSystem) : Prop where
  nodes : ∀ entry ∈ files.nodes, Location.Named entry.1
  start : files.start.Named

variable {files next : FileSystem}

/-! ### Where paths lead -/

def Step.Named : Step → Prop
  | .into name => Path.IsName name
  | _ => True

theorem named_stepOf {piece : List Char} (free : '/' ∉ piece) : (stepOf piece).Named := by
  unfold stepOf
  split
  · trivial
  · split
    · trivial
    · rename_i leading up
      refine Path.isName_iff.mpr ?_
      rw [String.toList_ofList]
      exact ⟨by simpa using leading, free, up⟩

theorem named_steps (path : String) : ∀ step ∈ steps path, step.Named := by
  intro step among
  obtain ⟨piece, within, rfl⟩ := List.mem_map.mp among
  exact named_stepOf (Path.free_of_mem_pieces within)

theorem named_origin (path : String) {here : Location} (named : here.Named) :
    (origin path here).Named := by
  unfold origin
  split
  · exact Location.named_nil
  · exact named

theorem named_walk {follow : Bool} {links : Nat} {here location : Location} {todo : List Step}
    {node : FileNode} (named : here.Named) (ahead : ∀ step ∈ todo, step.Named)
    (arrives : files.walk follow links here todo = .ok (location, node)) : location.Named := by
  fun_induction walk files follow links here todo <;> try rw [List.forall_mem_cons] at ahead
  case case1 =>
    cases arrives
    exact named
  case case2 ih => exact ih named ahead.2 arrives
  case case3 ih =>
    exact ih (fun name within => named name (List.dropLast_subset _ within)) ahead.2 arrives
  case case6 ih => exact ih (named.into ahead.1) ahead.2 arrives
  case case7 | case9 =>
    cases arrives
    exact named.into ahead.1
  case case12 target _ _ _ _ ih =>
    exact ih (named_origin target named)
      (List.forall_mem_append.mpr ⟨named_steps target, ahead.2⟩) arrives
  all_goals cases arrives

theorem bind_eq_ok {α β ε : Type} {x : Except ε α} {f : α → Except ε β} {b : β} :
    (do let a ← x; f a) = .ok b ↔ ∃ a, x = .ok a ∧ f a = .ok b := by
  cases x <;> simp [Bind.bind, Except.bind]

theorem mapError_eq_ok {α ε δ : Type} {x : Except ε α} {f : ε → δ} {a : α} :
    x.mapError f = .ok a ↔ x = .ok a := by
  cases x <;> simp [Except.mapError]

theorem named_find (named : files.Named) {path : String} {follow : Bool} {location : Location}
    {node : FileNode} (found : files.find path follow = .ok (location, node)) :
    location.Named := by
  obtain ⟨_, _, arrives⟩ := bind_eq_ok.mp found
  exact named_walk (named_origin path named.start) (named_steps path) arrives

theorem slot_ok {path name : String} {folder : Location}
    (free : files.slot path = .ok (folder, name)) :
    Path.fileName? path = some name ∧ ∃ above, files.locate above = .ok (folder, .folder) := by
  obtain ⟨_, _, free⟩ := bind_eq_ok.mp free
  split at free
  · rename_i named
    simp only at free
    split at free
    · obtain ⟨_, tooLong, _⟩ := bind_eq_ok.mp free
      cases tooLong
    · obtain ⟨⟨location, node⟩, located, free⟩ := bind_eq_ok.mp free
      cases node with
      | folder =>
        cases free
        exact ⟨named, _, located⟩
      | _ => cases free
  · cases free

theorem named_slot (named : files.Named) {path name : String} {folder : Location}
    (free : files.slot path = .ok (folder, name)) : Location.Named (folder ++ [name]) := by
  obtain ⟨last, _, located⟩ := slot_ok free
  exact (named_find named located).into (Path.fileName_eq_some.mp last).1

theorem locate_root (files : FileSystem) : files.locate "/" = .ok ([], .folder) := by
  have valid : checked "/" = .ok () := by decide +kernel
  have way : steps "/" = [.stay, .stay] := by rfl
  have absolute : Path.isAbsolute "/" = true := by decide +kernel
  have root : origin "/" files.start = [] := by rw [origin, if_pos absolute]
  simp [locate, find, walk, Bind.bind, Except.bind, valid, way, root]

/-! ### What is listed -/

theorem childName_eq_some {folder location : Location} {name : String} :
    childName? folder location = some name ↔ location = folder ++ [name] := by
  unfold childName?
  obtain rfl | ⟨front, last, rfl⟩ := location.eq_nil_or_concat
  · simp
  · by_cases same : front = folder <;> simp [same]

theorem nodup_eraseDups (names : List String) : names.eraseDups.Nodup := by
  match names with
  | [] => exact List.nodup_nil
  | name :: names =>
    rw [List.eraseDups_cons, List.nodup_cons]
    exact ⟨by simp [List.mem_eraseDups], nodup_eraseDups _⟩
termination_by names.length
decreasing_by simpa using Nat.lt_succ_of_le (List.length_filter_le ..)

/-- A folder lists what is bound right below it. -/
theorem mem_children {folder : Location} {name : String} :
    name ∈ files.children folder ↔ (files.node? (folder ++ [name])).isSome := by
  have below : folder ++ [name] ≠ [] := by simp
  rw [node?, if_neg below, List.lookup_isSome_iff, children, List.mem_eraseDups,
    List.mem_filterMap]
  simp only [childName_eq_some, beq_iff_eq]
  exact exists_congr fun entry => and_congr_right fun _ => eq_comm

theorem nodup_children (files : FileSystem) (folder : Location) :
    (files.children folder).Nodup :=
  nodup_eraseDups _

theorem Named.children (named : files.Named) {folder : Location} {name : String}
    (listed : name ∈ files.children folder) : Path.IsName name := by
  rw [FileSystem.children, List.mem_eraseDups, List.mem_filterMap] at listed
  obtain ⟨entry, bound, below⟩ := listed
  have legal := named.nodes entry bound
  rw [childName_eq_some.mp below] at legal
  exact legal name (List.mem_append_right _ List.mem_cons_self)

/-! ### Changes -/

theorem Named.bind (named : files.Named) {location : Location} (legal : location.Named)
    (node : FileNode) : (files.bind location node).Named where
  nodes entry bound := by
    rw [FileSystem.bind, List.mem_append, List.mem_singleton] at bound
    obtain kept | rfl := bound
    · exact named.nodes entry (List.mem_filter.mp kept).1
    · exact legal
  start := named.start

theorem Named.unbind (named : files.Named) (location : Location) :
    (files.unbind location).Named where
  nodes entry bound := named.nodes entry (List.mem_filter.mp bound).1
  start := named.start

theorem Named.relocate (named : files.Named) (source : Location) {goal : Location}
    (legal : goal.Named) : (files.relocate source goal).Named where
  nodes entry bound := by
    obtain ⟨⟨location, node⟩, before, rfl⟩ := List.mem_map.mp bound
    have same := named.nodes _ before
    simp only [moved]
    split
    · refine Location.named_append.mpr ⟨legal, fun name within => ?_⟩
      exact same name (List.mem_of_mem_drop within)
    · exact same
  start := named.start

theorem Named.bindSlot (named : files.Named) {path name : String} {folder : Location}
    (free : files.slot path = .ok (folder, name)) (node : FileNode) :
    (files.bind (folder ++ [name]) node).Named :=
  named.bind (named_slot named free) node

theorem Named.makeFolder (named : files.Named) {path : String}
    (made : files.makeFolder path = .ok next) : next.Named := by
  obtain ⟨⟨folder, name⟩, free, made⟩ := bind_eq_ok.mp made
  simp only at made
  split at made <;> cases made
  exact named.bindSlot free _

theorem Named.makeFolders (named : files.Named) {path : String}
    (made : files.makeFolders path = .ok next) : next.Named := by
  unfold FileSystem.makeFolders at made
  split at made
  · cases made
    exact named
  · generalize ancestry path = folders at made
    induction folders generalizing files with
    | nil =>
      cases made
      exact named
    | cons folder rest ih =>
      rw [List.foldlM_cons] at made
      obtain ⟨grown, step, made⟩ := bind_eq_ok.mp made
      refine ih ?_ made
      split at step
      · cases step
        exact named
      · exact named.makeFolder step

theorem named_destination {links : Nat} {here location : Location} {todo : List Step}
    (named : here.Named) (ahead : ∀ step ∈ todo, step.Named)
    (ends : files.destination links here todo = .ok location) : location.Named := by
  fun_induction destination files links here todo <;> try rw [List.forall_mem_cons] at ahead
  case case2 ih => exact ih named ahead.2 ends
  case case3 ih =>
    exact ih (fun name within => named name (List.dropLast_subset _ within)) ahead.2 ends
  case case5 | case8 =>
    cases ends
    exact named.into ahead.1
  case case7 ih => exact ih (named.into ahead.1) ahead.2 ends
  case case12 target _ _ _ ih =>
    exact ih (named_origin target named)
      (List.forall_mem_append.mpr ⟨named_steps target, ahead.2⟩) ends
  all_goals cases ends

theorem Named.write (named : files.Named) {path : String} {content : ByteArray}
    (made : files.write path content = .ok next) : next.Named := by
  obtain ⟨_, _, made⟩ := bind_eq_ok.mp made
  obtain ⟨location, ends, same⟩ := bind_eq_ok.mp made
  cases same
  exact named.bind (named_destination (named_origin path named.start) (named_steps path) ends) _

inductive Change where
  | makeFolders (path : String)
  | replace (path : String) (content : ByteArray)
  | write (path : String) (content : ByteArray)
  | remove (path : String)
  | link (path target : String)
  | rename (path target : String)

def Change.apply (files : FileSystem) : Change → Except FileFault FileSystem
  | .makeFolders path => files.makeFolders path
  | .replace path content => files.replace path content
  | .write path content => files.write path content
  | .remove path => files.remove path
  | .link path target => files.link path target
  | .rename path target => files.rename path target

theorem Named.apply (named : files.Named) {change : Change}
    (made : change.apply files = .ok next) : next.Named := by
  cases change with
  | makeFolders path => exact named.makeFolders made
  | write path content => exact named.write made
  | replace | link =>
    obtain ⟨⟨folder, name⟩, free, made⟩ := bind_eq_ok.mp made
    simp only at made
    split at made <;> cases made
    exact named.bindSlot free _
  | remove path =>
    obtain ⟨⟨location, node⟩, _, made⟩ := bind_eq_ok.mp made
    cases made
    exact named.unbind location
  | rename path target =>
    obtain ⟨⟨source, node⟩, _, made⟩ := bind_eq_ok.mp made
    obtain ⟨⟨folder, name⟩, free, made⟩ := bind_eq_ok.mp made
    have goal := (named.unbind (folder ++ [name])).relocate source (named_slot named free)
    simp only at made
    split at made
    · cases made
      exact named
    · split at made
      · split at made <;> cases made
        exact goal
      all_goals cases made
      exact goal

/-- A run of changes; one that fails changes nothing. -/
def changed (files : FileSystem) (changes : List Change) : FileSystem :=
  changes.foldl (fun files change => (change.apply files).toOption.getD files) files

theorem Named.changed (named : files.Named) (changes : List Change) :
    (files.changed changes).Named := by
  induction changes generalizing files with
  | nil => exact named
  | cons change rest ih =>
    rw [FileSystem.changed, List.foldl_cons]
    cases made : change.apply files with
    | ok next => exact ih (named.apply made)
    | error fault => exact ih named

theorem named_blank {start : Location} (legal : start.Named) : Named ⟨[], start⟩ where
  nodes := List.forall_mem_nil _
  start := legal

end FileSystem
end PluginLoader
