import PluginLoader.Proofs.FileSystem.Names

/-! A file that was written is read back. Writing ends where no folder and no link was, so that the
walk to it goes by the same nodes as before. -/
namespace PluginLoader.FileSystem

variable {files next : FileSystem} {links : Nat} {here location other : Location}
  {todo : List Step} {node : FileNode} {content : ByteArray} {path : String}

theorem lookup_rebound (entries : List (Location × FileNode)) :
    (entries.filter (·.1 ≠ location) ++ [(location, node)]).lookup other =
      if other = location then some node else entries.lookup other := by
  induction entries with
  | nil =>
    by_cases same : other = location
    · simp [same]
    · simp [same, List.lookup_cons, beq_false_of_ne same]
  | cons entry entries ih =>
    obtain ⟨bound, found⟩ := entry
    by_cases hidden : bound = location
    · rw [List.filter_cons_of_neg (by simpa using hidden), ih]
      by_cases same : other = location
      · rw [if_pos same, if_pos same]
      · have differs : (other == bound) = false := beq_false_of_ne (hidden ▸ same)
        rw [if_neg same, if_neg same, List.lookup_cons, differs]
    · rw [List.filter_cons_of_pos (by simpa using hidden), List.cons_append, List.lookup_cons,
        List.lookup_cons, ih]
      by_cases same : other = location
      · have differs : (other == bound) = false := beq_false_of_ne (same ▸ Ne.symm hidden)
        rw [differs, if_pos same]
      · rw [if_neg same, if_neg same]

theorem node_bind (inside : location ≠ []) : (files.bind location node).node? other =
    if other = location then some node else files.node? other := by
  by_cases root : other = []
  · rw [node?, node?, if_pos root, if_pos root, if_neg (root ▸ Ne.symm inside)]
  · rw [node?, node?, if_neg root, if_neg root]
    exact lookup_rebound files.nodes

/-- A node that writing replaces or finds missing. -/
def Replaceable : Option FileNode → Prop
  | some .folder | some (.link _) => False
  | _ => True

theorem destination_replaceable (ends : files.destination links here todo = .ok location) :
    location ≠ [] ∧ Replaceable (files.node? location) := by
  fun_induction destination files links here todo
  case case2 ih | case3 ih | case7 ih | case12 ih => exact ih ends
  case case5 missing _ | case8 missing _ =>
    cases ends
    exact ⟨by simp, by rw [missing]; trivial⟩
  all_goals cases ends

theorem walk_bind (ends : files.destination links here todo = .ok location) :
    (files.bind location (.file content)).walk true links here todo =
      .ok (location, .file content) := by
  obtain ⟨inside, replaceable⟩ := destination_replaceable ends
  have elsewhere : ∀ {other node}, files.node? other = some node → ¬ Replaceable (some node) →
      (files.bind location (.file content)).node? other = some node := by
    intro other node there stays
    rw [node_bind inside, if_neg, there]
    rintro rfl
    exact stays (there ▸ replaceable)
  have found : (files.bind location (.file content)).node? location = some (.file content) := by
    rw [node_bind inside, if_pos rfl]
  -- the walk goes the way of the destination: all it passes are folders and links, which stay
  fun_induction destination files links here todo
  case case2 ih | case3 ih =>
    rw [walk]
    exact ih ends
  case case5 short _ last | case8 short _ _ last =>
    cases ends
    rw [walk, if_neg short, found]
    exact if_pos last
  case case7 short folder ih =>
    rw [walk, if_neg short, elsewhere folder id]
    exact ih ends
  case case12 short target link links named ih =>
    rw [walk, if_neg short, elsewhere link id]
    simp only [Bool.not_true, Bool.and_false, Bool.false_eq_true, if_false, if_neg named]
    exact ih ends
  all_goals cases ends

theorem read_write (written : files.write path content = .ok next) :
    next.read path = .ok content := by
  obtain ⟨_, valid, written⟩ := bind_eq_ok.mp written
  obtain ⟨location, ends, same⟩ := bind_eq_ok.mp written
  cases same
  have located : (files.bind location (.file content)).locate path =
      .ok (location, .file content) :=
    bind_eq_ok.mpr ⟨_, valid, walk_bind ends⟩
  exact bind_eq_ok.mpr ⟨_, located, rfl⟩

end PluginLoader.FileSystem
