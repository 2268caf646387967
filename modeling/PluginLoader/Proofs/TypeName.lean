import PluginLoader.TypeName

/-! From an entry to the type it defines and back. A type entry's path is a stem in front of the
type suffix, and its name is the stem with a dot for each slash. The way back makes every dot
a slash, so it leads to the entry again if the stem had no dot of its own. -/
namespace PluginLoader.TypeName

theorem stem_eq_some {path stem : List Char} :
    stem? path = some stem ↔ path = stem ++ entrySuffix := by
  unfold stem?
  constructor
  · intro taken
    split at taken
    · rename_i ends
      obtain ⟨front, rfl⟩ := ends
      rw [List.length_append, Nat.add_sub_cancel, List.take_left] at taken
      cases taken
      rfl
    · cases taken
  · rintro rfl
    rw [if_pos (List.suffix_append ..), List.length_append, Nat.add_sub_cancel, List.take_left]

theorem ofEntryPath_eq_some {path name : String} :
    ofEntryPath? path = some name ↔
      ∃ stem, stem ≠ [] ∧ path.toList = stem ++ entrySuffix ∧
        name = String.ofList (stem.map dotted) := by
  simp only [← stem_eq_some]
  unfold ofEntryPath?
  constructor
  · intro defines
    split at defines
    · cases defines
    · cases defines
    · rename_i stem nonempty taken
      cases defines
      exact ⟨stem, nonempty, taken, rfl⟩
  · rintro ⟨stem, nonempty, taken, rfl⟩
    rw [taken]
    cases stem with
    | nil => exact absurd rfl nonempty
    | cons => rfl

theorem dotted_ne_slash (c : Char) : dotted c ≠ '/' := by
  unfold dotted
  split
  · decide
  · assumption

theorem slashed_dotted {c : Char} (plain : c ≠ '.') : slashed (dotted c) = c := by
  unfold dotted
  split
  · rename_i slash
    rw [slash]
    rfl
  · exact if_neg plain

theorem dotted_slashed {c : Char} (free : c ≠ '/') : dotted (slashed c) = c := by
  unfold slashed
  split
  · rename_i dot
    rw [dot]
    rfl
  · exact if_neg free

/-- The entry that is looked for under a type's name defines a type of that name. -/
theorem ofEntryPath_entryPath {name : String} (named : searchable name = true) :
    ofEntryPath? (entryPath name) = some name := by
  simp only [searchable, Bool.and_eq_true, Bool.not_eq_true', List.isEmpty_eq_false_iff,
    List.contains_eq_mem, decide_eq_false_iff_not] at named
  obtain ⟨nonempty, free⟩ := named
  refine ofEntryPath_eq_some.mpr ⟨name.toList.map slashed, ?_, String.toList_ofList, ?_⟩
  · rwa [ne_eq, List.map_eq_nil_iff]
  · rw [List.map_map, List.map_congr_left fun c member => ?_, List.map_id, String.ofList_toList]
    exact dotted_slashed fun slash => free (slash ▸ member)

theorem searchable_of_entry {path name : String} (defines : ofEntryPath? path = some name) :
    searchable name = true := by
  obtain ⟨stem, nonempty, _, rfl⟩ := ofEntryPath_eq_some.mp defines
  have free : '/' ∉ stem.map dotted := by
    intro member
    obtain ⟨c, _, slash⟩ := List.mem_map.mp member
    exact dotted_ne_slash c slash
  simp [searchable, nonempty, free]

theorem suffix_entryPath (name : String) : entrySuffix <:+ (entryPath name).toList := by
  rw [entryPath, String.toList_ofList]
  exact List.suffix_append ..

/-- No dot stands in front of the type suffix. -/
def Undotted (path : String) : Prop := ∀ stem, stem? path.toList = some stem → '.' ∉ stem

theorem entryPath_of_undotted {path name : String} (defines : ofEntryPath? path = some name)
    (undotted : Undotted path) : entryPath name = path := by
  obtain ⟨stem, _, shape, rfl⟩ := ofEntryPath_eq_some.mp defines
  have plain := undotted stem (stem_eq_some.mpr shape)
  have same : (stem.map dotted).map slashed = stem := by
    rw [List.map_map, List.map_congr_left fun c member => ?_, List.map_id]
    exact slashed_dotted fun dot => plain (dot ▸ member)
  rw [entryPath, String.toList_ofList, same, ← shape, String.ofList_toList]

theorem searchable_iff (name : String) :
    searchable name = true ↔ ¬ (name = "" ∨ '/' ∈ name.toList) := by
  simp [searchable]

theorem searchable_iff_free {name : String} :
    searchable name = true ↔ name ≠ "" ∧ '/' ∉ name.toList := by
  rw [searchable_iff, not_or]

/-- A name no lookup may ask for is not what its own entry defines: the bare suffix defines
nothing, and a slash comes back as a dot. -/
theorem ofEntryPath_entryPath_iff {name : String} :
    ofEntryPath? (entryPath name) = some name ↔ searchable name = true :=
  ⟨searchable_of_entry, ofEntryPath_entryPath⟩

theorem slashed_ne_dot (c : Char) : slashed c ≠ '.' := by
  unfold slashed
  split
  · decide
  · assumption

theorem undotted_entryPath (name : String) : Undotted (entryPath name) := by
  intro stem taken dot
  have shape : name.toList.map slashed ++ entrySuffix = stem ++ entrySuffix := by
    simpa [entryPath] using stem_eq_some.mp taken
  rw [← List.append_cancel_right shape] at dot
  obtain ⟨c, _, slash⟩ := List.mem_map.mp dot
  exact slashed_ne_dot c slash

theorem entryPath_eq_iff {path name : String} (defines : ofEntryPath? path = some name) :
    entryPath name = path ↔ Undotted path := by
  constructor
  · intro same
    exact same ▸ undotted_entryPath name
  · exact entryPath_of_undotted defines

theorem entryPath_injective {name other : String} (named : searchable name = true)
    (known : searchable other = true) (same : entryPath name = entryPath other) :
    name = other := by
  have back := ofEntryPath_entryPath named
  rw [same, ofEntryPath_entryPath known] at back
  exact (Option.some.inj back).symm

theorem ofEntryPath_internal {internal : String} (nonempty : internal ≠ "") :
    ofEntryPath? (internal ++ ".class") = some (ofInternal internal) := by
  refine ofEntryPath_eq_some.mpr ⟨internal.toList, ?_, ?_, rfl⟩
  · simpa using nonempty
  · simp [entrySuffix]

/-- Where each of the two translations undoes the other: from a name and back on the names a lookup
may ask for, from an entry and back on the entries whose stem has no dot. -/
theorem translations_inverse :
    (∀ name, (ofEntryPath? (entryPath name) = some name ↔ name ≠ "" ∧ '/' ∉ name.toList) ∧
      (name ≠ "" ∧ '/' ∉ name.toList ↔ searchable name = true)) ∧
    (∀ path name, ofEntryPath? path = some name →
      (name ≠ "" ∧ '/' ∉ name.toList) ∧ (entryPath name = path ↔ Undotted path)) ∧
    (∀ name other, searchable name = true → searchable other = true →
      entryPath name = entryPath other → name = other) ∧
    ∀ internal, internal ≠ "" →
      ofEntryPath? (internal ++ ".class") = some (ofInternal internal) := by
  refine ⟨fun name => ⟨?_, searchable_iff_free.symm⟩, fun path name defines => ⟨?_, ?_⟩, ?_, ?_⟩
  · rw [ofEntryPath_entryPath_iff, searchable_iff_free]
  · exact searchable_iff_free.mp (searchable_of_entry defines)
  · exact entryPath_eq_iff defines
  · exact fun _ _ => entryPath_injective
  · exact fun _ => ofEntryPath_internal

/-- `a.b/C.class` and `a/b/C.class` define the same name, which leads to the second only. -/
theorem dotted_folder_not_reached :
    ofEntryPath? "a.b/C.class" = some "a.b.C" ∧ entryPath "a.b.C" ≠ "a.b/C.class" ∧
      entryPath "a.b.C" = "a/b/C.class" ∧ ofEntryPath? ("a/b/C" ++ ".class") = some "a.b.C" := by
  obtain ⟨_, back, _, internal⟩ := translations_inverse
  have dotted : ofEntryPath? "a.b/C.class" = some "a.b.C" := by decide +kernel
  have plain : ofEntryPath? "a/b/C.class" = some "a.b.C" := by decide +kernel
  have stemmed : stem? "a.b/C.class".toList = some "a.b/C".toList := by decide +kernel
  refine ⟨dotted, fun reached => ?_, (back _ _ plain).2.mpr ?_, internal "a/b/C" (by decide)⟩
  · exact (back _ _ dotted).2.mp reached _ stemmed (by decide)
  · intro stem taken
    cases taken.symm.trans (by decide +kernel : stem? "a/b/C.class".toList = some "a/b/C".toList)
    decide

end PluginLoader.TypeName
