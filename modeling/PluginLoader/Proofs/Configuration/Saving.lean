import PluginLoader.Configuration.File
import PluginLoader.Proofs.FileSystem.Writing
import PluginLoader.Proofs.Text.Utf8
import PluginLoader.Proofs.Yaml.View

/-! A configuration that was saved is loaded again. What is written has every field, so that no
default is ever used, and no text in it is taken for anything else. -/
namespace PluginLoader

open Yaml Tree Reading

/-- A field that no other one has the key of is read by its key. -/
theorem Fields.read_of_mem {m : Type → Type} [Alternative m] {α β : Type}
    {fields : List (String × α)} {key : String} {value : α} {read : α → m β} {absent : m β}
    (nodup : (fields.map (·.1)).Nodup) (member : (key, value) ∈ fields) :
    Fields.read? fields key read absent = read value := by
  have only : fields.filter (·.1 = key) = [(key, value)] := by
    induction fields with
    | nil => cases member
    | cons field fields ih =>
      rw [List.map_cons, List.nodup_cons] at nodup
      cases member with
      | head =>
        have others : ∀ other ∈ fields, ¬ (decide (other.1 = key)) = true := by
          rintro ⟨_, inner⟩ found same
          rw [decide_eq_true_eq] at same
          exact nodup.1 (List.mem_map.mpr ⟨_, found, same⟩)
        rw [List.filter_cons_of_pos (by simp), List.filter_eq_nil_iff.mpr others]
      | tail _ member =>
        have other : field.1 ≠ key := fun same =>
          nodup.1 (List.mem_map.mpr ⟨_, member, same.symm⟩)
        rw [List.filter_cons_of_neg (by simpa using other), ih nodup.2 member]
  rw [read?, only]

namespace Configuration

open FileSystem (bind_eq_ok mapError_eq_ok read_write)

variable {c : Configuration} {files next later : FileSystem} {path : String}

/-! ### What is written -/

theorem settings_record {fields : List (String × Tree)} (filled : fields ≠ [])
    (each : ∀ field ∈ fields, IsKey field.1.toList ∧ Settings field.2) :
    Settings (.record fields) :=
  .record ⟨filled, fun field member => (each field member).1⟩
    fun field member => (each field member).2

def typeFields (type : ConfiguredType) : List (String × Tree) :=
  [("name", .text type.name), ("extends", (type.superName.map Tree.text).getD .null)]

theorem settings_typeFields (type : ConfiguredType) :
    ∀ field ∈ typeFields type, IsKey field.1.toList ∧ Settings field.2 := by
  have superName : Settings ((type.superName.map Tree.text).getD .null) := by
    cases type.superName with
    | none => exact .null
    | some superName => exact .text superName
  simp only [typeFields, List.forall_mem_cons]
  exact ⟨⟨by decide, .text _⟩, ⟨by decide, superName⟩, List.forall_mem_nil _⟩

theorem settings_types (types : List ConfiguredType) :
    Settings (.list (types.map typeTree)) := by
  have records : types.map typeTree = (types.map typeFields).map .record := List.map_map.symm
  rw [records]
  refine .list ?_ ?_ <;> rw [List.forall_mem_map] <;> intro type _
  · exact ⟨List.cons_ne_nil _ _, fun field member => (settings_typeFields type field member).1⟩
  · exact fun field member => (settings_typeFields type field member).2

theorem settings_sections (c : Configuration) : Settings (.record c.sections) := by
  have plugins : Settings (.record [("directory", .text c.directory),
      ("archive_errors", .text c.options.archiveErrors.name),
      ("verify_archives", .truth c.options.verifyArchives)]) := by
    refine settings_record (List.cons_ne_nil _ _) ?_
    simp only [List.forall_mem_cons]
    exact ⟨⟨by decide, .text _⟩, ⟨by decide, .text _⟩, ⟨by decide, .truth _⟩,
      List.forall_mem_nil _⟩
  have host : Settings (.record [("standard_types", .truth c.standardTypes),
      ("types", .list (c.types.map typeTree))]) := by
    refine settings_record (List.cons_ne_nil _ _) ?_
    simp only [List.forall_mem_cons]
    exact ⟨⟨by decide, .truth _⟩, ⟨by decide, settings_types c.types⟩, List.forall_mem_nil _⟩
  have logging : Settings (.record [("level", .text c.level)]) := by
    refine settings_record (List.cons_ne_nil _ _) ?_
    simp only [List.forall_mem_cons]
    exact ⟨⟨by decide, .text _⟩, List.forall_mem_nil _⟩
  refine settings_record (List.cons_ne_nil _ _) ?_
  simp only [sections, List.forall_mem_cons]
  exact ⟨⟨by decide, plugins⟩, ⟨by decide, host⟩, ⟨by decide, logging⟩, List.forall_mem_nil _⟩

/-! ### What is read -/

def nodes (fields : List (String × Tree)) : NodeFields :=
  fields.map fun field => (field.1, field.2.node)

theorem gives_field {α : Type} {fields : List (String × Tree)} {key : String} {tree : Tree}
    {reading : Node → Reading α} {value : α} {absent : Reading α}
    (gives : (reading tree.node).Gives value) (nodup : (fields.map (·.1)).Nodup)
    (member : (key, tree) ∈ fields) :
    (Fields.read? (nodes fields) key reading absent).Gives value := by
  have named : (key, tree.node) ∈ nodes fields := List.mem_map.mpr ⟨_, member, rfl⟩
  have keys : (nodes fields).map (·.1) = fields.map (·.1) := List.map_map
  rw [Fields.read_of_mem (keys ▸ nodup) named]
  exact gives

theorem gives_type (type : ConfiguredType) : (typeOf (typeTree type).node).Gives type := by
  have superName : (Node.textOrNull ((type.superName.map Tree.text).getD .null).node).Gives
      type.superName := by
    cases type.superName with
    | none => exact gives_null
    | some superName => exact gives_some superName
  refine (gives_fields _).bind ?_
  refine (gives_field (gives_text type.name) (by simp) (by simp)).bind ?_
  refine (gives_field superName (by simp) (by simp)).bind ?_
  exact .pure type

theorem gives_types (types : List ConfiguredType) :
    (typesOf (Tree.list (types.map typeTree)).node).Gives types := by
  have each : ((types.map fun type => (typeTree type).node).mapM typeOf).Gives (types.map id) :=
    .mapM fun type _ => gives_type type
  rw [List.map_id] at each
  refine (gives_items _).bind ?_
  rwa [List.map_map]

theorem gives_policy (policy : ArchivePolicy) :
    (policyOf (Tree.text policy.name).node).Gives policy := by
  refine (gives_choice policy.name).bind ?_
  cases policy <;> exact fun _ _ => rfl

theorem gives_sections (c : Configuration) : (ofNode (Tree.record c.sections).node).Gives c := by
  let plugins : List (String × Tree) := [("directory", .text c.directory),
    ("archive_errors", .text c.options.archiveErrors.name),
    ("verify_archives", .truth c.options.verifyArchives)]
  let host : List (String × Tree) := [("standard_types", .truth c.standardTypes),
    ("types", .list (c.types.map typeTree))]
  let logging : List (String × Tree) := [("level", .text c.level)]
  have same : c.sections =
    [("plugins", .record plugins), ("host", .record host), ("logging", .record logging)] := rfl
  -- in the order in which they are read; each key is there, so that no default is taken
  refine (gives_fields _).bind ?_
  rw [same]
  refine (gives_field (gives_fields plugins) (by simp) (by simp)).bind ?_
  refine (gives_field (gives_fields host) (by simp) (by simp)).bind ?_
  refine (gives_field (gives_fields logging) (by simp) (by simp)).bind ?_
  refine (gives_field (gives_text c.directory) (by simp [plugins]) (by simp [plugins])).bind ?_
  refine (gives_field (gives_policy c.options.archiveErrors) (by simp [plugins])
    (by simp [plugins])).bind ?_
  refine (gives_field (gives_truth c.options.verifyArchives) (by simp [plugins])
    (by simp [plugins])).bind ?_
  refine (gives_field (gives_truth c.standardTypes) (by simp [host]) (by simp [host])).bind ?_
  refine (gives_field (gives_types c.types) (by simp [host]) (by simp [host])).bind ?_
  refine (gives_field (gives_text c.level) (by simp [logging]) (by simp [logging])).bind ?_
  exact .pure c

theorem ofYaml_toYaml (c : Configuration) : ofYaml? c.toYaml = some c := by
  rw [ofYaml?, toYaml, document_writeRecord c.settings_sections, Option.bind_some]
  exact c.gives_sections.of

theorem load_of_read (read : files.read path = .ok c.toYaml.toUTF8) : load files path = .ok c := by
  have text : fileText? files path = some c.toYaml := by
    rw [fileText?, read]
    change (Utf8.decode? c.toYaml.toUTF8.toList).bind (fun text => some (String.ofList text)) = _
    rw [Utf8.decode_toUTF8, Option.bind_some, String.ofList_toList]
  rw [load, text]
  simp only [ofYaml_toYaml]

theorem written_of_save (saved : c.save files path = .ok next) :
    ∃ made : FileSystem, made.write path c.toYaml.toUTF8 = .ok next := by
  unfold save at saved
  dsimp only at saved
  split at saved <;> obtain ⟨made, _, written⟩ := bind_eq_ok.mp saved <;>
    exact ⟨made, mapError_eq_ok.mp written⟩

/-- A file that was saved, and is not changed after that, is loaded as the same configuration. -/
theorem load_save (saved : c.save files path = .ok next) (kept : later.read path = next.read path) :
    load later path = .ok c := by
  obtain ⟨made, written⟩ := written_of_save saved
  exact load_of_read (kept.trans (read_write written))

/-- Texts that could be taken for null, for truth values, for numbers and for lists. -/
def lookalikes : Configuration where
  directory := "null"
  options := { archiveErrors := .skip, verifyArchives := true }
  standardTypes := false
  types := [⟨"true", some "~"⟩, ⟨"", none⟩, ⟨"1.0", some "[]"⟩]
  level := "first\n  second: \n"

theorem load_save_lookalikes : ∃ next, lookalikes.save ⟨[], []⟩ "plugins.yaml" = .ok next ∧
    load next "plugins.yaml" = .ok lookalikes := by
  let files : FileSystem := ⟨[], []⟩
  have free : files.destination FileSystem.linkLimit [] [.into "plugins.yaml"] =
      .ok ["plugins.yaml"] := by
    rw [FileSystem.destination, if_neg (by decide)]
    rfl
  have saved : lookalikes.save files "plugins.yaml" =
      .ok (files.bind ["plugins.yaml"] (.file lookalikes.toYaml.toUTF8)) := by
    have folder : Path.directory? "plugins.yaml" = some "" := by decide
    have made : files.makeFolders "" = .ok files := rfl
    have written : files.write "plugins.yaml" lookalikes.toYaml.toUTF8 =
        .ok (files.bind ["plugins.yaml"] (.file lookalikes.toYaml.toUTF8)) :=
      bind_eq_ok.mpr ⟨(), by decide, bind_eq_ok.mpr ⟨_, free, rfl⟩⟩
    unfold save
    simp only [folder, made]
    exact bind_eq_ok.mpr ⟨files, rfl, mapError_eq_ok.mpr written⟩
  exact ⟨_, saved, load_save saved rfl⟩

end Configuration
end PluginLoader
