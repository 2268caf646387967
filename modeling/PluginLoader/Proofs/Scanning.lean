import PluginLoader.Proofs.FileSystem.Names
import PluginLoader.Source
import Mathlib.Data.List.Nodup

/-! Which archives a directory holds. The path of a listed name ends in that name, so that the
entries which a scan keeps are the ones whose path is taken as an archive. -/
namespace PluginLoader
variable {files : FileSystem} {names : List String}

/-! ### Archives by their path -/

theorem isArchivePath_iff {path : String} : isArchivePath path ↔
    ∃ name, Path.EndsIn path name ∧ archiveSuffix <:+ name.toList := by
  simp only [← Path.fileName_eq_some]
  unfold isArchivePath
  cases Path.fileName? path <;> simp

theorem isArchivePath_join (directory : String) {name : String} (legal : Path.IsName name) :
    isArchivePath (Path.join directory name) = decide (archiveSuffix <:+ name.toList) := by
  rw [isArchivePath, Path.fileName_join directory legal]

namespace PluginSource

theorem make_cases (location : String) :
    make location = .ok ⟨location⟩ ∧ isArchivePath location ∨
      make location = .error (.notAnArchive location) ∧ ¬ isArchivePath location := by
  unfold make
  split
  · exact .inl ⟨rfl, ‹_›⟩
  · exact .inr ⟨rfl, ‹_›⟩

theorem make_ok_iff {location : String} :
    (∃ source, make location = .ok source) ↔ isArchivePath location := by
  obtain ⟨made, archive⟩ | ⟨made, other⟩ := make_cases location
  · simp [made, archive]
  · simp [made, other]

theorem toBool_make (location : String) :
    (make location).toBool = isArchivePath location := by
  unfold make
  split <;> simp_all [Except.toBool]

end PluginSource

/-! ### Listed names -/

namespace FileSystem

theorem list_folder {path : String} {folder : Location}
    (located : files.locate path = .ok (folder, .folder)) :
    files.list path = .ok (files.children folder) := by
  simp [list, located, Bind.bind, Except.bind]

theorem list_elsewhere {path : String}
    (elsewhere : ∀ folder, files.locate path ≠ .ok (folder, .folder)) :
    ∃ fault, files.list path = .error fault := by
  cases located : files.locate path with
  | error fault => exact ⟨fault, by simp [list, located, Bind.bind, Except.bind]⟩
  | ok found =>
    obtain ⟨location, node⟩ := found
    cases node with
    | folder => exact absurd located (elsewhere location)
    | _ => exact ⟨.notAFolder, by simp [list, located, Bind.bind, Except.bind]⟩

end FileSystem

namespace PluginDirectory

/-- The archives among the names of a directory, in the order of the names. -/
def archives (directory : PluginDirectory) (names : List String) : List PluginSource :=
  (names.filter fun name => archiveSuffix <:+ name.toList).map fun name =>
    ⟨Path.join directory.path name⟩

variable {directory : PluginDirectory}

theorem nodup_archives (distinct : names.Nodup) : (directory.archives names).Nodup := by
  refine List.Nodup.map (fun name other same => ?_) (distinct.filter _)
  exact Path.join_injective directory.path (PluginSource.mk.inj same)

theorem make_of_mem_archives (legal : ∀ name ∈ names, Path.IsName name) :
    ∀ source ∈ directory.archives names, PluginSource.make source.location = .ok source := by
  intro source among
  obtain ⟨name, kept, rfl⟩ := List.mem_map.mp among
  obtain ⟨listed, suffixed⟩ := List.mem_filter.mp kept
  rw [PluginSource.make, if_pos ((isArchivePath_join _ (legal name listed)).trans suffixed)]

theorem scan_of_list (listing : files.list directory.path = .ok names)
    (legal : ∀ name ∈ names, Path.IsName name) :
    directory.scan files = .ok (directory.archives names) := by
  simp only [scan, listing, archives, List.filter_map, List.map_map]
  have same : names.filter (isArchivePath ∘ Path.join directory.path) =
      names.filter fun name => archiveSuffix <:+ name.toList :=
    List.filter_congr fun name listed => isArchivePath_join _ (legal name listed)
  rw [same]
  rfl

/-- What is taken as an archive, and what a scan finds. A location is an archive by its last name
alone, whatever slashes and dots follow it; any other is an illegal state. In a file system whose
names are ones that directories hold, a scan of a folder finds each archive directly inside once, in
listing order and under a location that is an archive by itself, and a scan of anything else
fails. -/
theorem scanning_finds_archives :
    (∀ location,
      ((∃ source, PluginSource.make location = .ok source) ↔
        ∃ name, Path.EndsIn location name ∧ archiveSuffix <:+ name.toList) ∧
      (PluginSource.make location = .ok ⟨location⟩ ∨
        ∃ e, PluginSource.make location = .error e ∧ e.kind = .illegalState) ∧
      ∀ tail ∈ ["/", "/."],
        (PluginSource.make (location ++ tail)).toBool = (PluginSource.make location).toBool) ∧
    ∀ (files : FileSystem) (directory : PluginDirectory), files.Named →
      match files.locate directory.path with
      | .ok (folder, .folder) =>
        ∃ names, files.list directory.path = .ok names ∧ names.Nodup ∧
          (∀ name, name ∈ names ↔ (files.node? (folder ++ [name])).isSome) ∧
          directory.scan files = .ok (directory.archives names) ∧
          (directory.archives names).Nodup ∧
          ∀ source ∈ directory.archives names, PluginSource.make source.location = .ok source
      | _ => ∃ e, directory.scan files = .error e ∧ e.kind = .illegalState := by
  refine ⟨fun location => ⟨?_, ?_, ?_⟩, fun files directory named => ?_⟩
  · rw [PluginSource.make_ok_iff, isArchivePath_iff]
  · obtain ⟨made, _⟩ | ⟨made, _⟩ := PluginSource.make_cases location
    · exact .inl made
    · exact .inr ⟨_, made, rfl⟩
  · simp [PluginSource.toBool_make, isArchivePath, Path.fileName_slash, Path.fileName_dot]
  · split
    · rename_i folder located
      have listing := FileSystem.list_folder located
      have legal : ∀ name ∈ files.children folder, Path.IsName name := fun _ => named.children
      have distinct := FileSystem.nodup_children files folder
      exact ⟨_, listing, distinct, fun _ => FileSystem.mem_children, scan_of_list listing legal,
        nodup_archives distinct, make_of_mem_archives legal⟩
    · rename_i elsewhere
      obtain ⟨fault, failing⟩ := FileSystem.list_elsewhere elsewhere
      exact ⟨_, by rw [scan, failing], rfl⟩

/-- An archive, a folder with an archive's name that holds another archive, and a text. -/
def nestedFiles : FileSystem :=
  FileSystem.changed ⟨[], []⟩ [.write "/a.jar" ⟨#[]⟩, .makeFolders "/b.jar",
    .write "/b.jar/c.jar" ⟨#[]⟩, .write "/notes.txt" ⟨#[]⟩]

open FileSystem in
theorem nestedFiles_nodes : nestedFiles = ⟨[(["a.jar"], .file ⟨#[]⟩), (["b.jar"], .folder),
    (["b.jar", "c.jar"], .file ⟨#[]⟩), (["notes.txt"], .file ⟨#[]⟩)], []⟩ := by
  have valid : ∀ path ∈ ["/", "/a.jar", "/b.jar", "/b.jar/c.jar", "/notes.txt"],
      checked path = .ok () ∧ Path.isAbsolute path = true := by
    decide +kernel
  have short : ∀ name ∈ ["a.jar", "b.jar", "c.jar", "notes.txt"], ¬ 255 < name.utf8ByteSize := by
    decide +kernel
  have ways : steps "/" = [.stay, .stay] ∧ steps "/a.jar" = [.stay, .into "a.jar"] ∧
      steps "/b.jar" = [.stay, .into "b.jar"] ∧
      steps "/b.jar/c.jar" = [.stay, .into "b.jar", .into "c.jar"] ∧
      steps "/notes.txt" = [.stay, .into "notes.txt"] := ⟨rfl, rfl, rfl, rfl, rfl⟩
  have folder : ancestry "/b.jar" = ["/b.jar"] ∧ Path.directory? "/b.jar" = some "/" ∧
      Path.fileName? "/b.jar" = some "b.jar" := by
    decide +kernel
  simp only [List.forall_mem_cons] at valid short
  -- each change in turn: what it binds is all that the next ones meet
  simp [nestedFiles, changed, Change.apply, write, makeFolders, makeFolder, slot, isFolder, locate,
    find, walk, destination, origin, node?, FileSystem.bind, List.lookup_cons, valid, short, ways,
    folder, Bind.bind, Except.bind, Except.toOption, pure, Except.pure]

theorem nested_scanned :
    nestedFiles.Named ∧ nestedFiles.locate "/" = .ok ([], .folder) ∧
      PluginDirectory.scan ⟨"/"⟩ nestedFiles = .ok [⟨"/a.jar"⟩, ⟨"/b.jar"⟩] := by
  have named : nestedFiles.Named := (FileSystem.named_blank Location.named_nil).changed _
  have located := nestedFiles.locate_root
  have exact := scanning_finds_archives.2 nestedFiles ⟨"/"⟩ named
  simp only [located] at exact
  obtain ⟨names, listing, _, _, scanned, _⟩ := exact
  refine ⟨named, located, ?_⟩
  have children : names = ["a.jar", "b.jar", "notes.txt"] := by
    have listed := FileSystem.list_folder located
    cases listing.symm.trans listed
    rw [nestedFiles_nodes]
    rfl
  rw [scanned, children]
  decide +kernel

end PluginDirectory
end PluginLoader
