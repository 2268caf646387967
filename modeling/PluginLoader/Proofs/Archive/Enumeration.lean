import Mathlib.Data.List.TakeWhile
import PluginLoader.Proofs.Resolution.Run
import PluginLoader.Proofs.TypeName

/-! Enumerations call by call. What the calls give from some point on depends on the entries that
are left alone; each call takes the first item off and leaves the others. So the calls give the
items of the archive in order and then nothing, for ever. -/
namespace PluginLoader

namespace TypeName

/-- A path that ends in the type suffix, with something in front of it. -/
def IsTypePath (path : String) : Prop :=
  ∃ stem, stem ≠ [] ∧ path.toList = stem ++ entrySuffix

theorem ofEntryPath_isSome_iff (path : String) :
    (ofEntryPath? path).isSome ↔ IsTypePath path := by
  simp only [Option.isSome_iff_exists, ofEntryPath_eq_some, IsTypePath]
  constructor
  · rintro ⟨_, stem, nonempty, shape, _⟩
    exact ⟨stem, nonempty, shape⟩
  · rintro ⟨stem, nonempty, shape⟩
    exact ⟨_, stem, nonempty, shape, rfl⟩

instance : DecidablePred IsTypePath := fun path =>
  decidable_of_iff _ (ofEntryPath_isSome_iff path)

end TypeName

/-! ### All items of an archive -/

namespace Archive

/-- The failure to read the header in front of an entry's content. -/
def headerFault? (archive : Archive) (entry : Zip.Entry) : Option LoadError :=
  match archive.container.contentStart entry with
  | .error fault => some (.archiveRead archive.location fault)
  | .ok _ => none

/-- The entries in front of the first whose header does not read. -/
def readable (archive : Archive) (entries : List Zip.Entry) : List Zip.Entry :=
  entries.takeWhile fun entry => (archive.headerFault? entry).isNone

/-- The types that entries define. -/
def namesOf (entries : List Zip.Entry) : List String :=
  entries.filterMap fun entry => TypeName.ofEntryPath? entry.name

/-- The failure that ends an enumeration, if there is one. -/
def failureOf (archive : Archive) (entries : List Zip.Entry) : Option LoadError :=
  entries.findSome? archive.headerFault?

theorem itemsOf_eq (archive : Archive) (entries : List Zip.Entry) :
    archive.itemsOf entries = (namesOf (archive.readable entries)).map .ok ++
      (archive.failureOf entries).toList.map .error := by
  induction entries with
  | nil => rfl
  | cons entry rest ih =>
    simp only [itemsOf, readable, failureOf, headerFault?, List.takeWhile_cons,
      List.findSome?_cons] at ih ⊢
    cases archive.container.contentStart entry with
    | error fault => rfl
    | ok start => cases named : TypeName.ofEntryPath? entry.name <;> simp [namesOf, named, ih]

theorem map_namesOf (entries : List Zip.Entry) :
    (namesOf entries).map some =
      (entries.filter fun entry => TypeName.IsTypePath entry.name).map fun entry =>
        TypeName.ofEntryPath? entry.name := by
  induction entries with
  | nil => rfl
  | cons entry rest ih =>
    cases named : TypeName.ofEntryPath? entry.name <;>
      simpa [namesOf, named, List.filter_cons, ← TypeName.ofEntryPath_isSome_iff] using ih

theorem length_itemsOf (archive : Archive) (entries : List Zip.Entry) :
    (archive.itemsOf entries).length ≤ entries.length := by
  induction entries with
  | nil => simp [itemsOf]
  | cons entry rest ih =>
    rw [itemsOf]
    split
    · simp
    · split <;> simp only [List.length_cons] <;> omega

/-- An enumeration gets through all entries, or up to one whose header fails. -/
theorem readable_append (archive : Archive) (entries : List Zip.Entry) :
    (archive.readable entries = entries ∧ archive.failureOf entries = none) ∨
      ∃ bad later fault, entries = archive.readable entries ++ bad :: later ∧
        archive.container.contentStart bad = .error fault ∧
        archive.failureOf entries = some (.archiveRead archive.location fault) := by
  induction entries with
  | nil => exact .inl ⟨rfl, rfl⟩
  | cons entry rest ih =>
    simp only [readable, failureOf, List.takeWhile_cons, List.findSome?_cons] at ih ⊢
    cases starts : archive.container.contentStart entry with
    | error fault =>
      refine .inr ⟨entry, rest, fault, ?_, starts, ?_⟩ <;> simp [headerFault?, starts]
    | ok start =>
      have reads : archive.headerFault? entry = none := by rw [headerFault?, starts]
      simp only [reads, Option.isNone_none, if_true, List.cons_append, List.cons.injEq, true_and]
      exact ih

theorem header_of_readable {archive : Archive} {entries : List Zip.Entry} {entry : Zip.Entry}
    (member : entry ∈ archive.readable entries) :
    ∃ start, archive.container.contentStart entry = .ok start := by
  have reads := List.mem_takeWhile_imp member
  cases starts : archive.container.contentStart entry with
  | ok start => exact ⟨start, rfl⟩
  | error fault => simp [headerFault?, starts] at reads

theorem ok_mem_items {archive : Archive} {name : String} :
    .ok name ∈ archive.items ↔ ∃ entry ∈ archive.readable archive.container.entries,
      TypeName.ofEntryPath? entry.name = some name := by
  simp [items, itemsOf_eq, namesOf]

/-- An enumeration without a failure gets through all entries. -/
theorem readable_of_whole {archive : Archive} (whole : ∀ e, .error e ∉ archive.items) :
    archive.readable archive.container.entries = archive.container.entries := by
  rcases archive.readable_append archive.container.entries with
    ⟨all, _⟩ | ⟨_, _, fault, _, _, failure⟩
  · exact all
  · refine absurd ?_ (whole (.archiveRead archive.location fault))
    simp [items, itemsOf_eq, failure]

end Archive

/-! ### Calls -/

namespace Enumeration

/-- The enumeration after some calls. -/
def after : Nat → Enumeration → Enumeration
  | 0, e => e
  | n + 1, e => after n e.next.2

/-- What a call gives, the first call being number 0. -/
def call (n : Nat) (e : Enumeration) : Option (Except LoadError String) := (after n e).next.1

def remaining (e : Enumeration) : List (Except LoadError String) := e.archive.itemsOf e.rest

theorem advance_eq (archive : Archive) (entries : List Zip.Entry) :
    (advance archive entries).1 = (archive.itemsOf entries).head? ∧
      archive.itemsOf (advance archive entries).2 = (archive.itemsOf entries).tail := by
  induction entries with
  | nil => exact ⟨rfl, rfl⟩
  | cons entry rest ih =>
    rw [advance, Archive.itemsOf]
    cases archive.container.contentStart entry with
    | error fault => exact ⟨rfl, rfl⟩
    | ok start =>
      cases TypeName.ofEntryPath? entry.name with
      | none => exact ih
      | some name => exact ⟨rfl, rfl⟩

/-- One call takes the first of the remaining items. -/
theorem next_takes (e : Enumeration) :
    e.next.1 = e.remaining.head? ∧ e.next.2.remaining = e.remaining.tail :=
  advance_eq e.archive e.rest

theorem remaining_after (n : Nat) (e : Enumeration) :
    (after n e).remaining = e.remaining.drop n := by
  induction n generalizing e with
  | zero => rfl
  | succ n ih => rw [after, ih, (next_takes e).2, List.drop_tail]

theorem archive_after (n : Nat) (e : Enumeration) : (after n e).archive = e.archive := by
  induction n generalizing e with
  | zero => rfl
  | succ n ih => exact ih e.next.2

theorem call_eq (n : Nat) (e : Enumeration) : e.call n = e.remaining[n]? := by
  rw [call, (next_takes _).1, remaining_after, List.head?_drop]

/-- What an enumeration of an opened archive gives, call by call: the type of each entry whose path
ends in the type suffix with something in front of it, in order and once each, up to the first
entry whose header does not read; for that one the failure, under the archive's location; and then
nothing, for ever. The number of entries stays what it is, and no more calls than that give
something. -/
theorem enumeration_exact {files : FileSystem} {location : String} {archive : Archive}
    (opened : Archive.open? files location = .ok archive) :
    let entries := archive.container.entries
    let e := Enumeration.start archive
    let front := archive.readable entries
    let names := Archive.namesOf front
    (∀ entry ∈ front, ∃ start, archive.container.contentStart entry = .ok start) ∧
      names.map some = (front.filter fun entry => TypeName.IsTypePath entry.name).map
        (fun entry => TypeName.ofEntryPath? entry.name) ∧
      (∀ n (_ : n < names.length), e.call n = some (.ok names[n])) ∧
      ((entries = front ∧ ∀ n, names.length ≤ n → e.call n = none) ∨
        ∃ bad later fault, entries = front ++ bad :: later ∧
          archive.container.contentStart bad = .error fault ∧
          e.call names.length = some (.error (.archiveRead location fault)) ∧
          ∀ n, names.length < n → e.call n = none) ∧
      (∀ n, (after n e).archive.entryCount = entries.length) ∧
      ∃ k ≤ entries.length, ∀ n, e.call n ≠ none ↔ n < k := by
  intro entries e front names
  have gives : ∀ n, e.call n = (archive.itemsOf entries)[n]? := fun n => call_eq n e
  have items : archive.itemsOf entries = names.map .ok ++ _ := archive.itemsOf_eq entries
  refine ⟨fun _ => Archive.header_of_readable, Archive.map_namesOf front, ?_, ?_, ?_, ?_⟩
  · intro n inside
    rw [gives, items, List.getElem?_append_left (by simpa using inside)]
    simp [inside]
  · rcases archive.readable_append entries with
      ⟨whole, never⟩ | ⟨bad, later, fault, split, fails, failure⟩
    · refine .inl ⟨whole.symm, fun n past => ?_⟩
      rw [gives, items, never]
      simpa using past
    · refine .inr ⟨bad, later, fault, split, fails, ?_, fun n past => ?_⟩
      · rw [gives, items, failure, Archive.open_location opened]
        simp
      · rw [gives, items, failure]
        simp
        omega
  · intro n
    rw [archive_after]
    rfl
  · refine ⟨_, archive.length_itemsOf entries, fun n => ?_⟩
    rw [gives]
    simp

/-- An archive of three entries without content: a text, the type `A`, and `B`, whose directory
record leads to no header. -/
def archiveWithoutB : ByteArray :=
  ⟨#[80, 75, 3, 4, 20, 0, 0, 0, 0, 0, 0, 0, 33, 0, 0, 0, 0, 0, 0, 0, 0, 0, 0, 0, 0, 0, 0, 0, 0, 0,
    80, 75, 1, 2, 20, 0, 20, 0, 0, 0, 0, 0, 0, 0, 33, 0, 0, 0, 0, 0, 0, 0, 0, 0, 0, 0, 0, 0, 1, 0,
    0, 0, 0, 0, 0, 0, 0, 0, 0, 0, 0, 0, 0, 0, 0, 0, 116, 80, 75, 1, 2, 20, 0, 20, 0, 0, 0, 0, 0, 0,
    0, 33, 0, 0, 0, 0, 0, 0, 0, 0, 0, 0, 0, 0, 0, 7, 0, 0, 0, 0, 0, 0, 0, 0, 0, 0, 0, 0, 0, 0, 0, 0,
    0, 65, 46, 99, 108, 97, 115, 115, 80, 75, 1, 2, 20, 0, 20, 0, 0, 0, 0, 0, 0, 0, 33, 0, 0, 0, 0,
    0, 0, 0, 0, 0, 0, 0, 0, 0, 7, 0, 0, 0, 0, 0, 0, 0, 0, 0, 0, 0, 0, 0, 1, 0, 0, 0, 66, 46, 99,
    108, 97, 115, 115, 80, 75, 5, 6, 0, 0, 0, 0, 3, 0, 3, 0, 153, 0, 0, 0, 30, 0, 0, 0, 0, 0]⟩

def emptyEntry (rawName : List UInt8) (name : String) (headerOffset : Nat) : Zip.Entry where
  rawName
  name
  comment := []
  encrypted := false
  strong := false
  method := 0
  crc := 0
  compressedSize := 0
  size := 0
  headerOffset

def entriesWithoutB : List Zip.Entry :=
  [emptyEntry [116] "t" 0, emptyEntry [65, 46, 99, 108, 97, 115, 115] "A.class" 0,
    emptyEntry [66, 46, 99, 108, 97, 115, 115] "B.class" 1]

def filesWithoutB : FileSystem := ⟨[(["a.jar"], .file archiveWithoutB)], []⟩

theorem open_withoutB : Archive.open? filesWithoutB "/a.jar" =
    .ok ⟨"/a.jar", ⟨archiveWithoutB, entriesWithoutB⟩⟩ :=
  Archive.open_of_entries
    (FileSystem.read_jar filesWithoutB (some archiveWithoutB)
      (by simp [filesWithoutB, FileSystem.node?]))
    (by decide +kernel)

/-- The text is passed by, `A` is given, and `B` ends the enumeration. -/
theorem lost_header_ends :
    let e := start ⟨"/a.jar", ⟨archiveWithoutB, entriesWithoutB⟩⟩
    Archive.open? filesWithoutB "/a.jar" = .ok e.archive ∧
      e.call 0 = some (.ok "A") ∧
      e.call 1 = some (.error (.archiveRead "/a.jar" (.damaged .localHeader))) ∧
      ∀ n, 1 < n → e.call n = none := by
  intro e
  have front : Archive.readable ⟨"/a.jar", ⟨archiveWithoutB, entriesWithoutB⟩⟩ entriesWithoutB =
      entriesWithoutB.take 2 := by decide +kernel
  have names : Archive.namesOf (entriesWithoutB.take 2) = ["A"] := by decide +kernel
  have lost : Zip.Container.contentStart ⟨archiveWithoutB, entriesWithoutB⟩
      (emptyEntry [66, 46, 99, 108, 97, 115, 115] "B.class" 1) =
        .error (.damaged .localHeader) := by decide +kernel
  obtain ⟨_, _, gives, ending, _, _⟩ := enumeration_exact open_withoutB
  simp only [front, names] at gives ending
  refine ⟨open_withoutB, gives 0 Nat.one_pos, ?_⟩
  rcases ending with ⟨whole, _⟩ | ⟨bad, later, fault, split, fails, last, never⟩
  · exact absurd whole (by decide)
  · -- what is behind the first two entries is `B` alone
    cases split
    cases lost.symm.trans fails
    exact ⟨last, never⟩

end Enumeration
end PluginLoader
