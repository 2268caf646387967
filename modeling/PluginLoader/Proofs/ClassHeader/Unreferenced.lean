import PluginLoader.Proofs.ClassHeader.Grammar

/-! Which constants a header hangs on. Constants that do not name the type, its supertype or an
interface have no part in what is read, but each text among them is decoded on the way. So other
texts in their place leave the header as it is, or make it unreadable: that happens if one of them
holds a surrogate without its partner, which class files may and text may not. -/
namespace PluginLoader

open Reader

namespace Reader
variable {α β : Type} {c middle : Cursor} {r : Reader α}

theorem bind_of_ok (f : α → Reader β) {x : α} (found : r c = .ok (x, middle)) :
    (r >>= f) c = f x middle := by
  change Except.bind (r c) (fun p => f p.1 p.2) = _
  rw [found]
  rfl

theorem bind_of_error (f : α → Reader β) {e : HeaderFault} (failed : r c = .error e) :
    (r >>= f) c = .error e := by
  change Except.bind (r c) (fun p => f p.1 p.2) = _
  rw [failed]
  rfl

end Reader

/-! ### Frames -/

namespace WrittenConstant

/-- A constant of the right size, whatever a text holds. -/
inductive Framed : WrittenConstant → Prop where
  | text {raw : List UInt8} : raw.length < 65536 → Framed (.text raw)
  | typeName (nameIndex : UInt16) : Framed (.typeName nameIndex)
  | other {tag : UInt8} {payload : List UInt8} : tag ∈ tagsOfSize payload.length →
      Framed (.other tag payload)

/-- A text can be decoded. -/
def Readable : WrittenConstant → Prop
  | .text raw => ∃ text, ModifiedUtf8.decode? raw = some text
  | _ => True

theorem legal_iff {constant : WrittenConstant} :
    constant.Legal ↔ constant.Framed ∧ constant.Readable := by
  constructor
  · intro legal
    cases legal with
    | text short meant => exact ⟨.text short, _, ModifiedUtf8.decode_iff.mpr meant⟩
    | typeName nameIndex => exact ⟨.typeName nameIndex, trivial⟩
    | other tagged => exact ⟨.other tagged, trivial⟩
  · rintro ⟨framed, readable⟩
    cases framed with
    | text short =>
      obtain ⟨text, decoded⟩ := readable
      exact .text short (ModifiedUtf8.decode_iff.mp decoded)
    | typeName nameIndex => exact .typeName nameIndex
    | other tagged => exact .other tagged

end WrittenConstant

/-- Laid out as a header, whatever its texts hold. -/
structure HeaderLayout.Framed (layout : HeaderLayout) : Prop where
  constants : ∀ constant ∈ layout.constants, constant.Framed
  fills : WrittenConstant.Fills layout.count.toNat 1 layout.constants
  few : layout.interfaces.length < 65536

theorem HeaderLayout.wellFormed_iff {layout : HeaderLayout} :
    layout.WellFormed ↔
      layout.Framed ∧ ∀ constant ∈ layout.constants, constant.Readable := by
  constructor
  · rintro ⟨legal, fills, few⟩
    simp only [WrittenConstant.legal_iff] at legal
    exact ⟨⟨fun c member => (legal c member).1, fills, few⟩, fun c member => (legal c member).2⟩
  · rintro ⟨⟨constants, fills, few⟩, readable⟩
    exact ⟨fun c member => WrittenConstant.legal_iff.mpr ⟨constants c member, readable c member⟩,
      fills, few⟩

/-! ### A text that cannot be decoded -/

namespace WrittenConstant
variable {constants : List WrittenConstant} {earlier later : List (Nat × WrittenConstant)}
  {raw : List UInt8} {n k : Nat}

theorem readConstant_undecodable {c after : Cursor} (short : raw.length < 65536)
    (undecodable : ModifiedUtf8.decode? raw = none) (spans : c.Spans (bytes (.text raw)) after)
    (index : UInt16) : ConstantPool.readConstant index c = .error (.invalidText index) := by
  obtain ⟨tagged, tagging, spans⟩ := Cursor.spans_cons.mp spans
  obtain ⟨sized, sizing, filling⟩ := Cursor.spans_append.mp spans
  have length : raw.length = (UInt16.ofNat raw.length).toNat :=
    (UInt16.toNat_ofNat_of_lt' short).symm
  unfold ConstantPool.readConstant
  rw [bind_of_ok _ (u8_ok.mpr tagging), if_pos rfl, bind_of_ok _ (u16_ok.mpr sizing),
    bind_of_ok _ (bytes_ok.mpr ⟨length, filling⟩), undecodable]
  rfl

/-- While numbers stay below the largest, the number the reader goes on with is the next one. -/
theorem next_eq {index : UInt16} {constant : WrittenConstant}
    (room : index.toNat + constant.width < 65536) :
    (ConstantPool.next constant.isWide index).toNat = index.toNat + constant.width := by
  unfold width at room ⊢
  unfold ConstantPool.next
  cases wide : constant.isWide with
  | false =>
    rw [wide] at room
    simp only [Bool.false_eq_true, if_false, UInt16.toNat_add, UInt16.reduceToNat] at room ⊢
    omega
  | true =>
    rw [wide] at room
    simp only [if_true] at room ⊢
    have below : index < 65534 := UInt16.lt_iff_toNat_lt.mpr (Nat.lt_of_add_lt_add_right room)
    simp only [if_pos below, UInt16.toNat_add, UInt16.reduceToNat]
    omega

/-- The reader comes to the first text that cannot be decoded and reports its number. -/
theorem readFrom_undecodable {count index : UInt16} {pool : ConstantPool} {c d : Cursor}
    (framed : ∀ constant ∈ constants, constant.Framed)
    (fills : Fills count.toNat index.toNat constants) (spans : c.Spans (constants.flatMap bytes) d)
    (split : numbered index.toNat constants = earlier ++ (n, .text raw) :: later)
    (readable : ∀ row ∈ earlier, row.2.Readable) (undecodable : ModifiedUtf8.decode? raw = none) :
    ∃ number : UInt16, number.toNat = n ∧
      ConstantPool.readFrom count index pool c = .error (.invalidText number) := by
  -- on the reader's own recursion: either the first constant is the one, or it is read and passed
  induction index, pool using ConstantPool.readFrom.induct count
    generalizing c constants earlier with
  | case1 index pool below ih =>
    rw [ConstantPool.readFrom, dif_pos below]
    cases constants with
    | nil => simp [numbered] at split
    | cons first rest =>
      obtain ⟨framedFirst, framedRest⟩ := List.forall_mem_cons.mp framed
      obtain ⟨middle, spansFirst, spansRest⟩ := Cursor.spans_append.mp spans
      cases earlier with
      | nil =>
        obtain ⟨same, _⟩ := List.cons.inj split
        cases same
        cases framedFirst with
        | text short =>
          exact ⟨index, rfl,
            bind_of_error _ (readConstant_undecodable short undecodable spansFirst index)⟩
      | cons row earlier =>
        obtain ⟨same, splitRest⟩ := List.cons.inj split
        subst same
        obtain ⟨readableFirst, readableRest⟩ := List.forall_mem_cons.mp readable
        have legal := legal_iff.mpr ⟨framedFirst, readableFirst⟩
        rw [bind_of_ok _ (readConstant_of_legal legal spansFirst index)]
        -- a constant follows, so its number is below the count and the reader goes on with it
        have room : index.toNat + first.width < 65536 := by
          cases rest with
          | nil => simp [numbered] at splitRest
          | cons next rest => exact Nat.lt_trans fills.2.1 count.toNat_lt
        refine ih _ _ framedRest ?_ spansRest ?_ readableRest
        · exact (fills_next below first rest).mpr fills.2
        · rw [next_eq room]
          exact splitRest
  | case2 index pool full =>
    cases constants with
    | nil => simp [numbered] at split
    | cons first rest => exact absurd fills.1 (mt UInt16.lt_iff_toNat_lt.mpr full)

theorem exists_first_undecodable (unreadable : ¬ ∀ constant ∈ constants, constant.Readable)
    (k : Nat) : ∃ earlier n raw later,
      numbered k constants = earlier ++ (n, .text raw) :: later ∧
      (∀ row ∈ earlier, row.2.Readable) ∧ ModifiedUtf8.decode? raw = none := by
  induction constants generalizing k with
  | nil => simp at unreadable
  | cons first rest ih =>
    by_cases here : first.Readable
    · rw [List.forall_mem_cons] at unreadable
      obtain ⟨earlier, n, raw, later, split, readable, undecodable⟩ :=
        ih (fun readable => unreadable ⟨here, readable⟩) (k + first.width)
      refine ⟨(k, first) :: earlier, n, raw, later, ?_, ?_, undecodable⟩
      · rw [numbered, split, List.cons_append]
      · exact List.forall_mem_cons.mpr ⟨here, readable⟩
    · cases first with
      | text raw =>
        refine ⟨[], k, raw, _, rfl, by simp, ?_⟩
        exact Option.eq_none_iff_forall_ne_some.mpr fun text decoded => here ⟨text, decoded⟩
      | typeName nameIndex => exact absurd trivial here
      | other tag payload => exact absurd trivial here

theorem exists_number {constant : WrittenConstant} (member : constant ∈ constants) (k : Nat) :
    ∃ n, (n, constant) ∈ numbered k constants := by
  induction constants generalizing k with
  | nil => cases member
  | cons first rest ih =>
    rcases List.mem_cons.mp member with rfl | member
    · exact ⟨k, List.mem_cons_self⟩
    · obtain ⟨n, inside⟩ := ih member (k + first.width)
      exact ⟨n, List.mem_cons_of_mem _ inside⟩

end WrittenConstant

/-! ### What framed bytes are read as -/

namespace ClassHeader
variable {layout first second : HeaderLayout} {header : ClassHeader} {rest : List UInt8}
  {earlier later : List (Nat × WrittenConstant)} {raw : List UInt8} {n : Nat}

theorem spans_front (bs rest : List UInt8) :
    Cursor.Spans ⟨0, bs ++ rest⟩ bs ⟨bs.length, rest⟩ :=
  ⟨rfl, (Nat.zero_add _).symm⟩

theorem parse_ok {b : List UInt8} :
    parse b = .ok header ↔ ∃ d, read ⟨0, b⟩ = .ok (header, d) := by
  unfold parse Reader.run
  rcases read ⟨0, b⟩ with e | ⟨found, d⟩ <;> simp [Except.map]

/-- A text that cannot be decoded fails the whole header, named or not. -/
theorem parse_undecodable (framed : layout.Framed)
    (split : WrittenConstant.numbered 1 layout.constants = earlier ++ (n, .text raw) :: later)
    (readable : ∀ row ∈ earlier, row.2.Readable) (undecodable : ModifiedUtf8.decode? raw = none)
    (rest : List UInt8) : ∃ number : UInt16, number.toNat = n ∧
      parse (layout.bytes ++ rest) = .error (.invalidText number) := by
  have spans := spans_front layout.bytes rest
  simp only [HeaderLayout.bytes, List.append_assoc, Cursor.spans_append] at spans
  obtain ⟨c₁, magical, c₂, minor, c₃, major, c₄, count, c₅, constants, _⟩ := spans
  obtain ⟨number, same, reading⟩ : ∃ number : UInt16, number.toNat = n ∧
      ConstantPool.readFrom _ 1 #[.unused] c₄ = .error (.invalidText number) :=
    WrittenConstant.readFrom_undecodable framed.constants framed.fills constants split readable
      undecodable
  have pool : ConstantPool.read c₃ = .error (.invalidText number) := by
    rw [ConstantPool.read, bind_of_ok _ (u16_ok.mpr count)]
    exact reading
  have whole : read ⟨0, layout.bytes ++ rest⟩ = .error (.invalidText number) := by
    unfold read
    simp only [HeaderLayout.bytes, List.append_assoc]
    rw [bind_of_ok _ (u32_ok.mpr (magic_bytes ▸ magical)), if_neg (not_ne_iff.mpr rfl),
      bind_of_ok _ (u16_ok.mpr minor), bind_of_ok _ (u16_ok.mpr major)]
    exact bind_of_error _ pool
  refine ⟨number, same, ?_⟩
  rw [parse, Reader.run, whole]
  rfl

section
variable {pool : ConstantPool} {c d after : Cursor}

theorem readName_at {index : UInt16} (spans : c.Spans (bytes16 index) d) {name : String} :
    readName pool c = .ok (name, after) ↔
      ConstantPool.typeName pool index = .ok name ∧ after = d := by
  rw [readName, bind_of_ok _ (u16_ok.mpr spans), lift_ok]

theorem readSuper_at {index : UInt16} (spans : c.Spans (bytes16 index) d)
    {superName : Option String} (reading : readSuper pool c = .ok (superName, after)) :
    after = d ∧ (index = 0 → superName = none) ∧
      (index ≠ 0 → ∃ name, superName = some name ∧
        ConstantPool.typeName pool index = .ok name) := by
  rw [readSuper, bind_of_ok _ (u16_ok.mpr spans)] at reading
  by_cases zero : index = 0
  · rw [if_pos zero] at reading
    obtain ⟨none, same⟩ := pure_ok.mp reading
    exact ⟨same, fun _ => none, fun nonzero => absurd zero nonzero⟩
  · rw [if_neg zero] at reading
    obtain ⟨name, found, some⟩ := map_ok.mp reading
    obtain ⟨named, same⟩ := lift_ok.mp found
    exact ⟨same, fun isZero => absurd isZero zero, fun _ => ⟨name, some, named⟩⟩

theorem readNames_at {indices : List UInt16} (spans : c.Spans (indices.flatMap bytes16) d)
    {names : List String} (reading : readNames pool indices.length c = .ok (names, after)) :
    List.Forall₂ (fun index name => ConstantPool.typeName pool index = .ok name)
      indices names := by
  induction indices generalizing c names after with
  | nil =>
    obtain ⟨rfl, _⟩ := pure_ok.mp reading
    exact .nil
  | cons index indices ih =>
    obtain ⟨middle, spansFirst, spansRest⟩ := Cursor.spans_append.mp spans
    obtain ⟨name, _, naming, reading⟩ := bind_ok.mp reading
    obtain ⟨named, rfl⟩ := (readName_at spansFirst).mp naming
    obtain ⟨others, _, following, reading⟩ := bind_ok.mp reading
    obtain ⟨rfl, _⟩ := pure_ok.mp reading
    exact .cons named (ih spansRest following)

end

/-- What a layout is read as is what it describes. -/
theorem describes_of_parse (formed : layout.WellFormed)
    (parsed : parse (layout.bytes ++ rest) = .ok header) : layout.Describes header := by
  obtain ⟨minor, major, count, constants, access, thisIndex, superIndex, indices⟩ := layout
  obtain ⟨legal, fills, few⟩ := formed
  have spans := spans_front (HeaderLayout.bytes ⟨minor, major, count, constants, access, thisIndex,
    superIndex, indices⟩) rest
  obtain ⟨_, reading⟩ := parse_ok.mp parsed
  simp only [HeaderLayout.bytes, List.append_assoc, Cursor.spans_append] at spans reading
  obtain ⟨c₁, magical, c₂, hminor, c₃, hmajor, c₃', hcount, c₄, hconstants, c₅, haccess,
    c₆, hname, c₇, hsuper, c₈, hk, hinterfaces⟩ := spans
  have pooled := WrittenConstant.readPool_ok.mpr ⟨count, constants, legal, fills,
    Cursor.spans_append.mpr ⟨c₃', hcount, hconstants⟩, rfl⟩
  have many : (UInt16.ofNat indices.length).toNat = indices.length :=
    UInt16.toNat_ofNat_of_lt' few
  unfold read at reading
  rw [bind_of_ok _ (u32_ok.mpr (magic_bytes ▸ magical)), if_neg (not_ne_iff.mpr rfl)] at reading
  dsimp only at reading
  rw [bind_of_ok _ (u16_ok.mpr hminor), bind_of_ok _ (u16_ok.mpr hmajor), bind_of_ok _ pooled,
    bind_of_ok _ (u16_ok.mpr haccess)] at reading
  obtain ⟨name, _, naming, reading⟩ := bind_ok.mp reading
  obtain ⟨named, rfl⟩ := (readName_at hname).mp naming
  obtain ⟨superName, _, extending, reading⟩ := bind_ok.mp reading
  obtain ⟨rfl, noSuper, hasSuper⟩ := readSuper_at hsuper extending
  rw [bind_of_ok _ (u16_ok.mpr hk), many] at reading
  obtain ⟨interfaces, _, implementing, reading⟩ := bind_ok.mp reading
  have implemented := readNames_at hinterfaces implementing
  obtain ⟨rfl, _⟩ := pure_ok.mp reading
  simp only [WrittenConstant.typeName_ok legal] at named hasSuper implemented
  exact ⟨rfl, rfl, rfl, named, noSuper, hasSuper, implemented⟩

/-- Framed bytes are read exactly if all their texts can be decoded and their numbers lead to
names, and then as what they describe. -/
theorem parse_framed_iff (framed : layout.Framed) :
    parse (layout.bytes ++ rest) = .ok header ↔
      (∀ constant ∈ layout.constants, constant.Readable) ∧ layout.Describes header := by
  constructor
  · intro parsed
    have readable : ∀ constant ∈ layout.constants, constant.Readable := by
      by_contra unreadable
      obtain ⟨_, _, _, _, split, before, undecodable⟩ :=
        WrittenConstant.exists_first_undecodable unreadable 1
      obtain ⟨_, _, failed⟩ := parse_undecodable framed split before undecodable rest
      cases parsed.symm.trans failed
    have formed := HeaderLayout.wellFormed_iff.mpr ⟨framed, readable⟩
    exact ⟨readable, describes_of_parse formed parsed⟩
  · rintro ⟨readable, describes⟩
    have formed := HeaderLayout.wellFormed_iff.mpr ⟨framed, readable⟩
    exact parse_ok.mpr ⟨_, read_of_layout formed (spans_front layout.bytes rest) describes⟩

end ClassHeader

/-! ### Texts that name nothing -/

namespace HeaderLayout
variable {first second : HeaderLayout}

/-- The numbers a header is named by: those of the type, its supertype and its interfaces. -/
def roots (layout : HeaderLayout) : List UInt16 :=
  layout.thisIndex :: layout.superIndex :: layout.interfaces

/-- A number is not that of a name in the header. -/
def Unnamed (layout : HeaderLayout) (n : Nat) : Prop :=
  ∀ root ∈ layout.roots, ∀ nameIndex : UInt16,
    (root.toNat, .typeName nameIndex) ∈ WrittenConstant.numbered 1 layout.constants →
      nameIndex.toNat ≠ n

/-- What may stand for a numbered constant of a layout: itself, and for a text that names nothing
any text of legal units. -/
inductive Varies (layout : HeaderLayout) :
    Nat × WrittenConstant → Nat × WrittenConstant → Prop where
  | same (row : Nat × WrittenConstant) : Varies layout row row
  | text {n : Nat} {raw other : List UInt8} {units : List Nat} : layout.Unnamed n →
      ModifiedUtf8.Coded other units → Varies layout (n, .text raw) (n, .text other)

/-- Two layouts are the same up to texts that name nothing. -/
structure Alike (first second : HeaderLayout) : Prop where
  minor : second.minor = first.minor
  major : second.major = first.major
  count : second.count = first.count
  access : second.access = first.access
  thisIndex : second.thisIndex = first.thisIndex
  superIndex : second.superIndex = first.superIndex
  interfaces : second.interfaces = first.interfaces
  constants : List.Forall₂ first.Varies (WrittenConstant.numbered 1 first.constants)
    (WrittenConstant.numbered 1 second.constants)

/-- Each item of a list has a partner in a list it is related to. -/
theorem exists_partner {α β : Type} {R : α → β → Prop} {l : List α} {l' : List β}
    (related : List.Forall₂ R l l') {a : α} (member : a ∈ l) : ∃ b ∈ l', R a b := by
  induction related with
  | nil => cases member
  | cons head _ ih =>
    rcases List.mem_cons.mp member with rfl | member
    · exact ⟨_, List.mem_cons_self, head⟩
    · obtain ⟨b, inside, relation⟩ := ih member
      exact ⟨b, List.mem_cons_of_mem _ inside, relation⟩

theorem Alike.names (alike : first.Alike second) {root : UInt16} (isRoot : root ∈ first.roots)
    {name : String} (names : WrittenConstant.Names first.constants root name) :
    WrittenConstant.Names second.constants root name := by
  cases names with
  | @intro nameIndex raw text member memberName meant =>
    obtain ⟨_, there, varies⟩ := exists_partner alike.constants member
    obtain ⟨_, thereName, variesName⟩ := exists_partner alike.constants memberName
    cases varies
    cases variesName with
    | same => exact .intro there thereName meant
    | text unnamed _ => exact absurd rfl (unnamed root isRoot nameIndex member)

theorem Alike.describes (alike : first.Alike second) {header : ClassHeader}
    (describes : first.Describes header) : second.Describes header where
  minor := describes.minor.trans alike.minor.symm
  major := describes.major.trans alike.major.symm
  access := describes.access.trans alike.access.symm
  name := alike.thisIndex ▸ alike.names List.mem_cons_self describes.name
  noSuper zero := describes.noSuper (alike.superIndex ▸ zero)
  superName nonzero := by
    rw [alike.superIndex] at nonzero ⊢
    obtain ⟨name, given, names⟩ := describes.superName nonzero
    exact ⟨name, given, alike.names (List.mem_cons_of_mem _ List.mem_cons_self) names⟩
  interfaces := by
    rw [alike.interfaces]
    have rooted : ∀ index ∈ first.interfaces, index ∈ first.roots :=
      fun _ member => List.mem_cons_of_mem _ (List.mem_cons_of_mem _ member)
    refine ((List.forall₂_and_left _ _).mpr ⟨rooted, describes.interfaces⟩).imp ?_
    rintro index name ⟨isRoot, names⟩
    exact alike.names isRoot names

/-- Where all is readable in one layout, a numbered constant of the other is unless it is a text
with a surrogate without its partner. -/
theorem Alike.readable (alike : first.Alike second)
    (readable : ∀ constant ∈ first.constants, constant.Readable) {row : Nat × WrittenConstant}
    (member : row ∈ WrittenConstant.numbered 1 second.constants)
    (paired : ∀ raw units, row.2 = .text raw → ModifiedUtf8.Coded raw units →
      ModifiedUtf8.Paired units) : row.2.Readable := by
  obtain ⟨partner, there, varies⟩ := exists_partner alike.constants.flip member
  cases varies with
  | same => exact readable _ (WrittenConstant.mem_of_mem_numbered there)
  | text _ coded => exact (ModifiedUtf8.decode_ok_iff coded).mpr (paired _ _ rfl coded)

end HeaderLayout

namespace ClassHeader
open ModifiedUtf8 WrittenConstant

/-- Texts that name nothing have no part in a header. Let two layouts be the same up to the contents
of texts that are not the name of the type, its supertype or an interface, whatever legal units
those of the second hold. If the first is read as a header, then the second is read as the same
header, unless some text of it has a surrogate without its partner: then the first such text is
reported as invalid. -/
theorem unnamed_text_irrelevant {first second : HeaderLayout} {rest other : List UInt8}
    {header : ClassHeader} (alike : first.Alike second) (framed : first.Framed)
    (framedSecond : second.Framed) (parsed : parse (first.bytes ++ rest) = .ok header) :
    (parse (second.bytes ++ other) = .ok header ↔
      ∀ raw units, .text raw ∈ second.constants → Coded raw units → Paired units) ∧
    ∀ (number : UInt16) earlier raw units later,
      numbered 1 second.constants = earlier ++ (number.toNat, .text raw) :: later →
      (∀ n raw units, (n, .text raw) ∈ earlier → Coded raw units → Paired units) →
      Coded raw units → ¬ Paired units →
        parse (second.bytes ++ other) = .error (.invalidText number) := by
  obtain ⟨readable, describes⟩ := (parse_framed_iff framed).mp parsed
  constructor
  · rw [parse_framed_iff framedSecond]
    constructor
    · rintro ⟨readableSecond, _⟩ raw units member coded
      exact (decode_ok_iff coded).mp (readableSecond _ member)
    · intro paired
      refine ⟨fun constant member => ?_, alike.describes describes⟩
      obtain ⟨n, numbered⟩ := exists_number member 1
      refine alike.readable readable numbered fun raw units same => ?_
      exact paired raw units (same ▸ member)
  · intro number earlier raw units later split before coded unpaired
    have undecodable : decode? raw = none := by
      apply Option.eq_none_iff_forall_ne_some.mpr
      exact fun text decoded => unpaired ((decode_ok_iff coded).mp ⟨text, decoded⟩)
    have readableBefore : ∀ row ∈ earlier, row.2.Readable := by
      rintro ⟨n, constant⟩ member
      refine alike.readable readable (split ▸ List.mem_append_left _ member) ?_
      rintro raw units rfl
      exact before n raw units member
    obtain ⟨same, number_eq, failed⟩ :=
      parse_undecodable framedSecond split readableBefore undecodable other
    rwa [UInt16.toNat_inj.mp number_eq] at failed

/-- A header of the type `A` with a string of its own, which is constant 3. -/
def layoutWithString (raw : List UInt8) : HeaderLayout where
  minor := 0
  major := 52
  count := 5
  constants := [.text [65], .typeName 1, .text raw, .other 8 [0, 3]]
  access := 0x21
  thisIndex := 2
  superIndex := 0
  interfaces := []

theorem layoutWithString_framed {raw : List UInt8} (short : raw.length < 65536) :
    (layoutWithString raw).Framed where
  constants constant member := by
    simp only [layoutWithString, List.mem_cons, List.not_mem_nil, or_false] at member
    rcases member with rfl | rfl | rfl | rfl
    · exact .text (by decide)
    · exact .typeName 1
    · exact .text short
    · exact .other (by decide)
  fills := by simp [layoutWithString, Fills, width, isWide]
  few := by simp [layoutWithString]

theorem layoutWithString_alike (raw : List UInt8) {other : List UInt8} {units : List Nat}
    (coded : Coded other units) : (layoutWithString raw).Alike (layoutWithString other) where
  minor := rfl
  major := rfl
  count := rfl
  access := rfl
  thisIndex := rfl
  superIndex := rfl
  interfaces := rfl
  constants := by
    have unnamed : (layoutWithString raw).Unnamed 3 := by
      intro root _ nameIndex named
      have one : nameIndex = 1 := by
        simp only [layoutWithString, numbered, List.mem_cons, Prod.mk.injEq, reduceCtorEq,
          WrittenConstant.typeName.injEq, and_false, false_or, or_false, List.not_mem_nil] at named
        exact named.2
      rw [one]
      decide
    exact .cons (.same _) (.cons (.same _) (.cons (.text unnamed coded) (.cons (.same _) .nil)))

/-- A string of a pair of surrogates leaves the header as it is, half of the pair fails it. -/
theorem strings_of_surrogates :
    parse (layoutWithString [0xED, 0xA0, 0xBD, 0xED, 0xB8, 0x80]).bytes =
      .ok ⟨0, 52, ⟨0x21⟩, "A", none, []⟩ ∧
    parse (layoutWithString [0xED, 0xA0, 0xBD]).bytes = .error (.invalidText 3) := by
  have plain : parse ((layoutWithString [0x61]).bytes ++ []) =
      .ok ⟨0, 52, ⟨0x21⟩, "A", none, []⟩ := by decide +kernel
  have half : Coded [0xED, 0xA0, 0xBD] [0xD83D] :=
    .three (by decide) (by decide) (by decide) (by decide) .nil
  have pair : Coded [0xED, 0xA0, 0xBD, 0xED, 0xB8, 0x80] [0xD83D, 0xDE00] :=
    .three (by decide) (by decide) (by decide) (by decide)
      (.three (by decide) (by decide) (by decide) (by decide) .nil)
  have unpaired : ¬ Paired [0xD83D] := by
    intro paired
    cases paired with
    | single plain => exact plain (by decide)
  obtain ⟨readsPair, _⟩ := unnamed_text_irrelevant (layoutWithString_alike [0x61] pair)
    (layoutWithString_framed (by decide)) (layoutWithString_framed (by decide)) plain
  obtain ⟨_, failsHalf⟩ := unnamed_text_irrelevant (layoutWithString_alike [0x61] half)
    (layoutWithString_framed (by decide)) (layoutWithString_framed (by decide)) plain
  rw [← List.append_nil (HeaderLayout.bytes _), ← List.append_nil (HeaderLayout.bytes _)]
  constructor
  · refine readsPair.mpr fun raw units member coded => (decode_ok_iff coded).mp ?_
    simp only [layoutWithString, List.mem_cons, WrittenConstant.text.injEq, reduceCtorEq,
      List.not_mem_nil, or_false, false_or] at member
    rcases member with rfl | rfl
    · exact ⟨[Char.ofNat 65], by decide⟩
    · exact ⟨[Char.ofNat 0x1F600], by decide⟩
  · refine failsHalf 3 [(1, .text [65]), (2, .typeName 1)] _ _ [(4, .other 8 [0, 3])] rfl ?_ half
      unpaired
    intro n raw units member coded
    simp only [List.mem_cons, Prod.mk.injEq, WrittenConstant.text.injEq, reduceCtorEq, and_false,
      List.not_mem_nil, or_false] at member
    obtain ⟨_, rfl⟩ := member
    exact (decode_ok_iff coded).mp ⟨[Char.ofNat 65], by decide⟩

/-- Two headers alike up to a string that names nothing: one is read, and one is not, since a
surrogate without its partner is legal in a class file. -/
theorem lone_surrogate_fails_header :
    (layoutWithString [0x61]).Alike (layoutWithString [0xED, 0xA0, 0x80]) ∧
      (layoutWithString [0x61]).Framed ∧ (layoutWithString [0xED, 0xA0, 0x80]).Framed ∧
      parse (layoutWithString [0x61]).bytes = .ok ⟨0, 52, ⟨0x21⟩, "A", none, []⟩ ∧
      parse (layoutWithString [0xED, 0xA0, 0x80]).bytes = .error (.invalidText 3) := by
  have half : Coded [0xED, 0xA0, 0x80] [0xD800] :=
    .three (by decide) (by decide) (by decide) (by decide) .nil
  exact ⟨layoutWithString_alike _ half, layoutWithString_framed (by decide),
    layoutWithString_framed (by decide), by decide +kernel, by decide +kernel⟩

end ClassHeader
end PluginLoader
