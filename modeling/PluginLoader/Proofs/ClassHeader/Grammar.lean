import Mathlib.Tactic.FinCases
import PluginLoader.Proofs.ClassHeader.Layout

/-! Class headers are read exactly as they are laid out: the reader accepts the bytes of well formed
layouts and no others, whatever follows them, and gives what the layout describes. -/
namespace PluginLoader

open Reader

/-! ### One constant -/

namespace WrittenConstant

/-- The sizes and widths that reading goes by are those of the format. -/
theorem payload_iff {tag : UInt8} {size : Nat} {wide : Bool} :
    ConstantPool.payload? tag = some (size, wide) ↔
      tag ∈ tagsOfSize size ∧ wide = decide (tag = 5 ∨ tag = 6) := by
  constructor
  · intro found
    unfold ConstantPool.payload? at found
    split at found <;> cases found <;> rename_i number <;>
      cases UInt8.toNat_inj.mp (number.trans (UInt8.toNat_ofNat_of_lt' (by decide)).symm) <;> decide
  · rintro ⟨member, rfl⟩
    unfold tagsOfSize at member
    split at member <;> fin_cases member <;> rfl

theorem legal_of_readConstant {index : UInt16} {c after : Cursor} {constant : Constant}
    {wide : Bool}
    (reading : ConstantPool.readConstant index c = .ok ((constant, wide), after)) :
    ∃ written : WrittenConstant, written.Legal ∧ c.Spans written.bytes after ∧
      constant = written.kept ∧ wide = written.isWide := by
  unfold ConstantPool.readConstant at reading
  obtain ⟨tag, tagged, tagging, reading⟩ := bind_ok.mp reading
  rw [u8_ok] at tagging
  by_cases isText : tag = 1
  · subst isText
    rw [if_pos rfl] at reading
    obtain ⟨length, sized, sizing, reading⟩ := bind_ok.mp reading
    obtain ⟨raw, filled, filling, reading⟩ := bind_ok.mp reading
    rw [u16_ok] at sizing
    obtain ⟨enough, filling⟩ := bytes_ok.mp filling
    cases decoded : ModifiedUtf8.decode? raw with
    | none =>
      rw [decoded] at reading
      exact absurd reading throw_ok
    | some text =>
      rw [decoded] at reading
      obtain ⟨same, rfl⟩ := pure_ok.mp reading
      cases same
      have declared : UInt16.ofNat raw.length = length := by rw [enough, UInt16.ofNat_toNat]
      have legal : Legal (.text raw) :=
        .text (enough ▸ length.toNat_lt) (ModifiedUtf8.decode_iff.mp decoded)
      refine ⟨.text raw, legal, ?_, by simp [kept, decoded], rfl⟩
      rw [bytes, declared]
      exact Cursor.spans_cons.mpr ⟨tagged, tagging,
        Cursor.spans_append.mpr ⟨sized, sizing, filling⟩⟩
  · rw [if_neg isText] at reading
    by_cases isTypeName : tag = 7
    · subst isTypeName
      rw [if_pos rfl] at reading
      obtain ⟨nameIndex, _, naming, reading⟩ := bind_ok.mp reading
      obtain ⟨same, rfl⟩ := pure_ok.mp reading
      cases same
      rw [u16_ok] at naming
      exact ⟨.typeName nameIndex, .typeName nameIndex,
        Cursor.spans_cons.mpr ⟨tagged, tagging, naming⟩, rfl, rfl⟩
    · rw [if_neg isTypeName] at reading
      cases known : ConstantPool.payload? tag with
      | none =>
        rw [known] at reading
        exact absurd reading throw_ok
      | some payload =>
        obtain ⟨size, isWide⟩ := payload
        rw [known] at reading
        obtain ⟨_, _, skipping, reading⟩ := bind_ok.mp reading
        obtain ⟨same, rfl⟩ := pure_ok.mp reading
        cases same
        obtain ⟨payload, rfl, filling⟩ := skip_ok.mp skipping
        obtain ⟨member, rfl⟩ := payload_iff.mp known
        exact ⟨.other tag payload, .other member,
          Cursor.spans_cons.mpr ⟨tagged, tagging, filling⟩, rfl, rfl⟩

theorem readConstant_of_legal {c after : Cursor} {written : WrittenConstant}
    (legal : written.Legal) (spans : c.Spans written.bytes after) (index : UInt16) :
    ConstantPool.readConstant index c = .ok ((written.kept, written.isWide), after) := by
  unfold ConstantPool.readConstant
  rw [bind_ok]
  cases legal with
  | @text raw text short meant =>
    have decoded := ModifiedUtf8.decode_iff.mpr meant
    obtain ⟨tagged, tagging, spans⟩ := Cursor.spans_cons.mp spans
    obtain ⟨sized, sizing, filling⟩ := Cursor.spans_append.mp spans
    refine ⟨1, tagged, u8_ok.mpr tagging, ?_⟩
    rw [if_pos rfl]
    have length : raw.length = (UInt16.ofNat raw.length).toNat :=
      (UInt16.toNat_ofNat_of_lt' short).symm
    refine bind_ok.mpr ⟨_, sized, u16_ok.mpr sizing, ?_⟩
    refine bind_ok.mpr ⟨raw, after, bytes_ok.mpr ⟨length, filling⟩, ?_⟩
    rw [decoded]
    exact pure_ok.mpr ⟨by simp [kept, decoded, isWide], rfl⟩
  | typeName nameIndex =>
    obtain ⟨tagged, tagging, naming⟩ := Cursor.spans_cons.mp spans
    refine ⟨7, tagged, u8_ok.mpr tagging, ?_⟩
    exact bind_ok.mpr ⟨nameIndex, after, u16_ok.mpr naming, pure_ok.mpr ⟨rfl, rfl⟩⟩
  | @other tag payload member =>
    obtain ⟨tagged, tagging, filling⟩ := Cursor.spans_cons.mp spans
    have known := payload_iff.mpr ⟨member, rfl⟩
    refine ⟨tag, tagged, u8_ok.mpr tagging, ?_⟩
    have notText : tag ≠ 1 := by rintro rfl; cases known
    have notTypeName : tag ≠ 7 := by rintro rfl; cases known
    rw [if_neg notText, if_neg notTypeName, known]
    refine bind_ok.mpr ⟨(), after, skip_ok.mpr ⟨payload, rfl, filling⟩, ?_⟩
    exact pure_ok.mpr ⟨rfl, rfl⟩

/-- One constant is read exactly if it is written as a legal one. -/
theorem readConstant_ok {index : UInt16} {c after : Cursor} {constant : Constant} {wide : Bool} :
    ConstantPool.readConstant index c = .ok ((constant, wide), after) ↔
      ∃ written : WrittenConstant, written.Legal ∧ c.Spans written.bytes after ∧
        constant = written.kept ∧ wide = written.isWide := by
  constructor
  · exact legal_of_readConstant
  · rintro ⟨written, legal, spans, rfl, rfl⟩
    exact readConstant_of_legal legal spans index

/-! ### The constant pool -/

/-- The number the reader goes on with is the next one of the format. Where it stops short, past a
wide constant at the largest index, the constants have ended either way. -/
theorem fills_next {index count : UInt16} (below : index < count) (written : WrittenConstant)
    (rest : List WrittenConstant) :
    Fills count.toNat (ConstantPool.next written.isWide index).toNat rest ↔
      Fills count.toNat (index.toNat + written.width) rest := by
  have indexBelow := UInt16.lt_iff_toNat_lt.mp below
  have countBelow := count.toNat_lt
  unfold ConstantPool.next width
  cases written.isWide with
  | false =>
    have next : (index + 1).toNat = index.toNat + 1 := by
      simp only [UInt16.toNat_add, UInt16.reduceToNat]
      omega
    simp [next]
  | true =>
    by_cases room : index < 65534
    · have roomNat := UInt16.lt_iff_toNat_lt.mp room
      have next : (index + 2).toNat = index.toNat + 2 := by
        simp only [UInt16.toNat_add, UInt16.reduceToNat] at roomNat ⊢
        omega
      simp [room, next]
    · -- the index is the last below the count, so nothing may follow
      have last : 65534 ≤ index.toNat := by
        have full := mt UInt16.lt_iff_toNat_lt.mpr room
        simpa using full
      cases rest with
      | nil =>
        simp [room, Fills]
        omega
      | cons constant rest =>
        simp [room, Fills]
        omega

theorem pool_append (pool : ConstantPool) (first : WrittenConstant)
    (rest : List WrittenConstant) : pool ++ (first :: rest).flatMap slots =
      pool ++ ConstantPool.slots first.kept first.isWide ++ rest.flatMap slots := by
  apply Array.ext'
  simp [slots]

theorem readFrom_ok {count index : UInt16} {pool after : ConstantPool} {c d : Cursor} :
    ConstantPool.readFrom count index pool c = .ok (after, d) ↔
      ∃ constants : List WrittenConstant, (∀ constant ∈ constants, constant.Legal) ∧
        Fills count.toNat index.toNat constants ∧ c.Spans (constants.flatMap bytes) d ∧
        after = pool ++ constants.flatMap slots := by
  -- on the reader's own recursion: the pool read so far is a parameter, the cursor is not fixed
  induction index, pool using ConstantPool.readFrom.induct count generalizing c with
  | case1 index pool below ih =>
    rw [ConstantPool.readFrom, dif_pos below, bind_ok]
    constructor
    · rintro ⟨⟨constant, wide⟩, middle, reading, later⟩
      obtain ⟨first, legal, spans, rfl, rfl⟩ := readConstant_ok.mp reading
      obtain ⟨rest, legalRest, fills, spansRest, rfl⟩ := (ih _ _).mp later
      refine ⟨first :: rest, ?_, ?_, ?_, ?_⟩
      · exact List.forall_mem_cons.mpr ⟨legal, legalRest⟩
      · exact ⟨UInt16.lt_iff_toNat_lt.mp below, (fills_next below first rest).mp fills⟩
      · exact Cursor.spans_append.mpr ⟨middle, spans, spansRest⟩
      · exact (pool_append pool first rest).symm
    · rintro ⟨constants, legal, fills, spans, rfl⟩
      cases constants with
      | nil => exact absurd (UInt16.lt_iff_toNat_lt.mp below) (Nat.not_lt.mpr fills)
      | cons first rest =>
        obtain ⟨legalFirst, legalRest⟩ := List.forall_mem_cons.mp legal
        obtain ⟨middle, spansFirst, spansRest⟩ := Cursor.spans_append.mp spans
        refine ⟨(first.kept, first.isWide), middle,
          readConstant_ok.mpr ⟨first, legalFirst, spansFirst, rfl, rfl⟩, (ih _ _).mpr ?_⟩
        refine ⟨rest, legalRest, (fills_next below first rest).mpr fills.2, spansRest, ?_⟩
        exact pool_append pool first rest
  | case2 index pool full =>
    rw [ConstantPool.readFrom, dif_neg full, pure_ok]
    have ended := mt UInt16.lt_iff_toNat_lt.mpr full
    constructor
    · rintro ⟨rfl, rfl⟩
      exact ⟨[], by simp, Nat.le_of_not_lt ended, by simp, by simp⟩
    · rintro ⟨constants, _, fills, spans, rfl⟩
      cases constants with
      | nil => exact ⟨by simp, Cursor.spans_nil.mp spans⟩
      | cons first rest => exact absurd fills.1 ended

/-- The pool of constants: slot 0 is not in use, the others are numbered as the constants are. -/
def pool (constants : List WrittenConstant) : ConstantPool :=
  #[Constant.unused] ++ constants.flatMap slots

theorem readPool_ok {pool : ConstantPool} {c d : Cursor} :
    ConstantPool.read c = .ok (pool, d) ↔
      ∃ (count : UInt16) (constants : List WrittenConstant),
        (∀ constant ∈ constants, constant.Legal) ∧ Fills count.toNat 1 constants ∧
        c.Spans (bytes16 count ++ constants.flatMap bytes) d ∧
        pool = WrittenConstant.pool constants := by
  unfold ConstantPool.read
  simp only [bind_ok, u16_ok, readFrom_ok, Cursor.spans_append]
  constructor
  · rintro ⟨count, middle, counting, constants, legal, fills, spans, same⟩
    exact ⟨count, constants, legal, fills, ⟨middle, counting, spans⟩, same⟩
  · rintro ⟨count, constants, legal, fills, ⟨middle, counting, spans⟩, same⟩
    exact ⟨count, middle, counting, constants, legal, fills, spans, same⟩

theorem pool_get {constants : List WrittenConstant} {found : Constant} (used : found ≠ .unused)
    (n : Nat) : (pool constants)[n]? = some found ↔
      ∃ constant, (n, constant) ∈ numbered 1 constants ∧ constant.kept = found := by
  have flat : (pool constants)[n]? = (.unused :: constants.flatMap slots)[n]? := by
    rw [← Array.getElem?_toList, pool, Array.toList_appendList]
    rfl
  rw [flat]
  cases n with
  | zero =>
    simp only [List.getElem?_cons_zero, Option.some.injEq, used.symm, false_iff]
    rintro ⟨constant, member, _⟩
    exact Nat.not_succ_le_zero 0 (le_of_mem_numbered member)
  | succ n =>
    rw [List.getElem?_cons_succ, slot_iff used 1 n, Nat.add_comm 1 n]

/-- The reader's names are those with a dot for every slash. -/
theorem ofInternal_eq (text : List Char) : TypeName.ofInternal (String.ofList text) =
    String.ofList (text.map fun c => if c = '/' then '.' else c) := by
  rw [TypeName.ofInternal, String.toList_ofList]
  rfl

theorem typeName_ok {constants : List WrittenConstant}
    (legal : ∀ constant ∈ constants, constant.Legal) (index : UInt16) (name : String) :
    ConstantPool.typeName (pool constants) index = .ok name ↔ Names constants index name := by
  unfold ConstantPool.typeName
  constructor
  · intro found
    split at found
    · rename_i nameIndex atIndex
      split at found
      · rename_i value atName
        cases found
        obtain ⟨constant, member, kept⟩ := (pool_get Constant.noConfusion _).mp atIndex
        obtain ⟨named, memberName, keptName⟩ := (pool_get Constant.noConfusion _).mp atName
        cases kept_eq_typeName.mp kept
        obtain ⟨raw, rfl, rfl⟩ := kept_eq_text.mp keptName
        cases legal _ (mem_of_mem_numbered memberName) with
        | @text _ text _ meant =>
          rw [ModifiedUtf8.decode_iff.mpr meant, Option.getD_some, ofInternal_eq]
          exact .intro member memberName meant
      · cases found
    · cases found
  · intro names
    cases names with
    | @intro nameIndex raw text member memberName meant =>
      have decoded := ModifiedUtf8.decode_iff.mpr meant
      have atIndex : (pool constants)[index.toNat]? = some (.typeName nameIndex) :=
        (pool_get Constant.noConfusion _).mpr ⟨_, member, rfl⟩
      have atName : (pool constants)[nameIndex.toNat]? = some (.text (String.ofList text)) :=
        (pool_get Constant.noConfusion _).mpr ⟨_, memberName, by simp [kept, decoded]⟩
      rw [atIndex]
      dsimp only
      rw [atName, ← ofInternal_eq]

end WrittenConstant
/-! ### The header -/

namespace ClassHeader
variable {c d : Cursor} {pool : ConstantPool}

theorem readName_ok {name : String} :
    readName pool c = .ok (name, d) ↔
      ∃ index, c.Spans (bytes16 index) d ∧ ConstantPool.typeName pool index = .ok name := by
  simp only [readName, bind_ok, u16_ok, lift_ok]
  constructor
  · rintro ⟨index, _, spans, found, rfl⟩
    exact ⟨index, spans, found⟩
  · rintro ⟨index, spans, found⟩
    exact ⟨index, d, spans, found, rfl⟩

theorem readSuper_ok {superName : Option String} :
    readSuper pool c = .ok (superName, d) ↔
      ∃ index, c.Spans (bytes16 index) d ∧ (index = 0 → superName = none) ∧
        (index ≠ 0 → ∃ name, superName = some name ∧
          ConstantPool.typeName pool index = .ok name) := by
  unfold readSuper
  simp only [bind_ok, u16_ok]
  refine exists_congr fun index => ?_
  by_cases zero : index = 0
  · simp only [zero, if_true, pure_ok]
    constructor
    · rintro ⟨_, spans, none, rfl⟩
      exact ⟨spans, fun _ => none, fun nonzero => absurd rfl nonzero⟩
    · rintro ⟨spans, none, _⟩
      exact ⟨d, spans, none trivial, rfl⟩
  · simp only [zero, if_false, map_ok, lift_ok]
    constructor
    · rintro ⟨_, spans, name, ⟨found, rfl⟩, same⟩
      exact ⟨spans, False.elim, fun _ => ⟨name, same, found⟩⟩
    · rintro ⟨spans, _, some⟩
      obtain ⟨name, same, found⟩ := some zero
      exact ⟨d, spans, name, ⟨found, rfl⟩, same⟩

theorem readNames_ok {n : Nat} {names : List String} :
    readNames pool n c = .ok (names, d) ↔
      ∃ indices, indices.length = n ∧ c.Spans (indices.flatMap bytes16) d ∧
        List.Forall₂ (fun index name => ConstantPool.typeName pool index = .ok name)
          indices names := by
  induction n generalizing c d names with
  | zero =>
    rw [readNames, pure_ok]
    constructor
    · rintro ⟨rfl, rfl⟩
      exact ⟨[], rfl, Cursor.spans_nil.mpr rfl, .nil⟩
    · rintro ⟨indices, none, spans, named⟩
      cases List.length_eq_zero_iff.mp none
      cases named
      exact ⟨rfl, Cursor.spans_nil.mp spans⟩
  | succ n ih =>
    simp only [readNames, bind_ok, readName_ok, ih, pure_ok]
    constructor
    · rintro ⟨name, middle, ⟨index, spans, found⟩, names, _, ⟨indices, rfl, later, named⟩, rfl, rfl⟩
      exact ⟨index :: indices, rfl, Cursor.spans_append.mpr ⟨middle, spans, later⟩,
        .cons found named⟩
    · rintro ⟨indices, length, spans, named⟩
      cases named with
      | nil => cases length
      | @cons index name indices names found named =>
        obtain ⟨middle, first, later⟩ := Cursor.spans_append.mp spans
        exact ⟨name, middle, ⟨index, first, found⟩, names, d,
          ⟨indices, Nat.succ.inj length, later, named⟩, rfl, rfl⟩

theorem magic_bytes : bytes32 magic = [0xCA, 0xFE, 0xBA, 0xBE] := by decide

theorem layout_of_read {header : ClassHeader} (reading : read c = .ok (header, d)) :
    ∃ layout : HeaderLayout, layout.WellFormed ∧ c.Spans layout.bytes d ∧
      layout.Describes header := by
  unfold read at reading
  obtain ⟨found, c₁, magical, reading⟩ := bind_ok.mp reading
  rw [u32_ok] at magical
  by_cases bad : found ≠ magic
  · rw [if_pos bad] at reading
    obtain ⟨_, _, thrown, _⟩ := bind_ok.mp reading
    exact absurd thrown throw_ok
  · rw [if_neg bad] at reading
    rw [not_ne_iff.mp bad, magic_bytes] at magical
    obtain ⟨minor, c₂, hminor, reading⟩ := bind_ok.mp reading
    obtain ⟨major, c₃, hmajor, reading⟩ := bind_ok.mp reading
    obtain ⟨pool, c₄, pooled, reading⟩ := bind_ok.mp reading
    obtain ⟨access, c₅, haccess, reading⟩ := bind_ok.mp reading
    obtain ⟨name, c₆, naming, reading⟩ := bind_ok.mp reading
    obtain ⟨superName, c₇, extending, reading⟩ := bind_ok.mp reading
    obtain ⟨k, c₈, hk, reading⟩ := bind_ok.mp reading
    obtain ⟨interfaces, c₉, implementing, reading⟩ := bind_ok.mp reading
    obtain ⟨rfl, rfl⟩ := pure_ok.mp reading
    obtain ⟨count, constants, legal, fills, hpool, rfl⟩ := WrittenConstant.readPool_ok.mp pooled
    obtain ⟨thisIndex, hname, named⟩ := readName_ok.mp naming
    obtain ⟨superIndex, hsuper, noSuper, hasSuper⟩ := readSuper_ok.mp extending
    obtain ⟨indices, many, hinterfaces, implemented⟩ := readNames_ok.mp implementing
    simp only [WrittenConstant.typeName_ok legal] at named hasSuper implemented
    rw [u16_ok] at hminor hmajor haccess hk
    have declared : UInt16.ofNat indices.length = k := by rw [many, UInt16.ofNat_toNat]
    refine ⟨⟨minor, major, count, constants, access, thisIndex, superIndex, indices⟩,
      ⟨legal, fills, many ▸ k.toNat_lt⟩, ?_,
      ⟨rfl, rfl, rfl, named, noSuper, hasSuper, implemented⟩⟩
    simp only [HeaderLayout.bytes, declared, List.append_assoc, Cursor.spans_append] at hpool ⊢
    obtain ⟨c₃', hcount, hconstants⟩ := hpool
    exact ⟨c₁, magical, c₂, hminor, c₃, hmajor, c₃', hcount, c₄, hconstants, c₅, haccess,
      c₆, hname, c₇, hsuper, c₈, hk, hinterfaces⟩

theorem read_of_layout {layout : HeaderLayout} {header : ClassHeader}
    (formed : layout.WellFormed) (spans : c.Spans layout.bytes d)
    (describes : layout.Describes header) : read c = .ok (header, d) := by
  unfold read
  rw [bind_ok]
  obtain ⟨minor, major, count, constants, access, thisIndex, superIndex, indices⟩ := layout
  obtain ⟨legal, fills, few⟩ := formed
  simp only [HeaderLayout.bytes, List.append_assoc, Cursor.spans_append] at spans
  obtain ⟨c₁, magical, c₂, hminor, c₃, hmajor, c₃', hcount, c₄, hconstants, c₅, haccess,
    c₆, hname, c₇, hsuper, c₈, hk, hinterfaces⟩ := spans
  obtain ⟨_, _, ⟨_⟩, name, superName, interfaces⟩ := header
  obtain ⟨rfl, rfl, rfl, named, noSuper, hasSuper, implemented⟩ := describes
  simp only [← WrittenConstant.typeName_ok legal] at named hasSuper
  have found := implemented.imp fun index name => (WrittenConstant.typeName_ok legal index name).mpr
  have many : indices.length = (UInt16.ofNat indices.length).toNat :=
    (UInt16.toNat_ofNat_of_lt' few).symm
  refine ⟨magic, c₁, u32_ok.mpr (magic_bytes ▸ magical), ?_⟩
  rw [if_neg (not_ne_iff.mpr rfl)]
  refine bind_ok.mpr ⟨_, c₂, u16_ok.mpr hminor, ?_⟩
  refine bind_ok.mpr ⟨_, c₃, u16_ok.mpr hmajor, ?_⟩
  refine bind_ok.mpr ⟨_, c₄, WrittenConstant.readPool_ok.mpr ⟨count, constants, legal, fills,
    Cursor.spans_append.mpr ⟨c₃', hcount, hconstants⟩, rfl⟩, ?_⟩
  refine bind_ok.mpr ⟨_, c₅, u16_ok.mpr haccess, ?_⟩
  refine bind_ok.mpr ⟨_, c₆, readName_ok.mpr ⟨thisIndex, hname, named⟩, ?_⟩
  refine bind_ok.mpr ⟨_, c₇, readSuper_ok.mpr ⟨superIndex, hsuper, noSuper, hasSuper⟩, ?_⟩
  refine bind_ok.mpr ⟨_, c₈, u16_ok.mpr hk, ?_⟩
  refine bind_ok.mpr ⟨_, d, readNames_ok.mpr ⟨indices, many, hinterfaces, found⟩, ?_⟩
  exact pure_ok.mpr ⟨rfl, rfl⟩

/-- A class header parses exactly if it is laid out as one, whatever follows it: after the magic
number, the version and the count come as many legal constants as the count has room for, then the
access flags, the numbers of the type and its supertype, and the interface table, each of which
leads to a name. What it parses to is what the layout says. -/
theorem parse_ok_iff (b : List UInt8) (header : ClassHeader) :
    parse b = .ok header ↔ ∃ (layout : HeaderLayout) (rest : List UInt8),
      layout.WellFormed ∧ b = layout.bytes ++ rest ∧ layout.Describes header := by
  have reads : parse b = .ok header ↔ ∃ d, read ⟨0, b⟩ = .ok (header, d) := by
    unfold parse Reader.run
    rcases read ⟨0, b⟩ with e | ⟨found, d⟩ <;> simp [Except.map]
  rw [reads]
  -- where the reader ends is what the layout leaves of the bytes
  constructor
  · rintro ⟨d, reading⟩
    obtain ⟨layout, formed, spans, describes⟩ := layout_of_read reading
    exact ⟨layout, d.rest, formed, spans.1, describes⟩
  · rintro ⟨layout, rest, formed, rfl, describes⟩
    have spans : Cursor.Spans ⟨0, layout.bytes ++ rest⟩ layout.bytes
        ⟨0 + layout.bytes.length, rest⟩ := ⟨rfl, rfl⟩
    exact ⟨_, read_of_layout formed spans describes⟩

/-- The first constant takes the numbers 1 and 2. The type is the constant 3, whose name comes
behind it. -/
def layoutWithLong : HeaderLayout where
  minor := 0
  major := 52
  count := 7
  constants := [.other 5 [0, 0, 0, 0, 0, 0, 0, 1], .typeName 4, .text [0x61, 0x2F, 0x42],
    .text [0xC3, 0xA9], .typeName 5]
  access := 0x21
  thisIndex := 3
  superIndex := 6
  interfaces := [6]

theorem decodes_slashed : ModifiedUtf8.Decodes [0x61, 0x2F, 0x42] ['a', '/', 'B'] :=
  .standard (by decide) (by decide)

theorem decodes_accented : ModifiedUtf8.Decodes [0xC3, 0xA9] ['é'] :=
  .standard (by decide) (by decide)

theorem layoutWithLong_wellFormed : layoutWithLong.WellFormed where
  legal constant member := by
    simp only [layoutWithLong, List.mem_cons, List.not_mem_nil, or_false] at member
    rcases member with rfl | rfl | rfl | rfl | rfl
    · exact .other (by decide)
    · exact .typeName 4
    · exact .text (by decide) decodes_slashed
    · exact .text (by decide) decodes_accented
    · exact .typeName 5
  fills := by
    simp [layoutWithLong, WrittenConstant.Fills, WrittenConstant.width, WrittenConstant.isWide]
  few := by decide

theorem layoutWithLong_describes :
    layoutWithLong.Describes ⟨0, 52, ⟨0x21⟩, "a.B", some "é", ["é"]⟩ := by
  have own : (3, .typeName 4) ∈ WrittenConstant.numbered 1 layoutWithLong.constants ∧
      (4, .text [0x61, 0x2F, 0x42]) ∈ WrittenConstant.numbered 1 layoutWithLong.constants := by
    simp [layoutWithLong, WrittenConstant.numbered, WrittenConstant.width, WrittenConstant.isWide]
  have other : (6, .typeName 5) ∈ WrittenConstant.numbered 1 layoutWithLong.constants ∧
      (5, .text [0xC3, 0xA9]) ∈ WrittenConstant.numbered 1 layoutWithLong.constants := by
    simp [layoutWithLong, WrittenConstant.numbered, WrittenConstant.width, WrittenConstant.isWide]
  have named : WrittenConstant.Names layoutWithLong.constants 3 "a.B" :=
    .intro own.1 own.2 decodes_slashed
  have extended : WrittenConstant.Names layoutWithLong.constants 6 "é" :=
    .intro other.1 other.2 decodes_accented
  exact ⟨rfl, rfl, rfl, named, fun zero => absurd zero (by decide), fun _ => ⟨_, rfl, extended⟩,
    .cons extended .nil⟩

/-- A name written with a slash is told with a dot, and what follows a header is not read. -/
theorem parse_layoutWithLong :
    parse [0xCA, 0xFE, 0xBA, 0xBE, 0, 0, 0, 52, 0, 7, 5, 0, 0, 0, 0, 0, 0, 0, 1, 7, 0, 4,
      1, 0, 3, 0x61, 0x2F, 0x42, 1, 0, 2, 0xC3, 0xA9, 7, 0, 5, 0, 0x21, 0, 3, 0, 6, 0, 1, 0, 6,
      0xFF] = .ok ⟨0, 52, ⟨0x21⟩, "a.B", some "é", ["é"]⟩ :=
  (parse_ok_iff _ _).mpr
    ⟨layoutWithLong, [0xFF], layoutWithLong_wellFormed, rfl, layoutWithLong_describes⟩

end ClassHeader
end PluginLoader
