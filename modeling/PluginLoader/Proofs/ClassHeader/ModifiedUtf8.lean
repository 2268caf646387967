import PluginLoader.ClassHeader.ModifiedUtf8
import PluginLoader.Proofs.Text.Utf8

/-! The text of a constant is what was written: decoding inverts the modified encoding, and the
standard one of text without a zero character. Text is read in one of two ways, as it stands or by
way of units. Where both apply and no character needs more than one unit, they agree; a character
that needs two has no form among those that units are read from. -/
namespace PluginLoader.ModifiedUtf8

open Utf8 (Form Tail)

variable {text : List Char} {raw bytes rest : List UInt8} {n : Nat}

/-! ### Forms as units -/

theorem continuation_of_tail {b : UInt8} (tail : Tail b) :
    continuation? b = some (b.toNat % 64) := if_pos tail

theorem units_one {a : UInt8} (above : 0x01 ≤ a) (below : a ≤ 0x7F) (rest : List UInt8) :
    units? (a :: rest) = (units? rest).map (a.toNat :: ·) := by
  rw [units?.eq_def]
  exact if_pos ⟨above, below⟩

theorem units_two {a b : UInt8} (above : 0xC0 ≤ a) (below : a ≤ 0xDF) (tail : Tail b)
    (rest : List UInt8) :
    units? (a :: b :: rest) = (units? rest).map ((a.toNat % 32 * 64 + b.toNat % 64) :: ·) := by
  have large : ¬ (0x01 ≤ a ∧ a ≤ 0x7F) := by
    simp only [UInt8.le_iff_toNat_le, UInt8.reduceToNat] at *
    omega
  rw [units?.eq_def]
  dsimp only
  rw [if_neg large, if_pos ⟨above, below⟩, continuation_of_tail tail]
  rfl

theorem units_three {a b c : UInt8} (above : 0xE0 ≤ a) (below : a ≤ 0xEF) (second : Tail b)
    (third : Tail c) (rest : List UInt8) :
    units? (a :: b :: c :: rest) =
      (units? rest).map ((a.toNat % 16 * 4096 + b.toNat % 64 * 64 + c.toNat % 64) :: ·) := by
  have large : ¬ (0x01 ≤ a ∧ a ≤ 0x7F) ∧ ¬ (0xC0 ≤ a ∧ a ≤ 0xDF) := by
    simp only [UInt8.le_iff_toNat_le, UInt8.reduceToNat] at *
    omega
  rw [units?.eq_def]
  dsimp only
  rw [if_neg large.1, if_neg large.2, if_pos ⟨above, below⟩, continuation_of_tail second,
    continuation_of_tail third]
  rfl

theorem units_above {a : UInt8} (above : 0xF0 ≤ a) (rest : List UInt8) :
    units? (a :: rest) = none := by
  have large : ¬ (0x01 ≤ a ∧ a ≤ 0x7F) ∧ ¬ (0xC0 ≤ a ∧ a ≤ 0xDF) ∧ ¬ (0xE0 ≤ a ∧ a ≤ 0xEF) := by
    simp only [UInt8.le_iff_toNat_le, UInt8.reduceToNat] at *
    omega
  rw [units?.eq_def]
  dsimp only
  rw [if_neg large.1, if_neg large.2.1, if_neg large.2.2]

/-- A form of up to three bytes gives its number as one unit; a longer one gives none. -/
theorem units_form (form : Form bytes n) (nonzero : n ≠ 0) (rest : List UInt8) :
    units? (bytes ++ rest) = if n < 0x10000 then (units? rest).map (n :: ·) else none := by
  cases form with
  | @one a small =>
    simp only [UInt8.lt_iff_toNat_lt, UInt8.reduceToNat] at small
    rw [if_pos (by omega)]
    apply units_one <;> simp only [UInt8.le_iff_toNat_le, UInt8.reduceToNat] <;> omega
  | @two a b above below tail =>
    rw [if_pos (by omega)]
    exact units_two (UInt8.le_trans (by decide) above) below tail rest
  | @three a b c above below tail _ _ last =>
    have number : (a.toNat % 16 * 64 + b.toNat % 64) * 64 + c.toNat % 64 =
        a.toNat % 16 * 4096 + b.toNat % 64 * 64 + c.toNat % 64 := by omega
    rw [if_pos (by omega), number]
    exact units_three above below tail last rest
  | @four a b c d above below tail low _ third last =>
    have wide : ¬ ((a.toNat % 8 * 64 + b.toNat % 64) * 64 + c.toNat % 64) * 64 + d.toNat % 64 <
        0x10000 := by
      simp only [Tail, UInt8.le_iff_toNat_le, ← UInt8.toNat_inj, UInt8.reduceToNat] at *
      omega
    rw [if_neg wide]
    exact units_above above _

/-- Only a character past the first plane is written with a byte above those of three byte forms. -/
theorem high_in_form (form : Form bytes n) : (∃ b ∈ bytes, 0xF0 ≤ b) ↔ 0x10000 ≤ n := by
  cases form <;>
    simp only [List.mem_cons, List.not_mem_nil, or_false, exists_eq_or_imp, exists_eq_left] <;>
    simp only [Tail, UInt8.lt_iff_toNat_lt, UInt8.le_iff_toNat_le, ← UInt8.toNat_inj,
      UInt8.reduceToNat] at * <;> omega

theorem zero_in_form (form : Form bytes n) : 0 ∈ bytes ↔ n = 0 := by
  cases form <;>
    simp only [Tail, UInt8.lt_iff_toNat_lt, UInt8.le_iff_toNat_le, ← UInt8.toNat_inj,
      UInt8.reduceToNat, List.mem_cons, List.not_mem_nil, or_false] at * <;> omega

/-! ### Units as written -/

theorem units_encodeUnit (small : n < 0x10000) (rest : List UInt8) :
    units? (encodeUnit n ++ rest) = (units? rest).map (n :: ·) := by
  unfold encodeUnit
  split
  · rename_i zero
    rw [zero]
    exact units_two (by decide) (by decide) (by decide) rest
  split
  · have number : (UInt8.ofNat n).toNat = n := by
      rw [UInt8.toNat_ofNat']
      omega
    have one : units? (UInt8.ofNat n :: rest) =
        (units? rest).map ((UInt8.ofNat n).toNat :: ·) := by
      apply units_one <;> simp only [UInt8.le_iff_toNat_le, UInt8.reduceToNat] <;> omega
    rwa [number] at one
  split
  · generalize first : UInt8.ofNat (0xC0 + n / 64) = a
    generalize second : UInt8.ofNat (0x80 + n % 64) = b
    simp only [← UInt8.toNat_inj, UInt8.toNat_ofNat'] at first second
    have number : a.toNat % 32 * 64 + b.toNat % 64 = n := by omega
    rw [← number]
    apply units_two <;> simp only [Tail, UInt8.le_iff_toNat_le, UInt8.reduceToNat] <;> omega
  · generalize first : UInt8.ofNat (0xE0 + n / 4096) = a
    generalize second : UInt8.ofNat (0x80 + n / 64 % 64) = b
    generalize third : UInt8.ofNat (0x80 + n % 64) = c
    simp only [← UInt8.toNat_inj, UInt8.toNat_ofNat'] at first second third
    have number : a.toNat % 16 * 4096 + b.toNat % 64 * 64 + c.toNat % 64 = n := by omega
    rw [← number]
    apply units_three <;> simp only [Tail, UInt8.le_iff_toNat_le, UInt8.reduceToNat] <;> omega

theorem units_flatMap {units : List Nat} (small : ∀ u ∈ units, u < 0x10000) :
    units? (units.flatMap encodeUnit) = some units := by
  induction units with
  | nil => rfl
  | cons u units ih =>
    obtain ⟨head, tail⟩ := List.forall_mem_cons.mp small
    rw [List.flatMap_cons, units_encodeUnit head, ih tail]
    rfl

theorem toNat_cases (c : Char) : c.toNat < 0xD800 ∨ 0xE000 ≤ c.toNat ∧ c.toNat < 0x110000 := by
  have valid : c.val.toNat < 0xD800 ∨ 0xDFFF < c.val.toNat ∧ c.val.toNat < 0x110000 := c.valid
  exact valid

theorem unitsOf_small {c : Char} {u : Nat} (member : u ∈ unitsOf c) : u < 0x10000 := by
  have valid := toNat_cases c
  unfold unitsOf at member
  split at member
  · rw [List.mem_singleton.mp member]
    assumption
  · simp only [List.mem_cons, List.not_mem_nil, or_false] at member
    omega

theorem ofUnits_unitsOf (c : Char) (rest : List Nat) :
    ofUnits? (unitsOf c ++ rest) = (ofUnits? rest).map (c :: ·) := by
  have valid := toNat_cases c
  unfold unitsOf
  split
  · have single : isHigh c.toNat = false ∧ isLow c.toNat = false := by
      simp only [isHigh, isLow, Bool.and_eq_false_iff, decide_eq_false_iff_not]
      omega
    rw [List.singleton_append, ofUnits?.eq_def]
    simp only [single, Bool.false_eq_true, if_false, Char.ofNat_toNat]
  · generalize high : 0xD800 + (c.toNat - 0x10000) / 1024 = u
    generalize low : 0xDC00 + (c.toNat - 0x10000) % 1024 = v
    have pair : isHigh u = true ∧ isLow v = true := by
      simp only [isHigh, isLow, Bool.and_eq_true, decide_eq_true_eq]
      omega
    have number : 0x10000 + (u - 0xD800) * 1024 + (v - 0xDC00) = c.toNat := by omega
    rw [List.cons_append, List.singleton_append, ofUnits?.eq_def]
    simp only [pair, if_true, number, Char.ofNat_toNat]

theorem ofUnits_flatMap (text : List Char) : ofUnits? (text.flatMap unitsOf) = some text := by
  induction text with
  | nil => rfl
  | cons c text ih =>
    rw [List.flatMap_cons, ofUnits_unitsOf, ih]
    rfl

theorem decodeUnits_encode (text : List Char) : decodeUnits? (encode text) = some text := by
  have units : units? (encode text) = some (text.flatMap unitsOf) := by
    apply units_flatMap
    intro u member
    obtain ⟨c, _, inside⟩ := List.mem_flatMap.mp member
    exact unitsOf_small inside
  rw [decodeUnits?, units]
  exact ofUnits_flatMap text

/-! ### Zero bytes -/

theorem tail_of_continuation {b : UInt8} {x : Nat} (continues : continuation? b = some x) :
    Tail b := by
  unfold continuation? at continues
  split at continues
  · assumption
  · cases continues

theorem ne_zero_of_le {a low : UInt8} (positive : 0 < low) (above : low ≤ a) : 0 ≠ a := by
  rintro rfl
  exact absurd above (UInt8.not_le.mpr positive)

/-- Bytes that give units hold no zero: none starts a form, and none continues one. -/
theorem zero_not_mem_of_units {units : List Nat} (found : units? raw = some units) : 0 ∉ raw := by
  fun_induction units? raw generalizing units with
  | case1 => exact List.not_mem_nil
  | case2 a rest one ih =>
    obtain ⟨later, given, _⟩ := Option.map_eq_some_iff.mp found
    have first : 0 ≠ a := ne_zero_of_le (by decide) one.1
    exact List.not_mem_cons_of_ne_of_not_mem first (ih given)
  | case3 a _ two b rest ih =>
    obtain ⟨x, second, found⟩ := Option.bind_eq_some_iff.mp found
    obtain ⟨later, given, _⟩ := Option.map_eq_some_iff.mp found
    have first : 0 ≠ a := ne_zero_of_le (by decide) two.1
    have tail : 0 ≠ b := ne_zero_of_le (by decide) (tail_of_continuation second).1
    simp only [List.mem_cons, first, tail, ih given, or_self, not_false_eq_true]
  | case4 => cases found
  | case5 a _ _ three b c rest ih =>
    obtain ⟨x, second, found⟩ := Option.bind_eq_some_iff.mp found
    obtain ⟨y, third, found⟩ := Option.bind_eq_some_iff.mp found
    obtain ⟨later, given, _⟩ := Option.map_eq_some_iff.mp found
    have first : 0 ≠ a := ne_zero_of_le (by decide) three.1
    have tail : 0 ≠ b := ne_zero_of_le (by decide) (tail_of_continuation second).1
    have last : 0 ≠ c := ne_zero_of_le (by decide) (tail_of_continuation third).1
    simp only [List.mem_cons, first, tail, last, ih given, or_self, not_false_eq_true]
  | case6 => cases found
  | case7 => cases found

theorem decodeUnits_of_zero (zero : 0 ∈ raw) : decodeUnits? raw = none := by
  unfold decodeUnits?
  cases given : units? raw with
  | none => rfl
  | some units => exact absurd zero (zero_not_mem_of_units given)

/-! ### The two readings -/

/-- Standard text without a zero character, read by way of units: one for each character, as long as
none needs two. -/
theorem units_standard (free : Char.ofNat 0 ∉ text) :
    units? (text.flatMap String.utf8EncodeChar) =
      if text.all (·.toNat < 0x10000) then some (text.map Char.toNat) else none := by
  induction text with
  | nil => rfl
  | cons c text ih =>
    obtain ⟨first, others⟩ := List.ne_and_not_mem_of_not_mem_cons free
    have nonzero : c.toNat ≠ 0 := by
      intro zero
      exact first (by rw [← zero, Char.ofNat_toNat])
    rw [List.flatMap_cons, units_form (Utf8.form_encode c) nonzero, ih others]
    rw [List.all_cons]
    by_cases small : c.toNat < 0x10000
    · cases rest : text.all (·.toNat < 0x10000) <;> simp [small]
    · simp [small]

theorem ofUnits_toNat (small : text.all (·.toNat < 0x10000) = true) :
    ofUnits? (text.map Char.toNat) = some text := by
  induction text with
  | nil => rfl
  | cons c text ih =>
    rw [List.all_cons, Bool.and_eq_true, decide_eq_true_iff] at small
    obtain ⟨head, tail⟩ := small
    have single : unitsOf c = [c.toNat] := if_pos head
    have first := ofUnits_unitsOf c (text.map Char.toNat)
    rw [single, ih tail] at first
    exact first

theorem decodeUnits_standard (free : Char.ofNat 0 ∉ text) :
    decodeUnits? (text.flatMap String.utf8EncodeChar) =
      if text.all (·.toNat < 0x10000) then some text else none := by
  rw [decodeUnits?, units_standard free]
  cases small : text.all (·.toNat < 0x10000) with
  | true => exact ofUnits_toNat small
  | false => rfl

theorem zero_in_standard : 0 ∈ text.flatMap String.utf8EncodeChar ↔ Char.ofNat 0 ∈ text := by
  simp only [List.mem_flatMap, zero_in_form (Utf8.form_encode _)]
  constructor
  · rintro ⟨c, member, zero⟩
    rwa [← zero, Char.ofNat_toNat]
  · exact fun member => ⟨_, member, rfl⟩

theorem high_in_standard : (∃ b ∈ text.flatMap String.utf8EncodeChar, 0xF0 ≤ b) ↔
    ∃ c ∈ text, 0x10000 ≤ c.toNat := by
  simp only [List.mem_flatMap, ← high_in_form (Utf8.form_encode _)]
  constructor
  · rintro ⟨b, ⟨c, member, inside⟩, high⟩
    exact ⟨c, member, b, inside, high⟩
  · rintro ⟨c, member, b, inside, high⟩
    exact ⟨b, ⟨c, member, inside⟩, high⟩

theorem decode_of_valid (valid : Utf8.decode? raw = some text) (free : 0 ∉ raw) :
    decode? raw = some text := by
  unfold decode?
  rw [valid]
  exact if_neg fun contained => free (List.contains_iff_mem.mp contained)

theorem decode_of_invalid (invalid : Utf8.decode? raw = none) : decode? raw = decodeUnits? raw := by
  unfold decode?
  rw [invalid]

theorem decode_of_zero (zero : 0 ∈ raw) : decode? raw = none := by
  rw [← decodeUnits_of_zero zero]
  unfold decode?
  cases Utf8.decode? raw with
  | none => rfl
  | some text => exact if_pos (List.contains_iff_mem.mpr zero)

theorem decode_standard (free : Char.ofNat 0 ∉ text) :
    decode? (text.flatMap String.utf8EncodeChar) = some text :=
  decode_of_valid (Utf8.decode_encode text) (mt zero_in_standard.mp free)

theorem decode_encode (text : List Char) : decode? (encode text) = some text := by
  have slow := decodeUnits_encode text
  cases reading : Utf8.decode? (encode text) with
  | none => rw [decode_of_invalid reading, slow]
  | some other =>
    -- the encoding is also that of another text, which both readings apply to
    have free : 0 ∉ encode text := by
      intro zero
      cases (decodeUnits_of_zero zero).symm.trans slow
    rw [decode_of_valid reading free]
    have same := Utf8.encode_of_decode reading
    rw [same, zero_in_standard] at free
    rw [same, decodeUnits_standard free] at slow
    split at slow
    · exact slow
    · cases slow

/-- Decoding inverts encoding. Every text reads back from its modified encoding, and text without
a zero character from the standard one as well; bytes with a zero among them are no text. -/
theorem text_reads_back (text : List Char) (raw : List UInt8) :
    decode? (encode text) = some text ∧
    (Char.ofNat 0 ∉ text → decode? (text.flatMap String.utf8EncodeChar) = some text) ∧
    (0 ∈ raw → decode? raw = none) :=
  ⟨decode_encode text, decode_standard, decode_of_zero⟩

/-- A zero is written in two bytes, and a character past the first plane as two surrogates. -/
theorem mixed_text_reads_back :
    decode? [0x61, 0xC0, 0x80, 0xED, 0xA0, 0xBD, 0xED, 0xB8, 0x80] =
      some [Char.ofNat 0x61, Char.ofNat 0, Char.ofNat 0x1F600] ∧
    decode? [0xE2, 0x82, 0xAC, 0xF0, 0x9F, 0x98, 0x80] =
      some [Char.ofNat 0x20AC, Char.ofNat 0x1F600] ∧
    decode? [0x61, 0] = none := by
  obtain ⟨modified, _, _⟩ :=
    text_reads_back [Char.ofNat 0x61, Char.ofNat 0, Char.ofNat 0x1F600] []
  obtain ⟨_, standard, refused⟩ :=
    text_reads_back [Char.ofNat 0x20AC, Char.ofNat 0x1F600] [0x61, 0]
  exact ⟨modified, standard (by decide), refused (by decide)⟩

/-- The two readings agree. Valid UTF-8 without a zero byte is taken as it stands; read by way of
units it gives the same text if all bytes are below those that start four byte forms, and no text if
and only if one is not. -/
theorem readings_agree (raw : List UInt8) (valid : ByteArray.IsValidUTF8 raw.toByteArray)
    (free : 0 ∉ raw) :
    ∃ text, raw = text.flatMap String.utf8EncodeChar ∧ Utf8.decode? raw = some text ∧
      decode? raw = some text ∧
      ((∀ b ∈ raw, b < 0xF0) → decodeUnits? raw = some text) ∧
      (decodeUnits? raw = none ↔ ∃ b ∈ raw, 0xF0 ≤ b) := by
  obtain ⟨text, written⟩ := valid
  have same : raw = text.flatMap String.utf8EncodeChar := by
    have lists := congrArg (fun bytes => bytes.data.toList) written
    simpa only [List.utf8Encode, List.toList_data_toByteArray] using lists
  subst same
  rw [zero_in_standard] at free
  have slow := decodeUnits_standard free
  refine ⟨text, rfl, Utf8.decode_encode text, decode_standard free, ?_, ?_⟩
  · intro low
    rw [slow, if_pos]
    refine List.all_eq_true.mpr fun c member => decide_eq_true (Nat.lt_of_not_le fun wide => ?_)
    obtain ⟨b, inside, high⟩ := high_in_standard.mpr ⟨c, member, wide⟩
    exact absurd (low b inside) (UInt8.not_lt.mpr high)
  · rw [slow, high_in_standard]
    simp

/-- Three byte forms are read either way, a four byte form only as it stands. -/
theorem readings_of_symbols :
    decodeUnits? [0xC3, 0xA9, 0xE2, 0x82, 0xAC] = some [Char.ofNat 0xE9, Char.ofNat 0x20AC] ∧
    decodeUnits? [0x61, 0xF0, 0x9F, 0x98, 0x80] = none ∧
    decode? [0x61, 0xF0, 0x9F, 0x98, 0x80] = some [Char.ofNat 0x61, Char.ofNat 0x1F600] := by
  obtain ⟨_, _, _, first, same, _⟩ := readings_agree [0xC3, 0xA9, 0xE2, 0x82, 0xAC]
    ⟨[Char.ofNat 0xE9, Char.ofNat 0x20AC], rfl⟩ (by decide)
  obtain ⟨_, _, _, second, _, refused⟩ := readings_agree [0x61, 0xF0, 0x9F, 0x98, 0x80]
    ⟨[Char.ofNat 0x61, Char.ofNat 0x1F600], rfl⟩ (by decide)
  have fourBytes : ∃ b ∈ ([0x61, 0xF0, 0x9F, 0x98, 0x80] : List UInt8), 0xF0 ≤ b :=
    ⟨0xF0, by simp, by decide⟩
  refine ⟨(same (by simp)).trans ?_, refused.mpr fourBytes, second.trans ?_⟩
  · rw [← first]
    decide
  · rw [← second]
    decide

end PluginLoader.ModifiedUtf8
