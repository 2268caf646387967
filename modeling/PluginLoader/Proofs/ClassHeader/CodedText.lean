import PluginLoader.Proofs.ClassHeader.ModifiedUtf8

/-! Constants as sequences of units. A constant may hold any units in their one, two and three byte
forms, a surrogate without its partner among them. It has a text exactly if every surrogate has its
partner. The text of a constant is described without reading it: the constant holds what the text's
characters are written as, or forms of the text's units. -/
namespace PluginLoader.ModifiedUtf8

open Utf8 (Tail)

/-- Forms of one, two and three bytes one after another, and the units they stand for. -/
inductive Coded : List UInt8 → List Nat → Prop where
  | nil : Coded [] []
  | one {a : UInt8} {rest : List UInt8} {units : List Nat} :
      0x01 ≤ a → a ≤ 0x7F → Coded rest units → Coded (a :: rest) (a.toNat :: units)
  | two {a b : UInt8} {rest : List UInt8} {units : List Nat} :
      0xC0 ≤ a → a ≤ 0xDF → Tail b → Coded rest units →
      Coded (a :: b :: rest) ((a.toNat % 32 * 64 + b.toNat % 64) :: units)
  | three {a b c : UInt8} {rest : List UInt8} {units : List Nat} :
      0xE0 ≤ a → a ≤ 0xEF → Tail b → Tail c → Coded rest units →
      Coded (a :: b :: c :: rest)
        ((a.toNat % 16 * 4096 + b.toNat % 64 * 64 + c.toNat % 64) :: units)

/-- Surrogates come in pairs only, a high one in front of a low one. -/
inductive Paired : List Nat → Prop where
  | nil : Paired []
  | single {u : Nat} {units : List Nat} :
      ¬ (0xD800 ≤ u ∧ u < 0xE000) → Paired units → Paired (u :: units)
  | pair {high low : Nat} {units : List Nat} :
      0xD800 ≤ high ∧ high < 0xDC00 → 0xDC00 ≤ low ∧ low < 0xE000 → Paired units →
      Paired (high :: low :: units)

/-- A constant says a text: it is the standard UTF-8 of the text, without a zero byte, or forms of
the UTF-16 units of the text. The forms need not be the shortest. -/
inductive Decodes (raw : List UInt8) (text : List Char) : Prop where
  | standard : 0 ∉ raw → raw = text.flatMap String.utf8EncodeChar → Decodes raw text
  | units {units : List Nat} : Coded raw units → units = text.flatMap unitsOf → Decodes raw text

variable {raw : List UInt8} {units : List Nat} {text : List Char}

/-! ### Units -/

theorem units_of_coded (coded : Coded raw units) : units? raw = some units := by
  induction coded with
  | nil => rfl
  | one above below _ ih => rw [units_one above below, ih]; rfl
  | two above below tail _ ih => rw [units_two above below tail, ih]; rfl
  | three above below second third _ ih => rw [units_three above below second third, ih]; rfl

theorem coded_of_units (found : units? raw = some units) : Coded raw units := by
  fun_induction units? raw generalizing units with
  | case1 =>
    cases found
    exact .nil
  | case2 a rest one ih =>
    obtain ⟨later, given, rfl⟩ := Option.map_eq_some_iff.mp found
    exact .one one.1 one.2 (ih given)
  | case3 a _ two b rest ih =>
    obtain ⟨x, second, found⟩ := Option.bind_eq_some_iff.mp found
    obtain ⟨later, given, rfl⟩ := Option.map_eq_some_iff.mp found
    have tail := tail_of_continuation second
    cases (continuation_of_tail tail).symm.trans second
    exact .two two.1 two.2 tail (ih given)
  | case4 => cases found
  | case5 a _ _ three b c rest ih =>
    obtain ⟨x, second, found⟩ := Option.bind_eq_some_iff.mp found
    obtain ⟨y, third, found⟩ := Option.bind_eq_some_iff.mp found
    obtain ⟨later, given, rfl⟩ := Option.map_eq_some_iff.mp found
    have tail := tail_of_continuation second
    have last := tail_of_continuation third
    cases (continuation_of_tail tail).symm.trans second
    cases (continuation_of_tail last).symm.trans third
    exact .three three.1 three.2 tail last (ih given)
  | case6 => cases found
  | case7 => cases found

theorem Coded.small (coded : Coded raw units) : ∀ u ∈ units, u < 0x10000 := by
  induction coded with
  | nil => exact List.forall_mem_nil _
  | @one a _ _ _ _ _ ih =>
    refine List.forall_mem_cons.mpr ⟨?_, ih⟩
    have octet := a.toNat_lt
    omega
  | two _ _ _ _ ih => exact List.forall_mem_cons.mpr ⟨by omega, ih⟩
  | three _ _ _ _ _ ih => exact List.forall_mem_cons.mpr ⟨by omega, ih⟩

theorem isHigh_iff {u : Nat} : isHigh u = true ↔ 0xD800 ≤ u ∧ u < 0xDC00 := by
  simp [isHigh]

theorem isLow_iff {u : Nat} : isLow u = true ↔ 0xDC00 ≤ u ∧ u < 0xE000 := by
  simp [isLow]

theorem paired_of_ofUnits {text : List Char} (found : ofUnits? units = some text) :
    Paired units := by
  fun_induction ofUnits? units generalizing text with
  | case1 => exact .nil
  | case2 u high v rest low ih =>
    obtain ⟨others, given, _⟩ := Option.map_eq_some_iff.mp found
    exact .pair (isHigh_iff.mp high) (isLow_iff.mp low) (ih given)
  | case3 => cases found
  | case4 => cases found
  | case5 => cases found
  | case6 u rest notHigh notLow ih =>
    obtain ⟨others, given, _⟩ := Option.map_eq_some_iff.mp found
    rw [isHigh_iff] at notHigh
    rw [isLow_iff] at notLow
    exact .single (by omega) (ih given)

theorem ofUnits_of_paired (paired : Paired units) : ∃ text, ofUnits? units = some text := by
  induction paired with
  | nil => exact ⟨[], rfl⟩
  | @single u units plain _ ih =>
    obtain ⟨text, found⟩ := ih
    have notHigh : ¬ isHigh u = true := by rw [isHigh_iff]; omega
    have notLow : ¬ isLow u = true := by rw [isLow_iff]; omega
    rw [ofUnits?.eq_def]
    dsimp only
    rw [if_neg notHigh, if_neg notLow, found]
    exact ⟨_, rfl⟩
  | @pair high low units leading trailing _ ih =>
    obtain ⟨text, found⟩ := ih
    rw [ofUnits?.eq_def]
    dsimp only
    rw [if_pos (isHigh_iff.mpr leading), if_pos (isLow_iff.mpr trailing), found]
    exact ⟨_, rfl⟩

theorem unitsOf_single {u : Nat} (small : u < 0x10000) (plain : ¬ (0xD800 ≤ u ∧ u < 0xE000)) :
    unitsOf (Char.ofNat u) = [u] := by
  have number : (Char.ofNat u).toNat = u := by
    apply Utf8.toNat_ofNat
    unfold Nat.isValidChar
    omega
  rw [unitsOf, number, if_pos small]

theorem unitsOf_pair {high low : Nat} (leading : 0xD800 ≤ high ∧ high < 0xDC00)
    (trailing : 0xDC00 ≤ low ∧ low < 0xE000) :
    unitsOf (Char.ofNat (0x10000 + (high - 0xD800) * 1024 + (low - 0xDC00))) = [high, low] := by
  have number : (Char.ofNat (0x10000 + (high - 0xD800) * 1024 + (low - 0xDC00))).toNat =
      0x10000 + (high - 0xD800) * 1024 + (low - 0xDC00) := by
    apply Utf8.toNat_ofNat
    unfold Nat.isValidChar
    omega
  rw [unitsOf, number, if_neg (by omega)]
  simp only [List.cons.injEq, and_true]
  omega

/-- Units read as a text exactly if they are its UTF-16. -/
theorem ofUnits_eq_some (small : ∀ u ∈ units, u < 0x10000) :
    ofUnits? units = some text ↔ units = text.flatMap unitsOf := by
  constructor
  · intro found
    fun_induction ofUnits? units generalizing text with
    | case1 =>
      cases found
      rfl
    | case2 u high v rest low ih =>
      obtain ⟨others, given, rfl⟩ := Option.map_eq_some_iff.mp found
      obtain ⟨_, small⟩ := List.forall_mem_cons.mp small
      rw [List.flatMap_cons, unitsOf_pair (isHigh_iff.mp high) (isLow_iff.mp low),
        ← ih (List.forall_mem_cons.mp small).2 given]
      rfl
    | case3 => cases found
    | case4 => cases found
    | case5 => cases found
    | case6 u rest notHigh notLow ih =>
      obtain ⟨others, given, rfl⟩ := Option.map_eq_some_iff.mp found
      obtain ⟨first, small⟩ := List.forall_mem_cons.mp small
      rw [isHigh_iff] at notHigh
      rw [isLow_iff] at notLow
      rw [List.flatMap_cons, unitsOf_single first (by omega), ← ih small given]
      rfl
  · rintro rfl
    exact ofUnits_flatMap text

/-! ### Texts -/

/-- Where units are legal, reading by way of them is the only reading: text that is taken as it
stands is the text of its units. -/
theorem decode_coded (coded : Coded raw units) : decode? raw = ofUnits? units := by
  have given := units_of_coded coded
  have slow : decodeUnits? raw = ofUnits? units := by
    rw [decodeUnits?, given]
    rfl
  cases reading : Utf8.decode? raw with
  | none => rw [decode_of_invalid reading, slow]
  | some text =>
    have free := zero_not_mem_of_units given
    rw [decode_of_valid reading free, ← slow]
    have same := Utf8.encode_of_decode reading
    rw [same, zero_in_standard] at free
    rw [same] at given ⊢
    rw [units_standard free] at given
    rw [decodeUnits_standard free]
    split at given
    · rename_i small
      rw [if_pos small]
    · cases given

/-- A constant is read as the text it says. -/
theorem decode_iff : decode? raw = some text ↔ Decodes raw text := by
  have slow (found : decodeUnits? raw = some text) : Decodes raw text := by
    obtain ⟨units, given, spelled⟩ := Option.bind_eq_some_iff.mp found
    have coded := coded_of_units given
    exact .units coded ((ofUnits_eq_some coded.small).mp spelled)
  constructor
  · intro found
    unfold decode? at found
    split at found
    · rename_i own reading
      split at found
      · exact slow found
      · rename_i free
        cases found
        exact .standard (mt List.contains_iff_mem.mpr free) (Utf8.decode_eq_some.mp reading)
    · exact slow found
  · intro meant
    cases meant with
    | standard free same => exact decode_of_valid (Utf8.decode_eq_some.mpr same) free
    | units coded spelled =>
      rw [decode_coded coded]
      exact (ofUnits_eq_some coded.small).mpr spelled

theorem decode_ok_iff (coded : Coded raw units) :
    (∃ text, decode? raw = some text) ↔ Paired units := by
  rw [decode_coded coded]
  constructor
  · rintro ⟨text, found⟩
    exact paired_of_ofUnits found
  · exact ofUnits_of_paired

end PluginLoader.ModifiedUtf8
