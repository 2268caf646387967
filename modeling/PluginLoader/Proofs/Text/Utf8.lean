import PluginLoader.Text.Utf8

/-! Strict reading accepts well-formed UTF-8 and nothing else: bytes read as a text exactly if they
are what the characters of the text are written as, one after another. Overlong forms, surrogates
and numbers past the last character are no forms. -/
namespace PluginLoader.Utf8

variable {text : List Char} {bytes rest : List UInt8} {n : Nat}

/-! ### Forms of a character -/

/-- A byte that continues a form. -/
def Tail (b : UInt8) : Prop := 0x80 ≤ b ∧ b ≤ 0xBF

instance (b : UInt8) : Decidable (Tail b) := inferInstanceAs (Decidable (_ ∧ _))

/-- The bytes that a character's number is written as. Where the first byte alone would allow for a
longer form than the number needs, for a surrogate or for a number past the last character, the
second byte rules it out. -/
inductive Form : List UInt8 → Nat → Prop where
  | one {a : UInt8} : a < 0x80 → Form [a] a.toNat
  | two {a b : UInt8} : 0xC2 ≤ a → a ≤ 0xDF → Tail b →
      Form [a, b] (a.toNat % 32 * 64 + b.toNat % 64)
  | three {a b c : UInt8} : 0xE0 ≤ a → a ≤ 0xEF → Tail b → (a = 0xE0 → 0xA0 ≤ b) →
      (a = 0xED → b ≤ 0x9F) → Tail c →
      Form [a, b, c] ((a.toNat % 16 * 64 + b.toNat % 64) * 64 + c.toNat % 64)
  | four {a b c d : UInt8} : 0xF0 ≤ a → a ≤ 0xF4 → Tail b → (a = 0xF0 → 0x90 ≤ b) →
      (a = 0xF4 → b ≤ 0x8F) → Tail c → Tail d →
      Form [a, b, c, d]
        (((a.toNat % 8 * 64 + b.toNat % 64) * 64 + c.toNat % 64) * 64 + d.toNat % 64)

theorem toNat_ofNat (valid : n.isValidChar) : (Char.ofNat n).val.toNat = n := by
  rw [Char.ofNat, dif_pos valid]
  rfl

theorem Form.encode (form : Form bytes n) : String.utf8EncodeChar (Char.ofNat n) = bytes := by
  have valid : n.isValidChar := by
    unfold Nat.isValidChar
    cases form <;> simp only [Tail, UInt8.lt_iff_toNat_lt, UInt8.le_iff_toNat_le,
      ← UInt8.toNat_inj, UInt8.reduceToNat] at * <;> omega
  simp only [String.utf8EncodeChar, toNat_ofNat valid]
  cases form with
  | one =>
    simp only [UInt8.lt_iff_toNat_lt, UInt8.reduceToNat] at *
    rw [if_pos (by omega), UInt8.ofNat_toNat]
  | two =>
    simp only [Tail, UInt8.le_iff_toNat_le, UInt8.reduceToNat] at *
    rw [if_neg (by omega), if_pos (by omega)]
    simp only [List.cons.injEq, ← UInt8.toNat_inj, UInt8.toNat_ofNat', and_true]
    omega
  | three =>
    simp only [Tail, UInt8.le_iff_toNat_le, ← UInt8.toNat_inj, UInt8.reduceToNat] at *
    rw [if_neg (by omega), if_neg (by omega), if_pos (by omega)]
    simp only [List.cons.injEq, ← UInt8.toNat_inj, UInt8.toNat_ofNat', and_true]
    omega
  | four =>
    simp only [Tail, UInt8.le_iff_toNat_le, ← UInt8.toNat_inj, UInt8.reduceToNat] at *
    rw [if_neg (by omega), if_neg (by omega), if_neg (by omega)]
    simp only [List.cons.injEq, ← UInt8.toNat_inj, UInt8.toNat_ofNat', and_true]
    omega

theorem form_encode (c : Char) : Form (String.utf8EncodeChar c) c.toNat := by
  have valid : c.val.toNat < 0xD800 ∨ 0xDFFF < c.val.toNat ∧ c.val.toNat < 0x110000 := c.valid
  simp only [Char.toNat, String.utf8EncodeChar]
  generalize c.val.toNat = n at valid ⊢
  split
  · have number : (UInt8.ofNat n).toNat = n := by
      rw [UInt8.toNat_ofNat']
      omega
    have form : Form [UInt8.ofNat n] (UInt8.ofNat n).toNat := by
      apply Form.one
      simp only [UInt8.lt_iff_toNat_lt, UInt8.reduceToNat]
      omega
    rwa [number] at form
  -- from here on the number is known by its digits to the base 64
  have ones : n = n / 64 * 64 + n % 64 := by omega
  have tens : n / 64 = n / 4096 * 64 + n / 64 % 64 := by omega
  have below : n % 64 < 64 ∧ n / 64 % 64 < 64 := by omega
  generalize n % 64 = w at ones below ⊢
  split
  · generalize n / 64 = z at ones ⊢
    generalize first : UInt8.ofNat (z % 32 + 192) = a
    generalize second : UInt8.ofNat (w + 128) = b
    simp only [← UInt8.toNat_inj, UInt8.toNat_ofNat'] at first second
    have number : a.toNat % 32 * 64 + b.toNat % 64 = n := by omega
    rw [← number]
    apply Form.two <;> simp only [Tail, UInt8.le_iff_toNat_le, UInt8.reduceToNat] <;> omega
  split
  · generalize n / 64 % 64 = z at tens below ⊢
    generalize n / 4096 = y at tens ⊢
    generalize first : UInt8.ofNat (y % 16 + 224) = a
    generalize second : UInt8.ofNat (z + 128) = b
    generalize third : UInt8.ofNat (w + 128) = c
    simp only [← UInt8.toNat_inj, UInt8.toNat_ofNat'] at first second third
    have number : (a.toNat % 16 * 64 + b.toNat % 64) * 64 + c.toNat % 64 = n := by omega
    rw [← number]
    apply Form.three <;>
      simp only [Tail, ← UInt8.toNat_inj, UInt8.le_iff_toNat_le, UInt8.reduceToNat] <;> omega
  · have hundreds : n / 4096 = n / 262144 * 64 + n / 4096 % 64 := by omega
    have small : n / 4096 % 64 < 64 := by omega
    generalize n / 64 % 64 = z at tens below ⊢
    generalize n / 4096 % 64 = y at hundreds small ⊢
    generalize n / 262144 = x at hundreds ⊢
    rw [hundreds] at tens
    rw [tens] at ones
    clear tens hundreds
    generalize first : UInt8.ofNat (x % 8 + 240) = a
    generalize second : UInt8.ofNat (y + 128) = b
    generalize third : UInt8.ofNat (z + 128) = c
    generalize fourth : UInt8.ofNat (w + 128) = d
    simp only [← UInt8.toNat_inj, UInt8.toNat_ofNat'] at first second third fourth
    have number :
        ((a.toNat % 8 * 64 + b.toNat % 64) * 64 + c.toNat % 64) * 64 + d.toNat % 64 = n := by omega
    rw [← number]
    apply Form.four <;>
      simp only [Tail, ← UInt8.toNat_inj, UInt8.le_iff_toNat_le, UInt8.reduceToNat] <;> omega

/-! ### Reading -/

/-- The text that bytes stand for from a state on, if no stretch of them is ill-formed. -/
def text? (state : Option Begun) (bytes : List UInt8) : Option (List Char) :=
  (stretches state bytes).mapM id

theorem text_cons (state : Option Begun) (b : UInt8) (rest : List UInt8) :
    text? state (b :: rest) =
      ((step state b).1.mapM id).bind fun front =>
        (text? (step state b).2 rest).map (front ++ ·) := by
  rw [text?, text?, stretches, List.mapM_append]
  cases List.mapM id (step state b).1 <;>
    cases List.mapM id (stretches (step state b).2 rest) <;> rfl

theorem text_enter (a : UInt8) (rest : List UInt8) :
    text? none (a :: rest) =
      if a < 0x80 then (text? none rest).map (Char.ofNat a.toNat :: ·)
      else (enter a).2.bind fun p => text? (some p) rest := by
  rw [text_cons, step, enter]
  by_cases one : a < 0x80
  · simp [one]
  by_cases two : 0xC2 ≤ a ∧ a ≤ 0xDF
  · simp [one, two]
  by_cases three : 0xE0 ≤ a ∧ a ≤ 0xEF
  · simp [one, two, three]
  by_cases four : 0xF0 ≤ a ∧ a ≤ 0xF4
  · simp [one, two, three, four]
  · simp [one, two, three, four]

theorem text_begun (p : Begun) (b : UInt8) (rest : List UInt8) :
    text? (some p) (b :: rest) =
      if p.low ≤ b ∧ b ≤ p.high then
        match p.owed with
        | 0 => (text? none rest).map (Char.ofNat (p.bits * 64 + b.toNat % 64) :: ·)
        | owed + 1 => text? (some ⟨owed, p.bits * 64 + b.toNat % 64, 0x80, 0xBF⟩) rest
      else none := by
  rw [text_cons, step]
  by_cases fits : p.low ≤ b ∧ b ≤ p.high
  · cases p.owed <;> simp [fits]
  · simp [fits]

theorem text_begun_some {p : Begun} (found : text? (some p) bytes = some text) :
    ∃ b rest, bytes = b :: rest ∧ (p.low ≤ b ∧ b ≤ p.high) ∧
      (match p.owed with
        | 0 => (text? none rest).map (Char.ofNat (p.bits * 64 + b.toNat % 64) :: ·)
        | owed + 1 => text? (some ⟨owed, p.bits * 64 + b.toNat % 64, 0x80, 0xBF⟩) rest) =
          some text := by
  cases bytes with
  | nil => cases found
  | cons b rest =>
    rw [text_begun] at found
    split at found
    · rename_i fits
      exact ⟨b, rest, rfl, fits, found⟩
    · cases found

/-- The range of a second byte is that of all bytes that continue a form, less what the first byte
rules out. -/
theorem range_iff {p q : Prop} [Decidable p] [Decidable q] {low high b : UInt8} (above : 0x80 ≤ low)
    (below : high ≤ 0xBF) : (if p then low else 0x80) ≤ b ∧ (b ≤ if q then high else 0xBF) ↔
      Tail b ∧ (p → low ≤ b) ∧ (q → b ≤ high) := by
  have lower : (if p then low else 0x80) ≤ b ↔ 0x80 ≤ b ∧ (p → low ≤ b) := by
    by_cases holds : p
    · simpa [holds] using UInt8.le_trans above
    · simp [holds]
  have upper : (b ≤ if q then high else 0xBF) ↔ b ≤ 0xBF ∧ (q → b ≤ high) := by
    by_cases holds : q
    · simpa [holds] using fun le : b ≤ high => UInt8.le_trans le below
    · simp [holds]
  rw [lower, upper, Tail, and_and_and_comm]

theorem Form.read (form : Form bytes n) (rest : List UInt8) :
    text? none (bytes ++ rest) = (text? none rest).map (Char.ofNat n :: ·) := by
  cases form with
  | one small => rw [List.singleton_append, text_enter, if_pos small]
  | @two a b above below tail =>
    have large : ¬ a < 0x80 := by
      simp only [UInt8.lt_iff_toNat_lt, UInt8.le_iff_toNat_le, UInt8.reduceToNat] at *
      omega
    rw [List.cons_append, List.singleton_append, text_enter, if_neg large, enter, if_neg large,
      if_pos ⟨above, below⟩]
    exact (text_begun _ b rest).trans (if_pos tail)
  | @three a b c above below tail low high last =>
    have large : ¬ a < 0x80 ∧ ¬ (0xC2 ≤ a ∧ a ≤ 0xDF) := by
      simp only [UInt8.lt_iff_toNat_lt, UInt8.le_iff_toNat_le, UInt8.reduceToNat] at *
      omega
    have second := (range_iff (by decide) (by decide)).mpr ⟨tail, low, high⟩
    simp only [List.cons_append, List.nil_append]
    rw [text_enter, if_neg large.1, enter, if_neg large.1, if_neg large.2, if_pos ⟨above, below⟩]
    refine (text_begun _ b _).trans ((if_pos second).trans ?_)
    exact (text_begun _ c rest).trans (if_pos last)
  | @four a b c d above below tail low high third last =>
    have large : ¬ a < 0x80 ∧ ¬ (0xC2 ≤ a ∧ a ≤ 0xDF) ∧ ¬ (0xE0 ≤ a ∧ a ≤ 0xEF) := by
      simp only [UInt8.lt_iff_toNat_lt, UInt8.le_iff_toNat_le, UInt8.reduceToNat] at *
      omega
    have second := (range_iff (by decide) (by decide)).mpr ⟨tail, low, high⟩
    simp only [List.cons_append, List.nil_append]
    rw [text_enter, if_neg large.1, enter, if_neg large.1, if_neg large.2.1, if_neg large.2.2,
      if_pos ⟨above, below⟩]
    refine (text_begun _ b _).trans ((if_pos second).trans ?_)
    refine (text_begun _ c _).trans ((if_pos third).trans ?_)
    exact (text_begun _ d rest).trans (if_pos last)

/-- What reads as a text begins with a form. -/
theorem form_of_text {a : UInt8} (found : text? none (a :: bytes) = some text) :
    ∃ front n rest others, Form front n ∧ a :: bytes = front ++ rest ∧
      text = Char.ofNat n :: others ∧ text? none rest = some others := by
  rw [text_enter, enter] at found
  by_cases one : a < 0x80
  · rw [if_pos one] at found
    obtain ⟨others, later, rfl⟩ := Option.map_eq_some_iff.mp found
    exact ⟨_, _, bytes, others, .one one, rfl, rfl, later⟩
  rw [if_neg one, if_neg one] at found
  by_cases two : 0xC2 ≤ a ∧ a ≤ 0xDF
  · rw [if_pos two] at found
    obtain ⟨b, rest, rfl, tail, found⟩ := text_begun_some found
    obtain ⟨others, later, rfl⟩ := Option.map_eq_some_iff.mp found
    exact ⟨_, _, rest, others, .two two.1 two.2 tail, rfl, rfl, later⟩
  rw [if_neg two] at found
  by_cases three : 0xE0 ≤ a ∧ a ≤ 0xEF
  · rw [if_pos three] at found
    obtain ⟨b, _, rfl, second, found⟩ := text_begun_some found
    obtain ⟨c, rest, rfl, last, found⟩ := text_begun_some found
    obtain ⟨others, later, rfl⟩ := Option.map_eq_some_iff.mp found
    obtain ⟨tail, low, high⟩ := (range_iff (by decide) (by decide)).mp second
    exact ⟨_, _, rest, others, .three three.1 three.2 tail low high last, rfl, rfl, later⟩
  rw [if_neg three] at found
  by_cases four : 0xF0 ≤ a ∧ a ≤ 0xF4
  · rw [if_pos four] at found
    obtain ⟨b, _, rfl, second, found⟩ := text_begun_some found
    obtain ⟨c, _, rfl, third, found⟩ := text_begun_some found
    obtain ⟨d, rest, rfl, last, found⟩ := text_begun_some found
    obtain ⟨others, later, rfl⟩ := Option.map_eq_some_iff.mp found
    obtain ⟨tail, low, high⟩ := (range_iff (by decide) (by decide)).mp second
    exact ⟨_, _, rest, others, .four four.1 four.2 tail low high third last, rfl, rfl, later⟩
  · rw [if_neg four] at found
    cases found

theorem decode_encode (text : List Char) :
    decode? (text.flatMap String.utf8EncodeChar) = some text := by
  induction text with
  | nil => rfl
  | cons c text ih =>
    have first : text? none (String.utf8EncodeChar c ++ text.flatMap String.utf8EncodeChar) = _ :=
      (form_encode c).read _
    rw [Char.ofNat_toNat] at first
    rw [List.flatMap_cons]
    exact first.trans (congrArg (Option.map (c :: ·)) ih)

theorem encode_of_decode (found : decode? bytes = some text) :
    bytes = text.flatMap String.utf8EncodeChar := by
  -- on the text: each of its characters takes one form off the front
  induction text generalizing bytes with
  | nil =>
    cases bytes with
    | nil => rfl
    | cons a bytes =>
      obtain ⟨_, _, _, _, _, _, none, _⟩ := form_of_text found
      cases none
  | cons c text ih =>
    cases bytes with
    | nil => cases found
    | cons a bytes =>
      obtain ⟨front, n, rest, others, form, whole, same, later⟩ := form_of_text found
      cases same
      rw [whole, ih later, List.flatMap_cons, form.encode]

/-- Strict reading gives a text exactly for the bytes that the text is written as. -/
theorem decode_eq_some : decode? bytes = some text ↔ bytes = text.flatMap String.utf8EncodeChar :=
  ⟨encode_of_decode, fun same => same ▸ decode_encode text⟩

theorem toList_loop (content : ByteArray) (i : Nat) (read : List UInt8) :
    ByteArray.toList.loop content i read = read.reverse ++ content.data.toList.drop i := by
  fun_induction ByteArray.toList.loop content i read with
  | case1 i read inside ih =>
    have bound : i < content.data.toList.length := inside
    have octet : content.get! i = content.data.toList[i] := getElem!_pos content.data i inside
    rw [ih, List.drop_eq_getElem_cons bound, octet]
    simp
  | case2 i read past =>
    have bound : content.data.toList.length ≤ i := Nat.le_of_not_lt past
    rw [List.drop_eq_nil_of_le bound, List.append_nil]

/-- A text's own bytes are read as the text. -/
theorem decode_toUTF8 (s : String) : decode? s.toUTF8.toList = some s.toList := by
  have bytes : s.toUTF8 = (s.toList.flatMap String.utf8EncodeChar).toByteArray :=
    String.utf8Encode_toList.symm
  rw [ByteArray.toList, toList_loop, bytes, List.toList_data_toByteArray]
  exact decode_encode s.toList

end PluginLoader.Utf8
