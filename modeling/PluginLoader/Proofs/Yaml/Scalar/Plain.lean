import PluginLoader.Proofs.Yaml.Spot
import PluginLoader.Yaml.Scalar.Plain

/-! Plain scalars read back. One stands on a single line, blanks only inside, and nothing in it
looks like a colon before a gap or a comment. -/
namespace PluginLoader.Yaml

namespace Written
variable {p q : Char → Bool} {c d : Char} {s : List Char}

theorem meets_cons : meets p q (c :: s) = (startsWith q s && p c || meets p q s) := by
  cases s with
  | nil => rfl
  | cons d s => simp [meets, startsWith, Bool.and_comm]

theorem endsWith_cons : endsWith p (c :: s) = if s = [] then p c else endsWith p s := by
  cases s with
  | nil => rfl
  | cons d s => simp [endsWith]

theorem endsWith_append {front : List Char} (filled : s ≠ []) :
    endsWith p (front ++ s) = endsWith p s := by
  unfold endsWith
  rw [List.getLast?_append, List.getLast?_eq_some_getLast filled, Option.some_or]

theorem endsWith_of_any (none : s.any p = false) : endsWith p s = false := by
  unfold endsWith
  cases last : s.getLast? with
  | none => rfl
  | some c =>
    rw [List.any_eq_false] at none
    simpa using none c (List.mem_of_getLast? last)

theorem isGap_printable (printable : isPrintable c = true) : isGap c = isEdge c := by
  have noTab : c ≠ '\t' := by
    rintro rfl
    exact absurd printable (by decide)
  simp [isGap, isBlank, isEdge, isSpace, noTab]

theorem endsWith_congr (alike : ∀ c ∈ s, p c = q c) : endsWith p s = endsWith q s := by
  unfold endsWith
  cases last : s.getLast? with
  | none => rfl
  | some c => exact alike c (List.mem_of_getLast? last)

/-- A text that reads back without quotes. -/
structure Bare (s : List Char) : Prop where
  nonempty : s ≠ []
  printable : s.all isPrintable = true
  unbroken : s.any isBreak = false
  starts : startsWith isEdge s = false
  ends : endsWith isEdge s = false
  calm : hasIndicator s = false

/-- What a style needs of a text. Text between double quotes may be any. -/
inductive Fits (s : List Char) : ScalarStyle → Prop where
  | plain : Bare s → Fits s .plain
  | singleQuoted : s.all isPrintable = true → '\n' ∉ s → meets isSpace isBreak s = false →
      meets isBreak isSpace s = false → Fits s .singleQuoted
  | doubleQuoted : Fits s .doubleQuoted
  | literal : s.all isPrintable = true → s ≠ [] → Fits s .literal

theorem style_fits (s : List Char) : Fits s (style s) := by
  simp only [style]
  split
  · next lines =>
    have filled : s ≠ [] := by
      rintro rfl
      exact absurd lines (by decide)
    split
    · exact .doubleQuoted
    · next whole =>
      simp only [Bool.or_eq_true, not_or, Bool.not_eq_true] at whole
      exact .literal (by simpa using whole.1.1) filled
  · next line =>
    split
    · exact .doubleQuoted
    · next escapes =>
      simp only [Bool.or_eq_true, not_or, Bool.not_eq_true] at escapes
      have printable : s.all isPrintable = true := by simpa using escapes.1.1
      split
      · exact .singleQuoted printable (by simpa using line) escapes.1.2 escapes.2
      · next quotes =>
        simp only [Bool.or_eq_true, not_or, Bool.not_eq_true] at quotes
        obtain ⟨⟨⟨⟨text, calm⟩, unbroken⟩, starts⟩, ends⟩ := quotes
        refine .plain ⟨?_, printable, unbroken, starts, ends, calm⟩
        rintro rfl
        exact absurd text (by decide)

theorem bare_of_style (plain : style s = .plain) : Bare s := by
  have fits := style_fits s
  rw [plain] at fits
  cases fits with
  | plain bare => exact bare

end Written

theorem marksDocument_inside {spot : Spot} (inside : 0 < spot.column) (c d : Char) (rest : Input) :
    Input.marksDocument d (spot.glyph c :: rest) = false := by
  have column : decide ((spot.glyph c).column = 0) = false :=
    decide_eq_false (Nat.ne_of_gt inside)
  rcases rest with _ | ⟨y, _ | ⟨z, rest⟩⟩
  · rfl
  · rfl
  · simp only [Input.marksDocument, column, Bool.false_and]

namespace PlainScalar

open Written

variable {margin : Nat} {spot : Spot} {blanks read s rest : List Char}

/-- A character that is no gap, and does not end a scalar, is read behind the blanks. -/
theorem readFrom_ink {c : Char} {rest : Input} (ink : isGap c = false)
    (within : blanks ≠ [] → c ≠ '#' ∧ 0 < spot.column ∧ margin ≤ spot.column)
    (on : c = ':' → rest.atGap = false) :
    readFrom? false margin { blanks } read (spot.glyph c :: rest) =
      readFrom? false margin {} (c :: (blanks ++ read)) rest := by
  have goesOn : (!Gap.isEmpty { blanks } &&
      stopsAfterGap false margin (spot.glyph c :: rest)) = false := by
    by_cases none : blanks = []
    · simp [none, Gap.isEmpty]
    · obtain ⟨text, inside, indented⟩ := within none
      have column : decide ((spot.glyph c).column < margin) = false :=
        decide_eq_false (Nat.not_lt.mpr indented)
      simp only [stopsAfterGap, Input.atDocumentMark, marksDocument_inside inside, column,
        Spot.glyph_char, text, decide_false, Bool.not_false, Bool.and_false, Bool.or_false]
  have whole : stops false (spot.glyph c :: rest) = false := by
    by_cases colon : c = ':'
    · simp [stops, on colon]
    · simp [stops, colon]
  have straight : isStrayColon false (spot.glyph c :: rest) = false := by simp [isStrayColon]
  rw [readFrom?, goesOn, whole, straight]
  simp [ink, Gap.folded]

/-- The text of a scalar is read as it stands, with any blanks in front of it. -/
theorem readFrom_text (tail : List Char) (unbroken : s.any isBreak = false)
    (ends : endsWith isGap s = false) (inner : s = [] → blanks = [])
    (colon : meets (· = ':') isGap s = false) (lastColon : endsWith (· = ':') s = false)
    (comment : meets isGap (· = '#') s = false) (indented : margin ≤ spot.column + 1)
    (within : blanks ≠ [] →
      startsWith (· = '#') s = false ∧ 0 < spot.column ∧ margin ≤ spot.column) :
    readFrom? false margin { blanks } read (spot.lay (s ++ tail)) =
      readFrom? false margin {} (s.reverse ++ (blanks ++ read)) ((spot.past s).lay tail) := by
  -- on the text: blanks wait until more text shows that they stand inside of it
  induction s generalizing spot blanks read with
  | nil =>
    rw [inner rfl]
    rfl
  | cons c s ih =>
    rw [meets_cons, Bool.or_eq_false_iff] at colon comment
    rw [List.any_cons, Bool.or_eq_false_iff] at unbroken
    have column : (spot.next c).column = spot.column + 1 := Spot.next_column unbroken.1
    rw [List.cons_append, Spot.lay_cons, List.reverse_cons, List.append_assoc,
      List.singleton_append, Spot.past_cons]
    by_cases gap : isGap c = true
    · have more : s ≠ [] := by
        rintro rfl
        simp [endsWith, gap] at ends
      rw [endsWith_cons, if_neg more] at ends lastColon
      have extended : Gap.extend { blanks } c = { blanks := c :: blanks } := by
        simp [Gap.extend, unbroken.1, Gap.blank]
      have step : readFrom? false margin { blanks := c :: blanks } read
          ((spot.next c).lay (s ++ tail)) = _ :=
        ih unbroken.2 ends (fun none => absurd none more) colon.2 lastColon comment.2 (by omega)
          fun _ => ⟨by simpa [gap] using comment.1, by omega, by omega⟩
      rw [List.cons_append] at step
      rw [← step, readFrom?, Spot.glyph_char, if_pos gap, extended]
      simp
    · simp only [Bool.not_eq_true] at gap
      have on : c = ':' → ((spot.next c).lay (s ++ tail)).atGap = false := by
        rintro rfl
        cases s with
        | nil => simp [endsWith] at lastColon
        | cons d s => simpa [startsWith, Spot.lay_cons, Input.atGap] using colon.1
      have later : ∀ {p : Char → Bool}, endsWith p (c :: s) = false → endsWith p s = false := by
        intro p none
        rw [endsWith_cons] at none
        split at none
        · simp_all [endsWith]
        · exact none
      rw [readFrom_ink gap (fun some => by simpa [startsWith] using within some) on]
      exact ih unbroken.2 (later ends) (fun _ => rfl) colon.2 (later lastColon) comment.2 (by omega)
        (fun none => absurd rfl none)

theorem readFrom_pad {gap : Gap} (broken : gap.broken = true) (columns : Nat) :
    readFrom? false margin gap read (spot.lay (pad columns ++ rest)) =
      readFrom? false margin gap read ((spot.past (pad columns)).lay rest) := by
  induction columns generalizing spot with
  | zero => rfl
  | succ columns ih =>
    have kept : gap.extend ' ' = gap := by
      rw [Gap.extend, if_neg (by decide), Gap.blank, if_pos broken]
    rw [pad, List.replicate_succ, List.cons_append, Spot.lay_cons, ← pad, readFrom?,
      Spot.glyph_char, if_pos (by decide), kept, ih, Spot.past_cons]
    simp

/-- A scalar ends at a colon before a gap. -/
theorem readFrom_colon (gap : ((spot.next ':').lay rest).atGap = true) :
    readFrom? false margin {} read (spot.lay (':' :: rest)) =
      some ⟨read.reverse, false, spot.lay (':' :: rest)⟩ := by
  have ends : stops false (spot.glyph ':' :: (spot.next ':').lay rest) = true := by
    simp [stops, gap]
  have straight : isStrayColon false (spot.glyph ':' :: (spot.next ':').lay rest) = false := by
    simp [isStrayColon]
  have ink : isGap ':' = false := by decide
  rw [Spot.lay_cons, readFrom?, ends, straight, Spot.glyph_char, ink]
  rfl

/-- A scalar ends where the next line is not indented. -/
theorem readFrom_line (outward : Outward margin rest) :
    readFrom? false margin {} read (spot.lay ('\n' :: rest)) =
      some ⟨read.reverse, true, settled (spot.line + 1) rest⟩ := by
  have step : readFrom? false margin {} read (spot.lay ('\n' :: rest)) =
      readFrom? false margin (Gap.lineBreak {} '\n') read
        (Spot.lay ⟨spot.line + 1, 0, 0⟩ rest) := by
    rw [Spot.lay_cons, Spot.next_of_break (by decide), readFrom?, Spot.glyph_char,
      if_pos (by decide)]
    rfl
  rw [step]
  cases outward with
  | nothing => rfl
  | @line indent c rest within ink =>
    have stops : stopsAfterGap false margin
        (((⟨spot.line + 1, 0, 0⟩ : Spot).past (pad indent)).lay (c :: rest)) = true := by
      simp [Spot.lay_cons, stopsAfterGap, Spot.past_pad, within]
    rw [readFrom_pad rfl, settled_line ink]
    rw [Spot.lay_cons] at stops ⊢
    rw [readFrom?, Spot.glyph_char, if_neg (by simp [ink]), stops]
    rfl

end PlainScalar

open Written PlainScalar

namespace Written.Bare
variable {margin : Nat} {spot : Spot} {c : Char} {s rest : List Char}

theorem edges (bare : Bare s) : ∀ c ∈ s, isGap c = isEdge c := fun c member =>
  isGap_printable (List.all_eq_true.mp bare.printable c member)

theorem read (bare : Bare s) (tail : List Char) (indented : margin ≤ spot.column + 1) :
    plainScalar? false margin (spot.lay (s ++ tail)) =
      readFrom? false margin {} s.reverse ((spot.past s).lay tail) := by
  have indicators := bare.calm
  simp only [hasIndicator, Bool.or_eq_false_iff] at indicators
  obtain ⟨⟨⟨_, colon⟩, lastColon⟩, comment⟩ := indicators
  have ends : endsWith isGap s = false := (endsWith_congr bare.edges).trans bare.ends
  have text : readFrom? false margin { blanks := [] } [] (spot.lay (s ++ tail)) = _ :=
    readFrom_text tail bare.unbroken ends (fun _ => rfl) colon lastColon comment indented
      fun none => absurd rfl none
  simpa [plainScalar?] using text

end Written.Bare
end PluginLoader.Yaml
