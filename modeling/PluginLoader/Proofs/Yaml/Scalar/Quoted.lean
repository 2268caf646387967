import PluginLoader.Proofs.Text.Hex
import PluginLoader.Proofs.Yaml.Scalar.Plain

/-! Quoted scalars read back. Between single quotes every line break stands for itself, as none is
a line feed and none meets a blank; between double quotes no line ends, and what cannot be printed
is escaped. -/
namespace PluginLoader.Yaml

open Written

/-! ### Gaps that stand for themselves -/

namespace Gap
variable {gap : Gap} {c : Char} {s : List Char}

/-- A gap that loses nothing, whatever comes of a text behind it. -/
structure Before (s : List Char) (gap : Gap) : Prop where
  broken : gap.broken = true →
    (∃ c, c ≠ '\n' ∧ gap.first = some c) ∧ startsWith isSpace s = false
  blanks : gap.broken = false → gap.blanks ≠ [] → startsWith isBreak s = false

theorem before_empty (s : List Char) : Before s {} where
  broken := nofun
  blanks _ some := absurd rfl some

/-- A blank stands behind no break. -/
theorem Before.whole (before : gap.Before (c :: s)) (blank : isSpace c = true) :
    gap.broken = false := by
  by_contra state
  have unindented := (before.broken (by simpa using state)).2
  simp [startsWith, blank] at unindented

theorem Before.extend (before : gap.Before (c :: s)) (space : isEdge c = true) (line : c ≠ '\n')
    (blankFirst : startsWith isBreak s = true → isSpace c = false)
    (breakFirst : startsWith isSpace s = true → isBreak c = false) :
    (gap.extend c).Before s ∧ (gap.extend c).folded = c :: gap.folded ∧
      (gap.extend c).broken = isBreak c := by
  by_cases ends : isBreak c = true
  · rw [Gap.extend, if_pos ends, Gap.lineBreak]
    have unindented : startsWith isSpace s = false := by
      by_contra indented
      simp [breakFirst (by simpa using indented)] at ends
    cases state : gap.broken with
    | true =>
      obtain ⟨⟨first, notLine, same⟩, _⟩ := before.broken state
      rw [if_pos rfl]
      exact ⟨⟨fun _ => ⟨⟨first, notLine, same⟩, unindented⟩,
          fun whole => absurd whole.symm Bool.false_ne_true⟩,
        by simp [Gap.folded, state, same, notLine], by simp [ends]⟩
    | false =>
      have none : gap.blanks = [] := by
        by_contra some
        have := before.blanks state some
        simp [startsWith, ends] at this
      rw [if_neg Bool.false_ne_true]
      exact ⟨⟨fun _ => ⟨⟨c, line, rfl⟩, unindented⟩,
          fun whole => absurd whole.symm Bool.false_ne_true⟩,
        by simp [Gap.folded, state, none, line], by simp [ends]⟩
  · have blank : isSpace c = true := by simpa [isEdge, ends] using space
    have whole := before.whole blank
    rw [Gap.extend, if_neg ends, Gap.blank, if_neg (by simp [whole])]
    refine ⟨⟨by simp [whole], fun _ _ => ?_⟩, by simp [Gap.folded, whole], by simp [whole, ends]⟩
    by_contra broken
    simp [blankFirst (by simpa using broken)] at blank

end Gap

/-! ### Single quotes -/

section Single
variable {gap : Gap} {read s rest : List Char} {spot : Spot} {g : Glyph} {input : Input}

theorem singleQuoted_gap (more : input ≠ []) (space : isGap g.char = true) :
    singleQuoted? gap read (g :: input) = singleQuoted? (gap.extend g.char) read input := by
  cases input with
  | nil => exact absurd rfl more
  | cons h input => rw [singleQuoted?, if_pos space]

theorem singleQuoted_ink (more : input ≠ []) (ink : isGap g.char = false)
    (text : Input.atDocumentMark (g :: input) = false) (inner : g.char ≠ singleQuote) :
    singleQuoted? gap read (g :: input) =
      singleQuoted? {} (g.char :: (gap.folded ++ read)) input := by
  cases input with
  | nil => exact absurd rfl more
  | cons h input =>
    rw [singleQuoted?, if_neg (by simp [ink]), if_neg (by simp [text]), if_pos inner]

theorem atDocumentMark_of_ne {c : Char} (dash : c ≠ '-') (dot : c ≠ '.') (input : Input) :
    Input.atDocumentMark (spot.glyph c :: input) = false := by
  rcases input with _ | ⟨y, _ | ⟨z, input⟩⟩
  · rfl
  · rfl
  · simp [Input.atDocumentMark, Input.marksDocument, dash, dot]

theorem atDocumentMark_inside (inside : 0 < spot.column) (c : Char) (input : Input) :
    Input.atDocumentMark (spot.glyph c :: input) = false := by
  rw [Input.atDocumentMark, marksDocument_inside inside, marksDocument_inside inside, Bool.or_self]

theorem singleQuoted_pad (broken : gap.broken = true) (columns : Nat) (more : rest ≠ []) :
    singleQuoted? gap read (spot.lay (pad columns ++ rest)) =
      singleQuoted? gap read ((spot.past (pad columns)).lay rest) := by
  induction columns generalizing spot with
  | zero => rfl
  | succ columns ih =>
    have kept : gap.extend ' ' = gap := by
      rw [Gap.extend, if_neg (by decide), Gap.blank, if_pos broken]
    rw [pad, List.replicate_succ, List.cons_append, Spot.lay_cons, ← pad,
      singleQuoted_gap (Spot.lay_ne_nil (by simp [more])) (show isGap ' ' = true by decide),
      Spot.glyph_char, kept, ih, Spot.past_cons]

theorem singleQuoted_close {h : Char} (other : h ≠ singleQuote) :
    singleQuoted? gap read (spot.lay (singleQuote :: h :: rest)) =
      some ((gap.folded ++ read).reverse, (spot.next singleQuote).lay (h :: rest)) := by
  have ink : isGap singleQuote = false := by decide
  have text : ∀ input, Input.atDocumentMark (spot.glyph singleQuote :: input) = false :=
    atDocumentMark_of_ne (by decide) (by decide)
  rw [Spot.lay_cons, Spot.lay_cons, singleQuoted?, if_neg (by simp [ink]), if_neg (by simp [text]),
    if_neg (by simp), if_neg (by simpa using other)]

theorem singleQuoted_char {c : Char} (inside : 0 < spot.column) (ink : isGap c = false)
    (more : rest ≠ []) :
    singleQuoted? gap read (spot.lay ((if c = singleQuote then [c, c] else [c]) ++ rest)) =
      singleQuoted? {} (c :: (gap.folded ++ read))
        ((spot.past (if c = singleQuote then [c, c] else [c])).lay rest) := by
  have text := atDocumentMark_inside inside c
  by_cases quote : c = singleQuote
  · rw [if_pos quote, List.cons_append, List.singleton_append, Spot.lay_cons, Spot.lay_cons,
      singleQuoted?, if_neg (by simp [ink]), if_neg (by simp [text]), if_neg (by simp [quote]),
      if_pos (by simp [quote]), ← quote]
    rfl
  · rw [if_neg quote, List.singleton_append, Spot.lay_cons,
      singleQuoted_ink (Spot.lay_ne_nil more) ink (text _) quote]
    rfl

/-- Nothing is put in front of a blank or a break. -/
theorem single_edge (before : gap.Before (c :: s)) (edge : isEdge c = true) (columns : Nat) :
    single columns gap.broken (c :: s) = c :: single columns (isBreak c) s := by
  rw [single]
  by_cases ends : isBreak c = true
  · rw [if_pos ends, ends]
  · have blank : isSpace c = true := by simpa [isEdge, ends] using edge
    have inner : c ≠ singleQuote := by
      rintro rfl
      exact absurd blank (by decide)
    simp [ends, before.whole blank, inner]

theorem singleQuoted_read {columns : Nat} {h : Char} (tail : List Char) (deep : 0 < columns)
    (other : h ≠ singleQuote) (printable : s.all isPrintable = true) (line : '\n' ∉ s)
    (blankFirst : meets isSpace isBreak s = false) (breakFirst : meets isBreak isSpace s = false)
    (before : gap.Before s) (inside : gap.broken = false → 0 < spot.column) :
    ∃ later : Spot, singleQuoted? gap read
        (spot.lay (single columns gap.broken s ++ singleQuote :: h :: tail)) =
      some ((gap.folded ++ read).reverse ++ s, later.lay (h :: tail)) := by
  -- on the text: the gap stands for whatever was written since the last character that is none
  induction s generalizing gap read spot with
  | nil =>
    rw [List.append_nil, single]
    split
    · next broken =>
      rw [singleQuoted_pad broken columns (by simp)]
      exact ⟨_, singleQuoted_close other⟩
    · exact ⟨_, singleQuoted_close other⟩
  | cons c s ih =>
    rw [List.mem_cons, not_or] at line
    rw [meets_cons, Bool.or_eq_false_iff] at blankFirst breakFirst
    rw [List.all_cons, Bool.and_eq_true] at printable
    have gaps : isGap c = isEdge c := isGap_printable printable.1
    cases edge : isEdge c with
    | true =>
      have written := single_edge before edge columns
      obtain ⟨after, folded, broken⟩ := before.extend edge (Ne.symm line.1)
        (fun starts => by simpa [starts] using blankFirst.1)
        (fun starts => by simpa [starts] using breakFirst.1)
      have onward : (gap.extend c).broken = false → 0 < (spot.next c).column := by
        intro whole
        rw [Spot.next_column (broken ▸ whole)]
        exact Nat.succ_pos _
      obtain ⟨later, rest⟩ := ih printable.2 line.2 blankFirst.2 breakFirst.2 after onward
      refine ⟨later, ?_⟩
      rw [written, List.cons_append, Spot.lay_cons,
        singleQuoted_gap (Spot.lay_ne_nil (by simp)) (by simpa [gaps] using edge), Spot.glyph_char,
        ← broken, rest, folded, List.cons_append, List.reverse_cons, List.append_assoc,
        List.singleton_append]
    | false =>
      -- behind a break the character is indented, so the step is said for any place inside a line
      have ink : isGap c = false := gaps.trans edge
      have stays : isBreak c = false := by
        simp only [isEdge, Bool.or_eq_false_iff] at edge
        exact edge.2
      have step : ∀ spot : Spot, 0 < spot.column → ∃ later : Spot, singleQuoted? gap read (spot.lay
          ((if c = singleQuote then [c, c] else [c]) ++
            (single columns false s ++ singleQuote :: h :: tail))) =
          some ((gap.folded ++ read).reverse ++ c :: s, later.lay (h :: tail)) := by
        intro spot inside
        have further : 0 < (spot.past (if c = singleQuote then [c, c] else [c])).column := by
          split <;> simp [Spot.next_column stays]
        obtain ⟨later, rest⟩ := ih printable.2 line.2 blankFirst.2 breakFirst.2
          (Gap.before_empty s) fun _ => further
        refine ⟨later, ?_⟩
        rw [singleQuoted_char inside ink (by simp), rest]
        simp [Gap.folded]
      rw [single, if_neg (by simp [stays])]
      simp only [List.append_assoc]
      cases fresh : gap.broken with
      | true =>
        rw [if_pos rfl, singleQuoted_pad fresh columns (by simp)]
        exact step _ (by rw [Spot.past_pad]; exact Nat.lt_of_lt_of_le deep (Nat.le_add_left ..))
      | false =>
        rw [if_neg Bool.false_ne_true, List.nil_append]
        exact step spot (inside fresh)

end Single

/-! ### Double quotes -/

section Double
variable {gap : Gap} {c : Char} {read s rest : List Char} {spot : Spot}

theorem upper_forall {p : Char → Prop} (digits : ∀ d < 16, p (Nat.digitChar d).toUpper)
    (k n : Nat) : ∀ d ∈ Hex.upper k n, p d := by
  induction k with
  | zero => exact List.forall_mem_nil _
  | succ k ih =>
    rw [Hex.upper_succ, List.forall_mem_cons]
    exact ⟨digits _ (Nat.mod_lt _ (by decide)), ih⟩

/-- What a character is escaped as can be printed on one line. -/
theorem escape_inline (c : Char) : ∀ d ∈ escape c, isPrintable d = true ∧ isBreak d = false := by
  have hex : ∀ k n, ∀ d ∈ Hex.upper k n, isPrintable d = true ∧ isBreak d = false :=
    upper_forall (by decide)
  unfold escape
  split
  · next letter found =>
    have letters : (['0', 'a', 'b', 't', 'n', 'v', 'f', 'r', 'e', '\x22', '\\', 'N', '_', 'L',
        'P'].all fun d => isPrintable d && !isBreak d) = true := by decide
    have inline := List.all_eq_true.mp letters letter (List.mem_of_find?_eq_some found)
    simp only [List.forall_mem_cons]
    exact ⟨by decide, by simpa using inline, List.forall_mem_nil _⟩
  · split
    · simp only [List.forall_mem_cons]
      exact ⟨by decide, by decide, hex _ _⟩
    · split <;> simp only [List.forall_mem_cons] <;> exact ⟨by decide, by decide, hex _ _⟩

theorem charOfNat_toNat (c : Char) : charOfNat? c.toNat = some c := by
  have valid : c.toNat.isValidChar := c.valid
  rw [charOfNat?, if_pos valid, Char.ofNat_toNat]

theorem doubleQuoted_digits (k value n : Nat)
    (number : charOfNat? (value * 16 ^ (k + 1) + n % 16 ^ (k + 1)) = some c) :
    doubleQuoted? (.digits (k + 1) value) gap read (spot.lay (Hex.upper (k + 1) n ++ rest)) =
      doubleQuoted? .outside {} (c :: read)
        ((spot.past (Hex.upper (k + 1) n)).lay rest) := by
  induction k generalizing value spot gap with
  | zero =>
    simp only [Nat.zero_add, Nat.pow_one] at number
    rw [Hex.upper_succ, List.cons_append, Spot.lay_cons, doubleQuoted?, Nat.pow_zero, Nat.div_one,
      Spot.glyph_char, Hex.hexDigit_upper]
    simp [number, Hex.upper, Hex.lower]
  | succ k ih =>
    have more : ¬ k + 1 + 1 ≤ 1 := by omega
    rw [← Hex.append_digit] at number
    rw [Hex.upper_succ, List.cons_append, Spot.lay_cons, doubleQuoted?, Spot.glyph_char,
      Hex.hexDigit_upper]
    simp only [if_neg more, Nat.add_sub_cancel]
    exact ih _ number

theorem doubleQuoted_letter {letter : Char} (stays : isBreak letter = false)
    (simple : simpleEscape? letter = some c) :
    doubleQuoted? .begun gap read (spot.lay (letter :: rest)) =
      doubleQuoted? .outside {} (c :: read) ((spot.next letter).lay rest) := by
  rw [Spot.lay_cons, doubleQuoted?, if_neg (by simp [stays]), Spot.glyph_char, simple]

theorem doubleQuoted_number {mark : Char} {k n : Nat} (stays : isBreak mark = false)
    (long : simpleEscape? mark = none) (digits : escapeDigits? mark = some (k + 1))
    (number : charOfNat? n = some c) (small : n < 16 ^ (k + 1)) :
    doubleQuoted? .begun gap read (spot.lay (mark :: (Hex.upper (k + 1) n ++ rest))) =
      doubleQuoted? .outside {} (c :: read)
        ((spot.past (mark :: Hex.upper (k + 1) n)).lay rest) := by
  rw [Spot.lay_cons, doubleQuoted?, if_neg (by simp [stays]), Spot.glyph_char, long, digits]
  exact doubleQuoted_digits k 0 n (by rwa [Nat.zero_mul, Nat.zero_add, Nat.mod_eq_of_lt small])

/-- An escaped character reads back. -/
theorem doubleQuoted_escape (inside : 0 < spot.column) :
    doubleQuoted? .outside gap read (spot.lay (escape c ++ rest)) =
      doubleQuoted? .outside {} (c :: (gap.folded ++ read)) ((spot.past (escape c)).lay rest) := by
  have begun : ∀ text, doubleQuoted? .outside gap read (spot.lay ('\\' :: text)) =
      doubleQuoted? .begun {} (gap.folded ++ read) ((spot.next '\\').lay text) := by
    intro text
    have space : isGap '\\' = false := by decide
    have inner : '\\' ≠ doubleQuote := by decide
    rw [Spot.lay_cons, doubleQuoted?, if_neg (by simp [space]),
      if_neg (by simp [atDocumentMark_inside inside]), if_neg (by simpa using inner),
      if_pos Spot.glyph_char]
  have letters : ∀ d ∈ escape c, isBreak d = false := fun d member => (escape_inline c d member).2
  have number := charOfNat_toNat c
  unfold escape at letters ⊢
  split at letters
  · next letter found =>
    simp only [List.forall_mem_cons] at letters
    have simple : simpleEscape? letter = some c := by simpa using List.find?_some found
    rw [List.cons_append, begun, List.singleton_append, doubleQuoted_letter letters.2.1 simple]
    rfl
  · split
    · rw [List.cons_append, begun, List.cons_append,
        doubleQuoted_number (by decide) (by decide) rfl number (by omega)]
      rfl
    · split
      · rw [List.cons_append, begun, List.cons_append,
          doubleQuoted_number (by decide) (by decide) rfl number (by omega)]
        rfl
      · have valid : c.toNat < 0xD800 ∨ 0xDFFF < c.toNat ∧ c.toNat < 0x110000 := c.valid
        rw [List.cons_append, begun, List.cons_append,
          doubleQuoted_number (by decide) (by decide) rfl number (by omega)]
        rfl

/-- A text between double quotes reads back. -/
theorem doubleQuoted_read (tail : List Char) (whole : gap.broken = false)
    (inside : 0 < spot.column) :
    ∃ later : Spot, doubleQuoted? .outside gap read
        (spot.lay (double s ++ doubleQuote :: tail)) =
      some ((gap.folded ++ read).reverse ++ s, later.lay tail) := by
  induction s generalizing gap read spot with
  | nil =>
    have ink : isGap doubleQuote = false := by decide
    refine ⟨spot.next doubleQuote, ?_⟩
    rw [double, List.flatMap_nil, List.nil_append, Spot.lay_cons, doubleQuoted?,
      if_neg (by simp [ink]), if_neg (by simp [atDocumentMark_inside inside]),
      if_pos Spot.glyph_char, List.append_nil]
  | cons c s ih =>
    have closed : ({} : Gap).broken = false := rfl
    have written : double (c :: s) = _ ++ double s := List.flatMap_cons
    rw [written, List.append_assoc]
    split
    · have onward : 0 < (spot.past (escape c)).column := by
        rw [Spot.column_past fun d member => (escape_inline c d member).2]
        omega
      rw [doubleQuoted_escape inside]
      obtain ⟨later, rest⟩ := ih closed onward
      refine ⟨later, rest.trans ?_⟩
      simp [Gap.folded]
    · next plain =>
      simp only [Bool.or_eq_true, not_or, Bool.not_eq_true, decide_eq_true_eq] at plain
      obtain ⟨⟨⟨_, stays⟩, inner⟩, unescaped⟩ := plain
      have onward : 0 < (spot.next c).column := by
        rw [Spot.next_column stays]
        exact Nat.succ_pos _
      rw [List.singleton_append, Spot.lay_cons, doubleQuoted?, Spot.glyph_char]
      cases space : isGap c with
      | true =>
        have extended : gap.extend c = { gap with blanks := c :: gap.blanks } := by
          simp [Gap.extend, stays, Gap.blank, whole]
        have still : (gap.extend c).broken = false := extended ▸ whole
        rw [if_pos rfl]
        obtain ⟨later, rest⟩ := ih still onward
        refine ⟨later, rest.trans ?_⟩
        simp [extended, Gap.folded, whole]
      | false =>
        rw [if_neg Bool.false_ne_true, if_neg (by simp [atDocumentMark_inside inside]),
          if_neg inner, if_neg unescaped]
        obtain ⟨later, rest⟩ := ih closed onward
        refine ⟨later, rest.trans ?_⟩
        simp [Gap.folded]

end Double
end PluginLoader.Yaml
