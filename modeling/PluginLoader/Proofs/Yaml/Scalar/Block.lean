import PluginLoader.Proofs.Yaml.Scalar.Plain
import PluginLoader.Yaml.Scalar.Block

/-! Literal scalars read back. Every line is indented alike, so that blanks at its start are text;
the header says how the text ends. -/
namespace PluginLoader.Yaml

open Written

/-! ### Headers -/

namespace Written

/-- What the header says about the end of a text. -/
def chomp (s : List Char) : Chomp :=
  match s.reverse with
  | last :: before =>
    if !isBreak last then .strip else if before.head?.all isBreak then .keep else .clip
  | [] => .strip

/-- How deep the header says that the lines are. -/
def depth (s : List Char) : Option Nat := if startsWith isEdge s then some indentation else none

theorem read_header {spot : Spot} (s rest : List Char) :
    BlockHeader.read? (spot.lay (header s ++ '\n' :: rest)) =
      some (⟨chomp s, depth s⟩, Spot.lay ⟨spot.line + 1, 0, 0⟩ rest) := by
  have digits : Nat.toDigits 10 indentation = ['2'] := by decide
  unfold header chomp depth
  rw [digits]
  generalize s.reverse = reversed
  cases reversed with
  | nil => cases startsWith isEdge s <;> rfl
  | cons last before =>
    dsimp only
    generalize isBreak last = ends
    generalize before.head?.all isBreak = further
    cases startsWith isEdge s <;> cases ends <;> cases further <;> rfl

theorem lines_ne_nil {s : List Char} (filled : s ≠ []) (columns : Nat) (fresh : Bool) :
    Written.lines columns fresh s ≠ [] := by
  cases s with
  | nil => exact absurd rfl filled
  | cons c s =>
    rw [Written.lines]
    split <;> simp

/-- Lines end as the text does. -/
theorem endsWith_lines {p : Char → Bool} {s : List Char} (filled : s ≠ []) (columns : Nat)
    (fresh : Bool) : endsWith p (Written.lines columns fresh s) = endsWith p s := by
  induction s generalizing fresh with
  | nil => exact absurd rfl filled
  | cons c s ih =>
    have kept : ∀ fresh, endsWith p (c :: Written.lines columns fresh s) = endsWith p (c :: s) := by
      intro fresh
      cases s with
      | nil => cases fresh <;> rfl
      | cons d s =>
        have more : d :: s ≠ [] := by simp
        rw [endsWith_cons, if_neg (lines_ne_nil more columns fresh), endsWith_cons, if_neg more]
        exact ih more fresh
    rw [Written.lines]
    split
    · exact kept true
    · rw [endsWith_append (by simp), kept]

end Written

/-! ### Lines -/

theorem leadingColumn_pad {spot : Spot} {c : Char} {deepest : Nat} (rest : List Char)
    (ink : isGap c = false) (columns : Nat) (behind : deepest ≤ spot.column) :
    leadingColumn? deepest (spot.lay (pad columns ++ c :: rest)) =
      some (spot.column + columns) := by
  induction columns generalizing spot deepest with
  | zero =>
    simp only [isGap, isBlank, Bool.or_eq_false_iff, decide_eq_false_iff_not] at ink
    obtain ⟨⟨space, tab⟩, stays⟩ := ink
    simp [pad, Spot.lay_cons, leadingColumn?, space, tab, stays, Nat.max_eq_right behind]
  | succ columns ih =>
    have column : (spot.next ' ').column = spot.column + 1 := Spot.next_column (by decide)
    have deeper : max deepest (spot.column + 1) ≤ (spot.next ' ').column := by omega
    rw [pad, List.replicate_succ, List.cons_append, Spot.lay_cons, ← pad, leadingColumn?,
      if_pos Spot.glyph_char, Spot.glyph_column, ih deeper, column]
    congr 1
    omega

namespace BlockText
variable {text : BlockText} {spot : Spot} {columns : Nat} {fresh : Bool} {c : Char}
  {read s rest : List Char}

theorem lines_pad (indent : Nat) (left : spot.column + indent ≤ columns) :
    lines? true columns false text (spot.lay (pad indent ++ rest)) =
      lines? true columns false text ((spot.past (pad indent)).lay rest) := by
  induction indent generalizing spot with
  | zero => rfl
  | succ indent ih =>
    have column : (spot.next ' ').column = spot.column + 1 := Spot.next_column (by decide)
    have short : spot.column < columns := by omega
    rw [pad, List.replicate_succ, List.cons_append, Spot.lay_cons, ← pad, lines?,
      if_pos (by simp [short]), ih (by omega), Spot.past_cons]

/-- What has been read of a text that was written as lines, the last character first. -/
structure Holds (text : BlockText) (fresh : Bool) (read : List Char) : Prop where
  all : text.blankLines ++ (text.ending ++ text.read) = read
  inLine : fresh = false → text.blankLines = [] ∧ text.ending = []
  atStart : fresh = true → read.head?.all isBreak = true
  blank : text.blankLines ≠ [] → read.tail.head?.all isBreak = true

theorem holds_empty : Holds {} true [] where
  all := rfl
  inLine := nofun
  atStart _ := rfl
  blank some := absurd rfl some

theorem Holds.breakLine (holds : text.Holds false read) (ends : isBreak c = true) :
    Holds { text with ending := [c] } true (c :: read) where
  all := by
    obtain ⟨blank, ending⟩ := holds.inLine rfl
    simp [← holds.all, blank, ending]
  inLine := nofun
  atStart _ := ends
  blank some := absurd (holds.inLine rfl).1 some

theorem Holds.breakBlank (holds : text.Holds true read) (ends : isBreak c = true) :
    Holds { text with blankLines := c :: text.blankLines } true (c :: read) where
  all := by simp [← holds.all]
  inLine := nofun
  atStart _ := ends
  blank _ := holds.atStart rfl

theorem Holds.begin (holds : text.Holds fresh read) (c : Char) :
    (text.begin true c).Holds false (c :: read) where
  all := by simp [BlockText.begin, ← holds.all]
  inLine _ := ⟨rfl, rfl⟩
  atStart := nofun
  blank some := absurd rfl some

theorem Holds.further (holds : text.Holds false read) (c : Char) :
    Holds { text with read := c :: text.read } false (c :: read) where
  all := by
    obtain ⟨blank, ending⟩ := holds.inLine rfl
    simp [← holds.all, blank, ending]
  inLine _ := holds.inLine rfl
  atStart := nofun
  blank some := absurd (holds.inLine rfl).1 some

/-- One character more, with the indentation in front of it. -/
theorem Holds.step (holds : text.Holds fresh read)
    (start : fresh = true → ∃ line, spot = ⟨line, 0, 0⟩) (columns : Nat) (c : Char)
    (s rest : List Char) :
    ∃ (text' : BlockText) (later : Spot), text'.Holds (isBreak c) (c :: read) ∧
      (isBreak c = true → ∃ line, later = ⟨line, 0, 0⟩) ∧
      lines? true columns (!fresh) text (spot.lay (Written.lines columns fresh (c :: s) ++ rest)) =
        lines? true columns (!isBreak c) text'
          (later.lay (Written.lines columns (isBreak c) s ++ rest)) := by
  cases ends : isBreak c with
  | true =>
    have ink : c ≠ ' ' ∧ c ≠ '\t' := by
      constructor <;> rintro rfl <;> exact absurd ends (by decide)
    rw [Written.lines, if_pos ends, List.cons_append, Spot.lay_cons]
    cases fresh with
    | true =>
      refine ⟨_, spot.next c, holds.breakBlank ends, fun _ => ⟨_, Spot.next_of_break ends⟩, ?_⟩
      rw [Bool.not_true, lines?, if_neg (by simp [ink]), if_neg (by simp [ink]),
        if_pos (by simpa using ends)]
      rfl
    | false =>
      refine ⟨_, spot.next c, holds.breakLine ends, fun _ => ⟨_, Spot.next_of_break ends⟩, ?_⟩
      rw [Bool.not_false, lines?, if_pos (by simpa using ends)]
      rfl
  | false =>
    rw [Written.lines, if_neg (by simp [ends])]
    cases fresh with
    | true =>
      obtain ⟨line, rfl⟩ := start rfl
      have column : ((⟨line, 0, 0⟩ : Spot).past (pad columns)).column = columns := by
        rw [Spot.past_pad, Nat.zero_add]
      refine ⟨text.begin true c, ((⟨line, 0, 0⟩ : Spot).past (pad columns)).next c, holds.begin c,
        nofun, ?_⟩
      rw [if_pos rfl, List.append_assoc, Bool.not_true, lines_pad columns (by simp),
        List.cons_append, Spot.lay_cons, lines?]
      simp only [Spot.glyph_column, Spot.glyph_char, column, Nat.lt_irrefl, decide_false,
        Bool.false_and, Bool.false_eq_true, if_false, ends, if_true, Bool.not_false]
    | false =>
      refine ⟨_, spot.next c, holds.further c, nofun, ?_⟩
      rw [if_neg Bool.false_ne_true, List.nil_append, List.cons_append, Spot.lay_cons,
        Bool.not_false, lines?, if_neg (by simp [ends])]
      rfl

/-- Whether a line begins behind a text. -/
def freshAfter (fresh : Bool) (s : List Char) : Bool := s.foldl (fun _ c => isBreak c) fresh

/-- Lines are read up to where they end, and nothing is lost. -/
theorem lines_read (holds : text.Holds fresh read)
    (start : fresh = true → ∃ line, spot = ⟨line, 0, 0⟩) (columns : Nat) (s rest : List Char) :
    ∃ (text' : BlockText) (later : Spot), text'.Holds (freshAfter fresh s) (s.reverse ++ read) ∧
      (freshAfter fresh s = true → ∃ line, later = ⟨line, 0, 0⟩) ∧
      lines? true columns (!fresh) text (spot.lay (Written.lines columns fresh s ++ rest)) =
        lines? true columns (!freshAfter fresh s) text' (later.lay rest) := by
  induction s generalizing text fresh read spot with
  | nil => exact ⟨text, spot, holds, start, rfl⟩
  | cons c s ih =>
    obtain ⟨middle, between, first, begins, step⟩ := holds.step start columns c s rest
    obtain ⟨text', later, whole, column, same⟩ := ih first begins
    refine ⟨text', later, ?_, column, step.trans same⟩
    rw [List.reverse_cons, List.append_assoc, List.singleton_append]
    exact whole

/-- Behind its lines a text ends where the next line is not indented. -/
theorem lines_end (outward : Outward columns rest) (line : Nat) :
    lines? true columns false text (Spot.lay ⟨line, 0, 0⟩ rest) =
      some (text, settled line rest) := by
  cases outward with
  | nothing => rfl
  | @line indent c rest within ink =>
    rw [lines_pad indent (by simp only; omega), settled_line ink, Spot.lay_cons, lines?]
    simp only [isGap, isBlank, Bool.or_eq_false_iff, decide_eq_false_iff_not] at ink
    obtain ⟨⟨space, tab⟩, stays⟩ := ink
    simp [space, tab, stays, Spot.past_pad, Nat.ne_of_lt within]

theorem freshAfter_eq {s : List Char} (some : s ≠ []) (fresh : Bool) :
    freshAfter fresh s = endsWith isBreak s := by
  obtain ⟨front, last, rfl⟩ := List.eq_nil_or_concat s |>.resolve_left some
  simp [freshAfter, endsWith]

/-- What the header says keeps the breaks at the end of a text. -/
theorem Holds.finish (holds : text.Holds true s.reverse) (ends : endsWith isBreak s = true) :
    text.finish (chomp s) = s := by
  unfold chomp
  have whole := holds.all
  have blank := holds.blank
  cases reversed : s.reverse with
  | nil => simp_all [endsWith]
  | cons last before =>
    have same : s = (last :: before).reverse := by rw [← reversed, List.reverse_reverse]
    have closed : isBreak last = true := by simpa [same, endsWith] using ends
    rw [reversed] at whole blank
    dsimp only
    rw [if_neg (by simp [closed])]
    split
    · rw [BlockText.finish, whole, same]
    · next single =>
      have none : text.blankLines = [] :=
        Decidable.byContradiction fun filled => single (blank filled)
      rw [none, List.nil_append] at whole
      rw [BlockText.finish, whole, same]

/-- What the header says takes the break behind a text away again. -/
theorem Holds.strip (holds : text.Holds false s.reverse) (ends : endsWith isBreak s = false)
    (ending : List Char) : BlockText.finish { text with ending } (chomp s) = s := by
  obtain ⟨blank, unended⟩ := holds.inLine rfl
  have whole : text.read = s.reverse := by simpa [blank, unended] using holds.all
  have strip : chomp s = .strip := by
    unfold chomp
    cases reversed : s.reverse with
    | nil => rfl
    | cons last before =>
      have same : s = (last :: before).reverse := by rw [← reversed, List.reverse_reverse]
      have closed : isBreak last = false := by simpa [same, endsWith] using ends
      exact if_pos (by simp [closed])
  rw [strip, BlockText.finish, whole, List.reverse_reverse]

end BlockText

/-- The first line shows how deep the lines are, if it begins with no blank of its own. -/
theorem leadingColumn_lines {s : List Char} (filled : s ≠ []) (printable : s.all isPrintable = true)
    (text : startsWith isEdge s = false) (line columns : Nat) (rest : List Char) :
    leadingColumn? 0 (Spot.lay ⟨line, 0, 0⟩ (Written.lines columns true s ++ rest)) =
      some columns := by
  cases s with
  | nil => exact absurd rfl filled
  | cons c s =>
    rw [List.all_cons, Bool.and_eq_true] at printable
    have ink : isGap c = false := (isGap_printable printable.1).trans text
    have stays : isBreak c = false := by
      rw [isGap, Bool.or_eq_false_iff] at ink
      exact ink.2
    rw [Written.lines, if_neg (by simp [stays]), if_pos rfl, List.append_assoc, List.cons_append,
      leadingColumn_pad _ ink _ (Nat.le_refl 0), Nat.zero_add]

/-- A literal scalar reads back. -/
theorem blockScalar_read {margin : Nat} {s rest : List Char} {spot : Spot} (filled : s ≠ [])
    (printable : s.all isPrintable = true) (outward : Outward margin rest) (deep : 0 < margin) :
    ∃ line, blockScalar? true margin (spot.lay (header s ++ '\n' ::
        (Written.lines (margin - 1 + indentation) true s ++
          ((if endsWith isBreak s then [] else ['\n']) ++ rest)))) =
      some (s, settled line rest) := by
  have deeper : margin - 1 + indentation = margin + 1 := by
    simp only [indentation]
    omega
  have left : Outward (margin - 1 + indentation) rest := outward.mono (by omega)
  obtain ⟨text, later, holds, start, same⟩ := BlockText.lines_read BlockText.holds_empty
    (fun _ => ⟨spot.line + 1, rfl⟩) (margin - 1 + indentation) s
    ((if endsWith isBreak s then [] else ['\n']) ++ rest)
  rw [BlockText.freshAfter_eq filled, List.append_nil] at holds
  rw [BlockText.freshAfter_eq filled] at start same
  have whole : ∃ line text', BlockText.lines? true (margin - 1 + indentation) false {}
      (Spot.lay ⟨spot.line + 1, 0, 0⟩ (Written.lines (margin - 1 + indentation) true s ++
        ((if endsWith isBreak s then [] else ['\n']) ++ rest))) = some (text', settled line rest) ∧
      BlockText.finish text' (chomp s) = s := by
    cases ends : endsWith isBreak s with
    | true =>
      rw [ends] at holds start same
      obtain ⟨line, rfl⟩ := start rfl
      refine ⟨line, text, ?_, holds.finish ends⟩
      exact same.trans (BlockText.lines_end left line)
    | false =>
      rw [ends] at holds same
      refine ⟨later.line + 1, { text with ending := ['\n'] }, ?_, holds.strip ends _⟩
      refine same.trans ?_
      rw [if_neg Bool.false_ne_true, List.singleton_append, Spot.lay_cons, Bool.not_false,
        BlockText.lines?, Spot.glyph_char, if_pos (by decide), Spot.next_of_break (by decide)]
      exact BlockText.lines_end left _
  obtain ⟨line, text', lines, finished⟩ := whole
  refine ⟨line, ?_⟩
  simp only [blockScalar?, read_header, Option.bind_eq_bind, Option.bind_some]
  unfold depth
  by_cases edge : startsWith isEdge s = true
  · rw [if_pos edge]
    simp [lines, finished]
  · rw [if_neg edge]
    have first := leadingColumn_lines filled printable (by simpa using edge) (spot.line + 1)
      (margin - 1 + indentation) ((if endsWith isBreak s then [] else ['\n']) ++ rest)
    have deepest : max (margin - 1 + indentation) (max margin 1) = margin - 1 + indentation := by
      omega
    simp [first, deepest, lines, finished]

end PluginLoader.Yaml
