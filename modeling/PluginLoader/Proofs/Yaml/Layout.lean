import PluginLoader.Proofs.Yaml.Spot
import PluginLoader.Yaml.Layout

/-! How a layout goes over text that is written line by line. Reading on is a relation of layouts:
one leads to another if what comes of both is the same. -/
namespace PluginLoader.Yaml

/-! ### Reading on -/

namespace Layout
variable {a b c : Layout} {g : Glyph} {rest : Input}

/-- Two layouts that the same comes of. -/
def Alike (a b : Layout) : Prop := ∀ fuel, run? (fuel + 1) a = run? (fuel + 1) b

/-- One layout leads to another. Every token on the way has taken a character. -/
def Reads (a b : Layout) : Prop :=
  ∃ count, count + b.rest.length ≤ a.rest.length ∧
    ∀ fuel, run? (fuel + count + 1) a = run? (fuel + 1) b

theorem alike_of_advance (same : a.advance? = b.advance?) : Alike a b := by
  intro fuel
  rw [run?, run?, same]

theorem Reads.refl (a : Layout) : Reads a a := ⟨0, by simp, fun _ => rfl⟩

theorem Reads.trans (one : Reads a b) (two : Reads b c) : Reads a c := by
  obtain ⟨first, enough, one⟩ := one
  obtain ⟨second, further, two⟩ := two
  refine ⟨first + second, by omega, fun fuel => ?_⟩
  have count : fuel + (first + second) + 1 = fuel + second + first + 1 := by omega
  rw [count, one, two]

theorem Reads.alike (reads : Reads a b) (alike : Alike b c)
    (shorter : c.rest.length ≤ b.rest.length) : Reads a c := by
  obtain ⟨count, enough, reads⟩ := reads
  exact ⟨count, by omega, fun fuel => (reads fuel).trans (alike fuel)⟩

theorem Reads.token {middle : Layout} (advance : a.advance? = some middle)
    (ahead : middle.rest = g :: rest) (token : middle.token? g rest = some b) (alike : Alike b c)
    (shorter : c.rest.length < a.rest.length) : Reads a c := by
  refine ⟨1, by omega, fun fuel => ?_⟩
  rw [run?, advance, Option.bind_eq_bind, Option.bind_some, ahead]
  simp only [token, Option.bind_some]
  exact alike fuel

end Layout

/-! ### Gaps between tokens -/

variable {spot : Spot} {c : Char} {s : List Char}

theorem skipGaps_pad (keyAllowed : Bool) (columns : Nat) :
    skipGaps false keyAllowed false (spot.lay (pad columns ++ s)) =
      skipGaps false keyAllowed false ((spot.past (pad columns)).lay s) := by
  induction columns generalizing spot with
  | zero => rfl
  | succ columns ih =>
    rw [pad, List.replicate_succ, List.cons_append, Spot.lay_cons, ← pad, skipGaps,
      Spot.glyph_char, if_neg (by decide), if_neg (by decide), if_pos (by simp), ih,
      Spot.past_cons]

theorem skipGaps_ink {keyAllowed : Bool} {rest : Input} (ink : isGap c = false) (text : c ≠ '#')
    (mark : c ≠ byteOrderMark) :
    skipGaps false keyAllowed false (spot.glyph c :: rest) =
      (keyAllowed, spot.glyph c :: rest) := by
  rw [isGap, isBlank, Bool.or_eq_false_iff, Bool.or_eq_false_iff] at ink
  obtain ⟨⟨space, tab⟩, stays⟩ := ink
  rw [skipGaps, if_neg (by simp [stays]), if_neg (by simp [text])]
  simp only [decide_eq_false_iff_not] at space tab
  rw [if_neg (by simp [space, tab, mark])]

theorem skipGaps_line {keyAllowed : Bool} :
    skipGaps false keyAllowed false (spot.lay ('\n' :: s)) =
      skipGaps false true false (Spot.lay ⟨spot.line + 1, 0, 0⟩ s) := by
  rw [Spot.lay_cons, skipGaps, Spot.glyph_char, if_pos (by decide), Spot.next_of_break (by decide)]
  simp

theorem skipGaps_settled {column : Nat} (outward : Outward column s) (line : Nat) :
    skipGaps false true false (settled line s) =
      skipGaps false true false (Spot.lay ⟨line, 0, 0⟩ s) := by
  cases outward with
  | nothing => rfl
  | line within ink text mark => rw [settled_line ink, skipGaps_pad]

theorem length_skipGaps (flow keyAllowed comment : Bool) (input : Input) :
    (skipGaps flow keyAllowed comment input).2.length ≤ input.length := by
  induction input generalizing keyAllowed comment with
  | nil => exact Nat.le_refl _
  | cons g rest ih =>
    rw [skipGaps]
    split
    · exact Nat.le_succ_of_le (ih ..)
    · split
      · exact Nat.le_succ_of_le (ih ..)
      · split
        · exact Nat.le_succ_of_le (ih ..)
        · exact Nat.le_refl _

/-! ### Layouts with nothing pending -/

namespace Layout
variable {tokens : List Token} {margin : Nat} {margins : List Nat} {keyAllowed : Bool}
  {rest : Input}

/-- Outside of brackets, with no place where a key may have begun. -/
def calm (tokens : List Token) (margin : Nat) (margins : List Nat) (keyAllowed : Bool)
    (rest : Input) : Layout :=
  { rest, tokens := tokens.toArray, margin, margins, keyAllowed }

@[simp] theorem calm_rest : (calm tokens margin margins keyAllowed rest).rest = rest := rfl

theorem closeMargins_none {limit : Nat} (le : margin ≤ limit) :
    closeMargins limit margin margins = (0, margin, margins) := by
  cases margins with
  | nil => rfl
  | cons outer margins => rw [closeMargins, if_neg (Nat.not_lt.mpr le)]

theorem closeBlocks_none (layout : Layout) {limit : Nat} (le : layout.margin ≤ limit) :
    layout.closeBlocks limit = layout := by
  unfold closeBlocks
  rw [closeMargins_none le]
  split <;> simp

theorem closeBlocks_inner {inner limit : Nat} (deeper : limit < inner) :
    (calm tokens inner (margin :: margins) keyAllowed rest).closeBlocks limit =
      (calm (tokens ++ [.blockEnd]) margin margins keyAllowed rest).closeBlocks limit := by
  simp only [closeBlocks, calm, inFlow]
  rw [closeMargins, if_pos deeper]
  simp [Array.replicate_succ']

/-- Going to the next token of the current block. -/
theorem advance_within {layout : Layout} {input : Input} {allowed : Bool} {key : Option KeyPlace}
    (outside : layout.keys = []) (le : layout.margin ≤ spot.column + 1)
    (skip : skipGaps false layout.keyAllowed false layout.rest = (allowed, spot.glyph c :: input))
    (still : KeyPlace.still? (spot.glyph c) layout.key = some key) :
    layout.advance? =
      some { layout with rest := spot.glyph c :: input, keyAllowed := allowed, key } := by
  have flow : layout.inFlow = false := by simp [inFlow, outside]
  rw [advance?, flow, skip]
  simp only [still, outside, List.mapM_nil, Option.pure_def, Option.bind_eq_bind,
    Option.bind_some]
  exact congrArg some (closeBlocks_none _ le)

theorem advance_calm (tokens : List Token) (margin : Nat) (margins : List Nat) (keyAllowed : Bool)
    (rest : Input) : (calm tokens margin margins keyAllowed rest).advance? =
      match skipGaps false keyAllowed false rest with
      | (allowed, []) => some (calm tokens margin margins allowed [])
      | (allowed, g :: input) =>
        some ((calm tokens margin margins allowed (g :: input)).closeBlocks (g.column + 1)) := by
  have flow : (calm tokens margin margins keyAllowed rest).inFlow = false := rfl
  have kept : (calm tokens margin margins keyAllowed rest).keyAllowed = keyAllowed := rfl
  rw [advance?, flow, kept, calm_rest]
  rcases skipGaps false keyAllowed false rest with ⟨allowed, _ | ⟨g, input⟩⟩ <;> rfl

/-- What lies in front of the next token does not count. -/
theorem alike_of_skip {allowed : Bool} {input : Input}
    (same : skipGaps false keyAllowed false rest = skipGaps false allowed false input) :
    Alike (calm tokens margin margins keyAllowed rest)
      (calm tokens margin margins allowed input) := by
  apply alike_of_advance
  rw [advance_calm, advance_calm, same]

/-- A block ends where a line begins to the left of it. -/
theorem alike_close {column line : Nat} {s : List Char} (outward : Outward column s) :
    Alike (calm tokens (column + 1) (margin :: margins) true (Spot.lay ⟨line, 0, 0⟩ s))
      (calm (tokens ++ [.blockEnd]) margin margins true (Spot.lay ⟨line, 0, 0⟩ s)) := by
  cases outward with
  | nothing =>
    intro fuel
    rw [run?, run?, advance_calm, advance_calm]
    simp only [Spot.lay_nil, skipGaps, Option.bind_eq_bind, Option.bind_some, calm_rest]
    rw [closeBlocks_inner (Nat.succ_pos column)]
  | @line indent c rest within ink text mark =>
    apply alike_of_advance
    rw [advance_calm, advance_calm, skipGaps_pad, Spot.lay_cons, skipGaps_ink ink text mark]
    simp only [Spot.glyph_column, Spot.past_pad, Nat.zero_add]
    rw [closeBlocks_inner (Nat.succ_lt_succ within)]

end Layout

end PluginLoader.Yaml
