import PluginLoader.Proofs.Yaml.Layout
import PluginLoader.Proofs.Yaml.Scalar.Block
import PluginLoader.Proofs.Yaml.Scalar.Quoted

/-! The words of a block, each read from where it begins to the start of the next one: scalars
behind keys, keys with their colons, and dashes. -/
namespace PluginLoader.Yaml

open Written

variable {spot : Spot} {c : Char} {s : List Char}

/-! ### Tokens of scalars -/

namespace Written.Bare
variable {margin : Nat} {spot : Spot} {c : Char} {s : List Char}

theorem first (bare : Bare (c :: s)) :
    isGap c = false ∧ isLeadingIndicator c = false ∧ c ≠ byteOrderMark := by
  have indicators := bare.calm
  simp only [hasIndicator, Bool.or_eq_false_iff] at indicators
  refine ⟨(bare.edges c List.mem_cons_self).trans bare.starts, indicators.1.1.1.1.2, ?_⟩
  rintro rfl
  have printable := bare.printable
  rw [List.all_cons, Bool.and_eq_true] at printable
  exact absurd printable.1 (by decide)

/-- A character that could be an indicator has more of the text behind it. -/
theorem atGap (bare : Bare (c :: s)) (mark : c = '-' ∨ c = '?' ∨ c = ':') (tail : List Char) :
    (spot.lay (s ++ tail)).atGap = false := by
  have indicators := bare.calm
  simp only [hasIndicator, Bool.or_eq_false_iff] at indicators
  obtain ⟨⟨⟨⟨_, lead⟩, colon⟩, lastColon⟩, _⟩ := indicators
  have ink : ∃ d more, s = d :: more ∧ isGap d = false := by
    obtain rfl | rfl | rfl := mark
    · cases s with
      | nil => simp [startsWith] at lead
      | cons d more => exact ⟨d, more, rfl, by simpa [startsWith] using lead⟩
    · cases s with
      | nil => simp [startsWith] at lead
      | cons d more => exact ⟨d, more, rfl, by simpa [startsWith] using lead⟩
    · cases s with
      | nil => simp [endsWith] at lastColon
      | cons d more =>
        rw [meets_cons, Bool.or_eq_false_iff] at colon
        exact ⟨d, more, rfl, by simpa [startsWith] using colon.1⟩
  obtain ⟨d, more, rfl, ink⟩ := ink
  simp [Spot.lay_cons, Input.atGap, ink]

theorem token (bare : Bare (c :: s)) {layout : Layout} (outside : layout.keys = [])
    (start : spot.column = 0 → c ≠ '-' ∧ c ≠ '.') (tail : List Char) :
    layout.token? (spot.glyph c) ((spot.next c).lay (s ++ tail)) =
      layout.plain? (spot.glyph c) := by
  obtain ⟨ink, lead, _⟩ := bare.first
  have flow : layout.inFlow = false := by simp [Layout.inFlow, outside]
  have plain : ∀ d ∈ "#,[]\x7b\x7d&*!|>\x27\x22%@\x60".toList, c ≠ d := by
    rintro d member rfl
    exact absurd (List.contains_iff_mem.mpr member) (by simpa [isLeadingIndicator] using lead)
  have text : Input.marksDocument '-' (spot.glyph c :: (spot.next c).lay (s ++ tail)) = false ∧
      Input.marksDocument '.' (spot.glyph c :: (spot.next c).lay (s ++ tail)) = false := by
    by_cases inside : spot.column = 0
    · have marks : Input.atDocumentMark (spot.glyph c :: (spot.next c).lay (s ++ tail)) = false :=
        atDocumentMark_of_ne (start inside).1 (start inside).2 _
      rwa [Input.atDocumentMark, Bool.or_eq_false_iff] at marks
    · exact ⟨marksDocument_inside (Nat.pos_of_ne_zero inside) ..,
        marksDocument_inside (Nat.pos_of_ne_zero inside) ..⟩
  have percent : c ≠ '%' := plain '%' (by decide)
  rw [Layout.token?, if_neg (by simp [percent]), if_neg (by simp [text.1]),
    if_neg (by simp [text.2]), flow]
  simp only [Spot.glyph_char, Bool.false_or]
  split
  case h_13 => rw [if_neg (by simp [bare.atGap])]
  case h_14 => rw [if_neg (by simp [bare.atGap])]
  case h_15 => rw [if_neg (by simp [bare.atGap])]
  case h_16 dash question colon =>
    have indicators : ∀ d, Layout.isIndicator d = true →
        d = '-' ∨ d = '?' ∨ d = ':' ∨ isLeadingIndicator d = true := by
      have listed : ("-?:,[]\x7b\x7d#&*!|>\x27\x22%@\x60".toList.all fun d =>
          d = '-' || (d = '?' || (d = ':' || isLeadingIndicator d))) = true := by decide
      intro d member
      simpa using List.all_eq_true.mp listed d (List.contains_iff_mem.mp member)
    have visible : Layout.isIndicator c = false := by
      by_contra indicator
      obtain same | same | same | same := indicators c (by simpa using indicator)
      · exact dash same
      · exact question same
      · exact colon same
      · simp [lead] at same
    rw [if_neg (by simp [ink, visible])]
  all_goals exact absurd rfl (plain _ (by decide))

end Written.Bare

namespace Layout
variable {tokens : List Token} {margins : List Nat} {column : Nat} {rest : List Char}

/-- Where a value begins behind a blank. -/
theorem advance_value (right : column ≤ spot.column) (ink : isGap c = false) (text : c ≠ '#')
    (mark : c ≠ byteOrderMark) (s : List Char) :
    (calm tokens (column + 1) margins false (spot.lay (' ' :: c :: s))).advance? =
      some (calm tokens (column + 1) margins false
        ((spot.next ' ').glyph c :: ((spot.next ' ').next c).lay s)) := by
  have inside : (spot.next ' ').column = spot.column + 1 := Spot.next_column (by decide)
  refine advance_within rfl (by simp only [calm]; omega) ?_ rfl
  have skip : skipGaps false false false (spot.lay (pad 1 ++ c :: s)) = _ := skipGaps_pad false 1
  rw [Spot.lay_cons, skipGaps_ink ink text mark] at skip
  exact skip

/-- What stands behind the text of a value does not count. -/
theorem alike_settled (outward : Outward (column + 1) rest) (line : Nat) :
    Alike (calm tokens (column + 1) margins true (settled line rest))
      (calm tokens (column + 1) margins true (Spot.lay ⟨line, 0, 0⟩ rest)) :=
  alike_of_skip (skipGaps_settled outward line)

theorem alike_line (spot : Spot) :
    Alike (calm tokens (column + 1) margins false (spot.lay ('\n' :: rest)))
      (calm tokens (column + 1) margins true (Spot.lay ⟨spot.line + 1, 0, 0⟩ rest)) :=
  alike_of_skip skipGaps_line

theorem reads_bare (bare : Bare s) (outward : Outward (column + 1) rest)
    (right : column ≤ spot.column) :
    ∃ line, Reads (calm tokens (column + 1) margins false (spot.lay (' ' :: (s ++ '\n' :: rest))))
      (calm (tokens ++ [.scalar s .plain]) (column + 1) margins true
        (Spot.lay ⟨line, 0, 0⟩ rest)) := by
  cases s with
  | nil => exact absurd rfl bare.nonempty
  | cons c s =>
    obtain ⟨ink, lead, mark⟩ := bare.first
    have text : c ≠ '#' := by
      rintro rfl
      exact absurd lead (by decide)
    have inside : (spot.next ' ').column = spot.column + 1 := Spot.next_column (by decide)
    have scalar : plainScalar? false (column + 1)
        ((spot.next ' ').lay (c :: s ++ '\n' :: rest)) = _ :=
      (bare.read _ (by omega)).trans (PlainScalar.readFrom_line outward)
    rw [List.reverse_reverse] at scalar
    rw [List.cons_append] at scalar ⊢
    refine ⟨((spot.next ' ').past (c :: s)).line + 1,
      .token (advance_value right ink text mark _) rfl ?_ (alike_settled outward _) ?_⟩
    · refine (bare.token rfl (by omega) _).trans ?_
      rw [Spot.lay_cons] at scalar
      simp [plain?, noteKey?, calm, inFlow, scalar, push]
    · simp only [calm_rest, Spot.length_lay, List.length_cons, List.length_append]
      omega

/-- Tokens that their first character tells of. -/
theorem token_of_mark (layout : Layout) (input : Input) : c ≠ '%' → c ≠ '-' → c ≠ '.' →
    layout.token? (spot.glyph c) input =
      match c with
      | '\x27' => layout.quoted? (spot.glyph c) .singleQuoted (singleQuoted? {} [] input)
      | '\x22' => layout.quoted? (spot.glyph c) .doubleQuoted (doubleQuoted? .outside {} [] input)
      | '|' => if layout.inFlow then none else layout.block? input .literal
      | '[' => layout.openFlow? (spot.glyph c) input .flowSequenceStart
      | ']' => layout.closeFlow? input .flowSequenceEnd
      | ':' =>
        if layout.inFlow || input.atGap then layout.value? (spot.glyph c) input
        else layout.plain? (spot.glyph c)
      | _ => layout.token? (spot.glyph c) input := by
  intro percent dash dot
  have text : Input.atDocumentMark (spot.glyph c :: input) = false :=
    atDocumentMark_of_ne dash dot input
  rw [Input.atDocumentMark, Bool.or_eq_false_iff] at text
  split
  all_goals try rfl
  all_goals rw [token?, if_neg (by simp), if_neg (by simp [text.1]), if_neg (by simp [text.2])]; rfl

theorem reads_quoted {quote : Char} {body : List Char} {style : ScalarStyle}
    {text : Option (List Char × Input)} {later : Spot} (right : column ≤ spot.column)
    (visible : isGap quote = false ∧ quote ≠ '#' ∧ quote ≠ byteOrderMark)
    (token : ∀ layout : Layout, layout.token? ((spot.next ' ').glyph quote)
        (((spot.next ' ').next quote).lay body) =
      layout.quoted? ((spot.next ' ').glyph quote) style text)
    (read : text = some (s, later.lay ('\n' :: rest))) (shorter : rest.length ≤ body.length) :
    ∃ line, Reads (calm tokens (column + 1) margins false (spot.lay (' ' :: quote :: body)))
      (calm (tokens ++ [.scalar s style]) (column + 1) margins true
        (Spot.lay ⟨line, 0, 0⟩ rest)) := by
  refine ⟨later.line + 1, .token (advance_value right visible.1 visible.2.1 visible.2.2 _) rfl
    ((token _).trans ?_) (alike_line later) ?_⟩
  · simp [quoted?, keyStart?, noteKey?, calm, push, read]
  · simp only [calm_rest, Spot.length_lay, List.length_cons]
    omega

theorem block_calm {given input rest : Input} {margin : Nat}
    (read : blockScalar? true margin input = some (s, rest)) :
    (calm tokens margin margins false given).block? input .literal =
      some (calm (tokens ++ [.scalar s .literal]) margin margins true rest) := by
  simp [block?, dropKey?, calm, push, read]

theorem quote_inside (spot : Spot) {quote : Char} (stays : isBreak quote = false) :
    0 < ((spot.next ' ').next quote).column := by
  rw [Spot.next_column stays]
  exact Nat.succ_pos _

theorem reads_single (printable : s.all isPrintable = true) (line : '\n' ∉ s)
    (blankFirst : Written.meets Written.isSpace isBreak s = false)
    (breakFirst : Written.meets isBreak Written.isSpace s = false)
    (right : column ≤ spot.column) :
    ∃ line, Reads
      (calm tokens (column + 1) margins false (spot.lay (' ' :: singleQuote ::
        (single (column + indentation) false s ++ singleQuote :: '\n' :: rest))))
      (calm (tokens ++ [.scalar s .singleQuoted]) (column + 1) margins true
        (Spot.lay ⟨line, 0, 0⟩ rest)) := by
  obtain ⟨later, read⟩ : ∃ later : Spot, singleQuoted? {} []
      (((spot.next ' ').next singleQuote).lay (single (column + indentation) false s ++
        singleQuote :: '\n' :: rest)) = some (s, later.lay ('\n' :: rest)) :=
    singleQuoted_read rest (by simp [indentation]) (by decide) printable line blankFirst
      breakFirst (Gap.before_empty s) fun _ => quote_inside spot (by decide)
  refine reads_quoted right (by decide)
    (fun _ => token_of_mark _ _ (by decide) (by decide) (by decide)) read ?_
  simp only [List.length_append, List.length_cons]
  omega

theorem reads_double (s : List Char) (right : column ≤ spot.column) :
    ∃ line, Reads
      (calm tokens (column + 1) margins false (spot.lay (' ' :: doubleQuote ::
        (double s ++ doubleQuote :: '\n' :: rest))))
      (calm (tokens ++ [.scalar s .doubleQuoted]) (column + 1) margins true
        (Spot.lay ⟨line, 0, 0⟩ rest)) := by
  obtain ⟨later, read⟩ : ∃ later : Spot, doubleQuoted? .outside {} []
      (((spot.next ' ').next doubleQuote).lay (double s ++ doubleQuote :: '\n' :: rest)) =
        some (s, later.lay ('\n' :: rest)) :=
    doubleQuoted_read _ rfl (quote_inside spot (by decide))
  refine reads_quoted right (by decide)
    (fun _ => token_of_mark _ _ (by decide) (by decide) (by decide)) read ?_
  simp only [List.length_append, List.length_cons]
  omega

/-- Lines behind a bar. The last one is ended if the text does not do so itself. -/
theorem reads_literal (printable : s.all isPrintable = true) (filled : s ≠ [])
    (outward : Outward (column + 1) rest) (right : column ≤ spot.column) :
    ∃ line, Reads
      (calm tokens (column + 1) margins false (spot.lay (' ' :: '|' :: (header s ++ '\n' ::
        (Written.lines (column + indentation) true s ++
          ((if endsWith isBreak s then [] else ['\n']) ++ rest))))))
      (calm (tokens ++ [.scalar s .literal]) (column + 1) margins true
        (Spot.lay ⟨line, 0, 0⟩ rest)) := by
  obtain ⟨line, read⟩ : ∃ line, blockScalar? true (column + 1)
      (((spot.next ' ').next '|').lay (header s ++ '\n' ::
        (Written.lines (column + indentation) true s ++
          ((if endsWith isBreak s then [] else ['\n']) ++ rest)))) =
      some (s, settled line rest) :=
    blockScalar_read filled printable outward (Nat.succ_pos column)
  have mark : isGap '|' = false ∧ '|' ≠ '#' ∧ '|' ≠ byteOrderMark := by decide
  refine ⟨line, .token (advance_value right mark.1 mark.2.1 mark.2.2 _) rfl
    ((token_of_mark _ _ (by decide) (by decide) (by decide)).trans (block_calm read))
    (alike_settled outward line) ?_⟩
  simp only [calm_rest, Spot.length_lay, List.length_cons, List.length_append]
  omega

/-- A text behind a key becomes a scalar of its style. -/
theorem reads_text (s : List Char) (outward : Outward (column + 1) rest)
    (right : column ≤ spot.column) :
    ∃ line, Reads
      (calm tokens (column + 1) margins false
        (spot.lay (' ' :: (writtenLine (column + indentation) s ++ rest))))
      (calm (tokens ++ [.scalar s (Written.style s)]) (column + 1) margins true
        (Spot.lay ⟨line, 0, 0⟩ rest)) := by
  have ended : ∀ (front : List Char) (last : Char), isBreak last = false →
      (if endsWith isBreak (front ++ [last]) then front ++ [last]
        else front ++ [last] ++ ['\n']) = front ++ [last, '\n'] := by
    intro front last stays
    rw [if_neg (by simp [endsWith, stays]), List.append_assoc]
    rfl
  unfold writtenLine
  dsimp only
  -- the style is a variable from here on, or it would be computed anew in every case
  generalize style : Written.style s = chosen
  cases (style ▸ style_fits s : Fits s chosen) with
  | plain bare =>
    rw [writtenAs, if_neg (by simp [endsWith_of_any bare.unbroken]), List.append_assoc]
    exact reads_bare bare outward right
  | singleQuoted printable line blankFirst breakFirst =>
    rw [writtenAs, ended _ _ (by decide), List.append_assoc]
    exact reads_single printable line blankFirst breakFirst right
  | doubleQuoted =>
    rw [writtenAs, ended _ _ (by decide), List.append_assoc]
    exact reads_double s right
  | literal printable filled =>
    have ends : endsWith isBreak (writtenAs (column + indentation) s .literal) =
        endsWith isBreak s := by
      have lines := lines_ne_nil filled (column + indentation) true
      rw [writtenAs, endsWith_append (by simp), endsWith_cons, if_neg lines,
        endsWith_lines filled]
    have written : (if endsWith isBreak (writtenAs (column + indentation) s .literal) then
          writtenAs (column + indentation) s .literal
        else writtenAs (column + indentation) s .literal ++ ['\n']) ++ rest =
        '|' :: (header s ++ '\n' :: (Written.lines (column + indentation) true s ++
          ((if endsWith isBreak s then [] else ['\n']) ++ rest))) := by
      rw [ends, writtenAs]
      split <;> simp
    rw [written]
    exact reads_literal printable filled outward right

theorem reads_empty_list (right : column ≤ spot.column) :
    ∃ line, Reads
      (calm tokens (column + 1) margins false (spot.lay (' ' :: '[' :: ']' :: '\n' :: rest)))
      (calm (tokens ++ [.flowSequenceStart, .flowSequenceEnd]) (column + 1) margins true
        (Spot.lay ⟨line, 0, 0⟩ rest)) := by
  have mark : isGap '[' = false ∧ '[' ≠ '#' ∧ '[' ≠ byteOrderMark := by decide
  let behind := (spot.next ' ').next '['
  let flow : Layout :=
    { calm (tokens ++ [.flowSequenceStart]) (column + 1) margins true
        (behind.lay (']' :: '\n' :: rest)) with keys := [none] }
  have enter : Reads (calm tokens (column + 1) margins false
      (spot.lay (' ' :: '[' :: ']' :: '\n' :: rest))) flow := by
    refine .token (advance_value right mark.1 mark.2.1 mark.2.2 _) rfl
      ((token_of_mark _ _ (by decide) (by decide) (by decide)).trans ?_) (fun _ => rfl) ?_
    · simp [openFlow?, noteKey?, calm, push, flow, behind]
    · simp [flow]
  -- nothing stands between the brackets
  have stay : flow.advance? = some flow := rfl
  have leave : Reads flow (calm (tokens ++ [.flowSequenceStart, .flowSequenceEnd]) (column + 1)
      margins true (Spot.lay ⟨(behind.next ']').line + 1, 0, 0⟩ rest)) := by
    refine .token stay Spot.lay_cons
      ((token_of_mark _ _ (by decide) (by decide) (by decide)).trans ?_) (alike_line _) ?_
    · simp [closeFlow?, dropKey?, calm, push, flow, behind]
    · simp only [flow, calm_rest, Spot.length_lay, List.length_cons]
      omega
  exact ⟨_, enter.trans leave⟩

end Layout

/-! ### Keys -/

/-- A name that is written as it is and read as a key. -/
def IsKey (key : List Char) : Prop :=
  Written.style key = .plain ∧ (key.all fun c => c.isAlpha || c = '_') = true ∧
    key.length ≤ keyLimit

instance (key : List Char) : Decidable (IsKey key) := inferInstanceAs (Decidable (_ ∧ _))

namespace IsKey
variable {key : List Char}

theorem letter_narrow {c : Char} (letter : c.isAlpha = true ∨ c = '_') :
    isBreak c = false ∧ c.utf8Size = 1 := by
  have small : c.val ≤ 127 := by
    obtain alpha | rfl := letter
    · obtain upper | lower := (Bool.or_eq_true c.isUpper c.isLower).mp alpha
      · have range : c.val ≥ 'A'.val ∧ c.val ≤ 'Z'.val := of_decide_eq_true upper
        exact UInt32.le_trans range.2 (by decide)
      · have last : c.val ≤ 'z'.val := of_decide_eq_true ((Bool.and_eq_true _ _).mp lower).2
        exact UInt32.le_trans last (by decide)
    · decide
  refine ⟨?_, Char.utf8Size_eq_one_iff.mpr small⟩
  simp only [isBreak, Bool.or_eq_false_iff, decide_eq_false_iff_not]
  refine ⟨⟨?_, ?_⟩, ?_⟩
  · rintro rfl
    exact absurd letter (by decide)
  · rintro rfl
    exact absurd small (by decide)
  · rintro rfl
    exact absurd small (by decide)

theorem letters (isKey : IsKey key) : ∀ c ∈ key, c.isAlpha = true ∨ c = '_' := by
  simpa using isKey.2.1

theorem past (isKey : IsKey key) : spot.past key =
    ⟨spot.line, spot.column + key.length, spot.offset + key.length⟩ := by
  have letters := isKey.letters
  clear isKey
  induction key generalizing spot with
  | nil => rfl
  | cons c key ih =>
    rw [List.forall_mem_cons] at letters
    obtain ⟨stays, narrow⟩ := letter_narrow letters.1
    have next : spot.next c = ⟨spot.line, spot.column + 1, spot.offset + 1⟩ := by
      rw [Spot.next, stays, narrow]
      rfl
    rw [Spot.past_cons, next, ih letters.2]
    simp [Nat.add_assoc, Nat.add_comm 1]

theorem bare (isKey : IsKey key) : Bare key := bare_of_style isKey.1

theorem written (isKey : IsKey key) : writtenKey key = key := by
  rw [writtenKey, isKey.bare.unbroken, if_neg Bool.false_ne_true, isKey.1]
  rfl

end IsKey

namespace Layout
variable {tokens : List Token} {margin : Nat} {margins : List Nat} {keyAllowed : Bool}
  {rest : Input} {key text : List Char}

theorem insertIdx_behind (front rest : List Token) (token : Token) :
    (front ++ rest).insertIdx front.length token = front ++ token :: rest := by
  induction front with
  | nil => rfl
  | cons first front ih => simp [ih]

theorem insert_behind (layout : Layout) {front rest : List Token}
    (here : layout.tokens = (front ++ rest).toArray) (token : Token) :
    layout.insert front.length token =
      { layout with tokens := (front ++ token :: rest).toArray } := by
  rw [insert, here, Array.insertIdxIfInBounds, dif_pos (by simp), List.insertIdx_toArray,
    insertIdx_behind]

/-- A colon that makes a key of the scalar in front of it, perhaps the first key of a block. -/
theorem value_key {place : KeyPlace} {tokens : List Token} {word : Token} {g : Glyph}
    {given : Input} (position : place.position = tokens.length) (le : margin ≤ place.column + 1) :
    Layout.value? { calm (tokens ++ [word]) margin margins false given with key := some place } g
        rest =
      some (calm (tokens ++ (if margin = place.column + 1 then [] else [.blockMappingStart]) ++
          [.key, word, .value]) (place.column + 1)
        (if margin = place.column + 1 then margins else margin :: margins) false rest) := by
  simp only [value?]
  rw [position, insert_behind _ rfl]
  by_cases within : margin = place.column + 1
  · simp [openBlock, calm, inFlow, within, push]
  · have outer : ¬ place.column < margin := by omega
    rw [openBlock, if_neg (by simp [calm, inFlow, outer]), insert_behind _ rfl, if_neg within,
      if_neg within]
    simp [calm, push]

/-- Behind a name that may become a key. -/
def named (tokens : List Token) (margin : Nat) (margins : List Nat) (spot : Spot)
    (key text : List Char) : Layout :=
  { calm (tokens ++ [.scalar key .plain]) margin margins false
      ((spot.past key).lay (':' :: text)) with
    key := some ⟨margin = spot.column + 1, tokens.length, spot.line, spot.column, spot.offset⟩ }

theorem reads_name (isKey : IsKey key) (le : margin ≤ spot.column + 1)
    (skip : skipGaps false keyAllowed false rest = (true, spot.lay (key ++ ':' :: text)))
    (gap : (((spot.past key).next ':').lay text).atGap = true) :
    Reads (calm tokens margin margins keyAllowed rest)
      (named tokens margin margins spot key text) := by
  have bare := isKey.bare
  obtain ⟨c, word, rfl⟩ := List.exists_cons_of_ne_nil bare.nonempty
  have letter := isKey.letters c List.mem_cons_self
  have shorter := length_skipGaps false keyAllowed false rest
  rw [skip, Spot.length_lay] at shorter
  have scalar : plainScalar? false margin (spot.lay (c :: word ++ ':' :: text)) = _ :=
    (bare.read _ le).trans (PlainScalar.readFrom_colon gap)
  rw [List.reverse_reverse] at scalar
  rw [List.cons_append, Spot.lay_cons] at skip scalar
  refine .token (advance_within rfl le skip rfl) rfl ((bare.token rfl ?_ _).trans ?_)
    (fun _ => rfl) ?_
  · rintro -
    constructor <;> rintro rfl <;> exact absurd letter (by decide)
  · simp [plain?, noteKey?, dropKey?, calm, inFlow, scalar, push, named]
    rfl
  · simp only [named, calm_rest, Spot.length_lay, List.length_cons, List.length_append] at shorter ⊢
    omega

theorem reads_colon (isKey : IsKey key) (le : margin ≤ spot.column + 1)
    (gap : (((spot.past key).next ':').lay text).atGap = true) :
    Reads (named tokens margin margins spot key text)
      (calm (tokens ++ (if margin = spot.column + 1 then [] else [.blockMappingStart]) ++
          [.key, .scalar key .plain, .value]) (spot.column + 1)
        (if margin = spot.column + 1 then margins else margin :: margins) false
        (((spot.past key).next ':').lay text)) := by
  have past : spot.past key = _ := isKey.past
  have still : KeyPlace.still? ((spot.past key).glyph ':') (named tokens margin margins spot key
      text).key = some (named tokens margin margins spot key text).key := by
    simpa [KeyPlace.still?, past, named] using isKey.2.2
  have ahead : skipGaps false false false ((spot.past key).lay (':' :: text)) = _ :=
    Spot.lay_cons ▸ skipGaps_ink (by decide) (by decide) (by decide)
  refine .token (advance_within rfl ?_ ahead still) rfl
    ((token_of_mark _ _ (by decide) (by decide) (by decide)).trans ?_) (fun _ => rfl) ?_
  · rw [past]
    exact Nat.le_trans le (Nat.succ_le_succ (Nat.le_add_right ..))
  · have mark : ∀ layout : Layout, (layout.inFlow ||
        (((spot.past key).next ':').lay text).atGap) = true :=
      fun layout => by rw [gap, Bool.or_true]
    refine (if_pos (mark _)).trans ?_
    exact value_key rfl le
  · simp [named]

/-- A key and its colon. The first key of a block opens it. -/
theorem reads_key (isKey : IsKey key) (le : margin ≤ spot.column + 1)
    (skip : skipGaps false keyAllowed false rest = (true, spot.lay (key ++ ':' :: text)))
    (gap : (((spot.past key).next ':').lay text).atGap = true) :
    Reads (calm tokens margin margins keyAllowed rest)
      (calm (tokens ++ (if margin = spot.column + 1 then [] else [.blockMappingStart]) ++
          [.key, .scalar key .plain, .value]) (spot.column + 1)
        (if margin = spot.column + 1 then margins else margin :: margins) false
        (((spot.past key).next ':').lay text)) :=
  (reads_name isKey le skip gap).trans (reads_colon isKey le gap)

/-- The dash of an item that stands in the block of its key. -/
theorem reads_dash (skip : skipGaps false keyAllowed false rest =
      (true, spot.lay ('-' :: ' ' :: text))) :
    Reads (calm tokens (spot.column + 1) margins keyAllowed rest)
      (calm (tokens ++ [.blockEntry]) (spot.column + 1) margins true
        ((spot.next '-').lay (' ' :: text))) := by
  have shorter := length_skipGaps false keyAllowed false rest
  rw [skip, Spot.length_lay] at shorter
  have mark : ∀ c, c = '-' ∨ c = '.' → Input.marksDocument c
      (spot.glyph '-' :: (spot.next '-').lay (' ' :: text)) = false := by
    rintro c (rfl | rfl) <;> cases text <;> simp [Spot.lay_cons, Input.marksDocument]
  have gap : ((spot.next '-').lay (' ' :: text)).atGap = true := rfl
  rw [Spot.lay_cons] at skip
  refine .token (advance_within rfl (Nat.le_refl _) skip rfl) rfl ?_ (fun _ => rfl) ?_
  · rw [token?, if_neg (by simp), if_neg (by simp [mark]), if_neg (by simp [mark])]
    refine (if_pos gap).trans ?_
    simp [blockMark?, openBlock, dropKey?, calm, inFlow, push]
  · simp only [calm_rest, Spot.length_lay, List.length_cons] at shorter ⊢
    omega

end Layout

end PluginLoader.Yaml
