import PluginLoader.Proofs.Yaml.Printable
import PluginLoader.Proofs.Yaml.Words

/-! The tokens of a written tree. -/
namespace PluginLoader.Yaml

open Layout

namespace Tree

/-- Records all the way down: fields have names for keys, and the items of a list are records. -/
inductive Settings : Tree → Prop where
  | null : Settings .null
  | truth (value : Bool) : Settings (.truth value)
  | text (value : String) : Settings (.text value)
  | list {records : List (List (String × Tree))} :
      (∀ fields ∈ records, fields ≠ [] ∧ ∀ field ∈ fields, IsKey field.1.toList) →
      (∀ fields ∈ records, ∀ field ∈ fields, Settings field.2) →
      Settings (.list (records.map .record))
  | record {fields : List (String × Tree)} :
      (fields ≠ [] ∧ ∀ field ∈ fields, IsKey field.1.toList) →
      (∀ field ∈ fields, Settings field.2) → Settings (.record fields)

def truthWord (value : Bool) : String := if value then "true" else "false"

mutual

/-- The tokens of a value behind a key. -/
def tokens : Tree → List Token
  | .null => [.scalar "null".toList .plain]
  | .truth value => [.scalar (truthWord value).toList .plain]
  | .text value => [.scalar value.toList (Written.style value.toList)]
  | .list items =>
    if items.isEmpty then [.flowSequenceStart, .flowSequenceEnd] else itemTokens items
  | .record fields => .blockMappingStart :: fieldTokens fields ++ [.blockEnd]

def fieldTokens : List (String × Tree) → List Token
  | [] => []
  | (key, value) :: rest =>
    [.key, .scalar key.toList .plain, .value] ++ tokens value ++ fieldTokens rest

def itemTokens : List Tree → List Token
  | [] => []
  | item :: rest => .blockEntry :: tokens item ++ itemTokens rest

end

/-- A value behind a key is read as its tokens. -/
def ReadsBack (tree : Tree) : Prop :=
  ∀ {tokens : List Token} {margins : List Nat} {column : Nat} {spot : Spot} {rest : List Char},
    Outward (column + 1) rest → column ≤ spot.column →
    ∃ line, Reads
      (calm tokens (column + 1) margins false (spot.lay (tree.write .key column ++ rest)))
      (calm (tokens ++ tree.tokens) (column + 1) margins true (Spot.lay ⟨line, 0, 0⟩ rest))

variable {tokens : List Token} {margin : Nat} {margins : List Nat} {column line : Nat} {spot : Spot}
  {keyAllowed : Bool} {input : Input} {rest lead : List Char} {fields : List (String × Tree)}

theorem writeFields_lead (filled : fields ≠ []) :
    writeFields lead column fields = lead ++ writeFields [] column fields := by
  cases fields with
  | nil => exact absurd rfl filled
  | cons field fields => simp [writeFields]

/-- A value stands behind a blank or on a new line. -/
theorem write_gap (tree : Tree) (column : Nat) :
    ∃ c text, tree.write .key column = c :: text ∧ isGap c = true := by
  cases tree with
  | null => exact ⟨' ', _, rfl, by decide⟩
  | truth value => cases value <;> exact ⟨' ', _, rfl, by decide⟩
  | text value => exact ⟨' ', _, rfl, by decide⟩
  | list items =>
    cases items with
    | nil => exact ⟨' ', _, rfl, by decide⟩
    | cons item items => exact ⟨'\n', _, by rw [write]; rfl, by decide⟩
  | record fields =>
    cases fields with
    | nil => exact ⟨' ', _, rfl, by decide⟩
    | cons field fields => exact ⟨'\n', _, by rw [write]; rfl, by decide⟩

theorem key_starts {key : String} (isKey : IsKey key.toList) : ∃ c word, key.toList = c :: word ∧
    isGap c = false ∧ c ≠ '#' ∧ c ≠ byteOrderMark := by
  have bare := isKey.bare
  obtain ⟨c, word, same⟩ := List.exists_cons_of_ne_nil bare.nonempty
  rw [same] at bare
  obtain ⟨ink, lead, mark⟩ := bare.first
  refine ⟨c, word, same, ink, ?_, mark⟩
  rintro rfl
  exact absurd lead (by decide)

/-- The fields behind the first one begin lines of the block, or nothing follows. -/
theorem outward_fields (keys : ∀ field ∈ fields, IsKey field.1.toList)
    (outward : Outward (column + 1) rest) :
    Outward (column + 1) (writeFields (pad column) column fields ++ rest) := by
  cases fields with
  | nil => exact outward
  | cons field fields =>
    have isKey := keys field List.mem_cons_self
    obtain ⟨c, word, same, ink, text, mark⟩ := key_starts isKey
    rw [writeFields, isKey.written, same]
    simp only [List.append_assoc, List.cons_append]
    exact .line (Nat.lt_succ_self column) ink text mark

theorem reads_field {key : String} {tree : Tree} (isKey : IsKey key.toList)
    (value : ReadsBack tree) (outward : Outward (column + 1) rest) (here : spot.column = column)
    (le : margin ≤ column + 1)
    (skip : skipGaps false keyAllowed false input =
      (true, spot.lay (key.toList ++ ':' :: (tree.write .key column ++ rest)))) :
    ∃ line, Reads (calm tokens margin margins keyAllowed input)
      (calm (tokens ++ (if margin = column + 1 then [] else [.blockMappingStart]) ++
          ([.key, .scalar key.toList .plain, .value] ++ tree.tokens)) (column + 1)
        (if margin = column + 1 then margins else margin :: margins) true
        (Spot.lay ⟨line, 0, 0⟩ rest)) := by
  subst here
  obtain ⟨c, text, same, gap⟩ := tree.write_gap spot.column
  have named : Reads (calm tokens margin margins keyAllowed input) _ :=
    reads_key isKey le skip (by rw [same, List.cons_append, Spot.lay_cons]; exact gap)
  have right : spot.column ≤ ((spot.past key.toList).next ':').column := by
    rw [Spot.next_column (by decide), isKey.past]
    exact Nat.le_succ_of_le (Nat.le_add_right ..)
  obtain ⟨line, valued⟩ := value outward right
  refine ⟨line, ?_⟩
  rw [← List.append_assoc]
  exact named.trans valued

theorem skipGaps_field {key : String} (isKey : IsKey key.toList) (text : List Char) :
    skipGaps false keyAllowed false (spot.lay (pad column ++ (key.toList ++ text))) =
      (keyAllowed, (spot.past (pad column)).lay (key.toList ++ text)) := by
  obtain ⟨c, word, same, ink, comment, mark⟩ := key_starts isKey
  rw [skipGaps_pad, same, List.cons_append, Spot.lay_cons, skipGaps_ink ink comment mark]

theorem skipGaps_fields (filled : fields ≠ []) (keys : ∀ field ∈ fields, IsKey field.1.toList)
    (columns : Nat) :
    skipGaps false keyAllowed false
        (spot.lay (pad columns ++ (writeFields [] column fields ++ rest))) =
      (keyAllowed, (spot.past (pad columns)).lay (writeFields [] column fields ++ rest)) := by
  obtain ⟨⟨key, tree⟩, more, rfl⟩ := List.exists_cons_of_ne_nil filled
  have isKey := keys _ List.mem_cons_self
  rw [writeFields, isKey.written]
  simp only [List.nil_append, List.append_assoc]
  exact skipGaps_field isKey _

/-- The fields of a block that is open. -/
theorem reads_further (keys : ∀ field ∈ fields, IsKey field.1.toList)
    (values : ∀ field ∈ fields, ReadsBack field.2) (outward : Outward (column + 1) rest) :
    ∃ later, Reads
      (calm tokens (column + 1) margins true
        (Spot.lay ⟨line, 0, 0⟩ (writeFields (pad column) column fields ++ rest)))
      (calm (tokens ++ fieldTokens fields) (column + 1) margins true
        (Spot.lay ⟨later, 0, 0⟩ rest)) := by
  induction fields generalizing tokens line with
  | nil =>
    refine ⟨line, ?_⟩
    rw [fieldTokens, List.append_nil]
    exact .refl _
  | cons field fields ih =>
    rw [List.forall_mem_cons] at keys values
    obtain ⟨key, tree⟩ := field
    have written : writeFields (pad column) column ((key, tree) :: fields) ++ rest =
        pad column ++ (key.toList ++ ':' :: (tree.write .key column ++
          (writeFields (pad column) column fields ++ rest))) := by
      rw [writeFields, keys.1.written]
      simp
    have here : ((⟨line, 0, 0⟩ : Spot).past (pad column)).column = column := by
      rw [Spot.past_pad, Nat.zero_add]
    obtain ⟨between, first⟩ : ∃ between, Reads (calm tokens (column + 1) margins true _) _ :=
      reads_field keys.1 values.1 (outward_fields keys.2 outward) here (Nat.le_refl _)
        (skipGaps_field keys.1 _)
    -- the block is open, so that the key opens none
    rw [if_pos rfl, if_pos rfl, List.append_nil] at first
    obtain ⟨later, others⟩ := ih keys.2 values.2
    refine ⟨later, ?_⟩
    rw [written, fieldTokens]
    simpa only [List.append_assoc] using first.trans others

/-- A record whose first key comes next. Its block begins there, and ends in front of the rest. -/
theorem reads_record (filled : fields ≠ []) (keys : ∀ field ∈ fields, IsKey field.1.toList)
    (values : ∀ field ∈ fields, ReadsBack field.2) (outward : Outward column rest)
    (here : spot.column = column) (deeper : margin ≤ column)
    (skip : skipGaps false keyAllowed false input =
      (true, spot.lay (writeFields [] column fields ++ rest))) :
    ∃ line, Reads (calm tokens margin margins keyAllowed input)
      (calm (tokens ++ (Tree.record fields).tokens) margin margins true
        (Spot.lay ⟨line, 0, 0⟩ rest)) := by
  obtain ⟨⟨key, tree⟩, more, rfl⟩ := List.exists_cons_of_ne_nil filled
  rw [List.forall_mem_cons] at keys values
  have inner := outward.mono (Nat.le_succ column)
  have outer : margin ≠ column + 1 := by omega
  have written : writeFields [] column ((key, tree) :: more) ++ rest =
      key.toList ++ ':' :: (tree.write .key column ++
        (writeFields (pad column) column more ++ rest)) := by
    rw [writeFields, keys.1.written]
    simp
  obtain ⟨between, first⟩ : ∃ between, Reads (calm tokens margin margins keyAllowed input) _ :=
    reads_field keys.1 values.1 (outward_fields keys.2 inner) here (Nat.le_succ_of_le deeper)
      (written ▸ skip)
  rw [if_neg outer, if_neg outer] at first
  obtain ⟨later, others⟩ := reads_further keys.2 values.2 inner
  have ended : tokens ++ (Tree.record ((key, tree) :: more)).tokens =
      tokens ++ [.blockMappingStart] ++
        ([.key, .scalar key.toList .plain, .value] ++ tree.tokens) ++ fieldTokens more ++
        [.blockEnd] := by
    simp [Tree.tokens, fieldTokens]
  rw [ended]
  exact ⟨later, (first.trans others).alike (alike_close outward) (Nat.le_refl _)⟩

/-- The items of a list start a line each, to the left of what the items hold. -/
theorem outward_items (items : List Tree) (outward : Outward (column + 1) rest) :
    Outward (column + 1) (writeItems (pad column) column items ++ rest) := by
  cases items with
  | nil => exact outward
  | cons item items =>
    rw [writeItems]
    simp only [List.append_assoc, List.cons_append]
    exact .line (Nat.lt_succ_self column) (by decide) (by decide) (by decide)

/-- One item, a record whose first field stands behind the dash. -/
theorem reads_item (filled : fields ≠ []) (keys : ∀ field ∈ fields, IsKey field.1.toList)
    (values : ∀ field ∈ fields, ReadsBack field.2) (outward : Outward (column + 1) rest) :
    ∃ later, Reads
      (calm tokens (column + 1) margins true (Spot.lay ⟨line, 0, 0⟩
        (pad column ++ '-' :: ((Tree.record fields).write .dash column ++ rest))))
      (calm (tokens ++ .blockEntry :: (Tree.record fields).tokens) (column + 1) margins true
        (Spot.lay ⟨later, 0, 0⟩ rest)) := by
  let dash : Spot := (⟨line, 0, 0⟩ : Spot).past (pad column)
  have here : dash.column = column := by simp [dash, Spot.past_pad]
  have written : (Tree.record fields).write .dash column ++ rest =
      ' ' :: (writeFields [] (column + indentation) fields ++ rest) := by
    rw [write, if_neg (by simpa using filled), writeFields_lead filled]
    rfl
  have skip : skipGaps false true false (Spot.lay ⟨line, 0, 0⟩ (pad column ++
      '-' :: ' ' :: (writeFields [] (column + indentation) fields ++ rest))) =
      (true, dash.lay ('-' :: ' ' :: (writeFields [] (column + indentation) fields ++ rest))) := by
    rw [skipGaps_pad, Spot.lay_cons, skipGaps_ink (by decide) (by decide) (by decide)]
  have entry : Reads (calm tokens (dash.column + 1) margins true _) _ := reads_dash skip
  rw [here] at entry
  have inside : ((dash.next '-').next ' ').column = column + indentation := by
    rw [Spot.next_column (by decide), Spot.next_column (by decide), here]
    rfl
  -- the record's own block lies deeper than the dash, by the width of the indentation
  obtain ⟨later, item⟩ : ∃ later, Reads (calm (tokens ++ [.blockEntry]) (column + 1) margins true
      ((dash.next '-').lay (pad 1 ++ _))) _ :=
    reads_record filled keys values (outward.mono (by simp [indentation])) inside
      (by simp [indentation]) (skipGaps_fields filled keys _)
  refine ⟨later, ?_⟩
  rw [written]
  simpa only [List.append_assoc, List.singleton_append] using entry.trans item

/-- The items of a list that begins on a line of its own. -/
theorem reads_items {records : List (List (String × Tree))}
    (keys : ∀ fields ∈ records, fields ≠ [] ∧ ∀ field ∈ fields, IsKey field.1.toList)
    (values : ∀ fields ∈ records, ∀ field ∈ fields, ReadsBack field.2)
    (outward : Outward (column + 1) rest) :
    ∃ later, Reads
      (calm tokens (column + 1) margins true (Spot.lay ⟨line, 0, 0⟩
        (writeItems (pad column) column (records.map .record) ++ rest)))
      (calm (tokens ++ itemTokens (records.map .record)) (column + 1) margins true
        (Spot.lay ⟨later, 0, 0⟩ rest)) := by
  induction records generalizing tokens line with
  | nil =>
    refine ⟨line, ?_⟩
    rw [List.map_nil, itemTokens, List.append_nil]
    exact .refl _
  | cons fields records ih =>
    rw [List.forall_mem_cons] at keys values
    obtain ⟨between, first⟩ : ∃ between, Reads (calm tokens (column + 1) margins true _) _ :=
      reads_item keys.1.1 keys.1.2 values.1 (outward_items (records.map .record) outward)
    obtain ⟨later, others⟩ := ih keys.2 values.2
    refine ⟨later, ?_⟩
    rw [List.map_cons, writeItems, itemTokens]
    simpa only [List.append_assoc, List.cons_append] using first.trans others

theorem writeItems_lead {items : List Tree} (filled : items ≠ []) :
    writeItems lead column items = lead ++ writeItems [] column items := by
  cases items with
  | nil => exact absurd rfl filled
  | cons item items => simp [writeItems]

/-- What stands behind a key goes on in the next line. -/
theorem reads_line (spot : Spot) (rest : List Char) :
    Reads (calm tokens (column + 1) margins false (spot.lay ('\n' :: rest)))
      (calm tokens (column + 1) margins true (Spot.lay ⟨spot.line + 1, 0, 0⟩ rest)) :=
  (Reads.refl _).alike (alike_line spot) (by simp)

/-- Every value that is written is read as its tokens. -/
theorem Settings.readsBack {tree : Tree} (settings : Settings tree) : ReadsBack tree := by
  induction settings with
  | null =>
    intro tokens margins column spot rest outward right
    exact reads_bare (s := "null".toList)
      ⟨by decide, by decide, by decide, by decide, by decide, by decide⟩ outward right
  | truth value =>
    intro tokens margins column spot rest outward right
    have bare : Written.Bare (truthWord value).toList := by
      cases value <;> exact ⟨by decide, by decide, by decide, by decide, by decide, by decide⟩
    cases value <;> exact reads_bare bare outward right
  | text value =>
    intro tokens margins column spot rest outward right
    exact reads_text value.toList outward right
  | @list records keys _ ih =>
    intro tokens margins column spot rest outward right
    rw [write, Tree.tokens]
    by_cases none : records = []
    · subst none
      exact reads_empty_list right
    · have filled : records.map Tree.record ≠ [] := by simpa using none
      obtain ⟨later, items⟩ : ∃ later, Reads (calm tokens (column + 1) margins true
          (Spot.lay ⟨spot.line + 1, 0, 0⟩ _)) _ := reads_items keys ih outward
      rw [writeItems_lead filled] at items
      rw [if_neg (by simpa using none), if_neg (by simpa using none), writeItems_lead filled]
      exact ⟨later, (reads_line spot _).trans items⟩
  | @record fields keys _ ih =>
    intro tokens margins column spot rest outward right
    obtain ⟨filled, named⟩ := keys
    have here : ((⟨spot.line + 1, 0, 0⟩ : Spot).past (pad (column + indentation))).column =
        column + indentation := by
      rw [Spot.past_pad, Nat.zero_add]
    obtain ⟨later, record⟩ : ∃ later, Reads (calm tokens (column + 1) margins true _) _ :=
      reads_record filled named ih (outward.mono (by simp [indentation])) here
        (by simp [indentation]) (skipGaps_fields filled named _)
    rw [write, if_neg (by simpa using filled), writeFields_lead filled]
    refine ⟨later, (reads_line spot _).trans ?_⟩
    simpa only [List.append_assoc, List.append_eq] using record

theorem writeRecord_tokens (settings : Settings (.record fields)) :
    tokens? (writeRecord fields) = some (Tree.record fields).tokens := by
  let input := Spot.lay ⟨0, 0, 0⟩ (writeFields [] 0 fields)
  obtain ⟨line, count, enough, reads⟩ : ∃ line, Reads
      (calm [] 0 [] true (Spot.lay ⟨0, 0, 0⟩ (writeFields [] 0 fields ++ [])))
      (calm (Tree.record fields).tokens 0 [] true (Spot.lay ⟨line, 0, 0⟩ [])) := by
    cases settings with
    | record keys values =>
      exact reads_record keys.1 keys.2 (fun field member => (values field member).readsBack)
        .nothing rfl (Nat.le_refl 0) (skipGaps_fields keys.1 keys.2 0)
  rw [List.append_nil] at enough reads
  have finished : Layout.run? (input.length + 1) { rest := input } =
      some (calm (Tree.record fields).tokens 0 [] true []) := by
    have fuel : input.length = input.length - count + count :=
      (Nat.sub_add_cancel enough).symm
    rw [fuel]
    exact reads _
  have printable : ∀ c ∈ writeFields [] 0 fields, isPrintable c = true :=
    writeFields_printable (fun _ none => absurd none List.not_mem_nil) 0 fields
  rw [tokens?, writeRecord, ofText_printable printable, Option.bind_eq_bind, Option.bind_some,
    finished]
  rfl

end Tree
end PluginLoader.Yaml
