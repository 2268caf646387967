import PluginLoader.JsonValue
import PluginLoader.Proofs.Text.Hex

/-! JSON text read back into a value, for values without numbers: blanks count nowhere but inside of
quotes. Printed values read back as they are, so nothing of a value is lost in print. -/
namespace PluginLoader.JsonValue

open Yaml (hexDigit? charOfNat? EscapeState)

def isBlank (c : Char) : Bool := c = ' ' || c = '\n' || c = '\r' || c = '\t'

def trim (s : List Char) : List Char := s.dropWhile isBlank

/-- Escapes of one letter. -/
def letterEscape? (c : Char) : Option Char :=
  match c with
  | '"' => some '"'
  | '\\' => some '\\'
  | '/' => some '/'
  | 'b' => some '\x08'
  | 'f' => some '\x0c'
  | 'n' => some '\n'
  | 'r' => some '\r'
  | 't' => some '\t'
  | _ => none

/-- The text up to the closing quote, and what follows it. -/
def text? : EscapeState → List Char → Option (List Char × List Char)
  | _, [] => none
  | .outside, c :: rest =>
    if c = '"' then some ([], rest)
    else if c = '\\' then text? .begun rest
    else if c < ' ' then none
    else (text? .outside rest).map fun (text, rest) => (c :: text, rest)
  | .begun, c :: rest =>
    if c = 'u' then text? (.digits 4 0) rest
    else
      match letterEscape? c with
      | some c => (text? .outside rest).map fun (text, rest) => (c :: text, rest)
      | none => none
  | .digits left value, c :: rest =>
    match hexDigit? c with
    | none => none
    | some digit =>
      if left ≤ 1 then
        match charOfNat? (value * 16 + digit) with
        | some c => (text? .outside rest).map fun (text, rest) => (c :: text, rest)
        | none => none
      else text? (.digits (left - 1) (value * 16 + digit)) rest

mutual

/-- A value at the front of a text, and what follows it. -/
def value? : Nat → List Char → Option (JsonValue × List Char)
  | 0, _ => none
  | fuel + 1, s =>
    match trim s with
    | 'n' :: 'u' :: 'l' :: 'l' :: rest => some (.null, rest)
    | 't' :: 'r' :: 'u' :: 'e' :: rest => some (.bool true, rest)
    | 'f' :: 'a' :: 'l' :: 's' :: 'e' :: rest => some (.bool false, rest)
    | '"' :: rest =>
      (text? .outside rest).map fun (text, rest) => (.string (String.ofList text), rest)
    | '[' :: rest =>
      match trim rest with
      | ']' :: rest => some (.array [], rest)
      | _ => (items? fuel rest).map fun (items, rest) => (.array items, rest)
    | '\x7b' :: rest =>
      match trim rest with
      | '\x7d' :: rest => some (.object [], rest)
      | _ => (fields? fuel rest).map fun (fields, rest) => (.object fields, rest)
    | _ => none

/-- The items up to the closing bracket. -/
def items? : Nat → List Char → Option (List JsonValue × List Char)
  | 0, _ => none
  | fuel + 1, s => do
    let (item, rest) ← value? fuel s
    match trim rest with
    | ',' :: rest => (items? fuel rest).map fun (items, rest) => (item :: items, rest)
    | ']' :: rest => some ([item], rest)
    | _ => none

/-- The fields up to the closing brace. -/
def fields? : Nat → List Char → Option (List (String × JsonValue) × List Char)
  | 0, _ => none
  | fuel + 1, s =>
    match trim s with
    | '"' :: rest => do
      let (key, rest) ← text? .outside rest
      match trim rest with
      | ':' :: rest => do
        let (value, rest) ← value? fuel rest
        let field := (String.ofList key, value)
        match trim rest with
        | ',' :: rest => (fields? fuel rest).map fun (fields, rest) => (field :: fields, rest)
        | '\x7d' :: rest => some ([field], rest)
        | _ => none
      | _ => none
    | _ => none

end

/-- The value that a whole text is. -/
def read? (text : String) : Option JsonValue :=
  match value? text.toList.length text.toList with
  | some (value, rest) => if trim rest = [] then some value else none
  | none => none

/-! ### Texts -/

variable {c : Char} {s rest : List Char}

/-- Digits make the character that their number has. -/
theorem text_digits (k value n : Nat)
    (valid : (value * 16 ^ (k + 1) + n % 16 ^ (k + 1)).isValidChar) :
    text? (.digits (k + 1) value) (Hex.lower (k + 1) n ++ rest) =
      (text? .outside rest).map fun (text, rest) =>
        (Char.ofNat (value * 16 ^ (k + 1) + n % 16 ^ (k + 1)) :: text, rest) := by
  induction k generalizing value with
  | zero =>
    simp only [Nat.zero_add, Nat.pow_one] at valid ⊢
    rw [Hex.lower_succ, List.cons_append, text?, Nat.pow_zero, Nat.div_one, Hex.hexDigit_lower]
    simp [charOfNat?, valid, Hex.lower]
  | succ k ih =>
    have more : ¬ k + 1 + 1 ≤ 1 := by omega
    rw [← Hex.append_digit] at valid ⊢
    rw [Hex.lower_succ, List.cons_append, text?, Hex.hexDigit_lower]
    simp only [if_neg more, Nat.add_sub_cancel]
    exact ih _ valid

/-- An escaped character reads back. -/
theorem text_escape (c : Char) (rest : List Char) :
    text? .outside (escape c ++ rest) =
      (text? .outside rest).map fun (text, rest) => (c :: text, rest) := by
  unfold escape
  split
  · subst_vars; simp [text?, letterEscape?]
  split
  · subst_vars; simp [text?, letterEscape?]
  split
  · subst_vars; simp [text?, letterEscape?]
  split
  · subst_vars; simp [text?, letterEscape?]
  split
  · subst_vars; simp [text?, letterEscape?]
  split
  · subst_vars; simp [text?, letterEscape?]
  split
  · subst_vars; simp [text?, letterEscape?]
  split
  · next control =>
    have small : c.toNat < 32 := control
    have number : 0 * 16 ^ (3 + 1) + c.toNat % 16 ^ (3 + 1) = c.toNat := by omega
    have valid : c.toNat.isValidChar := Or.inl (by omega)
    have digits : text? (.digits (3 + 1) 0) (Hex.lower (3 + 1) c.toNat ++ rest) = _ :=
      text_digits 3 0 c.toNat (number.symm ▸ valid)
    rw [number, Char.ofNat_toNat] at digits
    rw [← digits]
    simp [text?]
  · next quote backslash _ _ _ _ _ plain => simp [text?, quote, backslash, plain]

theorem text_quote (s : List Char) (rest : List Char) :
    text? .outside (s.flatMap escape ++ '"' :: rest) = some (s, rest) := by
  induction s with
  | nil => simp [text?]
  | cons c s ih => rw [List.flatMap_cons, List.append_assoc, text_escape, ih]; rfl

/-! ### Printed values -/

theorem trim_indent (level : Nat) (s : List Char) : trim ((indent level).toList ++ s) = trim s := by
  have blanks : ∀ c ∈ (indent level).toList, isBlank c = true := by
    simp [indent, isBlank]
  exact List.dropWhile_append_of_pos blanks

/-- What stands behind an item: the other ones, each behind a comma, and the closing bracket. -/
def following (right : String) (level : Nat) : List String → List Char
  | [] => (indent level).toList ++ right.toList
  | line :: lines =>
    ',' :: ((indent (level + 1)).toList ++ line.toList ++ following right level lines)

theorem intercalate_following (right : String) (level : Nat) (line : String)
    (lines : List String) :
    (String.intercalate "," ((line :: lines).map (indent (level + 1) ++ ·))).toList ++
        ((indent level).toList ++ right.toList) =
      (indent (level + 1)).toList ++ (line.toList ++ following right level lines) := by
  induction lines generalizing line with
  | nil => simp [following]
  | cons next lines ih =>
    have later := ih next
    simp only [String.toList_intercalate, List.map_cons, List.intercalate_cons_cons,
      List.append_assoc, String.toList_append] at later ⊢
    rw [later, following]
    simp

theorem bracket_cons (left right : String) (level : Nat) (line : String) (lines : List String) :
    (bracket left right level (line :: lines)).toList =
      left.toList ++ ((indent (level + 1)).toList ++
        (line.toList ++ following right level lines)) := by
  rw [← intercalate_following]
  simp [bracket]

/-- No number is part of the value. -/
inductive NumberFree : JsonValue → Prop where
  | null : NumberFree .null
  | bool (value : Bool) : NumberFree (.bool value)
  | string (text : String) : NumberFree (.string text)
  | array {items : List JsonValue} : (∀ item ∈ items, NumberFree item) →
      NumberFree (.array items)
  | object {fields : List (String × JsonValue)} : (∀ field ∈ fields, NumberFree field.2) →
      NumberFree (.object fields)

theorem quote_toList (text : String) :
    (quote text).toList = '"' :: (text.toList.flatMap escape ++ ['"']) := by
  simp [quote]

/-- A field on its line. -/
def fieldLine (level : Nat) (field : String × JsonValue) : String :=
  quote field.1 ++ ": " ++ printAt level field.2

theorem printFields_cons (level : Nat) (field : String × JsonValue)
    (fields : List (String × JsonValue)) :
    printFields level (field :: fields) = fieldLine level field :: printFields level fields := by
  obtain ⟨key, value⟩ := field
  rw [printFields, fieldLine]

theorem array_nil (level : Nat) : (printAt level (.array [])).toList = ['[', ']'] := by
  simp [printAt, printItems, bracket]

theorem array_cons (level : Nat) (item : JsonValue) (items : List JsonValue) :
    (printAt level (.array (item :: items))).toList =
      '[' :: ((indent (level + 1)).toList ++ ((printAt (level + 1) item).toList ++
        following "]" level (printItems (level + 1) items))) := by
  rw [printAt, printItems, bracket_cons]
  rfl

theorem object_nil (level : Nat) : (printAt level (.object [])).toList = ['\x7b', '\x7d'] := by
  simp [printAt, printFields, bracket]

theorem object_cons (level : Nat) (field : String × JsonValue)
    (fields : List (String × JsonValue)) : (printAt level (.object (field :: fields))).toList =
      '\x7b' :: ((indent (level + 1)).toList ++ ((fieldLine (level + 1) field).toList ++
        following "\x7d" level (printFields (level + 1) fields))) := by
  rw [printAt, printFields_cons, bracket_cons]
  rfl

/-- A printed value begins neither with a blank nor with a closing bracket. -/
theorem print_starts {value : JsonValue} (free : NumberFree value) (level : Nat) :
    ∃ c tail, (printAt level value).toList = c :: tail ∧ isBlank c = false ∧ c ≠ ']' := by
  cases value with
  | null => simp [printAt, isBlank]
  | bool value => cases value <;> simp [printAt, isBlank]
  | number text => nomatch free
  | string text => simp [printAt, quote_toList, isBlank]
  | array items => cases items <;> simp [array_nil, array_cons, isBlank]
  | object fields => cases fields <;> simp [object_nil, object_cons, isBlank]

theorem trim_of_inked (inked : isBlank c = false) : trim (c :: s) = c :: s := by
  simp [trim, inked]

theorem trim_print {value : JsonValue} (free : NumberFree value) (level : Nat) (s : List Char) :
    trim ((printAt level value).toList ++ s) = (printAt level value).toList ++ s := by
  obtain ⟨c, tail, printed, inked, _⟩ := print_starts free level
  rw [printed, List.cons_append, trim_of_inked inked]

theorem trim_following (right : String) (level : Nat) (line : String) (lines : List String)
    (s : List Char) : trim (following right level (line :: lines) ++ s) =
      ',' :: ((indent (level + 1)).toList ++
        (line.toList ++ (following right level lines ++ s))) := by
  rw [following, List.cons_append, trim_of_inked (by decide)]
  simp

theorem exists_fuel {value : JsonValue} (free : NumberFree value) {level fuel : Nat}
    (enough : (printAt level value).toList.length ≤ fuel) : ∃ more, fuel = more + 1 := by
  obtain ⟨c, tail, printed, _⟩ := print_starts free level
  rw [printed, List.length_cons] at enough
  exact ⟨fuel - 1, by omega⟩

theorem value_array {fuel : Nat} {inner tail : List Char} (starts : trim s = '[' :: inner)
    (first : trim inner = c :: tail) (more : c ≠ ']') :
    value? (fuel + 1) s = (items? fuel inner).map fun (items, rest) => (.array items, rest) := by
  rw [value?, starts]
  simp only [first]
  split
  · next closed => exact absurd (List.cons.inj closed).1 more
  · rfl

theorem value_object {fuel : Nat} {inner tail : List Char} (starts : trim s = '\x7b' :: inner)
    (first : trim inner = c :: tail) (more : c ≠ '\x7d') :
    value? (fuel + 1) s =
      (fields? fuel inner).map fun (fields, rest) => (.object fields, rest) := by
  rw [value?, starts]
  simp only [first]
  split
  · next closed => exact absurd (List.cons.inj closed).1 more
  · rfl

/-- At the front of a text the printed value reads back, and what follows it is left. -/
def ReadsBack (value : JsonValue) : Prop :=
  ∀ (level fuel : Nat) (s rest : List Char), (printAt level value).toList.length ≤ fuel →
    trim s = (printAt level value).toList ++ rest → value? fuel s = some (value, rest)

theorem items_print {item : JsonValue} {items : List JsonValue}
    (free : ∀ v ∈ item :: items, NumberFree v) (reads : ∀ v ∈ item :: items, ReadsBack v)
    (level fuel : Nat) (s rest : List Char)
    (enough : ((printAt (level + 1) item).toList ++
      following "]" level (printItems (level + 1) items)).length ≤ fuel)
    (starts : trim s = (printAt (level + 1) item).toList ++
      (following "]" level (printItems (level + 1) items) ++ rest)) :
    items? fuel s = some (item :: items, rest) := by
  induction items generalizing item fuel s with
  | nil =>
    have close : following "]" level (printItems (level + 1) []) =
        (indent level).toList ++ [']'] := rfl
    rw [close, List.length_append, List.length_append, List.length_singleton] at enough
    obtain ⟨fuel, rfl⟩ := exists_fuel (free item List.mem_cons_self) (Nat.le_of_add_right_le enough)
    have first := reads item List.mem_cons_self (level + 1) fuel s _ (by omega) starts
    simp [items?, first, close, trim_indent, trim_of_inked, isBlank]
  | cons next items ih =>
    rw [printItems, following, List.length_append, List.length_cons, List.length_append,
      List.length_append] at enough
    obtain ⟨fuel, rfl⟩ := exists_fuel (free item List.mem_cons_self) (Nat.le_of_add_right_le enough)
    have first := reads item List.mem_cons_self (level + 1) fuel s _ (by omega) starts
    have later : items? fuel ((indent (level + 1)).toList ++ ((printAt (level + 1) next).toList ++
        (following "]" level (printItems (level + 1) items) ++ rest))) =
        some (next :: items, rest) :=
      ih (fun v member => free v (List.mem_cons_of_mem _ member))
        (fun v member => reads v (List.mem_cons_of_mem _ member)) fuel _
        (by rw [List.length_append]; omega)
        (by rw [trim_indent, trim_print (free next (by simp))])
    simp only [items?, first, Option.bind_eq_bind, Option.bind_some, printItems, trim_following]
    rw [later]
    rfl

theorem fieldLine_toList (level : Nat) (field : String × JsonValue) :
    (fieldLine level field).toList = '"' :: (field.1.toList.flatMap escape ++
      '"' :: ':' :: ' ' :: (printAt level field.2).toList) := by
  simp [fieldLine, quote_toList]

theorem trim_fieldLine (level : Nat) (field : String × JsonValue) (s : List Char) :
    trim ((fieldLine level field).toList ++ s) = (fieldLine level field).toList ++ s := by
  rw [fieldLine_toList]
  exact trim_of_inked rfl

/-- A field is read up to the comma or the brace behind it. -/
theorem fields_first {field : String × JsonValue} {fuel : Nat} {after : List Char}
    (free : NumberFree field.2) (reads : ReadsBack field.2) (level : Nat)
    (enough : (fieldLine level field).toList.length ≤ fuel)
    (starts : trim s = (fieldLine level field).toList ++ after) :
    fields? (fuel + 1) s =
      match trim after with
      | ',' :: rest => (fields? fuel rest).map fun (fields, rest) => (field :: fields, rest)
      | '\x7d' :: rest => some ([field], rest)
      | _ => none := by
  simp only [fieldLine_toList, List.length_cons, List.length_append] at enough starts
  have behind : trim (' ' :: ((printAt level field.2).toList ++ after)) =
      (printAt level field.2).toList ++ after := trim_print free level after
  have value := reads level fuel _ after (by omega) behind
  rw [fields?, starts]
  simp [text_quote, trim_of_inked, isBlank, value]

theorem fields_print {field : String × JsonValue} {fields : List (String × JsonValue)}
    (free : ∀ f ∈ field :: fields, NumberFree f.2) (reads : ∀ f ∈ field :: fields, ReadsBack f.2)
    (level fuel : Nat) (s rest : List Char)
    (enough : ((fieldLine (level + 1) field).toList ++
      following "\x7d" level (printFields (level + 1) fields)).length ≤ fuel)
    (starts : trim s = (fieldLine (level + 1) field).toList ++
      (following "\x7d" level (printFields (level + 1) fields) ++ rest)) :
    fields? fuel s = some (field :: fields, rest) := by
  have freeFirst := free field List.mem_cons_self
  have readsFirst := reads field List.mem_cons_self
  induction fields generalizing field fuel s with
  | nil =>
    have close : following "\x7d" level (printFields (level + 1) []) =
        (indent level).toList ++ ['\x7d'] := rfl
    rw [close, List.length_append, List.length_append, List.length_singleton] at enough
    obtain ⟨fuel, rfl⟩ : ∃ more, fuel = more + 1 := ⟨fuel - 1, by omega⟩
    rw [fields_first freeFirst readsFirst _ (by omega) starts, close]
    simp [trim_indent, trim_of_inked, isBlank]
  | cons next fields ih =>
    rw [printFields_cons, following, List.length_append, List.length_cons, List.length_append,
      List.length_append] at enough
    obtain ⟨fuel, rfl⟩ : ∃ more, fuel = more + 1 := ⟨fuel - 1, by omega⟩
    have freeNext := fun f member => free f (List.mem_cons_of_mem _ member)
    have readsNext := fun f member => reads f (List.mem_cons_of_mem _ member)
    have later : fields? fuel ((indent (level + 1)).toList ++
        ((fieldLine (level + 1) next).toList ++
          (following "\x7d" level (printFields (level + 1) fields) ++ rest))) =
        some (next :: fields, rest) := by
      refine ih freeNext readsNext fuel _ ?_ ?_ (freeNext next List.mem_cons_self)
        (readsNext next List.mem_cons_self)
      · rw [List.length_append]
        omega
      · rw [trim_indent, trim_fieldLine]
    rw [fields_first freeFirst readsFirst _ (by omega) starts, printFields_cons, trim_following]
    simp [later]

/-- Printed values read back, whatever follows them. -/
theorem readsBack {value : JsonValue} (free : NumberFree value) : ReadsBack value := by
  induction free with
  | null =>
    intro level fuel s rest enough starts
    obtain ⟨fuel, rfl⟩ := exists_fuel .null enough
    simp [value?, starts, printAt]
  | bool value =>
    intro level fuel s rest enough starts
    obtain ⟨fuel, rfl⟩ := exists_fuel (.bool value) enough
    cases value <;> simp [value?, starts, printAt]
  | string text =>
    intro level fuel s rest enough starts
    obtain ⟨fuel, rfl⟩ := exists_fuel (.string text) enough
    simp [value?, starts, printAt, quote_toList, text_quote]
  | @array items free reads =>
    intro level fuel s rest enough starts
    obtain ⟨fuel, rfl⟩ := exists_fuel (.array free) enough
    cases items with
    | nil =>
      rw [array_nil] at starts
      simp [value?, starts, trim_of_inked, isBlank]
    | cons item items =>
      have freeFirst := free item List.mem_cons_self
      rw [array_cons, List.length_cons, List.length_append] at enough
      simp only [array_cons, List.cons_append, List.append_assoc] at starts
      have first := (trim_indent (level + 1) _).trans (trim_print freeFirst (level + 1)
        (following "]" level (printItems (level + 1) items) ++ rest))
      obtain ⟨c, tail, printed, _, notClosed⟩ := print_starts freeFirst (level + 1)
      rw [value_array starts (first.trans (by rw [printed]; rfl)) notClosed,
        items_print free reads level fuel _ rest (by omega) first]
      rfl
  | @object fields free reads =>
    intro level fuel s rest enough starts
    obtain ⟨fuel, rfl⟩ := exists_fuel (.object free) enough
    cases fields with
    | nil =>
      rw [object_nil] at starts
      simp [value?, starts, trim_of_inked, isBlank]
    | cons field fields =>
      rw [object_cons, List.length_cons, List.length_append] at enough
      simp only [object_cons, List.cons_append, List.append_assoc] at starts
      have first := (trim_indent (level + 1) _).trans (trim_fieldLine (level + 1) field
        (following "\x7d" level (printFields (level + 1) fields) ++ rest))
      rw [value_object starts (first.trans (by rw [fieldLine_toList]; rfl)) (by decide),
        fields_print free reads level fuel _ rest (by omega) first]
      rfl

/-- A printed value without numbers is read as itself, with or without blanks behind it. -/
theorem read_print {value : JsonValue} (free : NumberFree value) {blanks : String}
    (blank : ∀ c ∈ blanks.toList, isBlank c = true) :
    read? (value.print ++ blanks) = some value := by
  have ended : trim blanks.toList = [] := by
    rw [trim, ← List.append_nil blanks.toList, List.dropWhile_append_of_pos blank]
    rfl
  unfold read? print
  rw [String.toList_append, readsBack free 0 _ _ blanks.toList (by simp) (trim_print free 0 _)]
  simp [ended]

end PluginLoader.JsonValue
