import PluginLoader.Yaml.Written

/-! Text laid out from a spot of a document on, and what may follow a value. -/
namespace PluginLoader.Yaml

/-- Where a character stands. -/
structure Spot where
  line : Nat
  column : Nat
  /-- How many octets are in front of it on its line. -/
  offset : Nat

namespace Spot
variable {spot : Spot} {c : Char} {s : List Char}

/-- The spot behind a character. -/
def next (spot : Spot) (c : Char) : Spot :=
  if isBreak c then ⟨spot.line + 1, 0, 0⟩
  else ⟨spot.line, spot.column + 1, spot.offset + c.utf8Size⟩

/-- The spot behind a text. -/
def past (spot : Spot) (s : List Char) : Spot := s.foldl next spot

def lay (spot : Spot) (s : List Char) : Input := Input.place spot.line spot.column spot.offset s

def glyph (spot : Spot) (c : Char) : Glyph := ⟨c, spot.line, spot.column, spot.offset⟩

@[simp] theorem glyph_char : (spot.glyph c).char = c := rfl
@[simp] theorem glyph_line : (spot.glyph c).line = spot.line := rfl
@[simp] theorem glyph_column : (spot.glyph c).column = spot.column := rfl
@[simp] theorem glyph_offset : (spot.glyph c).offset = spot.offset := rfl

@[simp] theorem lay_nil : spot.lay [] = [] := rfl

theorem lay_cons : spot.lay (c :: s) = spot.glyph c :: (spot.next c).lay s := by
  unfold lay next glyph
  rw [Input.place]
  split <;> rfl

@[simp] theorem past_nil : spot.past [] = spot := rfl

@[simp] theorem past_cons : spot.past (c :: s) = (spot.next c).past s := rfl

@[simp] theorem length_lay : (spot.lay s).length = s.length := by
  induction s generalizing spot with
  | nil => rfl
  | cons c s ih => rw [lay_cons, List.length_cons, List.length_cons, ih]

theorem lay_ne_nil (more : s ≠ []) : spot.lay s ≠ [] := by
  cases s with
  | nil => exact absurd rfl more
  | cons c s => simp [lay_cons]

theorem next_of_break (ends : isBreak c = true) : spot.next c = ⟨spot.line + 1, 0, 0⟩ := if_pos ends

theorem next_column (stays : isBreak c = false) : (spot.next c).column = spot.column + 1 := by
  rw [next, if_neg (by simp [stays])]

theorem column_past (stays : ∀ c ∈ s, isBreak c = false) :
    (spot.past s).column = spot.column + s.length := by
  induction s generalizing spot with
  | nil => rfl
  | cons c s ih =>
    rw [List.forall_mem_cons] at stays
    rw [past_cons, ih stays.2, next_column stays.1, List.length_cons, Nat.add_assoc,
      Nat.add_comm 1]

theorem past_pad (columns : Nat) : spot.past (pad columns) =
    ⟨spot.line, spot.column + columns, spot.offset + columns⟩ := by
  induction columns generalizing spot with
  | zero => rfl
  | succ columns ih =>
    have space : spot.next ' ' = ⟨spot.line, spot.column + 1, spot.offset + 1⟩ := rfl
    rw [pad, List.replicate_succ, past_cons, ← pad, ih, space]
    simp [Nat.add_comm, Nat.add_left_comm]

end Spot

/-- A text whose first character is not printed as an escape, and the text after breaks are read. -/
theorem unifyBreaks_printable {s : List Char} (printable : ∀ c ∈ s, isPrintable c = true) :
    unifyBreaks s = s := by
  fun_induction unifyBreaks s with
  | case1 rest ih => exact absurd (printable '\r' (by simp)) (by decide)
  | case2 c rest _ ih =>
    rw [List.forall_mem_cons] at printable
    obtain ⟨first, others⟩ := printable
    simp only [isPrintable, Bool.and_eq_true, decide_eq_true_eq] at first
    rw [ih others, if_neg]
    simp [first]
  | case3 => rfl

theorem ofText_printable {s : List Char} (printable : ∀ c ∈ s, isPrintable c = true) :
    Input.ofText? (String.ofList s) = some (Spot.lay ⟨0, 0, 0⟩ s) := by
  have allowed : s.all isAllowed = true := List.all_eq_true.mpr fun c member => by
    have := printable c member
    simp only [isPrintable, Bool.and_eq_true] at this
    exact this.1.1.1.1
  rw [Input.ofText?, String.toList_ofList, if_pos allowed, unifyBreaks_printable printable]
  rfl

/-- What may follow a value: nothing, or a line that begins in front of a column. -/
inductive Outward (column : Nat) : List Char → Prop where
  | nothing : Outward column []
  | line {indent : Nat} {c : Char} {rest : List Char} : indent < column → isGap c = false →
      c ≠ '#' → c ≠ byteOrderMark → Outward column (pad indent ++ c :: rest)

/-- The input from a line on, without the blanks that it begins with. -/
def settled (line : Nat) (s : List Char) : Input :=
  (Spot.lay ⟨line, 0, 0⟩ s).dropWhile (·.char = ' ')

theorem settled_line {line indent : Nat} {c : Char} {rest : List Char} (ink : isGap c = false) :
    settled line (pad indent ++ c :: rest) =
      ((⟨line, 0, 0⟩ : Spot).past (pad indent)).lay (c :: rest) := by
  have visible : c ≠ ' ' := by
    rintro rfl
    exact absurd ink (by decide)
  have drop : ∀ spot : Spot, (spot.lay (pad indent ++ c :: rest)).dropWhile (·.char = ' ') =
      (spot.past (pad indent)).lay (c :: rest) := by
    induction indent with
    | zero =>
      intro spot
      simp [pad, Spot.lay_cons, visible]
    | succ indent ih =>
      intro spot
      rw [pad, List.replicate_succ, List.cons_append, Spot.lay_cons, ← pad,
        List.dropWhile_cons_of_pos (by simp), ih, Spot.past_cons]
  exact drop _

theorem Outward.mono {column further : Nat} {s : List Char} (le : column ≤ further)
    (outward : Outward column s) : Outward further s := by
  cases outward with
  | nothing => exact .nothing
  | line within ink comment mark => exact .line (Nat.lt_of_lt_of_le within le) ink comment mark

end PluginLoader.Yaml
