import PluginLoader.Path
import Mathlib.Data.List.Induction

/-! The last component of a path. A path is taken apart from its end: what stands behind the last
slash either leads somewhere and is the file name, or leads nowhere and drops out. -/
namespace PluginLoader.Path

/-! ### Pieces of a text -/

def piecesOf (text : List Char) : List (List Char) := (split text).1 :: (split text).2

theorem piecesOf_slash (rest : List Char) : piecesOf ('/' :: rest) = [] :: piecesOf rest := by
  simp [piecesOf, split]

theorem piecesOf_char {c : Char} (plain : c ≠ '/') (rest : List Char) :
    piecesOf (c :: rest) = (c :: (split rest).1) :: (split rest).2 := by
  simp [piecesOf, split, plain]

theorem piecesOf_free {text : List Char} (free : '/' ∉ text) : piecesOf text = [text] := by
  induction text with
  | nil => rfl
  | cons c rest ih =>
    rw [List.mem_cons, not_or] at free
    obtain ⟨head, tail⟩ := List.cons_eq_cons.mp (ih free.2)
    rw [piecesOf_char (Ne.symm free.1), head, tail]

theorem piecesOf_append (front rest : List Char) :
    piecesOf (front ++ '/' :: rest) = piecesOf front ++ piecesOf rest := by
  induction front with
  | nil => exact piecesOf_slash rest
  | cons c front ih =>
    obtain ⟨head, tail⟩ := List.cons_eq_cons.mp ih
    by_cases slash : c = '/'
    · rw [slash, List.cons_append, piecesOf_slash, piecesOf_slash, ih, List.cons_append]
    · rw [List.cons_append, piecesOf_char slash, piecesOf_char slash, head, tail]
      rfl

theorem free_of_mem_pieces {text piece : List Char} (among : piece ∈ piecesOf text) :
    '/' ∉ piece := by
  induction text generalizing piece with
  | nil => simp_all [piecesOf, split]
  | cons c rest ih =>
    by_cases slash : c = '/'
    · subst slash
      rw [piecesOf_slash, List.mem_cons] at among
      obtain rfl | among := among
      · exact List.not_mem_nil
      · exact ih among
    · rw [piecesOf_char slash, List.mem_cons] at among
      obtain rfl | among := among
      · rw [List.mem_cons, not_or]
        exact ⟨Ne.symm slash, ih List.mem_cons_self⟩
      · exact ih (List.mem_cons_of_mem _ among)

/-- A text has no slash, or grows by a slash and a piece at its end. -/
theorem byLastPiece {motive : List Char → Prop} (free : ∀ text, '/' ∉ text → motive text)
    (grow : ∀ front last, '/' ∉ last → motive front → motive (front ++ '/' :: last))
    (text : List Char) : motive text := by
  suffices ∀ last, '/' ∉ last → motive (text ++ last) by
    simpa using this [] List.not_mem_nil
  induction text using List.reverseRecOn with
  | nil => exact free
  | append_singleton front c ih =>
    intro last plain
    rw [List.append_assoc, List.singleton_append]
    by_cases slash : c = '/'
    · subst slash
      have front : motive front := by simpa using ih [] List.not_mem_nil
      exact grow _ last plain front
    · refine ih (c :: last) ?_
      rw [List.mem_cons, not_or]
      exact ⟨Ne.symm slash, plain⟩

/-! ### The last piece that leads somewhere -/

def lastLeading? (text : List Char) : Option (List Char) := ((piecesOf text).filter leads).getLast?

theorem lastLeading_free {text : List Char} (free : '/' ∉ text) :
    lastLeading? text = if leads text then some text else none := by
  rw [lastLeading?, piecesOf_free free]
  by_cases leading : leads text <;> simp [leading]

theorem lastLeading_append {front last : List Char} (free : '/' ∉ last) :
    lastLeading? (front ++ '/' :: last) = if leads last then some last else lastLeading? front := by
  rw [lastLeading?, piecesOf_append, piecesOf_free free, List.filter_append, lastLeading?]
  by_cases leading : leads last <;> simp [leading]

/-- Slashes and single dots behind slashes: what a path may end in without leading further. -/
inductive Trailing : List Char → Prop where
  | nil : Trailing []
  | slash {rest : List Char} : Trailing rest → Trailing ('/' :: rest)
  | dot {rest : List Char} : Trailing rest → Trailing ('/' :: '.' :: rest)

theorem Trailing.append {tail more : List Char} (trailing : Trailing tail)
    (further : Trailing more) : Trailing (tail ++ more) := by
  induction trailing with
  | nil => exact further
  | slash _ ih => exact .slash ih
  | dot _ ih => exact .dot ih

theorem lastLeading_trailing {tail : List Char} (trailing : Trailing tail) (text : List Char) :
    lastLeading? (text ++ tail) = lastLeading? text := by
  induction trailing generalizing text with
  | nil => rw [List.append_nil]
  | slash _ ih =>
    rw [List.append_cons, ih, lastLeading_append List.not_mem_nil, if_neg (by decide)]
  | dot _ ih =>
    rw [List.append_cons, List.append_cons, ih, List.append_assoc, List.singleton_append,
      lastLeading_append (by decide), if_neg (by decide)]

theorem trailing_of_still {last : List Char} (still : leads last = false) :
    Trailing ('/' :: last) := by
  have shapes : last = [] ∨ last = ['.'] := by
    simpa [leads, Decidable.or_iff_not_imp_left] using still
  obtain rfl | rfl := shapes
  · exact .slash .nil
  · exact .dot .nil

theorem lastLeading_eq_some {text name : List Char} :
    lastLeading? text = some name ↔ leads name ∧ '/' ∉ name ∧ ∃ front tail,
      text = front ++ name ++ tail ∧ (∀ c ∈ front.getLast?, c = '/') ∧ Trailing tail := by
  constructor
  · intro ends
    induction text using byLastPiece with
    | free text plain =>
      rw [lastLeading_free plain] at ends
      split at ends
      · cases ends
        exact ⟨‹_›, plain, [], [], by simp, by simp, .nil⟩
      · cases ends
    | grow front last plain ih =>
      rw [lastLeading_append plain] at ends
      split at ends
      · cases ends
        exact ⟨‹_›, plain, front ++ ['/'], [], by simp, by simp, .nil⟩
      · rename_i still
        obtain ⟨leading, free, front, tail, rfl, before, trailing⟩ := ih ends
        exact ⟨leading, free, front, tail ++ '/' :: last, by simp, before,
          trailing.append (trailing_of_still (by simpa using still))⟩
  · rintro ⟨leading, free, front, tail, rfl, before, trailing⟩
    rw [lastLeading_trailing trailing]
    cases ending : front.getLast? with
    | none =>
      rw [List.getLast?_eq_none_iff] at ending
      rw [ending, List.nil_append, lastLeading_free free, if_pos leading]
    | some c =>
      obtain ⟨start, rfl⟩ := List.getLast?_eq_some_iff.mp ending
      rw [before c ending, List.append_assoc, List.singleton_append, lastLeading_append free,
        if_pos leading]

/-! ### File names -/

/-- A name a directory can hold. -/
structure IsName (name : String) : Prop where
  nonempty : name ≠ ""
  free : '/' ∉ name.toList
  notDot : name ≠ "."
  notParent : name ≠ ".."

theorem isName_iff {name : String} :
    IsName name ↔ leads name.toList ∧ '/' ∉ name.toList ∧ name.toList ≠ parent := by
  have text (other : String) : name.toList = other.toList ↔ name = other := String.toList_inj
  have empty := text ""
  have dot := text "."
  have up := text ".."
  simp only [leads, parent, Bool.and_eq_true, bne_iff_ne, ne_eq]
  constructor
  · rintro ⟨nonempty, free, notDot, notParent⟩
    exact ⟨⟨mt empty.mp nonempty, mt dot.mp notDot⟩, free, mt up.mp notParent⟩
  · rintro ⟨⟨nonempty, notDot⟩, free, notParent⟩
    exact ⟨mt empty.mpr nonempty, free, mt dot.mpr notDot, mt up.mpr notParent⟩

instance (name : String) : Decidable (IsName name) := decidable_of_iff _ isName_iff.symm

/-- The last component of `path`, up to trailing slashes and dots, is `name`. -/
def EndsIn (path name : String) : Prop :=
  IsName name ∧ ∃ front tail, path.toList = front ++ name.toList ++ tail ∧
    (∀ c ∈ front.getLast?, c = '/') ∧ Trailing tail

theorem fileName_eq (path : String) : fileName? path =
    match lastLeading? path.toList with
    | some piece => if piece = parent then none else some (String.ofList piece)
    | none => none := rfl

theorem fileName_iff {path name : String} : fileName? path = some name ↔
    lastLeading? path.toList = some name.toList ∧ name.toList ≠ parent := by
  rw [fileName_eq]
  cases ending : lastLeading? path.toList with
  | none => simp
  | some piece =>
    by_cases up : piece = parent
    · simp_all
    · simp only [if_neg up, Option.some.injEq]
      constructor
      · rintro rfl
        simpa using up
      · rintro ⟨rfl, _⟩
        exact String.ofList_toList

theorem fileName_eq_some {path name : String} : fileName? path = some name ↔ EndsIn path name := by
  rw [fileName_iff, lastLeading_eq_some, EndsIn, isName_iff]
  tauto

example : fileName? "plugins//.jar/./" = some ".jar" := by decide +kernel

theorem fileName_trailing {path more : String} {tail : List Char} (trailing : Trailing tail)
    (behind : more.toList = path.toList ++ tail) : fileName? more = fileName? path := by
  rw [fileName_eq, fileName_eq, behind, lastLeading_trailing trailing]

theorem fileName_slash (path : String) : fileName? (path ++ "/") = fileName? path :=
  fileName_trailing (.slash .nil) String.toList_append

theorem fileName_dot (path : String) : fileName? (path ++ "/.") = fileName? path :=
  fileName_trailing (.dot .nil) String.toList_append

/-! ### Joined paths -/

/-- A name is joined behind a text that is empty or ends in a slash. -/
theorem toList_join (directory name : String) : ∃ front,
    (∀ c ∈ front.getLast?, c = '/') ∧ (join directory name).toList = front ++ name.toList := by
  unfold join
  split
  · rename_i closed
    refine ⟨directory.toList, ?_, String.toList_append⟩
    simp only [Bool.or_eq_true, beq_iff_eq, String.isEmpty_iff] at closed
    obtain slash | rfl := closed
    · simp [slash]
    · simp
  · exact ⟨directory.toList ++ ['/'], by simp, by simp⟩

theorem fileName_join (directory : String) {name : String} (named : IsName name) :
    fileName? (join directory name) = some name := by
  obtain ⟨front, before, joined⟩ := toList_join directory name
  exact fileName_eq_some.mpr ⟨named, front, [], by rw [joined, List.append_nil], before, .nil⟩

theorem join_injective (directory : String) : Function.Injective (join directory) := by
  intro name other same
  unfold join at same
  split at same <;> simpa using same

end PluginLoader.Path
