import Mathlib.Data.List.Forall2
import PluginLoader.Proofs.ClassHeader.CodedText
import PluginLoader.Proofs.ClassHeader.Reading

/-! How a class header is laid out, said without a reader. Constants are numbered from 1, those of
tags 5 and 6 take two numbers, and there are as many as the declared count leaves numbers for. -/
namespace PluginLoader

/-- A constant as it is written. -/
inductive WrittenConstant where
  | text (raw : List UInt8)
  | typeName (nameIndex : UInt16)
  | other (tag : UInt8) (payload : List UInt8)

namespace WrittenConstant

def bytes : WrittenConstant → List UInt8
  | .text raw => 1 :: (bytes16 (UInt16.ofNat raw.length) ++ raw)
  | .typeName nameIndex => 7 :: bytes16 nameIndex
  | .other tag payload => tag :: payload

/-- The tags of constants that do not name anything, by the size of their payload. -/
def tagsOfSize : Nat → List UInt8
  | 2 => [8, 16, 19, 20]
  | 3 => [15]
  | 4 => [3, 4, 9, 10, 11, 12, 17, 18]
  | 8 => [5, 6]
  | _ => []

/-- What may be written. The length of a text has to fit in two bytes. -/
inductive Legal : WrittenConstant → Prop where
  | text {raw : List UInt8} {text : List Char} : raw.length < 65536 →
      ModifiedUtf8.Decodes raw text → Legal (.text raw)
  | typeName (nameIndex : UInt16) : Legal (.typeName nameIndex)
  | other {tag : UInt8} {payload : List UInt8} : tag ∈ tagsOfSize payload.length →
      Legal (.other tag payload)

def isWide : WrittenConstant → Bool
  | .other tag _ => tag = 5 ∨ tag = 6
  | _ => false

def width (constant : WrittenConstant) : Nat := if constant.isWide then 2 else 1

/-- Constants with their numbers, from the number of the first one on. -/
def numbered : Nat → List WrittenConstant → List (Nat × WrittenConstant)
  | _, [] => []
  | n, constant :: rest => (n, constant) :: numbered (n + constant.width) rest

/-- The constants end at the first one after which the next number is not below the count. -/
def Fills (count : Nat) : Nat → List WrittenConstant → Prop
  | n, [] => count ≤ n
  | n, constant :: rest => n < count ∧ Fills count (n + constant.width) rest

/-- A number leads to a name: it is that of a type constant whose name index is the number of a
text. The name is that text with a dot for every slash. -/
inductive Names (constants : List WrittenConstant) (index : UInt16) : String → Prop where
  | intro {nameIndex : UInt16} {raw : List UInt8} {text : List Char} :
      (index.toNat, .typeName nameIndex) ∈ numbered 1 constants →
      (nameIndex.toNat, .text raw) ∈ numbered 1 constants →
      ModifiedUtf8.Decodes raw text →
      Names constants index (String.ofList (text.map fun c => if c = '/' then '.' else c))

end WrittenConstant

/-- A header up to the end of its interface table, numbers as they are written. -/
structure HeaderLayout where
  minor : UInt16
  major : UInt16
  count : UInt16
  constants : List WrittenConstant
  access : UInt16
  thisIndex : UInt16
  superIndex : UInt16
  interfaces : List UInt16

namespace HeaderLayout

def bytes (layout : HeaderLayout) : List UInt8 :=
  [0xCA, 0xFE, 0xBA, 0xBE] ++ bytes16 layout.minor ++ bytes16 layout.major ++
    bytes16 layout.count ++ layout.constants.flatMap WrittenConstant.bytes ++
    bytes16 layout.access ++ bytes16 layout.thisIndex ++ bytes16 layout.superIndex ++
    bytes16 (UInt16.ofNat layout.interfaces.length) ++ layout.interfaces.flatMap bytes16

structure WellFormed (layout : HeaderLayout) : Prop where
  legal : ∀ constant ∈ layout.constants, constant.Legal
  fills : WrittenConstant.Fills layout.count.toNat 1 layout.constants
  few : layout.interfaces.length < 65536

/-- What the layout says of a type. Number zero stands for no supertype. -/
structure Describes (layout : HeaderLayout) (header : ClassHeader) : Prop where
  minor : header.minor = layout.minor
  major : header.major = layout.major
  access : header.access.bits = layout.access
  name : WrittenConstant.Names layout.constants layout.thisIndex header.name
  noSuper : layout.superIndex = 0 → header.superName = none
  superName : layout.superIndex ≠ 0 → ∃ name, header.superName = some name ∧
    WrittenConstant.Names layout.constants layout.superIndex name
  interfaces : List.Forall₂ (WrittenConstant.Names layout.constants) layout.interfaces
    header.interfaces

end HeaderLayout

/-! ### Slots -/

namespace WrittenConstant

def kept : WrittenConstant → Constant
  | .text raw => .text (String.ofList ((ModifiedUtf8.decode? raw).getD []))
  | .typeName nameIndex => .typeName nameIndex
  | .other _ _ => .other

def slots (constant : WrittenConstant) : List Constant :=
  ConstantPool.slots constant.kept constant.isWide

theorem width_pos (constant : WrittenConstant) : 0 < constant.width := by
  unfold width
  split <;> decide

theorem slots_length (constant : WrittenConstant) : constant.slots.length = constant.width := by
  unfold slots width ConstantPool.slots
  cases constant.isWide <;> rfl

theorem slots_get (constant : WrittenConstant) {i : Nat} (below : i < constant.width) :
    constant.slots[i]? = some (if i = 0 then constant.kept else .unused) := by
  unfold slots ConstantPool.slots
  unfold width at below
  cases wide : constant.isWide with
  | false =>
    rw [wide] at below
    have zero : i = 0 := Nat.lt_one_iff.mp below
    simp [zero]
  | true =>
    rw [wide] at below
    match i, below with
    | 0, _ => rfl
    | 1, _ => rfl

theorem kept_eq_typeName {constant : WrittenConstant} {nameIndex : UInt16} :
    constant.kept = .typeName nameIndex ↔ constant = .typeName nameIndex := by
  cases constant <;> simp [kept]

theorem kept_eq_text {constant : WrittenConstant} {value : String} :
    constant.kept = .text value ↔
      ∃ raw, constant = .text raw ∧ value = String.ofList ((ModifiedUtf8.decode? raw).getD []) := by
  cases constant <;> simp [kept, eq_comm]

theorem le_of_mem_numbered {n k : Nat} {constant : WrittenConstant}
    {constants : List WrittenConstant} (member : (n, constant) ∈ numbered k constants) : k ≤ n := by
  induction constants generalizing k with
  | nil => cases member
  | cons first rest ih =>
    rcases List.mem_cons.mp member with same | member
    · cases same
      exact Nat.le_refl _
    · exact Nat.le_trans (Nat.le_add_right _ _) (ih member)

theorem mem_of_mem_numbered {n k : Nat} {constant : WrittenConstant}
    {constants : List WrittenConstant} (member : (n, constant) ∈ numbered k constants) :
    constant ∈ constants := by
  induction constants generalizing k with
  | nil => cases member
  | cons first rest ih =>
    rcases List.mem_cons.mp member with same | member
    · cases same
      exact List.mem_cons_self
    · exact List.mem_cons_of_mem _ (ih member)

theorem numbered_first {k i : Nat} {first constant : WrittenConstant}
    {rest : List WrittenConstant} (below : i < first.width) :
    (k + i, constant) ∈ numbered k (first :: rest) ↔ i = 0 ∧ constant = first := by
  constructor
  · intro member
    rcases List.mem_cons.mp member with same | member
    · obtain ⟨number, rfl⟩ := Prod.mk.inj same
      exact ⟨Nat.add_eq_left.mp number, rfl⟩
    · have bound := le_of_mem_numbered member
      omega
  · rintro ⟨rfl, rfl⟩
    exact List.mem_cons_self

theorem numbered_rest {k i : Nat} {first constant : WrittenConstant}
    {rest : List WrittenConstant} : (k + (first.width + i), constant) ∈ numbered k (first :: rest) ↔
      (k + first.width + i, constant) ∈ numbered (k + first.width) rest := by
  rw [← Nat.add_assoc, numbered, List.mem_cons]
  refine or_iff_right ?_
  intro same
  have number := (Prod.mk.inj same).1
  have positive := first.width_pos
  omega

/-- Slots are numbered as constants are: a slot in use is that of the constant with its number. -/
theorem slot_iff {constants : List WrittenConstant} {found : Constant} (used : found ≠ .unused)
    (k i : Nat) : (constants.flatMap slots)[i]? = some found ↔
      ∃ constant, (k + i, constant) ∈ numbered k constants ∧ constant.kept = found := by
  induction constants generalizing k i with
  | nil => simp [numbered]
  | cons first rest ih =>
    rw [List.flatMap_cons]
    -- the slot is one of the first constant's, or lies past them and so do all later numbers
    by_cases below : i < first.width
    · rw [List.getElem?_append_left (by rwa [slots_length]), first.slots_get below]
      simp only [numbered_first below]
      by_cases zero : i = 0
      · simp [zero]
      · simp [zero, Ne.symm used]
    · obtain ⟨j, rfl⟩ := Nat.exists_eq_add_of_le (Nat.le_of_not_lt below)
      rw [List.getElem?_append_right (by simp [slots_length]), slots_length,
        Nat.add_sub_cancel_left, ih (k + first.width) j]
      simp only [numbered_rest]

end WrittenConstant
end PluginLoader
