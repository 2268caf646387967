import PluginLoader.Proofs.Yaml.Scalar.Quoted
import PluginLoader.Yaml.Tree

/-! A written tree has printable characters only, whatever its texts are. -/
namespace PluginLoader.Yaml

namespace Written
variable {s : List Char}

theorem pad_printable (columns : Nat) : ∀ c ∈ pad columns, isPrintable c = true := by
  intro c member
  rw [List.eq_of_mem_replicate member]
  decide

theorem single_printable (printable : ∀ c ∈ s, isPrintable c = true) (columns : Nat)
    (fresh : Bool) : ∀ c ∈ single columns fresh s, isPrintable c = true := by
  have depth : ∀ c ∈ if fresh then pad columns else [], isPrintable c = true := by
    split
    · exact pad_printable columns
    · exact List.forall_mem_nil _
  induction s generalizing fresh with
  | nil => exact depth
  | cons c s ih =>
    rw [List.forall_mem_cons] at printable
    rw [single]
    split
    · exact List.forall_mem_cons.mpr ⟨printable.1, ih printable.2 true (pad_printable columns)⟩
    · simp only [List.forall_mem_append]
      refine ⟨⟨depth, ?_⟩, ih printable.2 false (List.forall_mem_nil _)⟩
      split <;> simp [printable.1]

theorem lines_printable (printable : ∀ c ∈ s, isPrintable c = true) (columns : Nat)
    (fresh : Bool) : ∀ c ∈ lines columns fresh s, isPrintable c = true := by
  induction s generalizing fresh with
  | nil => exact List.forall_mem_nil _
  | cons c s ih =>
    rw [List.forall_mem_cons] at printable
    rw [lines]
    split
    · exact List.forall_mem_cons.mpr ⟨printable.1, ih printable.2 true⟩
    · rw [List.forall_mem_append, List.forall_mem_cons]
      refine ⟨?_, printable.1, ih printable.2 false⟩
      split
      · exact pad_printable columns
      · exact List.forall_mem_nil _

theorem double_printable (s : List Char) : ∀ c ∈ double s, isPrintable c = true := by
  intro c member
  obtain ⟨d, -, written⟩ := List.mem_flatMap.mp member
  split at written
  · exact (escape_inline d c written).1
  · next kept =>
    simp only [Bool.or_eq_true, not_or, Bool.not_eq_true] at kept
    rw [List.mem_singleton.mp written]
    simpa using kept.1.1.1

theorem header_printable (s : List Char) : ∀ c ∈ header s, isPrintable c = true := by
  unfold header
  rw [List.forall_mem_append]
  constructor
  · split <;> exact List.all_eq_true.mp (by decide)
  · split
    · split
      · exact List.all_eq_true.mp (by decide)
      · split <;> exact List.all_eq_true.mp (by decide)
    · exact List.all_eq_true.mp (by decide)

end Written

open Written

theorem writtenAs_printable {s : List Char} {style : ScalarStyle} (fits : Fits s style)
    (columns : Nat) : ∀ c ∈ writtenAs columns s style, isPrintable c = true := by
  cases fits with
  | plain bare => exact List.all_eq_true.mp bare.printable
  | singleQuoted printable =>
    simp only [writtenAs, List.forall_mem_cons, List.forall_mem_append]
    exact ⟨⟨by decide, single_printable (List.all_eq_true.mp printable) columns false⟩,
      by decide, List.forall_mem_nil _⟩
  | doubleQuoted =>
    simp only [writtenAs, List.forall_mem_cons, List.forall_mem_append]
    exact ⟨⟨by decide, double_printable s⟩, by decide, List.forall_mem_nil _⟩
  | literal printable =>
    simp only [writtenAs, List.forall_mem_cons, List.forall_mem_append]
    exact ⟨⟨by decide, header_printable s⟩, by decide,
      lines_printable (List.all_eq_true.mp printable) columns true⟩

theorem writtenKey_printable (s : List Char) : ∀ c ∈ writtenKey s, isPrintable c = true := by
  unfold writtenKey
  split
  · exact writtenAs_printable .doubleQuoted 0
  · exact writtenAs_printable (style_fits s) 0

theorem writtenLine_printable (columns : Nat) (s : List Char) :
    ∀ c ∈ writtenLine columns s, isPrintable c = true := by
  have text := writtenAs_printable (style_fits s) columns
  simp only [writtenLine]
  split
  · exact text
  · exact List.forall_mem_append.mpr ⟨text, List.all_eq_true.mp (by decide)⟩

namespace Tree

theorem lead_printable (place : Place) (column : Nat) :
    ∀ c ∈ place.lead column, isPrintable c = true := by
  cases place with
  | key => exact List.forall_mem_cons.mpr ⟨by decide, pad_printable column⟩
  | dash => exact List.forall_mem_singleton.mpr (by decide)

mutual

theorem write_printable (place : Place) (column : Nat) :
    (tree : Tree) → ∀ c ∈ tree.write place column, isPrintable c = true
  | .null => by
    rw [write]
    exact List.all_eq_true.mp (by decide)
  | .truth value => by
    rw [write]
    cases value <;> exact List.all_eq_true.mp (by decide)
  | .text value => by
    rw [write]
    exact List.forall_mem_cons.mpr ⟨by decide, writtenLine_printable _ _⟩
  | .list items => by
    rw [write]
    split
    · exact List.all_eq_true.mp (by decide)
    · exact writeItems_printable (lead_printable place _) _ items
  | .record fields => by
    rw [write]
    split
    · exact List.all_eq_true.mp (by decide)
    · exact writeFields_printable (lead_printable place _) _ fields

theorem writeFields_printable {lead : List Char} (first : ∀ c ∈ lead, isPrintable c = true)
    (column : Nat) : (fields : List (String × Tree)) →
      ∀ c ∈ writeFields lead column fields, isPrintable c = true
  | [] => List.forall_mem_nil _
  | (key, value) :: rest => by
    simp only [writeFields, List.forall_mem_append, List.forall_mem_cons]
    exact ⟨⟨⟨first, writtenKey_printable _⟩, by decide, write_printable .key column value⟩,
      writeFields_printable (pad_printable column) column rest⟩

theorem writeItems_printable {lead : List Char} (first : ∀ c ∈ lead, isPrintable c = true)
    (column : Nat) : (items : List Tree) →
      ∀ c ∈ writeItems lead column items, isPrintable c = true
  | [] => List.forall_mem_nil _
  | item :: rest => by
    simp only [writeItems, List.forall_mem_append, List.forall_mem_cons]
    exact ⟨⟨first, by decide, write_printable .dash column item⟩,
      writeItems_printable (pad_printable column) column rest⟩

end

end Tree
end PluginLoader.Yaml
