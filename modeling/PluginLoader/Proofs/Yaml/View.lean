import PluginLoader.Proofs.Yaml.Document
import PluginLoader.Yaml.View

/-! What the nodes of a written tree stand for. No alias is followed, so that the steps that are
left do not matter. -/
namespace PluginLoader.Yaml

/-- A reading comes to a value without following any alias. -/
def Reading.Gives {α : Type} (reading : Reading α) (value : α) : Prop :=
  ∀ targets steps, reading targets steps = some (value, steps)

namespace Reading
variable {α β : Type} {value : α} {result : β}

theorem Gives.pure (value : α) : Gives (pure value) value := fun _ _ => rfl

theorem Gives.bind {reading : Reading α} {next : α → Reading β} (first : reading.Gives value)
    (second : (next value).Gives result) : (reading >>= next).Gives result := by
  intro targets steps
  change (reading targets steps).bind (fun given => next given.1 targets given.2) = _
  rw [first]
  exact second targets steps

theorem Gives.mapM {γ : Type} {reading : α → Reading β} {node : γ → α} {value : γ → β}
    {list : List γ} (each : ∀ x ∈ list, (reading (node x)).Gives (value x)) :
    ((list.map node).mapM reading).Gives (list.map value) := by
  induction list with
  | nil => exact .pure []
  | cons x list ih =>
    rw [List.forall_mem_cons] at each
    rw [List.map_cons, List.map_cons, List.mapM_cons]
    exact each.1.bind ((ih each.2).bind (.pure _))

/-- Enough steps are left for a reading that needs none. -/
theorem Gives.of {reading : Node → Reading α} {root : Node} (gives : (reading root).Gives value) :
    Reading.of? reading root = some value :=
  congrArg (Option.map Prod.fst) (gives root.targets (100 * root.events))

end Reading

open Reading

namespace Tree

theorem gives_text (value : String) : (Tree.text value).node.text.Gives value := fun _ _ => rfl

theorem gives_truth (value : Bool) : (Tree.truth value).node.truth.Gives value := by
  cases value <;> exact fun _ _ => rfl

theorem gives_null : Tree.null.node.textOrNull.Gives none := fun _ _ => rfl

theorem text_of_style {s : List Char} (plain : Written.style s = .plain) :
    looksOtherThanText s = false := by
  by_contra looks
  rw [Bool.not_eq_false] at looks
  simp only [Written.style, looks] at plain
  split at plain <;> split at plain <;> cases plain

/-- A text that could be taken for null is written in quotes. -/
theorem gives_some (value : String) : (Tree.text value).node.textOrNull.Gives (some value) := by
  intro targets steps
  rw [node]
  cases style : Written.style value.toList with
  | plain =>
    have text := text_of_style style
    simp only [looksOtherThanText, Bool.or_eq_false_iff, String.ofList_toList, List.contains_append]
      at text
    have filled : value.isEmpty = false := by simpa [String.isEmpty_iff] using text.1.1.1.1
    have word : Node.isNull value = false := text.1.1.1.2.1.1
    change some ((if value.isEmpty || Node.isNull value then none else some value), steps) = _
    rw [filled, word]
    rfl
  | singleQuoted | doubleQuoted | literal | folded => rfl

theorem gives_choice (name : String) : (Tree.text name).node.choice.Gives name := fun _ _ => rfl

theorem itemNodes_eq (items : List Tree) : itemNodes items = items.map node := by
  induction items with
  | nil => rfl
  | cons item items ih => rw [itemNodes, ih, List.map_cons]

theorem fieldNodes_eq (fields : List (String × Tree)) : fieldNodes fields =
    fields.map fun field => (.scalar field.1 .plain none, field.2.node) := by
  induction fields with
  | nil => rfl
  | cons field fields ih => rw [fieldNodes, ih, List.map_cons]

theorem gives_items (items : List Tree) : (Tree.list items).node.items.Gives (items.map node) := by
  rw [← itemNodes_eq]
  exact fun _ _ => rfl

theorem gives_fields (fields : List (String × Tree)) :
    (Tree.record fields).node.fields.Gives (fields.map fun field => (field.1, field.2.node)) := by
  let entry (field : String × Tree) : Node × Node :=
    (.scalar field.1 .plain none, field.2.node)
  have named : ∀ field ∈ fields, Gives (do return (← (entry field).1.text, (entry field).2))
      (field.1, field.2.node) :=
    fun field _ => (gives_text field.1).bind (.pure _)
  rw [node, fieldNodes_eq]
  exact Gives.mapM named

end Tree
end PluginLoader.Yaml
