import PluginLoader.Proofs.Yaml.Tokens
import PluginLoader.Yaml.Document

/-! The document of a written tree. Every part of it is a node of its own, with no anchor and no
tag, and no alias stands for another part. -/
namespace PluginLoader.Yaml

namespace Tree

mutual

/-- The node that a tree is read as. -/
def node : Tree → Node
  | .null => .scalar "null" .plain none
  | .truth value => .scalar (truthWord value) .plain none
  | .text value => .scalar value (Written.style value.toList) none
  | .list items => .sequence (itemNodes items) none
  | .record fields => .mapping (fieldNodes fields) none

def fieldNodes : List (String × Tree) → List (Node × Node)
  | [] => []
  | (key, value) :: rest => (.scalar key .plain none, node value) :: fieldNodes rest

def itemNodes : List Tree → List Node
  | [] => []
  | item :: rest => node item :: itemNodes rest

end

end Tree

namespace Composer
variable {α β : Type} {leads : TagLeads} {anchors : List (List Char × Nat)} {token : Token}
  {rest : List Token} {feed after : Feed} {fuel : Nat} {dashes : Bool}

/-! ### Single steps -/

theorem bind_of {act : Composer α} {next : α → Composer β} {value : α}
    (done : act feed = some (value, after)) : (act >>= next) feed = next value after := by
  change (act feed).bind (fun done => next done.1 done.2) = _
  rw [done]
  rfl

theorem accept_eq (token : Token) (feed : Feed) : accept token feed =
    if feed.tokens.head? = some token then some (true, { feed with tokens := feed.tokens.tail })
    else some (false, feed) := by
  have branches : accept token feed =
      (if feed.tokens.head? = some token then (do skip; return true : Composer Bool)
        else return false) feed := rfl
  rw [branches]
  split <;> rfl

theorem accept_next : accept token ⟨token :: rest, anchors⟩ = some (true, ⟨rest, anchors⟩) := by
  simp [accept_eq]

theorem accept_other (other : feed.tokens.head? ≠ some token) :
    accept token feed = some (false, feed) := by
  rw [accept_eq, if_neg other]

theorem require_next : require token ⟨token :: rest, anchors⟩ = some ((), ⟨rest, anchors⟩) :=
  bind_of accept_next

theorem isNext_cons (tokens : List Token) : isNext tokens ⟨token :: rest, anchors⟩ =
    some (tokens.contains token, ⟨token :: rest, anchors⟩) := rfl

theorem head_cons : head? ⟨token :: rest, anchors⟩ =
    some (some token, ⟨token :: rest, anchors⟩) := rfl

theorem skip_cons : skip ⟨token :: rest, anchors⟩ = some ((), ⟨rest, anchors⟩) := rfl

/-! ### Nodes -/

theorem node_scalar (text : List Char) (style : ScalarStyle) :
    node leads true dashes (fuel + 2) ⟨.scalar text style :: rest, anchors⟩ =
      some (.scalar (String.ofList text) style none, ⟨rest, anchors⟩) := by
  rw [node]
  rfl

theorem node_content {root : Node}
    (begins : token ∈ [.blockEntry, .flowSequenceStart, .blockMappingStart])
    (inner : content leads true dashes false none fuel ⟨token :: rest, anchors⟩ =
      some (root, after)) :
    node leads true dashes (fuel + 1) ⟨token :: rest, anchors⟩ = some (root, after) := by
  rw [node]
  simp only [List.mem_cons, List.not_mem_nil, or_false] at begins
  obtain rfl | rfl | rfl := begins <;> exact bind_of inner

theorem node_mapping {entries : List (Node × Node)}
    (inner : blockEntries leads fuel ⟨rest, anchors⟩ = some (entries, after)) :
    node leads true dashes (fuel + 2) ⟨.blockMappingStart :: rest, anchors⟩ =
      some (.mapping entries none, after) := by
  refine node_content (by simp) ?_
  rw [content]
  refine (bind_of head_cons).trans ?_
  refine (bind_of skip_cons).trans ?_
  exact bind_of inner

theorem node_dashes {items : List Node}
    (inner : dashItems leads fuel ⟨.blockEntry :: rest, anchors⟩ = some (items, after)) :
    node leads true true (fuel + 2) ⟨.blockEntry :: rest, anchors⟩ =
      some (.sequence items none, after) := by
  refine node_content (by simp) ?_
  rw [content]
  refine (bind_of head_cons).trans ?_
  exact bind_of inner

theorem node_nothing :
    node leads true dashes (fuel + 3) ⟨.flowSequenceStart :: .flowSequenceEnd :: rest, anchors⟩ =
      some (.sequence [] none, ⟨rest, anchors⟩) := by
  have none : flowItems leads true (fuel + 1) ⟨.flowSequenceEnd :: rest, anchors⟩ =
      some ([], ⟨rest, anchors⟩) := by
    rw [flowItems]
    exact bind_of accept_next
  refine node_content (by simp) ?_
  rw [content]
  refine (bind_of head_cons).trans ?_
  refine (bind_of skip_cons).trans ?_
  exact bind_of none

theorem blockPart_node (filled : token ∉ [.key, .value, .blockEnd]) :
    blockPart leads (fuel + 1) ⟨token :: rest, anchors⟩ =
      node leads true true fuel ⟨token :: rest, anchors⟩ := by
  rw [blockPart]
  refine (bind_of (isNext_cons _)).trans ?_
  rw [if_neg (by simpa using filled)]

theorem blockEntries_end :
    blockEntries leads (fuel + 1) ⟨.blockEnd :: rest, anchors⟩ = some ([], ⟨rest, anchors⟩) := by
  rw [blockEntries]
  exact bind_of accept_next

theorem blockEntries_key {key value : Node} {entries : List (Node × Node)} {behind : Feed}
    {inner : List Token}
    (name : blockPart leads fuel ⟨rest, anchors⟩ = some (key, ⟨.value :: inner, anchors⟩))
    (part : blockPart leads fuel ⟨inner, anchors⟩ = some (value, behind))
    (others : blockEntries leads fuel behind = some (entries, after)) :
    blockEntries leads (fuel + 1) ⟨.key :: rest, anchors⟩ =
      some ((key, value) :: entries, after) := by
  rw [blockEntries]
  refine (bind_of (accept_other (by simp))).trans ?_
  refine (bind_of require_next).trans ?_
  refine (bind_of name).trans ?_
  refine (bind_of accept_next).trans ?_
  refine (bind_of part).trans ?_
  exact bind_of others

theorem dashItems_end (ended : feed.tokens.head? ≠ some .blockEntry) :
    dashItems leads (fuel + 1) feed = some ([], feed) := by
  rw [dashItems]
  exact bind_of (accept_other ended)

theorem dashItems_entry {item : Node} {items : List Node} {behind : Feed}
    (filled : token ∉ [.blockEntry, .key, .value, .blockEnd])
    (first : node leads true false fuel ⟨token :: rest, anchors⟩ = some (item, behind))
    (others : dashItems leads fuel behind = some (items, after)) :
    dashItems leads (fuel + 1) ⟨.blockEntry :: token :: rest, anchors⟩ =
      some (item :: items, after) := by
  rw [dashItems]
  refine (bind_of accept_next).trans ?_
  refine (bind_of (isNext_cons _)).trans ?_
  rw [if_neg (by simpa using filled)]
  refine (bind_of first).trans ?_
  exact bind_of others

end Composer

/-! ### Written trees -/

namespace Tree

open Composer

variable {leads : TagLeads} {anchors : List (List Char × Nat)} {rest : List Token} {fuel : Nat}

/-- A value is composed from its tokens. -/
def Composes (tree : Tree) : Prop :=
  ∀ {leads : TagLeads} {anchors : List (List Char × Nat)} {rest : List Token} {fuel : Nat},
    4 * tree.tokens.length ≤ fuel → rest.head? ≠ some .blockEntry →
      blockPart leads fuel ⟨tree.tokens ++ rest, anchors⟩ = some (tree.node, ⟨rest, anchors⟩)

theorem compose_fields {fields : List (String × Tree)}
    (values : ∀ field ∈ fields, Composes field.2)
    (enough : 4 * (fieldTokens fields).length < fuel) :
    blockEntries leads fuel ⟨fieldTokens fields ++ .blockEnd :: rest, anchors⟩ =
      some (fieldNodes fields, ⟨rest, anchors⟩) := by
  induction fields generalizing fuel with
  | nil =>
    obtain ⟨fuel, rfl⟩ := Nat.exists_eq_add_one.mpr enough
    exact blockEntries_end
  | cons field fields ih =>
    obtain ⟨key, tree⟩ := field
    rw [List.forall_mem_cons] at values
    simp only [fieldTokens, List.length_append, List.length_cons, List.length_nil] at enough
    -- one step for the entry and three for its key, which has a token of its own
    obtain ⟨fuel, rfl⟩ : ∃ less, fuel = less + 4 := ⟨fuel - 4, by omega⟩
    have name : blockPart leads (fuel + 3) ⟨.scalar key.toList .plain :: .value ::
        (tree.tokens ++ (fieldTokens fields ++ .blockEnd :: rest)), anchors⟩ = _ :=
      (blockPart_node (by simp)).trans (node_scalar _ _)
    rw [String.ofList_toList] at name
    have behind : (fieldTokens fields ++ .blockEnd :: rest).head? ≠ some .blockEntry := by
      cases fields <;> simp [fieldTokens]
    have part : blockPart leads (fuel + 3) ⟨tree.tokens ++
        (fieldTokens fields ++ .blockEnd :: rest), anchors⟩ = _ :=
      values.1 (by dsimp only; omega) behind
    have others : blockEntries leads (fuel + 3) ⟨_, anchors⟩ = _ := ih values.2 (by omega)
    simpa [fieldTokens, fieldNodes] using blockEntries_key name part others

theorem compose_record {fields : List (String × Tree)} {dashes : Bool}
    (values : ∀ field ∈ fields, Composes field.2)
    (enough : 4 * (Tree.record fields).tokens.length ≤ fuel + 1) :
    Composer.node leads true dashes fuel ⟨(Tree.record fields).tokens ++ rest, anchors⟩ =
      some ((Tree.record fields).node, ⟨rest, anchors⟩) := by
  simp only [Tree.tokens, List.length_append, List.length_cons, List.length_nil] at enough
  obtain ⟨fuel, rfl⟩ : ∃ less, fuel = less + 2 := ⟨fuel - 2, by omega⟩
  have inner : blockEntries leads fuel ⟨fieldTokens fields ++ .blockEnd :: rest, anchors⟩ = _ :=
    compose_fields values (by omega)
  simpa [Tree.tokens, Tree.node] using node_mapping inner

theorem compose_items {records : List (List (String × Tree))}
    (values : ∀ fields ∈ records, ∀ field ∈ fields, Composes field.2)
    (enough : 4 * (itemTokens (records.map .record)).length ≤ fuel + 3) (left : 0 < fuel)
    (ended : rest.head? ≠ some .blockEntry) :
    dashItems leads fuel ⟨itemTokens (records.map .record) ++ rest, anchors⟩ =
      some (itemNodes (records.map .record), ⟨rest, anchors⟩) := by
  induction records generalizing fuel with
  | nil =>
    obtain ⟨fuel, rfl⟩ := Nat.exists_eq_add_one.mpr left
    exact dashItems_end ended
  | cons fields records ih =>
    rw [List.forall_mem_cons] at values
    simp only [List.map_cons, itemTokens, List.length_append, List.length_cons] at enough
    obtain ⟨fuel, rfl⟩ := Nat.exists_eq_add_one.mpr left
    have marked : 0 < (Tree.record fields).tokens.length := by simp [Tree.tokens]
    have first : Composer.node leads true false fuel ⟨(Tree.record fields).tokens ++
        (itemTokens (records.map .record) ++ rest), anchors⟩ = _ :=
      compose_record values.1 (by omega)
    have others : dashItems leads fuel ⟨_, anchors⟩ = _ :=
      ih values.2 (by omega) (by omega)
    rw [Tree.tokens, List.cons_append, List.cons_append] at first
    simpa [itemTokens, itemNodes, Tree.tokens] using dashItems_entry (by simp) first others

theorem compose_scalar (text : String) {style : ScalarStyle} (enough : 4 ≤ fuel) :
    blockPart leads fuel ⟨[.scalar text.toList style] ++ rest, anchors⟩ =
      some (.scalar text style none, ⟨rest, anchors⟩) := by
  obtain ⟨fuel, rfl⟩ : ∃ less, fuel = less + 3 := ⟨fuel - 3, by omega⟩
  have scalar : blockPart leads (fuel + 3) ⟨.scalar text.toList style :: rest, anchors⟩ = _ :=
    (blockPart_node (by simp)).trans (node_scalar text.toList style)
  rwa [String.ofList_toList] at scalar

theorem Settings.composes {tree : Tree} (settings : Settings tree) : Composes tree := by
  induction settings with
  | null =>
    intro leads anchors rest fuel enough _
    rw [Tree.tokens] at enough ⊢
    exact compose_scalar "null" enough
  | truth value =>
    intro leads anchors rest fuel enough _
    rw [Tree.tokens] at enough ⊢
    exact compose_scalar (truthWord value) enough
  | text value =>
    intro leads anchors rest fuel enough _
    rw [Tree.tokens] at enough ⊢
    exact compose_scalar value enough
  | @list records _ _ ih =>
    intro leads anchors rest fuel enough ended
    rw [Tree.tokens] at enough ⊢
    cases records with
    | nil =>
      obtain ⟨fuel, rfl⟩ : ∃ less, fuel = less + 4 := ⟨fuel - 4, by simp at enough; omega⟩
      exact (blockPart_node (by simp)).trans node_nothing
    | cons fields records =>
      have filled : 1 ≤ (itemTokens ((fields :: records).map .record)).length := by
        simp [itemTokens]
      rw [if_neg (by simp)] at enough ⊢
      obtain ⟨fuel, rfl⟩ : ∃ less, fuel = less + 3 := ⟨fuel - 3, by omega⟩
      have items : dashItems leads fuel ⟨itemTokens ((fields :: records).map .record) ++ rest,
          anchors⟩ = _ := compose_items ih (by omega) (by omega) ended
      exact (blockPart_node (by simp)).trans (node_dashes items)
  | @record fields _ _ ih =>
    intro leads anchors rest fuel enough _
    obtain ⟨fuel, rfl⟩ : ∃ less, fuel = less + 1 :=
      ⟨fuel - 1, by simp [Tree.tokens] at enough; omega⟩
    have record : Composer.node leads true true fuel ⟨(Tree.record fields).tokens ++ rest,
        anchors⟩ = _ := compose_record ih (by omega)
    exact (blockPart_node (by simp)).trans record

/-- A written record is read as the document that its node is the root of. -/
theorem document_writeRecord {fields : List (String × Tree)}
    (settings : Settings (.record fields)) :
    document? (writeRecord fields) = some (Tree.record fields).node := by
  cases settings with
  | record keys values =>
    have root : Composer.node standardLeads true false (4 * (Tree.record fields).tokens.length + 4)
        ⟨(Tree.record fields).tokens ++ [], []⟩ = some ((Tree.record fields).node, ⟨[], []⟩) :=
      compose_record (fun field member => (values field member).composes) (by omega)
    rw [List.append_nil] at root
    have whole : Composer.document? (Tree.record fields).tokens =
        some ((Tree.record fields).node, []) := by
      change (Composer.node ..).map _ = _
      rw [root]
      rfl
    rw [document?, writeRecord_tokens (.record keys values), Option.bind_eq_bind, Option.bind_some,
      whole]
    rfl

end Tree
end PluginLoader.Yaml
