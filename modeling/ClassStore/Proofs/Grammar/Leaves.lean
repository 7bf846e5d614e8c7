import ClassStore.Proofs.Grammar.Acceptance

/-!
# Leaves of a parsed search

Whatever tokens a source delivers and however it ends, a tree that is read from them
has a derivation.  So every leaf of the tree has a path that leads to an attribute, and
an operator and a value that some operand means for the type of this attribute.
-/

namespace ClassStore.Search.Grammar

open ClassStore.Catalog

/-- The path of the leaf leads to an attribute, and an operand for its type means the rest. -/
def IsMeant (catalog : Catalog) (key : String) (leaf : Leaf) : Prop :=
  ∃ resolved operand,
    catalog.resolvePath? key leaf.path = some resolved ∧
    Operand.meaning? resolved.attr.searchType operand = some (leaf.operator, leaf.value)

variable {catalog : Catalog} {key : String}

mutual

theorem isMeant_of_node?
    (statement : Statement)
    {node : Node}
    (meaning : statement.node? catalog key = some node) :
    ∀ leaf ∈ node.leaves, IsMeant catalog key leaf := by
  cases statement with
  | search path arrow negated operand =>
      rcases Option.bind_eq_some_iff.mp meaning with ⟨resolved, found, others⟩
      rcases Option.bind_eq_some_iff.mp others with ⟨⟨operator, value⟩, operandMeaning, ends⟩
      cases ends
      rw [Node.leaves, List.forall_mem_singleton]
      exact ⟨resolved, operand, found, operandMeaning⟩
  | group combinator members =>
      rcases Option.bind_eq_some_iff.mp meaning with ⟨nodes, membersMeaning, ends⟩
      cases ends
      rw [Node.leaves]
      exact isMeant_of_nodes? members membersMeaning

theorem isMeant_of_nodes?
    (members : Members)
    {nodes : List Node}
    (meaning : members.nodes? catalog key = some nodes) :
    ∀ leaf ∈ Node.listLeaves nodes, IsMeant catalog key leaf := by
  cases members with
  | last statement comma =>
      rcases Members.nodes?_last_eq_some_iff.mp meaning with ⟨node, nodeMeaning, rfl⟩
      rw [Node.listLeaves, Node.listLeaves, List.append_nil]
      exact isMeant_of_node? statement nodeMeaning
  | cons statement members =>
      rcases Members.nodes?_cons_eq_some_iff.mp meaning with
        ⟨node, others, nodeMeaning, othersMeaning, rfl⟩
      rw [Node.listLeaves, List.forall_mem_append]
      exact ⟨isMeant_of_node? statement nodeMeaning, isMeant_of_nodes? members othersMeaning⟩

end

/-- A tree that is read from the tokens of a source is the meaning of a derivation. -/
theorem exists_derivation_of_parse
    {stream : TokenStream}
    (delivered : ∀ token ∈ stream.tokens, token.IsDelivered)
    {node : Node}
    (parsed : parse catalog key stream = .ok node) :
    ∃ derivation nodes,
      depthOf derivation ≤ maxDepth ∧
      nodesOf? catalog key derivation = some nodes ∧
      node = .group .all nodes := by
  rcases parse_eq_ok_iff_whole.mp parsed with ⟨_, nodes, read, rfl⟩
  rcases whole_sound (fun token isToken => (delivered token isToken).terminal) read with
    ⟨-, derivation, _, shallow, meaning⟩
  exact ⟨derivation, nodes, shallow, meaning, rfl⟩

end ClassStore.Search.Grammar

namespace ClassStore.Search

/-- The tree is read from a text or from terms. -/
def IsParsed (catalog : Catalog) (key : String) (node : Node) : Prop :=
  (∃ text, parseText catalog key text = .ok node) ∨
    ∃ terms, parseTerms catalog key terms = .ok node

/-- A tree that is read is the AND of what a derivation means, which nests no deeper than allowed. -/
theorem IsParsed.exists_derivation
    {catalog : Catalog}
    {key : String}
    {node : Node}
    (isParsed : IsParsed catalog key node) :
    ∃ derivation nodes,
      Grammar.depthOf derivation ≤ maxDepth ∧
      Grammar.nodesOf? catalog key derivation = some nodes ∧
      node = .group .all nodes := by
  rcases isParsed with ⟨text, parsed⟩ | ⟨terms, parsed⟩
  · exact Grammar.exists_derivation_of_parse (fun token isToken => .inl ⟨text, isToken⟩) parsed
  · exact Grammar.exists_derivation_of_parse (fun token isToken => .inr ⟨terms, isToken⟩) parsed

/-- Every leaf of a tree that is read is meant by an operand. -/
theorem IsParsed.isMeant
    {catalog : Catalog}
    {key : String}
    {node : Node}
    (isParsed : IsParsed catalog key node) :
    ∀ leaf ∈ node.leaves, Grammar.IsMeant catalog key leaf := by
  rcases isParsed.exists_derivation with ⟨derivation, nodes, _, meaning, rfl⟩
  rw [Node.leaves]
  cases derivation with
  | none =>
      cases meaning
      simp [Node.listLeaves]
  | some members => exact Grammar.isMeant_of_nodes? members meaning

end ClassStore.Search
