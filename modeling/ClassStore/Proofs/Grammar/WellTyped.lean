import ClassStore.Proofs.Date.Reading
import ClassStore.Proofs.Grammar.Leaves

/-!
# What is read is well typed

A tree that the parser returns is the meaning of a derivation that nests groups no
deeper than allowed.  What the grammar cannot write, the tree cannot have: a group
without members, an operator whose values are too few, or bounds of two kinds.  What
a text cannot stand for, no value of the tree can be: each scalar is read from a text
by the type of the attribute that its path leads to.
-/

namespace ClassStore.Search

open ClassStore.Catalog
open ClassStore.Date

/-! ## Operators and their values -/

/-- The scalars that a value is made of. -/
def Value.scalars : Value → List Scalar
  | .scalar value => [value]
  | .pair low high => [low, high]
  | .list values => values
  | .null => []

/-- The operator can be asked of the value, as far as their shapes go. -/
inductive Operator.Takes : Operator → Value → Prop where
  | null {comparison : Comparison}
      (isEquality : comparison = .eq ∨ comparison = .ne) :
      Takes (.compare comparison) .null
  | scalar (comparison : Comparison) (value : Scalar) :
      Takes (.compare comparison) (.scalar value)
  | pair {low high : Scalar}
      (alike : low.kind = high.kind) :
      Takes .between (.pair low high)
  | list {values : List Scalar} {variant : ScalarVariant}
      (nonempty : values ≠ [])
      (uniform : ∀ value ∈ values, value.variant = variant) :
      Takes .any (.list values)

/-- The scalar is a value that the attribute is searched by. -/
inductive Admits (attr : Attribute) : Scalar → Prop where
  | integer {value : Int64}
      (isInteger : attr.isReference = true ∨ attr.type.isIntegral = true) :
      Admits attr (.integer value)
  | boolean {value : Bool}
      (noReference : attr.isReference = false)
      (isBoolean : attr.type = .boolean) :
      Admits attr (.boolean value)
  | date {value : PartialDate}
      (noReference : attr.isReference = false)
      (isDatetime : attr.type = .datetime)
      (defined : ∃ segment part, value.get? segment = some part)
      (fourDigits : ∀ year, value.get? .year = some year → year ≤ 9999) :
      Admits attr (.date value)
  | string {value : String}
      (noReference : attr.isReference = false)
      (isOther :
        ¬(attr.type.isIntegral = true ∨ attr.type = .boolean ∨ attr.type = .datetime)) :
      Admits attr (.string value)

/-- The path of the leaf leads to an attribute, and the operator and the values fit. -/
def Leaf.IsWellTyped (catalog : Catalog) (key : String) (leaf : Leaf) : Prop :=
  ∃ resolved,
    catalog.resolvePath? key leaf.path = some resolved ∧
    leaf.operator.Takes leaf.value ∧
    ∀ value ∈ leaf.value.scalars, Admits resolved.attr value

/-- The groups of a tree have members and stand at most the given number of levels deep. -/
inductive Node.Nested : Nat → Node → Prop where
  | leaf (levels : Nat) (content : Leaf) : Nested levels (.leaf content)
  | group {levels : Nat} {members : List Node} (combinator : Combinator)
      (nonempty : members ≠ [])
      (nested : ∀ member ∈ members, Nested levels member) :
      Nested (levels + 1) (.group combinator members)

/-! ## Values that are read -/

/-- No year of more than four digits fits a real date. -/
theorem year_le_of_read?
    {text : String}
    {date : PartialDate}
    (read : PartialDate.read? text = some date)
    {year : Nat}
    (defined : date.get? .year = some year) :
    year ≤ 9999 := by
  obtain ⟨_, moment, isCivil, fits⟩ := PartialDate.exists_fits_of_read? read
  have same : moment.year = year := fits .year year defined
  have bound := isCivil.fourDigits
  omega

/-- What a text stands for by the type of an attribute is a value of the attribute. -/
theorem admits_of_readValue?
    {attr : Attribute}
    {text : String}
    {value : Scalar}
    (read : readValue? attr.searchType text = some value) :
    Admits attr value := by
  rw [Attribute.searchType] at read
  split at read
  · next isReference =>
      rcases Option.map_eq_some_iff.mp read with ⟨number, _, rfl⟩
      exact .integer (.inl isReference)
  · next noReference =>
      rw [Bool.not_eq_true] at noReference
      rw [readValue?] at read
      split at read
      · next isIntegral =>
          rcases Option.map_eq_some_iff.mp read with ⟨number, _, rfl⟩
          exact .integer (.inr isIntegral)
      · next notIntegral =>
          split at read
          · next isBoolean =>
              rcases Option.map_eq_some_iff.mp read with ⟨truth, _, rfl⟩
              exact .boolean noReference isBoolean
          · next notBoolean =>
              split at read
              · next isDatetime =>
                  rcases Option.map_eq_some_iff.mp read with ⟨date, dateRead, rfl⟩
                  exact .date noReference isDatetime
                    (PartialDate.exists_fits_of_read? dateRead).1
                    fun year defined => year_le_of_read? dateRead defined
              · next notDatetime =>
                  cases read
                  refine .string noReference ?_
                  rintro (isIntegral | isBoolean | isDatetime)
                  · exact notIntegral isIntegral
                  · exact notBoolean isBoolean
                  · exact notDatetime isDatetime

namespace Grammar

/-- Every value of a list is read from a text. -/
theorem Items.exists_readValue?
    {type : SemanticType}
    {items : Items}
    {values : List Scalar}
    (meaning : items.values? type = some values) :
    ∀ value ∈ values, ∃ text, readValue? type text = some value := by
  induction items generalizing values with
  | last text trailing =>
      rcases Items.values?_last_eq_some_iff.mp meaning with ⟨value, read, rfl⟩
      rw [List.forall_mem_singleton]
      exact ⟨text, read⟩
  | cons text separator items inductionHypothesis =>
      rcases Items.values?_cons_eq_some_iff.mp meaning with
        ⟨value, others, read, othersMeaning, rfl⟩
      rw [List.forall_mem_cons]
      exact ⟨⟨text, read⟩, inductionHypothesis othersMeaning⟩

/-- An operand puts its operator to values that are read from its texts. -/
theorem Operand.takes_of_meaning?
    {type : SemanticType}
    {operand : Operand}
    {operator : Operator}
    {value : Value}
    (meaning : operand.meaning? type = some (operator, value)) :
    operator.Takes value ∧
      ∀ scalar ∈ value.scalars, ∃ text, readValue? type text = some scalar := by
  cases operand with
  | value text =>
      rcases Option.bind_eq_some_iff.mp meaning with ⟨scalar, read, ends⟩
      cases ends
      exact ⟨.scalar .eq scalar, List.forall_mem_singleton.mpr ⟨text, read⟩⟩
  | undefined =>
      cases meaning
      exact ⟨.null (.inl rfl), List.forall_mem_nil _⟩
  | compare comparison text =>
      rcases Option.bind_eq_some_iff.mp meaning with ⟨scalar, read, ends⟩
      cases ends
      exact ⟨.scalar comparison scalar, List.forall_mem_singleton.mpr ⟨text, read⟩⟩
  | compareUndefined comparison isEquality =>
      cases meaning
      exact ⟨.null isEquality, List.forall_mem_nil _⟩
  | between named bounds =>
      rcases Option.bind_eq_some_iff.mp meaning with ⟨pair, boundsMeaning, ends⟩
      cases ends
      rcases Option.bind_eq_some_iff.mp boundsMeaning with ⟨low, lowRead, others⟩
      rcases Option.bind_eq_some_iff.mp others with ⟨high, highRead, paired⟩
      split at paired
      · next alike =>
          cases paired
          refine ⟨.pair alike, List.forall_mem_cons.mpr ⟨⟨bounds.low, lowRead⟩, ?_⟩⟩
          exact List.forall_mem_singleton.mpr ⟨bounds.high, highRead⟩
      · cases paired
  | any items =>
      rcases Option.bind_eq_some_iff.mp meaning with ⟨values, itemsMeaning, ends⟩
      cases ends
      exact ⟨.list (Items.values_ne_nil itemsMeaning) (Items.variant_of_values? itemsMeaning),
        Items.exists_readValue? itemsMeaning⟩

theorem IsMeant.isWellTyped
    {catalog : Catalog}
    {key : String}
    {leaf : Leaf}
    (isMeant : IsMeant catalog key leaf) :
    leaf.IsWellTyped catalog key := by
  rcases isMeant with ⟨resolved, operand, found, meaning⟩
  obtain ⟨takes, areRead⟩ := Operand.takes_of_meaning? meaning
  refine ⟨resolved, found, takes, fun value isMember => ?_⟩
  obtain ⟨text, read⟩ := areRead value isMember
  exact admits_of_readValue? read

/-! ## Groups that are read -/

variable {catalog : Catalog} {key : String}

mutual

/-- A statement means a tree that is nested as deep as it is itself. -/
theorem nested_of_node?
    (statement : Statement)
    {levels : Nat}
    (shallow : statement.depth ≤ levels)
    {node : Node}
    (meaning : statement.node? catalog key = some node) :
    node.Nested levels := by
  cases statement with
  | search path arrow negated operand =>
      rcases Option.bind_eq_some_iff.mp meaning with ⟨resolved, _, others⟩
      rcases Option.bind_eq_some_iff.mp others with ⟨result, _, ends⟩
      cases ends
      exact .leaf levels _
  | group combinator members =>
      rcases Option.bind_eq_some_iff.mp meaning with ⟨nodes, membersMeaning, ends⟩
      cases ends
      cases levels with
      | zero => cases shallow
      | succ levels =>
          exact .group combinator (Members.nodes_ne_nil membersMeaning)
            (nested_of_nodes? members (Nat.le_of_succ_le_succ shallow) membersMeaning)

theorem nested_of_nodes?
    (members : Members)
    {levels : Nat}
    (shallow : members.depth ≤ levels)
    {nodes : List Node}
    (meaning : members.nodes? catalog key = some nodes) :
    ∀ node ∈ nodes, node.Nested levels := by
  cases members with
  | last statement comma =>
      rcases Members.nodes?_last_eq_some_iff.mp meaning with ⟨node, nodeMeaning, rfl⟩
      rw [List.forall_mem_singleton]
      exact nested_of_node? statement shallow nodeMeaning
  | cons statement members =>
      rcases Members.nodes?_cons_eq_some_iff.mp meaning with
        ⟨node, others, nodeMeaning, othersMeaning, rfl⟩
      rw [Members.depth, Nat.max_le] at shallow
      rw [List.forall_mem_cons]
      exact ⟨nested_of_node? statement shallow.1 nodeMeaning,
        nested_of_nodes? members shallow.2 othersMeaning⟩

end

end Grammar

/-! ## Trees that are read -/

/--
A tree that is read is well typed and bounded.

Whatever text or terms it is read from, it is the AND of trees in which every group has
members and groups stand in groups at most 128 levels deep.  The path of every leaf leads
to an attribute, the value of the leaf has the shape that its operator takes, and every
scalar in it is a value that the attribute is searched by.
-/
theorem IsParsed.wellTyped
    {catalog : Catalog}
    {key : String}
    {node : Node}
    (isParsed : IsParsed catalog key node) :
    ∃ members,
      node = .group .all members ∧
      (∀ member ∈ members, member.Nested 128) ∧
      ∀ leaf ∈ node.leaves, leaf.IsWellTyped catalog key := by
  rcases isParsed.exists_derivation with ⟨derivation, members, shallow, meaning, rfl⟩
  refine ⟨members, rfl, ?_, fun leaf isLeaf => (isParsed.isMeant leaf isLeaf).isWellTyped⟩
  cases derivation with
  | none =>
      cases meaning
      exact List.forall_mem_nil _
  | some statements => exact Grammar.nested_of_nodes? statements shallow meaning

/-- A text with a group in a group, and with values of all shapes. -/
def nestedText : String :=
  "OR(AND(printed ['1816-xx-xx' => '1818-xx-xx'], title MATCH '^f'), author ANY (1, 2)), " ++
    "author.name NE NULL"

/-- The text is read on the library, so its tree is well typed. -/
theorem nestedText_wellTyped_on_library :
    ∃ catalog members,
      Catalog.build library = .ok catalog ∧
      parseText catalog "book" nestedText = .ok (.group .all members) ∧
      (∀ member ∈ members, member.Nested 128) ∧
      (Node.listLeaves members).map Leaf.operator =
        [.between, .compare .regex, .any, .compare .ne] ∧
      ∀ leaf ∈ Node.listLeaves members, leaf.IsWellTyped catalog "book" := by
  have checked :
      ((Catalog.build library).toOption.any fun catalog =>
        (parseText catalog "book" nestedText).toOption.any fun node =>
          node.leaves.map Leaf.operator == [.between, .compare .regex, .any, .compare .ne]) =
          true := by
    decide +kernel
  simp only [Option.any_eq_true, toOption_eq_some_iff, beq_iff_eq] at checked
  obtain ⟨catalog, built, node, parsed, operators⟩ := checked
  obtain ⟨members, rfl, nested, wellTyped⟩ := IsParsed.wellTyped (.inl ⟨nestedText, parsed⟩)
  exact ⟨catalog, members, built, parsed, nested, operators, wellTyped⟩

end ClassStore.Search
