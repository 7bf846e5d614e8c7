import ClassStore.Proofs.Condition.Meaning
import ClassStore.Proofs.Grammar.Acceptance
import ClassStore.Proofs.Query.Placeholders
import ClassStore.Proofs.Token.Seam

/-!
# Searches joined by a comma

A comma between two search texts stands for AND.  The tokens of the texts are
delivered one after the other, the derivation of the second continues that of
the first, and the outermost group, which is written without parentheses, holds
the statements of both.  `searchText_comma` says what this comes to for the
condition and the values of the joined search.
-/

namespace ClassStore.Search.Grammar

open ClassStore.Catalog

/-! ## Derivations -/

/-- The statements followed by a comma and by others, if there are any. -/
def Members.joined : Members → Option Members → Members
  | .last statement _, none => .last statement true
  | .last statement _, some others => .cons statement others
  | .cons statement members, others => .cons statement (members.joined others)

/-- Statements that do not end in a comma are joined by one. -/
theorem Members.tokens_joined
    (members : Members)
    (others : Option Members)
    (unended : members.tokens.getLast? ≠ some Token.comma) :
    (members.joined others).tokens = members.tokens ++ Token.comma :: tokensOf others := by
  cases members with
  | last statement comma =>
      cases comma with
      | true => simp [Members.tokens, optionally] at unended
      | false => cases others <;> simp [Members.joined, Members.tokens, optionally, tokensOf]
  | cons statement members =>
      rcases members.exists_tokens_eq_cons with ⟨token, tokens, shape, -⟩
      have openEnd : members.tokens.getLast? ≠ some Token.comma := by
        simpa [Members.tokens, shape, List.getLast?_append] using unended
      rw [Members.joined, Members.tokens, Members.tokens, tokens_joined members others openEnd,
        List.append_assoc, List.cons_append]

theorem Members.depth_joined
    (members : Members)
    (others : Option Members) :
    (members.joined others).depth = max members.depth (depthOf others) := by
  cases members with
  | last statement comma =>
      cases others with
      | none => simp [Members.joined, Members.depth, depthOf]
      | some others => rfl
  | cons statement members =>
      rw [Members.joined, Members.depth, Members.depth, depth_joined members others, Nat.max_assoc]

/-- Joined statements mean what both mean, one after the other. -/
theorem Members.nodes?_joined
    {catalog : Catalog}
    {key : String}
    (members : Members)
    {others : Option Members}
    {nodes otherNodes : List Node}
    (meaning : members.nodes? catalog key = some nodes)
    (otherMeaning : nodesOf? catalog key others = some otherNodes) :
    (members.joined others).nodes? catalog key = some (nodes ++ otherNodes) := by
  cases members with
  | last statement comma =>
      rcases Members.nodes?_last_eq_some_iff.mp meaning with ⟨node, nodeMeaning, rfl⟩
      cases others with
      | none =>
          cases otherMeaning
          exact Members.nodes?_last_eq_some_iff.mpr ⟨node, nodeMeaning, rfl⟩
      | some others =>
          exact Members.nodes?_cons_eq_some_iff.mpr
            ⟨node, otherNodes, nodeMeaning, otherMeaning, rfl⟩
  | cons statement members =>
      rcases Members.nodes?_cons_eq_some_iff.mp meaning with
        ⟨node, rest, nodeMeaning, restMeaning, rfl⟩
      exact Members.nodes?_cons_eq_some_iff.mpr
        ⟨node, rest ++ otherNodes, nodeMeaning, nodes?_joined members restMeaning otherMeaning, rfl⟩

end ClassStore.Search.Grammar

namespace ClassStore.Search

open ClassStore.Catalog
open Grammar

/-! ## Texts -/

/-- A text is read as a search if its tokens have a derivation with a meaning. -/
theorem parseText_eq_ok_iff
    {catalog : Catalog}
    {key text : String}
    {node : Node} :
    parseText catalog key text = .ok node ↔
      (catalog.find? key).isSome ∧
        ∃ derivation nodes,
          TokenStream.ofText text = ⟨tokensOf derivation, none⟩ ∧
          depthOf derivation ≤ maxDepth ∧
          nodesOf? catalog key derivation = some nodes ∧
          node = .group .all nodes := by
  rw [parseText, parse_eq_ok_iff_whole]
  refine and_congr_right fun _ => ?_
  constructor
  · rintro ⟨nodes, read, rfl⟩
    have terminal : ∀ token ∈ (TokenStream.ofText text).tokens, token.Terminal :=
      fun token isToken => (show token.IsDelivered from .inl ⟨text, isToken⟩).terminal
    rcases whole_sound terminal read with ⟨unfailing, derivation, yields, shallow, meaning⟩
    have stream : TokenStream.ofText text = ⟨tokensOf derivation, none⟩ := by
      rw [yields, ← unfailing]
    exact ⟨derivation, nodes, stream, shallow, meaning, rfl⟩
  · rintro ⟨derivation, nodes, stream, shallow, meaning, rfl⟩
    refine ⟨nodes, ?_, rfl⟩
    rw [stream]
    exact whole_complete rfl shallow meaning

/-- A comma between two searches joins their statements. -/
theorem parseText_comma
    {catalog : Catalog}
    {key front back : String}
    {nodes others : List Node}
    (frontParsed : parseText catalog key front = .ok (.group .all nodes))
    (backParsed : parseText catalog key back = .ok (.group .all others))
    (nonempty : nodes ≠ [])
    (unended : (TokenStream.ofText front).tokens.getLast? ≠ some Token.comma) :
    parseText catalog key (front ++ "," ++ back) = .ok (.group .all (nodes ++ others)) := by
  rcases parseText_eq_ok_iff.mp frontParsed with
    ⟨known, derivation, _, stream, shallow, meaning, same⟩
  rcases parseText_eq_ok_iff.mp backParsed with
    ⟨_, otherDerivation, _, otherStream, otherShallow, otherMeaning, otherSame⟩
  cases same
  cases otherSame
  cases derivation with
  | none =>
      cases meaning
      exact absurd rfl nonempty
  | some members =>
      rw [stream] at unended
      refine parseText_eq_ok_iff.mpr
        ⟨known, some (members.joined otherDerivation), nodes ++ others, ?_, ?_, ?_, rfl⟩
      · rw [Scanner.ofText_comma stream otherStream, tokensOf, tokensOf,
          members.tokens_joined otherDerivation unended]
      · rw [depthOf, members.depth_joined otherDerivation]
        exact Nat.max_le.mpr ⟨shallow, otherShallow⟩
      · exact members.nodes?_joined meaning otherMeaning

end ClassStore.Search

namespace ClassStore.Query

open ClassStore.Catalog
open ClassStore.Search
open Compiling

/-! ## Conditions -/

/-- Trees side by side are compiled one after the other. -/
theorem compileMembers_append
    {target : Target}
    {nodes others : List Node}
    {fragments otherFragments : List Fragment}
    (compiled : (target.compileMembers nodes).result = .ok fragments)
    (othersCompiled : (target.compileMembers others).result = .ok otherFragments) :
    (target.compileMembers (nodes ++ others)).result = .ok (fragments ++ otherFragments) ∧
      (target.compileMembers (nodes ++ others)).binds =
        (target.compileMembers nodes).binds ++ (target.compileMembers others).binds := by
  induction nodes generalizing fragments with
  | nil =>
      cases compiled
      exact ⟨othersCompiled, rfl⟩
  | cons node nodes inductionHypothesis =>
      rcases result_compileMembers_cons_eq_ok compiled with
        ⟨fragment?, rest, first, restCompiled, rfl⟩
      rcases inductionHypothesis restCompiled with ⟨result, binds⟩
      rw [List.cons_append]
      constructor
      · rw [result_compileMembers_cons, first, result, List.append_assoc]
        rfl
      · rw [binds_compileMembers_cons first result, binds_compileMembers_cons first restCompiled,
          binds, List.append_assoc]

/-- The outermost group is written as its members, joined by AND. -/
theorem conditionText_groupFragment?
    (backend : Backend)
    (fragments : List Fragment) :
    conditionText backend (groupFragment? .all false fragments) =
      String.intercalate " AND " (fragments.map (Fragment.sql backend)) := by
  cases fragments with
  | nil => simp [groupFragment?, conditionText]
  | cons fragment fragments =>
      rw [← Fragment.sqls_eq_map]
      rfl

/-- Without constraints a search is compiled into its statements with AND, and their values. -/
theorem compile_none_eq_ok_iff
    {backend : Backend}
    {catalog : Catalog}
    {key : String}
    {nodes : List Node}
    {compiled : Compiled} :
    compile backend catalog key (.group .all nodes) Constraints.none = .ok compiled ↔
      ∃ fragments,
        (Target.compileMembers ⟨backend, catalog, key⟩ nodes).result = .ok fragments ∧
        compiled =
          ⟨String.intercalate " AND " (fragments.map (Fragment.sql backend)), "", "",
            (Target.compileMembers ⟨backend, catalog, key⟩ nodes).binds⟩ := by
  have ordered : Target.orderClause ⟨backend, catalog, key⟩ Constraints.none = .ok "" := rfl
  have limited : limitClause backend Constraints.none = pure "" := rfl
  have noBinds : (pure "" : Compiling String).binds = [] := rfl
  rw [compile_eq, result_compileNode_group]
  cases outcome : (Target.compileMembers ⟨backend, catalog, key⟩ nodes).result with
  | error error => simp [Except.map, Except.bind]
  | ok fragments =>
      rw [binds_compileNode_group outcome, ordered, limited, noBinds, List.append_nil]
      simp only [Except.map, Except.bind, conditionText_groupFragment?]
      simp [eq_comm, Compiling.result]

/-! ## Joined searches -/

/-- The leaves of the search that a text is read as, none if it is not read as one. -/
def textLeaves (catalog : Catalog) (key text : String) : List Leaf :=
  match parseText catalog key text with
  | .ok node => node.leaves
  | .error _ => []

/-- A text that is searched for without constraints, as its statements and their fragments. -/
theorem statements_of_searchText
    {backend : Backend}
    {catalog : Catalog}
    {key text : String}
    {compiled : Compiled}
    (searched : searchText backend catalog key text Constraints.none = .ok compiled) :
    ∃ nodes fragments,
      parseText catalog key text = .ok (.group .all nodes) ∧
      (Target.compileMembers ⟨backend, catalog, key⟩ nodes).result = .ok fragments ∧
      compiled =
        ⟨String.intercalate " AND " (fragments.map (Fragment.sql backend)), "", "",
          (Target.compileMembers ⟨backend, catalog, key⟩ nodes).binds⟩ ∧
      (textLeaves catalog key text = [] ↔ fragments = []) := by
  rw [searchText] at searched
  cases parsed : parseText catalog key text with
  | error error =>
      rw [parsed] at searched
      cases searched
  | ok node =>
      rcases parseText_eq_ok_iff.mp parsed with ⟨_, _, nodes, _, _, _, rfl⟩
      rw [parsed, compileParsed] at searched
      cases outcome : compile backend catalog key (.group .all nodes) Constraints.none with
      | error error =>
          rw [outcome] at searched
          cases searched
      | ok output =>
          rw [outcome] at searched
          cases searched
          rcases compile_none_eq_ok_iff.mp outcome with ⟨fragments, membersCompiled, same⟩
          have demands := listLeaves_eq_nil_iff_of_compileMembers nodes membersCompiled
          refine ⟨nodes, fragments, rfl, membersCompiled, same, ?_⟩
          simp only [textLeaves, parsed, Node.leaves]
          exact demands

/--
Joining searches by a comma is conjunction.

If two texts are searched for without constraints, the first one contains a search
and does not end in a comma, then the texts with a comma in between are searched for.
The condition is that of the first text and, if the second one contains a search,
that of the second, joined by AND; the values of the first text come first.
-/
theorem searchText_comma
    {backend : Backend}
    {catalog : Catalog}
    {key front back : String}
    {frontCompiled backCompiled : Compiled}
    (frontSearched :
      searchText backend catalog key front Constraints.none = .ok frontCompiled)
    (backSearched :
      searchText backend catalog key back Constraints.none = .ok backCompiled)
    (demanding : textLeaves catalog key front ≠ [])
    (unended : (TokenStream.ofText front).tokens.getLast? ≠ some Token.comma) :
    searchText backend catalog key (front ++ "," ++ back) Constraints.none =
      .ok
        { whereClause :=
            if textLeaves catalog key back = [] then
              frontCompiled.whereClause
            else
              frontCompiled.whereClause ++ " AND " ++ backCompiled.whereClause
          orderClause := ""
          limitClause := ""
          binds := frontCompiled.binds ++ backCompiled.binds } := by
  rcases statements_of_searchText frontSearched with
    ⟨nodes, fragments, frontParsed, frontResult, rfl, frontDemands⟩
  rcases statements_of_searchText backSearched with
    ⟨others, otherFragments, backParsed, backResult, rfl, backDemands⟩
  have nonempty : fragments ≠ [] := fun none => demanding (frontDemands.mpr none)
  have nodesNonempty : nodes ≠ [] := by
    rintro rfl
    cases frontResult
    exact nonempty rfl
  have parsed := parseText_comma frontParsed backParsed nodesNonempty unended
  rcases compileMembers_append frontResult backResult with ⟨result, binds⟩
  have compiled := compile_none_eq_ok_iff.mpr ⟨_, result, rfl⟩
  rw [searchText, parsed, compileParsed, compiled, binds, List.map_append]
  by_cases silent : otherFragments = []
  · rw [if_pos (backDemands.mpr silent), silent, List.map_nil, List.append_nil]
    rfl
  · rw [if_neg (fun none => silent (backDemands.mp none)),
      String.intercalate_append_of_ne_nil (by simpa using nonempty) (by simpa using silent)]
    rfl

/-- A search that ends in a number and one that begins with a word are joined in between. -/
theorem joined_searches_on_library :
    ∃ catalog,
      Catalog.build library = .ok catalog ∧
      searchText .sqlite catalog "book" ("author => GE 7" ++ "," ++ "author.name LIKE 'b%',")
        Constraints.none =
        .ok ⟨"author__id >= ? AND LOWER(author__person__name) LIKE LOWER(?)", "", "",
          [.integer 7, .string "b%"]⟩ := by
  have checked : ((Catalog.build library).toOption.any fun catalog =>
      searchText .sqlite catalog "book" "author => GE 7" Constraints.none ==
          .ok ⟨"author__id >= ?", "", "", [.integer 7]⟩ &&
        searchText .sqlite catalog "book" "author.name LIKE 'b%'," Constraints.none ==
          .ok ⟨"LOWER(author__person__name) LIKE LOWER(?)", "", "", [.string "b%"]⟩ &&
        !(textLeaves catalog "book" "author => GE 7").isEmpty &&
        !(textLeaves catalog "book" "author.name LIKE 'b%',").isEmpty) = true := by
    decide +kernel
  have unended : (TokenStream.ofText "author => GE 7").tokens.getLast? ≠ some Token.comma := by
    decide +kernel
  simp only [Option.any_eq_true, toOption_eq_some_iff, Bool.and_eq_true, beq_iff_eq,
    Bool.not_eq_true', List.isEmpty_eq_false_iff] at checked
  rcases checked with ⟨catalog, built, ⟨⟨front, back⟩, demanding⟩, backDemanding⟩
  have joined := searchText_comma front back demanding unended
  rw [if_neg backDemanding] at joined
  exact ⟨catalog, built, joined⟩

end ClassStore.Query
