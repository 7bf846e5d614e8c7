import ClassStore.Proofs.Catalog.Columns
import ClassStore.Proofs.Condition.Comparison
import ClassStore.Proofs.Condition.Meaning

/-!
# Groups read back

The text of a search is read as the groups that it was compiled from.  Between
parentheses, and in the whole text, the members of a group are read one after
the other; AND adds to the conjunction that is being read and OR begins another
one, so the level is the group again.  `readCondition_whereClause` says that the
meaning and the nesting of a tree survive in its text.
-/

namespace ClassStore.Query

open ClassStore.Catalog
open ClassStore.Search
open Compiling
open Lexeme

/-! ## Reading the members of a group -/

namespace Level

/-- Adds a condition and what stands between it and the next one of the group. -/
def join (combinator : Combinator) (level : Level) (condition : Condition) : Level :=
  match combinator with
  | .all => level.add condition
  | .any => (level.add condition).alternate

/-- Adds the members of a group. -/
def addAll (combinator : Combinator) (level : Level) : List Condition → Level
  | [] => level
  | [condition] => level.add condition
  | condition :: conditions => addAll combinator (level.join combinator condition) conditions

/-- A conjunction grows by all of its members. -/
theorem addAll_all
    (level : Level)
    (conditions : List Condition) :
    level.addAll .all conditions = ⟨level.finished, level.conjunction ++ conditions⟩ := by
  induction conditions generalizing level with
  | nil => simp [addAll]
  | cons condition conditions inductionHypothesis =>
      cases conditions with
      | nil => rfl
      | cons following conditions =>
          rw [addAll, inductionHypothesis]
          · simp [join, add]
          · simp

/-- Alternatives become conjunctions of one member each. -/
theorem addAll_any
    (finished : List (List Condition))
    {conditions : List Condition}
    (nonempty : conditions ≠ []) :
    let level := Level.addAll .any ⟨finished, []⟩ conditions
    level.finished ++ [level.conjunction] = finished ++ conditions.map ([·]) := by
  induction conditions generalizing finished with
  | nil => exact absurd rfl nonempty
  | cons condition conditions inductionHypothesis =>
      cases conditions with
      | nil => simp [addAll, add]
      | cons following conditions =>
          have others := inductionHypothesis (finished ++ [[condition]]) (by simp)
          simpa [addAll, join, add, alternate] using others

theorem condition_of_finished_ne_nil
    {level : Level}
    (several : level.finished ≠ []) :
    level.condition =
      .group .any ((level.finished ++ [level.conjunction]).map conjoined) := by
  rw [condition]
  split
  · next none => exact absurd none several
  · rfl

/-- The members of a group, added to a level of their own, are the group again. -/
theorem condition_addAll_empty
    (combinator : Combinator)
    {conditions : List Condition}
    (nonempty : conditions ≠ []) :
    (Level.empty.addAll combinator conditions).condition =
      .group (combinator.visible conditions) conditions := by
  cases combinator with
  | all =>
      have visible : Combinator.visible .all conditions = .all := by
        unfold Combinator.visible
        split <;> rfl
      rw [addAll_all, visible]
      simp [condition, empty]
  | any =>
      have added := addAll_any [] nonempty
      rcases conditions with _ | ⟨first, _ | ⟨second, conditions⟩⟩
      · exact absurd rfl nonempty
      · rfl
      · have several : (Level.addAll .any ⟨[], []⟩ (first :: second :: conditions)).finished ≠
            [] := by
          intro none
          have lengths := congrArg List.length added
          simp [none] at lengths
        rw [empty, condition_of_finished_ne_nil several, added, List.nil_append,
          List.map_map, Combinator.visible]
        · simp [Function.comp_def, conjoined]
        · simp

end Level

/-- A member that may end is a comparison outside of parentheses or a finished group. -/
theorem Member.condition?_eq_some
    {member : Member}
    {condition : Condition}
    (finished : member.condition? = some condition) :
    (∃ lexemes, member = .comparing lexemes 0 false) ∨ member = .complete condition := by
  unfold Member.condition? at finished
  split at finished
  · exact Or.inl ⟨_, rfl⟩
  · exact Or.inr (by rw [Option.some.inj finished])
  · cases finished

namespace Reader

theorem feed_append
    (reader : Reader)
    (front back : List Lexeme) :
    reader.feed (front ++ back) = (reader.feed front).bind fun middle => middle.feed back := by
  simp [feed, List.foldlM_append]

/-- Lexemes of one comparison change nothing but the comparison. -/
theorem feed_of_run
    {member following : Member}
    {lexemes : List Lexeme}
    (run : member.run? lexemes = some following)
    (outer : List Level)
    (level : Level) :
    feed ⟨outer, level, member⟩ lexemes = some ⟨outer, level, following⟩ := by
  induction lexemes generalizing member with
  | nil =>
      simp only [Member.run?_nil, Option.some.injEq] at run
      rw [run]
      rfl
  | cons lexeme lexemes inductionHypothesis =>
      simp only [Member.run?, List.foldlM_cons, Option.bind_eq_bind, Option.bind_eq_some_iff]
        at run
      rcases run with ⟨between, extended, others⟩
      have step : next ⟨outer, level, member⟩ lexeme = some ⟨outer, level, between⟩ := by
        simp [next, extended]
      simp only [feed, List.foldlM_cons, step]
      exact inductionHypothesis others

/-- A word between members ends one of them and lets another one begin. -/
theorem next_word
    {member : Member}
    {condition : Condition}
    (finished : member.condition? = some condition)
    (outer : List Level)
    (level : Level)
    (combinator : Combinator) :
    next ⟨outer, level, member⟩ (ofWord combinator.word) =
      some ⟨outer, level.join combinator condition, .awaited⟩ := by
  have between : member.extend? (ofWord combinator.word) = none := by
    rcases Member.condition?_eq_some finished with ⟨lexemes, rfl⟩ | rfl
    · cases combinator <;> simp [Member.extend?, ofWord, Combinator.word]
    · rfl
  have connected : next ⟨outer, level, member⟩ (ofWord combinator.word) =
      connect ⟨outer, level, member⟩ (ofWord combinator.word) := by
    simp only [next, between]
    rcases Member.condition?_eq_some finished with ⟨lexemes, rfl⟩ | rfl <;> rfl
  rw [connected]
  cases combinator <;> simp [connect, finished, ofWord, Combinator.word, Level.join]

/-- A closing parenthesis makes the level a member of the enclosing one. -/
theorem next_closing
    {member : Member}
    {condition : Condition}
    (finished : member.condition? = some condition)
    (outer : List Level)
    (enclosing level : Level) :
    next ⟨enclosing :: outer, level, member⟩ (.mark ')') =
      some ⟨outer, enclosing, .complete (level.add condition).condition⟩ := by
  have between : member.extend? (.mark ')') = none := by
    rcases Member.condition?_eq_some finished with ⟨lexemes, rfl⟩ | rfl
    · simp [Member.extend?, ofWord]
    · rfl
  have connected : next ⟨enclosing :: outer, level, member⟩ (.mark ')') =
      connect ⟨enclosing :: outer, level, member⟩ (.mark ')') := by
    simp only [next, between]
    rcases Member.condition?_eq_some finished with ⟨lexemes, rfl⟩ | rfl <;> rfl
  rw [connected]
  simp [connect, finished, ofWord]

end Reader

/-! ## Reading a tree -/

/--
The text of a fragment is read as a member of a group, with the meaning of the
fragment.
-/
def Fragment.Understood (backend : Backend) (fragment : Fragment) : Prop :=
  Readable (fragment.sql backend) ∧
    ∃ member : Member,
      member.condition? = some (fragment.condition backend).normal ∧
      ∀ outer level,
        Reader.feed ⟨outer, level, .awaited⟩ (ofText (fragment.sql backend)) =
          some ⟨outer, level, member⟩

/-- The lexemes of the members of a group. -/
def memberLexemes (backend : Backend) (combinator : Combinator) (members : List Fragment) :
    List Lexeme :=
  List.intercalate [ofWord combinator.word]
    (members.map fun member => ofText (member.sql backend))

theorem reads_members
    {backend : Backend}
    (combinator : Combinator)
    {members : List Fragment}
    (understood : ∀ member ∈ members, member.Understood backend) :
    Reads
      (String.intercalate (Fragment.separator combinator)
        (Fragment.sqls backend members)).toList
      (memberLexemes backend combinator members) := by
  have joins : Joins (Fragment.separator combinator) [ofWord combinator.word] :=
    joins_word combinator.word (by cases combinator <;> decide)
  have readable : ∀ text ∈ Fragment.sqls backend members, Readable text := by
    intro text isText
    rw [Fragment.sqls_eq_map] at isText
    rcases List.mem_map.mp isText with ⟨member, isMember, rfl⟩
    exact (understood member isMember).1
  have reads := reads_intercalate joins readable
  rw [Fragment.sqls_eq_map, List.map_map] at reads
  rw [Fragment.sqls_eq_map]
  exact reads

/-- The members of a group are added to the level that they are read on. -/
theorem feed_members
    {backend : Backend}
    (combinator : Combinator)
    {members : List Fragment}
    (understood : ∀ member ∈ members, member.Understood backend)
    (nonempty : members ≠ [])
    (outer : List Level)
    (level : Level) :
    ∃ before last condition,
      Reader.feed ⟨outer, level, .awaited⟩ (memberLexemes backend combinator members) =
        some ⟨outer, before, last⟩ ∧
      last.condition? = some condition ∧
      before.add condition =
        level.addAll combinator
          (members.map fun member => (member.condition backend).normal) := by
  induction members generalizing level with
  | nil => exact absurd rfl nonempty
  | cons member members inductionHypothesis =>
      rcases understood member List.mem_cons_self with ⟨_, last, finished, read⟩
      cases members with
      | nil =>
          refine ⟨level, last, _, ?_, finished, rfl⟩
          simpa [memberLexemes] using read outer level
      | cons following members =>
          have others := inductionHypothesis
            (fun other isMember => understood other (List.mem_cons_of_mem _ isMember))
            (by simp) (level.join combinator (member.condition backend).normal)
          rcases others with ⟨before, lastOfAll, condition, readOthers, finishedOthers, added⟩
          refine ⟨before, lastOfAll, condition, ?_, finishedOthers, added⟩
          have lexemes : memberLexemes backend combinator (member :: following :: members) =
              ofText (member.sql backend) ++ ([ofWord combinator.word] ++
                memberLexemes backend combinator (following :: members)) := by
            simp [memberLexemes]
          have word : Reader.feed ⟨outer, level, last⟩ [ofWord combinator.word] =
              some ⟨outer, level.join combinator (member.condition backend).normal,
                .awaited⟩ := by
            simp [Reader.feed, Reader.next_word finished]
          rw [lexemes, Reader.feed_append, read, Option.bind_some, Reader.feed_append, word,
            Option.bind_some, readOthers]

theorem Fragment.normal_condition_group
    (backend : Backend)
    (combinator : Combinator)
    (members : List Fragment)
    (parenthesized : Bool) :
    ((Fragment.group combinator members parenthesized).condition backend).normal =
      .group
        (combinator.visible (members.map fun member => (member.condition backend).normal))
        (members.map fun member => (member.condition backend).normal) := by
  rw [Fragment.condition, Fragment.conditions_eq_map, Condition.normal,
    Condition.listNormal_eq_map, List.map_map, Combinator.visible_map, Combinator.visible_map]
  rfl

/-- A group between parentheses is read as a member. -/
theorem Fragment.understood_group
    {backend : Backend}
    (combinator : Combinator)
    {members : List Fragment}
    (understood : ∀ member ∈ members, member.Understood backend)
    (nonempty : members ≠ []) :
    (Fragment.group combinator members true).Understood backend := by
  have reads : Reads ((Fragment.group combinator members true).sql backend).toList
      (.mark '(' :: (memberLexemes backend combinator members ++ [.mark ')'])) := by
    have closed := (reads_members combinator understood).mark ')' rfl Reads.nil
    simpa [Fragment.sql] using Reads.nil.mark '(' rfl closed
  refine ⟨reads.readable, .complete _, rfl, ?_⟩
  intro outer level
  rcases feed_members combinator understood nonempty (level :: outer) Level.empty with
    ⟨before, last, condition, read, finished, added⟩
  have opening : Reader.feed ⟨outer, level, .awaited⟩ [.mark '('] =
      some ⟨level :: outer, .empty, .awaited⟩ := by
    simp [Reader.feed, Reader.next, Member.extend?]
  have closing : Reader.feed ⟨level :: outer, before, last⟩ [.mark ')'] =
      some ⟨outer, level, .complete (before.add condition).condition⟩ := by
    simp [Reader.feed, Reader.next_closing finished]
  have whole : (before.add condition).condition =
      ((Fragment.group combinator members true).condition backend).normal := by
    rw [added, Fragment.normal_condition_group]
    exact Level.condition_addAll_empty combinator (by simpa using nonempty)
  rw [reads.ofText_eq, ← List.singleton_append, Reader.feed_append, opening, Option.bind_some,
    Reader.feed_append, read, Option.bind_some, closing, whole]

theorem Fragment.Comparing.understood
    {column : String}
    {fragment : Fragment}
    (comparing : Fragment.Comparing column fragment)
    (plain : isPlainName column = true)
    (backend : Backend) :
    fragment.Understood backend := by
  rcases begins_comparing backend plain comparing with ⟨readable, run⟩
  refine ⟨readable, .comparing _ 0 false, ?_, Reader.feed_of_run run⟩
  rw [comparing.condition_eq backend]
  rfl

theorem Fragment.OfLeaf.understood
    {column : String}
    {fragment : Fragment}
    (ofLeaf : Fragment.OfLeaf column fragment)
    (plain : isPlainName column = true)
    (backend : Backend) :
    fragment.Understood backend := by
  cases ofLeaf with
  | one comparing => exact comparing.understood plain backend
  | several combinator comparing plural =>
      apply Fragment.understood_group
      · intro member isMember
        exact (comparing member isMember).understood plain backend
      · rintro rfl
        simp at plural

/-- Every column that can be searched on the class of a target has a plain name. -/
def Target.PlainColumns (target : Target) : Prop :=
  ∀ path resolved, target.catalog.resolvePath? target.key path = some resolved →
    isPlainName resolved.column = true

theorem understood_of_compileLeaf
    {target : Target}
    (plain : target.PlainColumns)
    {leaf : Leaf}
    {fragment : Fragment}
    (compiled : (target.compileLeaf leaf).result = .ok fragment) :
    fragment.Understood target.backend := by
  rcases exists_ofLeaf_of_compileLeaf compiled with ⟨resolved, found, ofLeaf⟩
  exact ofLeaf.understood (plain leaf.path resolved found) target.backend

mutual

/-- What a member of a group is compiled into is read with its meaning. -/
theorem understood_of_compileNode
    {target : Target}
    (plain : target.PlainColumns)
    (node : Node)
    {fragment : Fragment}
    (compiled : (target.compileNode true node).result = .ok (some fragment)) :
    fragment.Understood target.backend := by
  cases node with
  | leaf content =>
      rcases result_compileNode_leaf_eq_ok compiled with ⟨ofLeaf, outcome, same⟩
      rw [Option.some.inj same]
      exact understood_of_compileLeaf plain outcome
  | group combinator members =>
      rcases result_compileNode_group_eq_ok compiled with ⟨fragments, outcome, grouped⟩
      rcases groupFragment?_eq_some grouped.symm with ⟨nonempty, rfl⟩
      exact Fragment.understood_group combinator
        (understood_of_compileMembers plain members outcome) nonempty

theorem understood_of_compileMembers
    {target : Target}
    (plain : target.PlainColumns)
    (nodes : List Node)
    {fragments : List Fragment}
    (compiled : (target.compileMembers nodes).result = .ok fragments) :
    ∀ fragment ∈ fragments, fragment.Understood target.backend := by
  cases nodes with
  | nil =>
      cases compiled
      simp
  | cons node nodes =>
      rcases result_compileMembers_cons_eq_ok compiled with
        ⟨fragment?, others, first, rest, rfl⟩
      intro fragment member
      rcases List.mem_append.mp member with ofFirst | ofRest
      · rw [Option.mem_toList] at ofFirst
        rw [ofFirst] at first
        exact understood_of_compileNode plain node first
      · exact understood_of_compileMembers plain nodes rest fragment ofRest

end

/-- The text of a group is read as the group. -/
theorem readCondition_of_compileMembers
    {target : Target}
    (plain : target.PlainColumns)
    (combinator : Combinator)
    {members : List Node}
    {fragments : List Fragment}
    (compiled : (target.compileMembers members).result = .ok fragments)
    (nonempty : fragments ≠ []) :
    readCondition ((Fragment.group combinator fragments false).sql target.backend) =
      some ((Fragment.group combinator fragments false).condition target.backend).normal := by
  have understood := understood_of_compileMembers plain members compiled
  have reads : Reads ((Fragment.group combinator fragments false).sql target.backend).toList
      (memberLexemes target.backend combinator fragments) := by
    simpa [Fragment.sql] using reads_members combinator understood
  rcases feed_members combinator understood nonempty [] Level.empty with
    ⟨before, last, condition, read, finished, added⟩
  have whole : (before.add condition).condition =
      ((Fragment.group combinator fragments false).condition target.backend).normal := by
    rw [added, Fragment.normal_condition_group]
    exact Level.condition_addAll_empty combinator (by simpa using nonempty)
  rw [readCondition, reads.ofText_eq, Reader.start, read, Option.bind_some, Reader.finish,
    finished, Option.map_some, whole]

/-- The text of a tree that demands something is read with its meaning and its groups. -/
theorem readCondition_of_compileNode
    {target : Target}
    (plain : target.PlainColumns)
    (node : Node)
    {fragment : Fragment}
    (compiled : (target.compileNode false node).result = .ok (some fragment)) :
    ∃ condition,
      readCondition (fragment.sql target.backend) = some condition ∧
      (∀ truth,
        condition.holds truth 0 = (fragment.condition target.backend).holds truth 0) ∧
      (node.asGroup.shapeWith target.leafShape).pruned?.map Shape.normal =
        some condition.shape := by
  cases node with
  | leaf content =>
      have members : (target.compileMembers [.leaf content]).result = .ok [fragment] := by
        rcases result_compileNode_leaf_eq_ok compiled with ⟨ofLeaf, outcome, same⟩
        rw [result_compileMembers_cons, result_compileNode_leaf, outcome,
          Option.some.inj same]
        rfl
      have alone : (Fragment.group .all [fragment] false).sql target.backend =
          fragment.sql target.backend := by
        simp [Fragment.sql, Fragment.sqls]
      have read := readCondition_of_compileMembers plain .all members (by simp)
      rw [alone] at read
      refine ⟨_, read, ?_, ?_⟩
      · intro truth
        simp [Condition.holds_normal, Fragment.condition, Fragment.conditions, Condition.holds,
          Condition.listHolds, Combinator.fold]
      · have group : (target.compileNode false (.group .all [.leaf content])).result =
            .ok (some (.group .all [fragment] false)) := by
          rw [result_compileNode_group, members]
          rfl
        have shape := pruned?_shapeWith_of_compileNode _ group
        rw [Node.asGroup, shape, Option.map_some, Option.map_some, Condition.shape_normal]
  | group combinator members =>
      have shape := pruned?_shapeWith_of_compileNode _ compiled
      rcases result_compileNode_group_eq_ok compiled with ⟨fragments, outcome, grouped⟩
      rcases groupFragment?_eq_some grouped.symm with ⟨nonempty, rfl⟩
      refine ⟨_, readCondition_of_compileMembers plain combinator outcome nonempty, ?_, ?_⟩
      · intro truth
        rw [Condition.holds_normal]
      · rw [Node.asGroup, shape, Option.map_some, Option.map_some, Condition.shape_normal]

/--
The condition of a search keeps the meaning of its tree.

It is empty if and only if the tree has no leaf.  Otherwise its text, read under
the precedence of SQL, holds exactly where the tree does, whichever comparisons
hold; and its groups are those of the tree, except that groups without leaves
are missing, the combinator of a single member cannot be seen, and a leaf whose
dates have different segments is a group itself.
-/
theorem readCondition_whereClause
    {backend : Backend}
    {catalog : Catalog}
    {key : String}
    {node : Node}
    {constraints : Constraints}
    {compiled : Compiled}
    (plain : Target.PlainColumns ⟨backend, catalog, key⟩)
    (compiles : compile backend catalog key node constraints = .ok compiled) :
    (compiled.whereClause = "" ↔ node.leaves = []) ∧
    (node.leaves ≠ [] →
      ∃ condition meaning,
        readCondition compiled.whereClause = some condition ∧
        Target.meaning? ⟨backend, catalog, key⟩ node = some meaning ∧
        (∀ truth, condition.holds truth 0 = meaning.holds truth 0) ∧
        (node.asGroup.shapeWith
            (Target.leafShape ⟨backend, catalog, key⟩)).pruned?.map Shape.normal =
          some condition.shape) := by
  rcases clauses_of_compile compiles with ⟨fragment?, outcome, clause, _⟩
  have noLeaf := leaves_eq_nil_iff_of_compileNode node outcome
  have meaning := meaning?_of_compileNode node outcome
  rw [clause]
  cases fragment? with
  | none =>
      constructor
      · simp [conditionText, noLeaf]
      · intro hasLeaf
        exact absurd (noLeaf.mpr rfl) hasLeaf
  | some fragment =>
      rcases readCondition_of_compileNode plain node outcome with
        ⟨condition, read, sameTruth, sameShape⟩
      constructor
      · constructor
        · intro empty
          have unreadable : readCondition "" = none := rfl
          have text : fragment.sql backend = "" := empty
          rw [text, unreadable] at read
          cases read
        · intro nothing
          cases noLeaf.mp nothing
      · intro _
        exact ⟨condition, _, read, meaning, sameTruth, sameShape⟩

/-- Books of a title that were printed in a span of years, or in a year or a month of any year. -/
def alternatives : Node :=
  .group .any
    [.group .all [],
      .group .all
        [.leaf ⟨"title", .compare .like, false, .scalar (.string "a%")⟩,
          .leaf ⟨"printed", .between, false,
            .pair (.date ⟨some 1900, none, none, none, none, none⟩)
              (.date ⟨some 1950, none, none, none, none, none⟩)⟩],
      .leaf ⟨"printed", .any, false,
        .list
          [.date ⟨some 2000, none, none, none, none, none⟩,
            .date ⟨none, some 12, none, none, none, none⟩]⟩]

/-- The alternatives are read with their meaning, whatever holds of the five comparisons. -/
theorem alternatives_read_on_library :
    ∃ catalog condition meaning,
      Catalog.build library = .ok catalog ∧
      readCondition
          ("(LOWER(title) LIKE LOWER(?) AND TO_CHAR(printed, 'YYYY') BETWEEN ? AND ?) OR " ++
            "(TO_CHAR(printed, 'YYYY') IN (?) OR TO_CHAR(printed, 'MM') IN (?))") =
        some condition ∧
      Target.meaning? ⟨.postgres, catalog, "book"⟩ alternatives = some meaning ∧
      ∀ truth, condition.holds truth 0 = meaning.holds truth 0 := by
  rcases exists_wellNamed_library with ⟨catalog, built, wellNamed, columns⟩
  have checked : (match Catalog.build library with
      | .ok catalog =>
          match compile .postgres catalog "book" alternatives Constraints.none with
          | .ok compiled =>
              compiled.whereClause ==
                "(LOWER(title) LIKE LOWER(?) AND TO_CHAR(printed, 'YYYY') BETWEEN ? AND ?) OR " ++
                  "(TO_CHAR(printed, 'YYYY') IN (?) OR TO_CHAR(printed, 'MM') IN (?))"
          | .error _ => false
      | .error _ => false) = true := by
    decide +kernel
  rw [built] at checked
  have plain : Target.PlainColumns ⟨.postgres, catalog, "book"⟩ := by
    intro path resolved resolves
    have isColumn := (wellNamed.exists_resolvePath?_iff "book" resolved.column).mp
      ⟨path, resolved, resolves, rfl⟩
    have allPlain : ∀ column ∈ catalog.viewColumns "book", isPlainName column = true := by
      rw [columns]
      decide +kernel
    exact allPlain resolved.column isColumn
  cases compiles : compile .postgres catalog "book" alternatives Constraints.none with
  | error error => simp [compiles] at checked
  | ok compiled =>
      have text := by simpa only [compiles, beq_iff_eq] using checked
      rcases (readCondition_whereClause plain compiles).2 (by simp [alternatives, Node.leaves,
          Node.listLeaves]) with ⟨condition, meaning, read, demanded, sameTruth, _⟩
      rw [text] at read
      exact ⟨catalog, condition, meaning, built, read, demanded, sameTruth⟩

end ClassStore.Query
