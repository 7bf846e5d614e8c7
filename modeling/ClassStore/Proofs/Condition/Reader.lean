import ClassStore.Proofs.Condition.Lexeme
import ClassStore.Search.Node

/-!
# Conditions read back from their text

A condition is read lexeme by lexeme under the precedence of SQL: parentheses
open a level of their own, the AND of a BETWEEN belongs to it, and AND binds
tighter than OR.  A parenthesis is a group where a member of a group has to
begin; anywhere else it belongs to the comparison that is being read.  The whole
text is a group as well, so a single comparison is its only member.
-/

namespace ClassStore.Search

/-- The truth of a group whose members have the given truths. -/
def Combinator.fold : Combinator → List Bool → Bool
  | .all, truths => truths.all id
  | .any, truths => truths.any id

/-- The combinator of a group as it can be seen; one member needs none. -/
def Combinator.visible {Member : Type} (combinator : Combinator) : List Member → Combinator
  | [_] => .all
  | _ => combinator

mutual

/-- The shape with the visible combinators. -/
def Shape.normal : Shape → Shape
  | .leaf => .leaf
  | .group combinator members =>
      .group (combinator.visible members) (Shape.listNormal members)

/-- The shapes with the visible combinators. -/
def Shape.listNormal : List Shape → List Shape
  | [] => []
  | shape :: shapes => shape.normal :: Shape.listNormal shapes

end

end ClassStore.Search

namespace ClassStore.Query

open ClassStore.Search

/-- A condition as it is understood: comparisons, combined in groups. -/
inductive Condition where
  | comparison (lexemes : List Lexeme)
  | group (combinator : Combinator) (members : List Condition)

/-! ## Meaning and form of a condition -/

namespace Condition

mutual

/-- The number of comparisons in a condition. -/
def size : Condition → Nat
  | .comparison _ => 1
  | .group _ members => listSize members

/-- The number of comparisons in conditions. -/
def listSize : List Condition → Nat
  | [] => 0
  | condition :: conditions => condition.size + listSize conditions

end

mutual

/--
The truth of a condition, given which comparisons hold.

A comparison is known by its number, counted from `first` on, and its lexemes,
so that comparisons written alike need not hold together.
-/
def holds (truth : Nat → List Lexeme → Bool) (first : Nat) : Condition → Bool
  | .comparison lexemes => truth first lexemes
  | .group combinator members => combinator.fold (listHolds truth first members)

/-- The truths of conditions one after the other. -/
def listHolds (truth : Nat → List Lexeme → Bool) (first : Nat) : List Condition → List Bool
  | [] => []
  | condition :: conditions =>
      condition.holds truth first :: listHolds truth (first + condition.size) conditions

end

mutual

/-- The groups of a condition without what the comparisons compare. -/
def shape : Condition → Shape
  | .comparison _ => .leaf
  | .group combinator members => .group combinator (listShape members)

/-- The groups of conditions. -/
def listShape : List Condition → List Shape
  | [] => []
  | condition :: conditions => condition.shape :: listShape conditions

end

end Condition

mutual

/-- The condition with the visible combinators. -/
def Condition.normal : Condition → Condition
  | .comparison lexemes => .comparison lexemes
  | .group combinator members =>
      .group (combinator.visible members) (Condition.listNormal members)

/-- The conditions with the visible combinators. -/
def Condition.listNormal : List Condition → List Condition
  | [] => []
  | condition :: conditions => condition.normal :: Condition.listNormal conditions

end

/-! ## The reader -/

/-- The conjunctions on one level of parentheses; all but the last are finished. -/
structure Level where
  finished : List (List Condition)
  conjunction : List Condition

/-- What is being read on a level. -/
inductive Member where
  | awaited
  | comparing (lexemes : List Lexeme) (depth : Nat) (bounding : Bool)
  | complete (condition : Condition)

/-- The levels that are open, and what is being read on the innermost one. -/
structure Reader where
  outer : List Level
  level : Level
  member : Member

/-- Nothing has been read on a level. -/
def Level.empty : Level :=
  ⟨[], []⟩

/-- Adds a condition to the conjunction that is being read. -/
def Level.add (level : Level) (condition : Condition) : Level :=
  { level with conjunction := level.conjunction ++ [condition] }

/-- Finishes the conjunction that is being read and begins another one. -/
def Level.alternate (level : Level) : Level :=
  ⟨level.finished ++ [level.conjunction], []⟩

/-- A conjunction among others. -/
def Level.conjoined : List Condition → Condition
  | [condition] => condition
  | conditions => .group .all conditions

/-- The condition of a level that is finished. -/
def Level.condition (level : Level) : Condition :=
  match level.finished with
  | [] => .group .all level.conjunction
  | finished => .group .any ((finished ++ [level.conjunction]).map Level.conjoined)

namespace Member

/-- The condition that has been read, if it may end here. -/
def condition? : Member → Option Condition
  | .comparing lexemes 0 false => some (.comparison lexemes)
  | .complete condition => some condition
  | _ => none

/-- The depth of the parentheses of a comparison behind one of its lexemes. -/
def depthBehind (depth : Nat) (lexeme : Lexeme) : Nat :=
  if lexeme = .mark '(' then depth + 1 else if lexeme = .mark ')' then depth - 1 else depth

/-- The comparison with one more lexeme, unless the lexeme does not belong to it. -/
def extend? : Member → Lexeme → Option Member
  | .awaited, lexeme =>
      if lexeme = .mark '(' ∨ lexeme = .mark ')' ∨ lexeme = .mark ',' then
        none
      else
        some (.comparing [lexeme] 0 false)
  | .comparing lexemes (depth + 1) bounding, lexeme =>
      some (.comparing (lexemes ++ [lexeme]) (depthBehind (depth + 1) lexeme) bounding)
  | .comparing lexemes 0 bounding, lexeme =>
      if lexeme = Lexeme.ofWord "BETWEEN" then
        some (.comparing (lexemes ++ [lexeme]) 0 true)
      else if lexeme = Lexeme.ofWord "AND" then
        if bounding then some (.comparing (lexemes ++ [lexeme]) 0 false) else none
      else if lexeme = Lexeme.ofWord "OR" ∨ lexeme = .mark ')' then
        none
      else
        some (.comparing (lexemes ++ [lexeme]) (depthBehind 0 lexeme) bounding)
  | .complete _, _ => none

end Member

namespace Reader

/-- Nothing has been read. -/
def start : Reader :=
  ⟨[], .empty, .awaited⟩

/-- Reads a lexeme that stands behind a member of a group. -/
def connect (reader : Reader) (lexeme : Lexeme) : Option Reader :=
  match reader.member.condition? with
  | none => none
  | some condition =>
      if lexeme = Lexeme.ofWord "AND" then
        some { reader with level := reader.level.add condition, member := .awaited }
      else if lexeme = Lexeme.ofWord "OR" then
        some { reader with level := (reader.level.add condition).alternate, member := .awaited }
      else if lexeme = .mark ')' then
        match reader.outer with
        | [] => none
        | enclosing :: outer =>
            some ⟨outer, enclosing, .complete (reader.level.add condition).condition⟩
      else
        none

/-- Reads a lexeme. -/
def next (reader : Reader) (lexeme : Lexeme) : Option Reader :=
  match reader.member.extend? lexeme with
  | some member => some { reader with member := member }
  | none =>
      match reader.member with
      | .awaited =>
          if lexeme = .mark '(' then
            some ⟨reader.level :: reader.outer, .empty, .awaited⟩
          else
            none
      | _ => reader.connect lexeme

/-- Reads lexemes one after the other. -/
def feed (reader : Reader) (lexemes : List Lexeme) : Option Reader :=
  lexemes.foldlM next reader

/-- The condition that has been read, if the text may end here. -/
def finish (reader : Reader) : Option Condition :=
  match reader.outer with
  | [] => reader.member.condition?.map fun condition => (reader.level.add condition).condition
  | _ => none

end Reader

/-- The condition that a text stands for, if it stands for one. -/
def readCondition (text : String) : Option Condition :=
  (Reader.start.feed (Lexeme.ofText text)).bind Reader.finish

end ClassStore.Query
