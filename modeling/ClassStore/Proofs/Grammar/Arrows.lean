import Mathlib.Data.List.Basic
import ClassStore.Proofs.Grammar.Derivation

/-!
# Arrows among the tokens of a search

An arrow may stand between a path and its operand, and it separates the values of a list
as a comma does.  `IsArrowPlace` says where one stands, and `commaTrailed` puts a comma
for each arrow in front of the mark that closes a list.

Tokens are read piece by piece.  `Settled` says of a piece that its arrows have places
and that none stands at either end, so that pieces can be put behind each other.  The
values of a list with the mark behind them are such a piece.
-/

namespace ClassStore.Search.Grammar

open ClassStore.Catalog

/-! ## Commas for trailing arrows -/

/-- The token closes the list of BETWEEN or that of ANY. -/
def closesList (token : Token) : Bool :=
  token = Token.mark "]" || token = Token.mark ")"

/-- The tokens with a comma for each arrow in front of a closing mark. -/
def commaTrailed : List Token → List Token
  | [] => []
  | token :: tokens =>
      (if token = Token.arrow ∧ tokens.head?.any closesList then Token.comma else token) ::
        commaTrailed tokens

@[simp]
theorem commaTrailed_nil : commaTrailed [] = [] :=
  rfl

@[simp]
theorem length_commaTrailed (tokens : List Token) :
    (commaTrailed tokens).length = tokens.length := by
  induction tokens with
  | nil => rfl
  | cons token tokens inductionHypothesis =>
      rw [commaTrailed, List.length_cons, List.length_cons, inductionHypothesis]

theorem commaTrailed_cons_of_ne
    {token : Token}
    (noArrow : token ≠ Token.arrow)
    (tokens : List Token) :
    commaTrailed (token :: tokens) = token :: commaTrailed tokens := by
  rw [commaTrailed, if_neg fun isArrow => noArrow isArrow.1]

theorem commaTrailed_arrow_of_closed
    {tokens : List Token}
    (closed : tokens.head?.any closesList = true) :
    commaTrailed (Token.arrow :: tokens) = Token.comma :: commaTrailed tokens := by
  rw [commaTrailed, if_pos ⟨rfl, closed⟩]

theorem commaTrailed_arrow_of_open
    {tokens : List Token}
    (goesOn : tokens.head?.any closesList = false) :
    commaTrailed (Token.arrow :: tokens) = Token.arrow :: commaTrailed tokens := by
  rw [commaTrailed, if_neg fun closed => by simp [goesOn] at closed]

/-- What follows does not matter to tokens that do not end with an arrow. -/
theorem commaTrailed_append
    {front : List Token}
    (ends : front.getLast? ≠ some Token.arrow)
    (back : List Token) :
    commaTrailed (front ++ back) = commaTrailed front ++ commaTrailed back := by
  induction front with
  | nil => rfl
  | cons token front inductionHypothesis =>
      cases front with
      | nil =>
          have noArrow : token ≠ Token.arrow := by simpa using ends
          simp only [List.cons_append, List.nil_append, commaTrailed_cons_of_ne noArrow,
            commaTrailed_nil]
      | cons next front =>
          rw [List.getLast?_cons_cons] at ends
          rw [List.cons_append, commaTrailed, inductionHypothesis ends]
          rfl

theorem head?_commaTrailed
    {tokens : List Token}
    (begins : tokens.head? ≠ some Token.arrow) :
    (commaTrailed tokens).head? = tokens.head? := by
  cases tokens with
  | nil => rfl
  | cons token tokens =>
      have noArrow : token ≠ Token.arrow := by simpa using begins
      rw [commaTrailed_cons_of_ne noArrow]
      rfl

/-! ## Where arrows stand -/

/-- The last of the tokens names what is searched. -/
def BehindPath (before : List Token) : Prop :=
  ∃ path, before.getLast? = some ⟨.identifier, path⟩

def BehindValue (before : List Token) : Prop :=
  ∃ text, before.getLast? = some (valueToken text)

def BeforeValue (after : List Token) : Prop :=
  ∃ text, after.head? = some (valueToken text)

/-- A list is closed by the first of the tokens. -/
def BeforeClosing (after : List Token) : Prop :=
  ∃ token, after.head? = some token ∧ closesList token = true

/-- There is a token, and it closes no list. -/
def BeforeOther (after : List Token) : Prop :=
  ∃ token, after.head? = some token ∧ closesList token = false

/--
A place for an arrow.

An arrow stands between a path and its operand.  In a list it stands between two values,
or between the last value and the closing mark.
-/
def IsArrowPlace (before after : List Token) : Prop :=
  BehindPath before ∧ BeforeOther after ∨
    BehindValue before ∧ (BeforeValue after ∨ BeforeClosing after)

def ArrowsPlaced (tokens : List Token) : Prop :=
  ∀ before after, tokens = before ++ Token.arrow :: after → IsArrowPlace before after

theorem IsArrowPlace.append
    {before after : List Token}
    (place : IsArrowPlace before after)
    (front back : List Token) :
    IsArrowPlace (front ++ before) (after ++ back) := by
  rcases place with ⟨⟨path, behind⟩, other, ahead, goesOn⟩ | ⟨⟨text, behind⟩, ahead⟩
  · exact .inl ⟨⟨path, by simp [List.getLast?_append, behind]⟩,
      other, by simp [List.head?_append, ahead], goesOn⟩
  · refine .inr ⟨⟨text, by simp [List.getLast?_append, behind]⟩, ?_⟩
    rcases ahead with ⟨next, ahead⟩ | ⟨closing, ahead, closes⟩
    · exact .inl ⟨next, by simp [List.head?_append, ahead]⟩
    · exact .inr ⟨closing, by simp [List.head?_append, ahead], closes⟩

theorem arrowsPlaced_nil : ArrowsPlaced [] := by
  intro before after split
  simp at split

theorem ArrowsPlaced.append
    {front back : List Token}
    (frontPlaced : ArrowsPlaced front)
    (backPlaced : ArrowsPlaced back) :
    ArrowsPlaced (front ++ back) := by
  intro before after split
  rcases List.append_eq_append_iff.mp split with ⟨between, rfl, rest⟩ | ⟨between, rfl, rest⟩
  · have place := (backPlaced between after rest).append front []
    rwa [List.append_nil] at place
  · cases between with
    | nil =>
        have place := (backPlaced [] after (by simpa using rest.symm)).append before []
        simpa using place
    | cons token between =>
        simp only [List.cons_append, List.cons.injEq] at rest
        rcases rest with ⟨rfl, rfl⟩
        exact (frontPlaced before between rfl).append [] back

theorem arrowsPlaced_singleton
    {token : Token}
    (noArrow : token ≠ Token.arrow) :
    ArrowsPlaced [token] := by
  intro before after split
  cases before with
  | nil => exact absurd (List.cons.inj split).1 noArrow
  | cons first before => simp at split

theorem ArrowsPlaced.cons
    {token : Token}
    (noArrow : token ≠ Token.arrow)
    {tokens : List Token}
    (placed : ArrowsPlaced tokens) :
    ArrowsPlaced (token :: tokens) :=
  (arrowsPlaced_singleton noArrow).append placed

/-- An arrow is put between a token and what follows, if that is a place for it. -/
theorem ArrowsPlaced.cons_arrow
    {token : Token}
    (noArrow : token ≠ Token.arrow)
    {tokens : List Token}
    (place : IsArrowPlace [token] tokens)
    (placed : ArrowsPlaced tokens) :
    ArrowsPlaced (token :: Token.arrow :: tokens) := by
  intro before after whole
  cases before with
  | nil => exact absurd (List.cons.inj whole).1 noArrow
  | cons first before =>
      rcases List.cons.inj whole with ⟨rfl, others⟩
      cases before with
      | nil =>
          rw [← (List.cons.inj others).2]
          exact place
      | cons second before =>
          rcases List.cons.inj others with ⟨rfl, following⟩
          have inside := (placed before after following).append [token, Token.arrow] []
          rwa [List.append_nil] at inside

/-- Tokens whose arrows have places, with none at either end. -/
structure Settled (tokens : List Token) : Prop where
  placed : ArrowsPlaced tokens
  begins : tokens.head? ≠ some Token.arrow
  ends : tokens.getLast? ≠ some Token.arrow

theorem settled_nil : Settled [] :=
  ⟨arrowsPlaced_nil, by simp, by simp⟩

theorem settled_singleton
    {token : Token}
    (noArrow : token ≠ Token.arrow) :
    Settled [token] :=
  ⟨arrowsPlaced_singleton noArrow, by simpa using noArrow, by simpa using noArrow⟩

theorem Settled.append
    {front back : List Token}
    (frontSettled : Settled front)
    (backSettled : Settled back) :
    Settled (front ++ back) := by
  refine ⟨frontSettled.placed.append backSettled.placed, ?_, ?_⟩
  · rw [List.head?_append]
    cases isHead : front.head? with
    | none => simpa using backSettled.begins
    | some token => simpa [isHead] using frontSettled.begins
  · rw [List.getLast?_append]
    cases isLast : back.getLast? with
    | none => simpa using frontSettled.ends
    | some token => simpa [isLast] using backSettled.ends

theorem Settled.cons
    {token : Token}
    (noArrow : token ≠ Token.arrow)
    {tokens : List Token}
    (settled : Settled tokens) :
    Settled (token :: tokens) :=
  (settled_singleton noArrow).append settled

/-- With commas for trailing arrows, settled tokens begin what follows as they did. -/
theorem Settled.head?_commaTrailed_append
    {taken : List Token}
    (settled : Settled taken)
    {rest other : List Token}
    (same : other.head? = rest.head?) :
    (commaTrailed taken ++ other).head? = (taken ++ rest).head? := by
  rw [List.head?_append, List.head?_append, head?_commaTrailed settled.begins, same]

theorem ne_arrow_of_kind
    {token : Token}
    (noMark : token.kind ≠ .punctuation) :
    token ≠ Token.arrow := by
  rintro rfl
  exact noMark rfl

theorem ne_arrow_of_closesList
    {token : Token}
    (closes : closesList token = true) :
    token ≠ Token.arrow := by
  rintro rfl
  exact absurd closes (by decide)

theorem any_closesList_head?_commaTrailed (tokens : List Token) :
    (commaTrailed tokens).head?.any closesList = tokens.head?.any closesList := by
  cases tokens with
  | nil => rfl
  | cons token tokens =>
      rw [commaTrailed]
      split
      · next isArrow =>
          rw [isArrow.1]
          rfl
      · rfl

/-- With commas for the trailing arrows none is left in front of a closing mark. -/
theorem not_beforeClosing_of_commaTrailed
    {tokens before after : List Token}
    (whole : commaTrailed tokens = before ++ Token.arrow :: after) :
    ¬ BeforeClosing after := by
  induction tokens generalizing before with
  | nil => simp at whole
  | cons token tokens inductionHypothesis =>
      rw [commaTrailed] at whole
      cases before with
      | nil =>
          rcases List.cons.inj whole with ⟨isArrow, rfl⟩
          rintro ⟨closing, isHead, closes⟩
          have closed : tokens.head?.any closesList = true := by
            rw [← any_closesList_head?_commaTrailed, isHead]
            exact closes
          split at isArrow
          · exact absurd isArrow (by decide)
          · next kept => exact kept ⟨isArrow, closed⟩
      | cons first before => exact inductionHypothesis (List.cons.inj whole).2

/-! ## Lists of values -/

namespace Items

/-- The list with a comma behind its last value, if any separator stands there. -/
def commaTrailed : Items → Items
  | .last text trailing => .last text (trailing.map fun _ => .comma)
  | .cons text separator items => .cons text separator items.commaTrailed

theorem values?_commaTrailed (type : SemanticType) (items : Items) :
    items.commaTrailed.values? type = items.values? type := by
  induction items with
  | last text trailing => rfl
  | cons text separator items inductionHypothesis =>
      simp only [commaTrailed, values?, inductionHypothesis]

theorem valueToken_ne_arrow (text : String) : valueToken text ≠ Token.arrow :=
  ne_arrow_of_kind (by simp)

theorem head?_tokens_append (items : Items) (rest : List Token) :
    BeforeValue (items.tokens ++ rest) := by
  cases items with
  | last text trailing => exact ⟨text, rfl⟩
  | cons text separator items => exact ⟨text, rfl⟩

variable
    {closing : Token}
    (closes : closesList closing = true)

include closes

theorem commaTrailed_tokens (items : Items) :
    Grammar.commaTrailed (items.tokens ++ [closing]) = items.commaTrailed.tokens ++ [closing] := by
  have closed : Grammar.commaTrailed [closing] = [closing] :=
    commaTrailed_cons_of_ne (ne_arrow_of_closesList closes) []
  have isLast : [closing].head?.any closesList = true := closes
  have noArrow : Token.comma ≠ Token.arrow := by decide
  induction items with
  | last text trailing =>
      rw [tokens, List.cons_append, commaTrailed_cons_of_ne (valueToken_ne_arrow text)]
      rcases trailing with _ | _ | _
      · exact congrArg _ closed
      · exact congrArg _ ((commaTrailed_cons_of_ne noArrow _).trans (congrArg _ closed))
      · exact congrArg _ ((commaTrailed_arrow_of_closed isLast).trans (congrArg _ closed))
  | cons text separator items inductionHypothesis =>
      have goesOn : (items.tokens ++ [closing]).head?.any closesList = false := by
        rcases items.head?_tokens_append [closing] with ⟨first, isHead⟩
        rw [isHead]
        rfl
      rw [tokens, List.cons_append, commaTrailed_cons_of_ne (valueToken_ne_arrow text),
        List.cons_append]
      cases separator with
      | comma =>
          exact congrArg _
            ((commaTrailed_cons_of_ne noArrow _).trans (congrArg _ inductionHypothesis))
      | arrow =>
          exact congrArg _
            ((commaTrailed_arrow_of_open goesOn).trans (congrArg _ inductionHypothesis))

/-- Separators stand between the values, and one may stand between the last and the mark. -/
theorem arrowsPlaced (items : Items) : ArrowsPlaced (items.tokens ++ [closing]) := by
  have closed : ArrowsPlaced [closing] := arrowsPlaced_singleton (ne_arrow_of_closesList closes)
  induction items with
  | last text trailing =>
      rcases trailing with _ | _ | _
      · exact closed.cons (valueToken_ne_arrow text)
      · exact (closed.cons (by decide)).cons (valueToken_ne_arrow text)
      · exact closed.cons_arrow (valueToken_ne_arrow text)
          (.inr ⟨⟨text, rfl⟩, .inr ⟨closing, rfl, closes⟩⟩)
  | cons text separator items inductionHypothesis =>
      cases separator with
      | comma => exact (inductionHypothesis.cons (by decide)).cons (valueToken_ne_arrow text)
      | arrow =>
          exact inductionHypothesis.cons_arrow (valueToken_ne_arrow text)
            (.inr ⟨⟨text, rfl⟩, .inl (items.head?_tokens_append [closing])⟩)

theorem settled (items : Items) : Settled (items.tokens ++ [closing]) := by
  refine ⟨items.arrowsPlaced closes, ?_, ?_⟩
  · rcases items.head?_tokens_append [closing] with ⟨text, isHead⟩
    rw [isHead]
    simpa using valueToken_ne_arrow text
  · simpa using ne_arrow_of_closesList closes

end Items

end ClassStore.Search.Grammar
