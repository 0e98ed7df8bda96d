import RecordQuery.Error
import RecordQuery.Text.Blank
import RecordQuery.Token.Lexer

/-!
# Reading filters and sort terms

A filter is read from its tokens by this grammar, in which words stand for themselves in any case:

    expression ::= term (("and" | "or") term)*
    term       ::= "(" expression ")" | lambda | comparison
    comparison ::= path operator literal
    lambda     ::= path "/" ("any" | "all") "(" name ":" expression ")"
    path       ::= name ("/" name)*
    terms      ::= (path ["asc" | "desc"])*

`and` binds tighter than `or`, and both group to the left. Parentheses, quantified conditions and
the right sides of joined conditions each take a level, of which there are a hundred; nor may joined
conditions be nested deeper than that.

Each reading function gives what it has read together with the tokens after it, which are never more
than it was given; the loop over joined conditions ends for that reason.
-/

namespace RecordQuery

namespace Parser

/-- The most levels of nesting. -/
def maxDepth : Nat := 100

/-- What is read from the front of `ts`, and the tokens after it. -/
structure Parsed (α : Type) (ts : List Token) where
  value : α
  rest : List Token
  rest_le : rest.length ≤ ts.length

/-- A result for the end of some tokens is one for all of them. -/
def Parsed.weaken {α : Type} {ts us : List Token} (p : Parsed α us) (h : us.length ≤ ts.length) :
    Parsed α ts :=
  ⟨p.value, p.rest, Nat.le_trans p.rest_le h⟩

/-- Reads an expression, joined by operators that bind tighter than the given strength. -/
abbrev Reader := (strength : Nat) → (ts : List Token) → Except QueryError (Parsed Expr ts)

/-! ### Literals -/

/-- A text without one suffix, in small or else in capital form. -/
def stripSuffix (suffix : Char) (cs : List Char) : List Char :=
  if cs.getLast? = some suffix || cs.getLast? = some suffix.toUpper then cs.dropLast else cs

/-- The integer of a numeral, if it has 64 bits. -/
def integer? (cs : List Char) : Option Int64 :=
  match Number.natural? cs with
  | some n => if IntegerKind.i64.has n then some (Int64.ofNat n) else none
  | none => none

/-- The literal that a token with a value stands for. -/
def literal? (t : Token) : Option Literal :=
  let cs := t.literal.toList
  match t.kind with
  | .string => some (.string t.literal)
  | .name => some (.identifier t.literal)
  | .null => some .null
  | .boolean => some (.boolean (Text.sameWord t.literal "true"))
  | .integer => (integer? (stripSuffix 'l' cs)).map .integer
  | .single => (Number.Binary.ofText? (stripSuffix 'f' cs)).map .single
  | .decimal => (Number.Decimal.ofText? (stripSuffix 'm' cs)).map .decimal
  | .double => (Number.Binary.ofText? (stripSuffix 'd' cs)).map .double
  | .guid => (Guid.ofText? cs).map .guid
  | .date => (Date.ofText? cs).map .date
  | .instant => (Instant.ofText? cs).map .instant
  | _ => none

/-- Holds of the kinds of tokens that stand for a value. -/
def isValue : Token.Kind → Bool
  | .string | .name | .null | .boolean | .integer | .single | .decimal | .double | .guid | .date
  | .instant => true
  | _ => false

/-- Holds of the kinds of values with an order. -/
def isOrdered : Token.Kind → Bool
  | .integer | .single | .decimal | .double | .date | .instant => true
  | _ => false

/-- Why an operator refuses a kind of value, if it does. -/
def operandFault? (operator : Operator) (kind : Token.Kind) : Option OperandFault :=
  if operator = .contains && kind = .null then some .containsNull
  else if operator = .contains && kind ≠ .string then some .containsOther
  else if operator.isOrdering && !isOrdered kind then some .unordered
  else none

/-- The literal on the right of an operator. -/
def operand (operator : Operator) (t : Token) : Except QueryError Literal :=
  if !isValue t.kind then .error (.invalidValueType t.text)
  else match operandFault? operator t.kind with
    | some fault => .error (.invalidOperand operator fault)
    | none =>
      match literal? t with
      | some l => .ok l
      | none => .error (.invalidLiteral t.kind t.literal)

/-! ### Comparisons and paths -/

/-- The operator between a property and a literal that a token names. -/
def comparison? (t : Token) : Option Operator :=
  if t.kind = .name then Operator.ofComparisonWord? t.literal else none

/-- The operator between conditions that a token names. -/
def logical? (t : Token) : Option Operator :=
  if t.kind = .name then Operator.ofLogicalWord? t.literal else none

/-- Reads operator and literal after a property. -/
def comparison (left : Expr) : (ts : List Token) → Except QueryError (Parsed Expr ts)
  | [] => .error (.invalidConjunction Token.Kind.endOfInput.text)
  | t :: ts =>
    match comparison? t, ts with
    | none, _ => .error (.invalidConjunction t.text)
    | some _, [] => .error (.invalidValueType Token.Kind.endOfInput.text)
    | some operator, value :: rest => do
      let l ← operand operator value
      return ⟨.binary left operator (.literal l), rest, by simp; omega⟩

/-- What a condition starts with: a property, or a collection and its quantifier up to the opening
parenthesis. -/
inductive Subject where
  | property (p : Path)
  | collection (p : Path) (quantifier : Quantifier)

/-- The quantifier that a name is before an opening parenthesis. -/
def quantifier? (name : Token) : List Token → Option Quantifier
  | t :: _ => if t.kind = .openParen then Quantifier.ofWord? name.literal else none
  | [] => none

/-- Reads the further names of a path, up to a quantifier. -/
def subject (p : Path) : (ts : List Token) → Except QueryError (Parsed Subject ts)
  | [] => .ok ⟨.property p, [], Nat.le_refl _⟩
  | [t] =>
    if t.kind = .slash then .error .invalidPropertyPath
    else .ok ⟨.property p, [t], Nat.le_refl _⟩
  | t :: s :: ts =>
    if t.kind ≠ .slash then .ok ⟨.property p, t :: s :: ts, Nat.le_refl _⟩
    else if s.kind ≠ .name then .error .invalidPropertyPath
    else match quantifier? s ts with
      | some quantifier => .ok ⟨.collection p quantifier, ts.tail, by simp; omega⟩
      | none => do
        let more ← subject (p.push s.literal) ts
        return more.weaken (by simp; omega)

/-- Reads a quantified condition after its opening parenthesis. -/
def lambda (inner : Reader) (collection : Path) (quantifier : Quantifier) :
    (ts : List Token) → Except QueryError (Parsed Expr ts)
  | [] => .error (.invalidLambda .parameter)
  | parameter :: ts =>
    if parameter.kind ≠ .name then .error (.invalidLambda .parameter)
    else match ts with
      | [] => .error (.invalidLambda .colon)
      | colon :: ts =>
        if colon.kind ≠ .colon then .error (.invalidLambda .colon)
        else do
          let body ← inner 0 ts
          match h : body.rest with
          | [] => .error (.invalidLambda .closeParen)
          | close :: rest =>
            if close.kind ≠ .closeParen then .error (.invalidLambda .closeParen)
            else
              return ⟨.completed collection quantifier parameter.literal body.value, rest, by
                have := body.rest_le
                simp [h] at this ⊢
                omega⟩

/-- A property as a condition names it: by its name alone, or by a path. -/
def property (p : Path) : Expr := if p.isSingle then .name p.first else .path p

/-- Reads a comparison or a quantified condition, from the tokens after its first name. -/
def condition (inner : Reader) (first : String) (ts : List Token) :
    Except QueryError (Parsed Expr ts) := do
  let start ← subject (.single first) ts
  match start.value with
  | .property p =>
    let whole ← comparison (property p) start.rest
    return whole.weaken start.rest_le
  | .collection p quantifier =>
    let whole ← lambda inner p quantifier start.rest
    return whole.weaken start.rest_le

/-! ### Expressions -/

/-- Reads what stands in parentheses, after the opening one. -/
def group (inner : Reader) (ts : List Token) : Except QueryError (Parsed Expr ts) := do
  let content ← inner 0 ts
  match h : content.rest with
  | [] => .error .unclosedParenthesis
  | close :: rest =>
    if close.kind ≠ .closeParen then .error .unclosedParenthesis
    else
      return ⟨content.value, rest, by
        have := content.rest_le
        simp [h] at this
        omega⟩

/-- Reads a term. -/
def term (inner : Reader) : (ts : List Token) → Except QueryError (Parsed Expr ts)
  | [] => .error .emptyExpression
  | t :: ts =>
    if t.kind = .openParen then do
      let whole ← group inner ts
      return whole.weaken (by simp)
    else if t.kind = .name then do
      let whole ← condition inner t.literal ts
      return whole.weaken (by simp)
    else .error (.unexpectedToken t.text t.position)

/-- Reads the conditions joined to `left` by operators that bind tighter than `strength`. -/
def chain (inner : Reader) (strength : Nat) (left : Expr) (ts : List Token) :
    Except QueryError (Parsed Expr ts) :=
  match ts with
  | [] => .ok ⟨left, [], Nat.le_refl _⟩
  | t :: more =>
    match logical? t with
    | none => .ok ⟨left, t :: more, Nat.le_refl _⟩
    | some operator =>
      if operator.precedence ≤ strength then .ok ⟨left, t :: more, Nat.le_refl _⟩
      else do
        let right ← inner operator.precedence more
        let joined := Expr.binary left operator right.value
        if maxDepth < joined.depth then .error (.nestingTooDeep maxDepth)
        else
          let whole ← chain inner strength joined right.rest
          return whole.weaken (Nat.le_trans right.rest_le (by simp))
termination_by ts.length
decreasing_by
  have := right.rest_le
  simp only [List.length_cons]
  omega

/-- Reads an expression within so many levels. -/
def expression : (levels : Nat) → Reader
  | 0, _, _ => .error (.nestingTooDeep maxDepth)
  | levels + 1, strength, ts => do
    let first ← term (expression levels) ts
    let whole ← chain (expression levels) strength first.value first.rest
    return whole.weaken first.rest_le

/-! ### Sort terms -/

/-- Reads the further names of a path. -/
def path (p : Path) : (ts : List Token) → Except QueryError (Parsed Path ts)
  | [] => .ok ⟨p, [], Nat.le_refl _⟩
  | [t] =>
    if t.kind = .slash then .error .invalidPropertyPath else .ok ⟨p, [t], Nat.le_refl _⟩
  | t :: s :: ts =>
    if t.kind ≠ .slash then .ok ⟨p, t :: s :: ts, Nat.le_refl _⟩
    else if s.kind ≠ .name then .error .invalidPropertyPath
    else do
      let more ← path (p.push s.literal) ts
      return more.weaken (by simp; omega)

/-- Reads the direction after a path, if there is one; without one the order ascends. -/
def direction : (ts : List Token) → Parsed Direction ts
  | [] => ⟨.ascending, [], Nat.le_refl _⟩
  | t :: ts =>
    if t.isKeyword Direction.descending.text then ⟨.descending, ts, by simp⟩
    else if t.isKeyword Direction.ascending.text then ⟨.ascending, ts, by simp⟩
    else ⟨.ascending, t :: ts, Nat.le_refl _⟩

/-- Reads sort terms; tokens that start none are passed over. -/
def sortTerms (ts : List Token) : Except QueryError (List SortTerm) :=
  match ts with
  | [] => .ok []
  | t :: ts =>
    if t.kind ≠ .name then sortTerms ts
    else do
      let p ← path (.single t.literal) ts
      let d := direction p.rest
      let more ← sortTerms d.rest
      return ⟨p.value, d.value⟩ :: more
termination_by ts.length
decreasing_by
  · simp
  · have := p.rest_le
    have := (direction p.rest).rest_le
    simp only [List.length_cons]
    omega

end Parser

/-- The expression of a filter's text. -/
def Expr.ofText (s : String) : Except QueryError Expr :=
  if Text.isBlank s then .error .emptyExpression
  else do
    let whole ← Parser.expression Parser.maxDepth 0 (Token.ofText s)
    match whole.rest with
    | [] => .ok whole.value
    | t :: _ => .error (.unexpectedToken t.text t.position)

/-- The terms of an order-by text, in their order. -/
def SortTerm.listOfText (s : String) : Except QueryError (List SortTerm) :=
  Parser.sortTerms (Token.ofText s)

end RecordQuery
