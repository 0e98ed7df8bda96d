import RecordQuery.Syntax.Expr
import RecordQuery.Schema.Kind
import RecordQuery.Token

/-!
# What can be wrong with a query

Every fault is a case of its own that keeps what its message names. Faults fall into five
categories: the text is malformed, a name means nothing, a literal does not suit its property, a
step refuses the query, or the query's surroundings are faulty.
-/

namespace RecordQuery

/-- Where a fault belongs. -/
inductive ErrorCategory where
  /-- The text of a filter is malformed. -/
  | syntactic
  /-- A name in the query does not fit the schema. -/
  | resolution
  /-- A literal does not suit the property it is compared with. -/
  | coercion
  /-- A step of the query refuses it. -/
  | pipeline
  /-- Options or parameters cannot be used. -/
  | configuration
  deriving DecidableEq

/-- Why an operator refuses its value. -/
inductive OperandFault where
  /-- A text is looked for in a property, and null given. -/
  | containsNull
  /-- A text is looked for in a property, and something else given. -/
  | containsOther
  /-- An order is asked of what has none. -/
  | unordered
  /-- Null is compared by more than whether it is there. -/
  | nullOrdered
  /-- Conditions are joined where a property is to be compared. -/
  | notComparison
  deriving DecidableEq

/-- What a quantified condition lacks. -/
inductive LambdaFault where
  | parameter
  | colon
  | closeParen
  deriving DecidableEq

/-- What is wrong with the options. -/
inductive OptionsFault where
  | zeroDepth
  | zeroMaxTop
  | unparsable
  | unreadable
  deriving DecidableEq

/-- What is wrong with the parameters of a query string. -/
inductive ParameterFault where
  /-- A parameter is given twice. -/
  | duplicate (name : String)
  /-- A number has no digits. -/
  | emptyNumber
  /-- A number has other characters than digits. -/
  | invalidDigit
  /-- A number is out of range. -/
  | numberTooLarge
  /-- A truth value is something else. -/
  | notBoolean
  deriving DecidableEq

/-- A fault of a query. -/
inductive QueryError where
  | emptyExpression
  | unexpectedToken (token : String) (position : Nat)
  | unclosedParenthesis
  | invalidPropertyPath
  | invalidConjunction (found : String)
  | invalidValueType (found : String)
  | invalidOperand (operator : Operator) (fault : OperandFault)
  | invalidLambda (fault : LambdaFault)
  | nestingTooDeep (limit : Nat)
  | invalidLiteral (kind : Token.Kind) (literal : String)
  | unknownProperty (name : String) (suggestion : Option String)
  | notNavigable (name : String)
  | notACollection (name : String)
  | collectionComparison (name : String)
  | unsortable (name : String)
  | nonPrimitiveLambdaParameter (parameter : String)
  | overflow (value : Int64) (target : IntegerKind)
  | typeMismatch (literal : Literal) (property : String) (target : Kind)
  | unknownEnumValue (value property : String)
  | topExceedsMaximum (top maxTop : Nat)
  | searchBinding
  | invalidOptions (fault : OptionsFault)
  | invalidQueryString (fault : ParameterFault)
  deriving DecidableEq

/-- The category of a fault. -/
def QueryError.category : QueryError → ErrorCategory
  | emptyExpression | unexpectedToken .. | unclosedParenthesis | invalidPropertyPath
  | invalidConjunction _ | invalidValueType _ | invalidOperand .. | invalidLambda _
  | nestingTooDeep _ => .syntactic
  | unknownProperty .. | notNavigable _ | notACollection _ | collectionComparison _ | unsortable _
  | nonPrimitiveLambdaParameter _ => .resolution
  | invalidLiteral .. | overflow .. | typeMismatch .. | unknownEnumValue .. => .coercion
  | topExceedsMaximum .. | searchBinding => .pipeline
  | invalidOptions _ | invalidQueryString _ => .configuration

/-! ### Messages -/

/-- Why an operator refuses its value, in words. -/
def OperandFault.message (operator : Operator) : OperandFault → String
  | containsNull => "cannot use 'contains' operand with null value"
  | containsOther => "value must be a string when using 'contains' operand"
  | unordered =>
    "value must be a numeric or date type when using '" ++ operator.text ++ "' operand"
  | nullOrdered => "cannot compare null using '" ++ operator.text ++ "'"
  | notComparison => "'" ++ operator.text ++ "' is not a comparison operator"

/-- What a quantified condition lacks, in words. -/
def LambdaFault.message : LambdaFault → String
  | parameter => "expected parameter name in lambda expression"
  | colon => "expected ':' after lambda parameter"
  | closeParen => "expected ')' to close lambda expression"

/-- What is wrong with the options, in words. -/
def OptionsFault.message : OptionsFault → String
  | zeroDepth => "max property mapping depth must be greater than 0"
  | zeroMaxTop => "max top must be greater than 0"
  | unparsable => "Failed to parse options"
  | unreadable => "Failed to read options"

/-- What is wrong with a parameter, in words. -/
def ParameterFault.message : ParameterFault → String
  | duplicate name => "duplicate field `" ++ name ++ "`"
  | emptyNumber => "cannot parse integer from empty string"
  | invalidDigit => "invalid digit found in string"
  | numberTooLarge => "number too large to fit in target type"
  | notBoolean => "provided string was not `true` or `false`"

/-- A fault in words. -/
def QueryError.message : QueryError → String
  | emptyExpression => "filter expression is empty"
  | unexpectedToken token position =>
    "unexpected token '" ++ token ++ "' at position " ++ toString position
  | unclosedParenthesis => "expected closing parenthesis"
  | invalidPropertyPath => "expected identifier after '/' in property path"
  | invalidConjunction found => "invalid conjunction within filter: '" ++ found ++ "'"
  | invalidValueType found => "invalid value type within filter: '" ++ found ++ "'"
  | invalidOperand operator fault => fault.message operator
  | invalidLambda fault => fault.message
  | nestingTooDeep limit =>
    "filter expression nests deeper than " ++ toString limit ++ " levels"
  | invalidLiteral kind literal => "invalid " ++ kind.text ++ " literal '" ++ literal ++ "'"
  | unknownProperty name suggestion =>
    "invalid property '" ++ name ++ "' within filter" ++
      (match suggestion with
       | some s => ". Did you mean '" ++ s ++ "'?"
       | none => "")
  | notNavigable name => "property '" ++ name ++ "' has no navigable properties"
  | notACollection name => "property '" ++ name ++ "' is not a collection"
  | collectionComparison name =>
    "collection property '" ++ name ++ "' can only be filtered with any/all"
  | unsortable name => "property '" ++ name ++ "' cannot be used for ordering"
  | nonPrimitiveLambdaParameter parameter =>
    "lambda parameter '" ++ parameter ++
      "' refers to a non-primitive element and cannot be compared directly"
  | overflow value target =>
    "value " ++ Number.integerText value.toInt ++ " is too large for type " ++ target.text
  | typeMismatch literal property target =>
    "cannot compare " ++ literal.description ++ " with property '" ++ property ++
      "' of type " ++ target.text
  | unknownEnumValue value property =>
    "'" ++ value ++ "' is not a valid value for property '" ++ property ++ "'"
  | topExceedsMaximum top maxTop =>
    "the value supplied for the query parameter 'Top' (" ++ toString top ++
      ") was greater than the maximum top allowed for this resource (" ++ toString maxTop ++ ")"
  | searchBinding => "cannot parse search binder expression"
  | invalidOptions fault => "invalid query options: " ++ fault.message
  | invalidQueryString fault => "invalid query parameters: " ++ fault.message

end RecordQuery
