import Mustache.Expression.Basic
import Mustache.Position

namespace Mustache

inductive SyntaxCause where
  /-- The source ends inside the tag. -/
  | unclosedTag
  /-- A tag that needs content has none. -/
  | emptyTag
  /-- A delimiters tag does not hold two delimiters. -/
  | invalidDelimiters
  | invalidExpression (reason : ExpressionError)
  /-- A partial, block or parent name with white space in it. -/
  | invalidName (name : String)
  /-- A closing tag that does not close the innermost open scope, which is shown if
  there is one. -/
  | unexpectedClosingTag (found : String) (expected : Option String)
  /-- A scope that is open at the end of the source. -/
  | unclosedSection (name : String)
  /-- More scopes are opened inside each other than are allowed. -/
  | nestingTooDeep (limit : Nat)
deriving DecidableEq, Repr

def SyntaxCause.message : SyntaxCause → String
  | unclosedTag => "Unclosed tag"
  | emptyTag => "Empty tag"
  | invalidDelimiters => "Invalid delimiters tag"
  | invalidExpression reason =>
    let text := reason.message
    s!"Invalid expression: {text}"
  | invalidName name => s!"Invalid name `{name}`"
  | unexpectedClosingTag found none => s!"Unexpected closing tag `{found}`"
  | unexpectedClosingTag found (some name) =>
    s!"Unexpected closing tag `{found}`, expected `{name}`"
  | unclosedSection name => s!"Unclosed section `{name}`"
  | nestingTooDeep limit => s!"Tags nested deeper than {limit} levels"

structure SyntaxError where
  cause : SyntaxCause
  position : Position
deriving DecidableEq, Repr

def SyntaxError.message (e : SyntaxError) : String :=
  e.cause.message ++ " at " ++ e.position.message

end Mustache
