import Mustache.Json.Printer

namespace Mustache

inductive Component where
  /-- The innermost scope itself, written as a point. -/
  | this
  | identifier (name : String)
deriving DecidableEq, Repr, Inhabited

/-- What a filter is given besides its input. -/
inductive Argument where
  | literal (value : Json)
  | path (path : List Component)
deriving Repr, Inhabited

namespace Argument

/-- Literals are equal as JSON values. -/
def beq : Argument → Argument → Bool
  | literal a, literal b => a == b
  | path a, path b => a == b
  | _, _ => false

instance : BEq Argument := ⟨beq⟩

end Argument

structure FilterCall where
  name : String
  args : List Argument
deriving BEq, Repr, Inhabited

/-- A path whose value goes through the filters in order. -/
structure Expression where
  path : List Component
  filters : List FilterCall
deriving BEq, Repr, Inhabited

/-- Why the content of a tag is no expression. -/
inductive ExpressionError where
  | empty
  | consecutiveSeparators
  | trailingSeparator
  | unterminatedString
  | missingFilterName
  | missingArgument
  /-- The text at which reading stopped. -/
  | unexpected (rest : String)
deriving DecidableEq, Repr, Inhabited

def ExpressionError.message : ExpressionError → String
  | empty => "empty expression"
  | consecutiveSeparators => "consecutive separators"
  | trailingSeparator => "trailing separator"
  | unterminatedString => "unterminated string"
  | missingFilterName => "missing filter name"
  | missingArgument => "missing filter argument"
  | unexpected rest => s!"unexpected `{rest}`"

/-- The text of a path: a point between two identifiers, and one for the scope. -/
def pathText : List Component → String
  | [] => ""
  | .this :: rest => "." ++ pathText rest
  | .identifier name :: .identifier next :: rest =>
    name ++ "." ++ pathText (.identifier next :: rest)
  | .identifier name :: rest => name ++ pathText rest

/-- Literals are shown as JSON text. -/
def Argument.text : Argument → String
  | literal value => value.render
  | path components => pathText components

def FilterCall.text (call : FilterCall) : String :=
  match call.args with
  | [] => call.name
  | args => call.name ++ ": " ++ ", ".intercalate (args.map Argument.text)

/-- The text of an expression, with one space around each bar. -/
def Expression.text (e : Expression) : String :=
  " | ".intercalate (pathText e.path :: e.filters.map FilterCall.text)

end Mustache
