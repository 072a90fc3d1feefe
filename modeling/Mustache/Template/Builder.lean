import Mustache.Expression.Parser
import Mustache.SyntaxError
import Mustache.Template.Basic
import Mustache.Template.Pragma
import Mustache.Token.Basic

/-!
Building the tree of a template from its tokens. A `Builder` holds the scopes that
are open, the innermost first, with the nodes that each has collected; a closing tag
must close the innermost one.
-/

namespace Mustache

inductive Opening where
  | sect (expression : Expression) (inverted : Bool)
  | block (name : String)
  | parent (name : String) (indent : String)
deriving Repr

/-- A scope that waits for its closing tag. -/
structure OpenScope where
  opening : Opening
  position : Position
  nodes : List Node
deriving Repr

namespace OpenScope

/-- How the scope is called in error messages. -/
def name (s : OpenScope) : String :=
  match s.opening with
  | .sect expression _ => expression.text
  | .block name => name
  | .parent name _ => name

/-- A section is closed by an equal expression, a block or parent by its name. -/
def isClosedBy (s : OpenScope) (content : String) : Bool :=
  match s.opening with
  | .sect expression _ =>
    match Expression.parse content with
    | .ok closing => closing == expression
    | .error _ => false
  | .block name => name == content
  | .parent name _ => name == content

/-- Adds a node; a parent keeps only blocks. -/
def add (s : OpenScope) (n : Node) : OpenScope :=
  match s.opening with
  | .parent _ _ => if n.isBlock then { s with nodes := s.nodes ++ [n] } else s
  | _ => { s with nodes := s.nodes ++ [n] }

def toNode (s : OpenScope) : Node :=
  match s.opening with
  | .sect expression inverted => .sect expression inverted s.nodes s.position
  | .block name => .block name s.nodes s.position
  | .parent name indent => .parent name indent s.nodes s.position

end OpenScope

structure Builder where
  contentType : ContentType
  /-- The open scopes, the innermost first. -/
  scopes : List OpenScope
  /-- The nodes outside all open scopes. -/
  nodes : List Node
deriving Repr

namespace Builder

def start (contentType : ContentType) : Builder :=
  ⟨contentType, [], []⟩

/-- Adds a node to the innermost open scope. -/
def add (b : Builder) (n : Node) : Builder :=
  match b.scopes with
  | [] => { b with nodes := b.nodes ++ [n] }
  | s :: outer => { b with scopes := s.add n :: outer }

def enter (b : Builder) (opening : Opening) (position : Position) : Builder :=
  { b with scopes := ⟨opening, position, []⟩ :: b.scopes }

def expression (t : Tag) : Except SyntaxError Expression :=
  match Expression.parse t.content with
  | .ok e => .ok e
  | .error reason => .error ⟨.invalidExpression reason, t.position⟩

/-- The name in a tag, which holds no white space. -/
def name (t : Tag) : Except SyntaxError String :=
  if t.content.toList.any Text.isBlank then .error ⟨.invalidName t.content, t.position⟩
  else .ok t.content

def close (b : Builder) (t : Tag) : Except SyntaxError Builder :=
  match b.scopes with
  | [] => .error ⟨.unexpectedClosingTag t.content none, t.position⟩
  | s :: outer =>
    if s.isClosedBy t.content then .ok (add { b with scopes := outer } s.toNode)
    else .error ⟨.unexpectedClosingTag t.content (some s.name), t.position⟩

/-- Takes a tag. That there is room for another scope is checked before the tag's
content. -/
def addTag (b : Builder) (t : Tag) : Except SyntaxError Builder :=
  if t.kind.opensScope && maxNesting ≤ b.scopes.length then
    .error ⟨.nestingTooDeep maxNesting, t.position⟩
  else
    match t.kind with
    | .interpolation escaped => do
      return b.add (.interpolation (← expression t) escaped t.position)
    | .sect inverted => do
      return b.enter (.sect (← expression t) inverted) t.position
    | .block => do
      return b.enter (.block (← name t)) t.position
    | .parent => do
      return b.enter (.parent (← name t) t.indent) t.position
    | .closing => b.close t
    | .inclusion => do
      return b.add (.inclusion (← name t) t.indent t.position)
    | .pragma => .ok { b with contentType := (Pragma.read t.content).apply b.contentType }
    | .comment => .ok b
    | .delimiters _ => .ok b

def addToken (b : Builder) : Token → Except SyntaxError Builder
  | .text s => .ok (b.add (.text s))
  | .tag t => b.addTag t

/-- Takes tokens in order, up to the first fault. -/
def addTokens (b : Builder) : List Token → Except SyntaxError Builder
  | [] => .ok b
  | t :: rest =>
    match b.addToken t with
    | .error e => .error e
    | .ok b => b.addTokens rest

def finish (b : Builder) : Except SyntaxError Template :=
  match b.scopes with
  | [] => .ok ⟨b.nodes, b.contentType⟩
  | s :: _ => .error ⟨.unclosedSection s.name, s.position⟩

end Builder

end Mustache
