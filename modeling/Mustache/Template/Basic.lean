import Mustache.Configuration
import Mustache.Expression.Basic
import Mustache.Position

namespace Mustache

/-- How many levels of sections, blocks, parents and partials may be entered. -/
def maxNesting : Nat := 128

inductive Node where
  | text (s : String)
  | interpolation (expression : Expression) (escaped : Bool) (position : Position)
  | sect (expression : Expression) (inverted : Bool) (nodes : List Node) (position : Position)
  /-- Another template, whose lines get the indentation. -/
  | inclusion (name : String) (indent : String) (position : Position)
  /-- A part that an inclusion may replace; its nodes are the standard content. -/
  | block (name : String) (nodes : List Node) (position : Position)
  /-- Another template, whose blocks are replaced by the blocks of the same names. -/
  | parent (name : String) (indent : String) (overrides : List Node) (position : Position)
deriving Repr, Inhabited

namespace Node

def isBlock : Node → Bool
  | block _ _ _ => true
  | _ => false

mutual

/-- Equality of trees, positions included and expressions by their own equality. -/
def beq : Node → Node → Bool
  | text a, text b => a == b
  | interpolation e a p, interpolation f b q => e == f && a == b && p == q
  | sect e a ns p, sect f b ms q => e == f && a == b && beqAll ns ms && p == q
  | inclusion a i p, inclusion b j q => a == b && i == j && p == q
  | block a ns p, block b ms q => a == b && beqAll ns ms && p == q
  | parent a i ns p, parent b j ms q => a == b && i == j && beqAll ns ms && p == q
  | _, _ => false
termination_by structural n => n

def beqAll : List Node → List Node → Bool
  | [], [] => true
  | n :: ns, m :: ms => beq n m && beqAll ns ms
  | _, _ => false
termination_by structural ns => ns

end

instance : BEq Node := ⟨beq⟩

end Node

structure Template where
  nodes : List Node
  contentType : ContentType
deriving BEq, Repr, Inhabited

end Mustache
