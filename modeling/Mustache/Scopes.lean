import Mustache.Data.Basic
import Mustache.Expression.Basic

namespace Mustache

/-- The innermost scope and the scopes around it, from the inside out. -/
structure Scopes where
  top : Data
  outer : List Data
deriving Repr, Inhabited

namespace Scopes

/-- The scope of the data that a template is rendered against. -/
def root (v : Data) : Scopes :=
  ⟨v, []⟩

def push (s : Scopes) (v : Data) : Scopes :=
  ⟨v, s.top :: s.outer⟩

/-- Pushes a scope if there is one to push. -/
def pushAny (s : Scopes) : Option Data → Scopes
  | none => s
  | some v => s.push v

/-- The member of the innermost scope that has it. -/
def find? (s : Scopes) (name : String) : Option Data :=
  (s.top :: s.outer).findSome? (Data.child? name)

/-- Follows the rest of a path into a value. -/
def descend (v : Data) : List Component → Option Data
  | [] => some v
  | .this :: rest => descend v rest
  | .identifier name :: rest =>
    match v.child? name with
    | none => none
    | some child => descend child rest

/-- The value of a path, if it has one. Only the first identifier is looked up in all
scopes; the others look into what was found. -/
def resolve (s : Scopes) : List Component → Option Data
  | [] => none
  | .this :: rest => descend s.top rest
  | .identifier name :: rest =>
    match s.find? name with
    | none => none
    | some v => descend v rest

end Scopes

end Mustache
