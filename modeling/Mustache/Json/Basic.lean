import Mustache.Keyed
import Mustache.Number

/-!
JSON values. The members of an object are kept in the order of their keys, one for
each key, so equal objects are equal lists.
-/

namespace Mustache

inductive Json where
  | null
  | bool (b : Bool)
  | number (n : Number)
  | string (s : String)
  | array (items : List Json)
  | object (members : List (String × Json))
deriving Repr, Inhabited

namespace Json

mutual

/-- Equality of values, numbers compared as `Number.beq` does. -/
def beq : Json → Json → Bool
  | null, null => true
  | bool a, bool b => a == b
  | number a, number b => a == b
  | string a, string b => a == b
  | array a, array b => beqItems a b
  | object a, object b => beqMembers a b
  | _, _ => false
termination_by structural a => a

def beqItems : List Json → List Json → Bool
  | [], [] => true
  | a :: as, b :: bs => beq a b && beqItems as bs
  | _, _ => false
termination_by structural as => as

def beqMembers : List (String × Json) → List (String × Json) → Bool
  | [], [] => true
  | (k, a) :: as, (l, b) :: bs => k == l && beq a b && beqMembers as bs
  | _, _ => false
termination_by structural as => as

end

instance : BEq Json := ⟨beq⟩

/-- The object with the given members. Of members with one key the last one counts. -/
def ofMembers (members : List (String × Json)) : Json :=
  object (Keyed.ofList members)

def get? (name : String) : Json → Option Json
  | object members => members.lookup name
  | _ => none

end Json

end Mustache
