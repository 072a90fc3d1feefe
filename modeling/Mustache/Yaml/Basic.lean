import Mustache.Number

namespace Mustache

inductive Yaml where
  | null
  | bool (b : Bool)
  | number (n : Number)
  | string (s : String)
  | sequence (items : List Yaml)
  | mapping (entries : List (Yaml × Yaml))
  | tagged (tag : String) (value : Yaml)
deriving Repr, Inhabited

namespace Yaml

/-- A tag's name: the tag without its exclamation mark, unless it is nothing else. -/
def tagName (tag : String) : String :=
  match tag.toList with
  | '!' :: c :: rest => String.ofList (c :: rest)
  | _ => tag

/-- Numbers as keys compare: the one not-a-number equals itself. -/
def sameNumber (a b : Number) : Bool :=
  match a, b with
  | .float x, .float y => x == y || (x.isNaN && y.isNaN)
  | a, b => a == b

mutual

/-- Equality of values. Mappings are equal when they have equal entries, in any
order; tags are equal when their names are. -/
def beq : Yaml → Yaml → Bool
  | null, null => true
  | bool a, bool b => a == b
  | number a, number b => sameNumber a b
  | string a, string b => a == b
  | sequence a, sequence b => beqItems a b
  | mapping a, mapping b => a.length == b.length && beqEntries a b
  | tagged s a, tagged t b => tagName s == tagName t && beq a b
  | _, _ => false
termination_by structural a => a

def beqItems : List Yaml → List Yaml → Bool
  | [], [] => true
  | a :: as, b :: bs => beq a b && beqItems as bs
  | _, _ => false
termination_by structural as => as

def beqEntries : List (Yaml × Yaml) → List (Yaml × Yaml) → Bool
  | [], _ => true
  | (k, a) :: as, bs => bs.any (fun (l, b) => beq k l && beq a b) && beqEntries as bs
termination_by structural as => as

end

instance : BEq Yaml := ⟨beq⟩

/-- Adds an entry at the end; the value of an equal key is replaced where it stands. -/
def insertEntry (key value : Yaml) : List (Yaml × Yaml) → List (Yaml × Yaml)
  | [] => [(key, value)]
  | (k, v) :: rest =>
    if k == key then (k, value) :: rest else (k, v) :: insertEntry key value rest

/-- The mapping that results from adding the entries one by one. -/
def ofEntries (entries : List (Yaml × Yaml)) : Yaml :=
  mapping (entries.foldl (fun done (k, v) => insertEntry k v done) [])

/-- Whether a key is the plain string of that name. -/
def isName (name : String) : Yaml → Bool
  | string s => s == name
  | _ => false

/-- The entry of a mapping under a string key. A tag hides nothing of its value. -/
def get? (name : String) : Yaml → Option Yaml
  | mapping entries => (entries.find? fun (k, _) => isName name k).map Prod.snd
  | tagged _ value => get? name value
  | _ => none

end Yaml

end Mustache
