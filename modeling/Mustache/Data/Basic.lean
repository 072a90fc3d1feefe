import Mustache.Json.Basic
import Mustache.Yaml.Basic

/-!
The data that templates are rendered against. It comes in three families: JSON
values, YAML values and plain values; what filters produce from it is JSON that is
kept apart from the JSON that was given. A template sees no more of a value than its
kind, its text, its elements and its members by name.
-/

namespace Mustache

/-- What a section needs to know of a value. -/
inductive Kind where
  | null
  | bool (b : Bool)
  | number
  | string
  | sequence
  | mapping
deriving DecidableEq, Repr

inductive Data where
  | json (v : Json)
  | yaml (v : Yaml)
  /-- An optional value that is absent. -/
  | absent
  /-- An optional value that is there. -/
  | present (v : Data)
  | bool (b : Bool)
  | integer (n : Int)
  | float (x : Float)
  | string (s : String)
  | list (items : List Data)
  /-- Values by name, in the order in which they are visited. -/
  | table (entries : List (String × Data))
  /-- JSON that a filter produced while a template is rendered, or a part of it. -/
  | produced (v : Json)
deriving Repr, Inhabited

def boolText (b : Bool) : String :=
  if b then "true" else "false"

namespace Json

def kind : Json → Kind
  | null => .null
  | bool b => .bool b
  | number _ => .number
  | string _ => .string
  | array _ => .sequence
  | object _ => .mapping

mutual

/-- The text that a variable writes: scalars as they are, the items of an array one
after the other, and nothing for null and for objects. -/
def text : Json → String
  | null => ""
  | bool b => boolText b
  | number n => n.render Number.jsonStyle
  | string s => s
  | array items => itemsText items
  | object _ => ""
termination_by structural v => v

def itemsText : List Json → String
  | [] => ""
  | v :: rest => text v ++ itemsText rest
termination_by structural items => items

end

def children? : Json → Option (List Json)
  | array items => some items
  | _ => none

end Json

namespace Yaml

def kind : Yaml → Kind
  | null => .null
  | bool b => .bool b
  | number _ => .number
  | string _ => .string
  | sequence _ => .sequence
  | mapping _ => .mapping
  | tagged _ v => kind v

mutual

/-- The text that a variable writes, as for JSON values; tags write nothing. -/
def text : Yaml → String
  | null => ""
  | bool b => boolText b
  | number n => n.render Number.yamlStyle
  | string s => s
  | sequence items => itemsText items
  | mapping _ => ""
  | tagged _ v => text v
termination_by structural v => v

def itemsText : List Yaml → String
  | [] => ""
  | v :: rest => text v ++ itemsText rest
termination_by structural items => items

end

def children? : Yaml → Option (List Yaml)
  | sequence items => some items
  | tagged _ v => children? v
  | _ => none

end Yaml

namespace Data

def kind : Data → Kind
  | json v => v.kind
  | yaml v => v.kind
  | absent => .null
  | present v => kind v
  | bool b => .bool b
  | integer _ => .number
  | float _ => .number
  | string _ => .string
  | list _ => .sequence
  | table _ => .mapping
  | produced v => v.kind

mutual

/-- The text that a variable writes for a value. -/
def text : Data → String
  | json v => v.text
  | yaml v => v.text
  | absent => ""
  | present v => text v
  | bool b => boolText b
  | integer n => toString n
  | float x => Number.plainStyle.render x
  | string s => s
  | list items => itemsText items
  | table _ => ""
  | produced v => v.text
termination_by structural v => v

def itemsText : List Data → String
  | [] => ""
  | v :: rest => text v ++ itemsText rest
termination_by structural items => items

end

def children? : Data → Option (List Data)
  | json v => v.children?.map (·.map json)
  | yaml v => v.children?.map (·.map yaml)
  | present v => children? v
  | list items => some items
  | produced (.array items) => some (items.map produced)
  | _ => none

def child? (name : String) : Data → Option Data
  | json v => (v.get? name).map json
  | yaml v => (v.get? name).map yaml
  | present v => child? name v
  | table entries => entries.lookup name
  | produced (.object members) => (members.lookup name).map produced
  | _ => none

end Data

end Mustache
