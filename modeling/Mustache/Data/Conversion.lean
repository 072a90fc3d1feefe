import Mustache.Data.Basic
import Mustache.Json.Printer
import Mustache.Yaml.Printer

/-!
Turning data into JSON. Filters get every value as JSON, and `Data.toJson` says
which values have a counterpart. `Yaml.encode` is the conversion of a YAML value
that is handed in as data to be encoded: it keeps tags and accepts numbers that are
not finite.
-/

namespace Mustache

/-- Why a value has no JSON counterpart. -/
inductive NoCounterpart where
  /-- A number that is not finite. -/
  | number (n : Number)
  /-- A mapping key that is no scalar with a text. -/
  | key (k : Yaml)
deriving Repr, Inhabited

namespace NoCounterpart

def message : NoCounterpart → String
  | number n =>
    let text := n.render Number.yamlStyle
    s!"number `{text}` has no JSON counterpart"
  | key k =>
    let text := k.text?.getD ""
    s!"mapping key `{text}` has no JSON counterpart"

end NoCounterpart

namespace Number

/-- A number with a JSON counterpart is an integer or finite. -/
def toJson : Number → Except NoCounterpart Json
  | integer n => .ok (.number (.integer n))
  | float x => if x.isFinite then .ok (.number (.float x)) else .error (.number (.float x))

end Number

namespace Yaml

/-- The name of a mapping key in JSON: the text of a string, a truth value or a
number, tagged or not. -/
def keyName : Yaml → Except NoCounterpart String
  | string s => .ok s
  | bool b => .ok (boolText b)
  | number n => .ok (n.render Number.yamlStyle)
  | tagged _ v => keyName v
  | k => .error (.key k)

mutual

/-- The JSON value without the tags. The first part that has no counterpart is the
reason when there is none, a key before its value. -/
def toJson : Yaml → Except NoCounterpart Json
  | null => .ok .null
  | bool b => .ok (.bool b)
  | number n => n.toJson
  | string s => .ok (.string s)
  | sequence items => (itemsToJson items).map .array
  | mapping entries => (entriesToJson entries).map .ofMembers
  | tagged _ v => toJson v
termination_by structural v => v

def itemsToJson : List Yaml → Except NoCounterpart (List Json)
  | [] => .ok []
  | v :: rest => do
    let first ← toJson v
    let others ← itemsToJson rest
    return first :: others
termination_by structural items => items

def entriesToJson : List (Yaml × Yaml) → Except NoCounterpart (List (String × Json))
  | [] => .ok []
  | (k, v) :: rest => do
    let name ← keyName k
    let first ← toJson v
    let others ← entriesToJson rest
    return (name, first) :: others
termination_by structural entries => entries

end

/-- Why a mapping key cannot be encoded. -/
inductive BadKey where
  | notText
  | notFinite
deriving DecidableEq, Repr

def BadKey.message : BadKey → String
  | notText => "invalid data: key must be a string"
  | notFinite => "invalid data: float key must be finite (got NaN or +/-inf)"

/-- The name of a mapping key when a mapping is encoded: a string, a truth value or
a finite number. -/
def encodeKey : Yaml → Except BadKey String
  | string s => .ok s
  | bool b => .ok (boolText b)
  | number (.integer n) => .ok (toString n)
  | number (.float x) =>
    if x.isFinite then .ok (Number.jsonStyle.render x) else .error .notFinite
  | _ => .error .notText

mutual

/-- Encodes a value as JSON. A tagged value becomes an object whose one key is the
tag, and a number that is not finite becomes null. -/
def encode : Yaml → Except BadKey Json
  | null => .ok .null
  | bool b => .ok (.bool b)
  | number (.integer n) => .ok (.number (.integer n))
  | number (.float x) => .ok (if x.isFinite then .number (.float x) else .null)
  | string s => .ok (.string s)
  | sequence items => (encodeItems items).map .array
  | mapping entries => (encodeEntries entries).map .ofMembers
  | tagged tag v => (encode v).map fun inner => .object [("!" ++ tagName tag, inner)]
termination_by structural v => v

def encodeItems : List Yaml → Except BadKey (List Json)
  | [] => .ok []
  | v :: rest => do
    let first ← encode v
    let others ← encodeItems rest
    return first :: others
termination_by structural items => items

def encodeEntries : List (Yaml × Yaml) → Except BadKey (List (String × Json))
  | [] => .ok []
  | (k, v) :: rest => do
    let name ← encodeKey k
    let first ← encode v
    let others ← encodeEntries rest
    return (name, first) :: others
termination_by structural entries => entries

end

end Yaml

namespace Data

mutual

/-- The JSON counterpart of a value. A float of the plain family that is not finite
becomes null. -/
def toJson : Data → Except NoCounterpart Json
  | json v => .ok v
  | yaml v => v.toJson
  | absent => .ok .null
  | present v => toJson v
  | bool b => .ok (.bool b)
  | integer n => .ok (.number (.integer n))
  | float x => .ok (if x.isFinite then .number (.float x) else .null)
  | string s => .ok (.string s)
  | list items => (itemsToJson items).map .array
  | table entries => (entriesToJson entries).map .ofMembers
  | produced v => .ok v
termination_by structural v => v

def itemsToJson : List Data → Except NoCounterpart (List Json)
  | [] => .ok []
  | v :: rest => do
    let first ← toJson v
    let others ← itemsToJson rest
    return first :: others
termination_by structural items => items

def entriesToJson : List (String × Data) → Except NoCounterpart (List (String × Json))
  | [] => .ok []
  | (name, v) :: rest => do
    let first ← toJson v
    let others ← entriesToJson rest
    return (name, first) :: others
termination_by structural entries => entries

end

end Data

end Mustache
