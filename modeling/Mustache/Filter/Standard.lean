import Mustache.Filter.Basic
import Mustache.Json.Printer

namespace Mustache.Filter

/-- A string with its ASCII letters in capitals; other values give an empty string. -/
def upper : Filter
  | .string s, _ => .ok (.string (s.map Char.toUpper))
  | _, _ => .ok (.string "")

/-- The text of an item: a string as it is, other values as JSON. -/
private def itemText : Json → String
  | .string s => s
  | v => v.render

/-- The items of an array with a separator between them. -/
def join : Filter
  | .array items, args =>
    let separator := match args with
      | .string s :: _ => s
      | _ => ","
    .ok (.string (separator.intercalate (items.map itemText)))
  | _, _ => .error "expected a list"

/-- The value; the first argument in place of null. -/
def default : Filter
  | .null, args => .ok (args.head?.getD .null)
  | v, _ => .ok v

/-- Fails, with the first argument as the message if that is a string. -/
def fail : Filter
  | _, .string message :: _ => .error message
  | _, _ => .error "always fails"

def display : Filter
  | v, _ => .ok (.string v.render)

def arguments : Filter
  | _, args => .ok (.string (Json.array args).render)

/-- The number of an array's items or of a string's characters. -/
def length : Filter
  | .array items, _ => .ok (.number (.integer items.length))
  | .string s, _ => .ok (.number (.integer s.length))
  | _, _ => .error "expected a list or a string"

/-- The first item of an array, or null. -/
def first : Filter
  | .array items, _ => .ok (items.head?.getD .null)
  | _, _ => .ok .null

/-- The first argument, or null. -/
def constant : Filter
  | _, args => .ok (args.head?.getD .null)

def list : Filter
  | _, args => .ok (.array args)

/-- The arguments and the value as members of an object. -/
def pair : Filter
  | v, args => .ok (.object [("args", .array args), ("value", v)])

/-- Whether the value is null or false. -/
def negation : Filter
  | .null, _ => .ok (.bool true)
  | .bool b, _ => .ok (.bool !b)
  | _, _ => .ok (.bool false)

def identity : Filter
  | v, _ => .ok v

def named? : String → Option Filter
  | "upper" => some upper
  | "join" => some join
  | "default" => some default
  | "fail" => some fail
  | "show" => some display
  | "args" => some arguments
  | "len" => some length
  | "first" => some first
  | "const" => some constant
  | "list" => some list
  | "obj" => some pair
  | "not" => some negation
  | "id" => some identity
  | _ => none

end Mustache.Filter
