import Mustache.Configuration
import Mustache.Event
import Mustache.Text.Search

namespace Mustache

inductive Pragma where
  | contentType (t : ContentType)
  /-- The value of a known key is not known. -/
  | unknownType (name : String)
  /-- A key that is not known. -/
  | unknownKey
  /-- Text without a colon. -/
  | remark
deriving DecidableEq, Repr

namespace Pragma

/-- Reads the content of a pragma tag, cut at its first colon. -/
def read (content : String) : Pragma :=
  match Text.cut [':'] content.toList with
  | none => .remark
  | some (key, value) =>
    if String.ofList (Text.trim key) = "CONTENT_TYPE" then
      match String.ofList (Text.trim value) with
      | "TEXT" => .contentType .text
      | "HTML" => .contentType .html
      | other => .unknownType other
    else .unknownKey

def apply (current : ContentType) : Pragma → ContentType
  | contentType t => t
  | _ => current

/-- What a log says of a pragma that was read from the given content. -/
def events (content : String) : Pragma → List Event
  | unknownKey => [.pragmaIgnored content]
  | unknownType name => [.contentTypeIgnored name]
  | _ => []

end Pragma

end Mustache
