import Mustache.Configuration

namespace Mustache

inductive Event where
  /-- A delimiters tag took effect. -/
  | delimitersChanged (next : Delimiters)
  /-- A pragma has an unknown key. -/
  | pragmaIgnored (content : String)
  /-- A content type pragma names an unknown type. -/
  | contentTypeIgnored (name : String)
  /-- A template was compiled; the number is that of its outermost nodes. -/
  | compiled (contentType : ContentType) (nodes : Nat)
  /-- The rendering of a template begins. -/
  | rendering (contentType : ContentType)
  /-- A template is looked up by its name. -/
  | lookup (name : String)
deriving DecidableEq, Repr

namespace Event

/-- The beginning of a compilation or rendering matters more than its details. -/
def level : Event → String
  | compiled _ _ => "DEBUG"
  | rendering _ => "DEBUG"
  | _ => "TRACE"

def message : Event → String
  | delimitersChanged next => s!"delimiters changed to `{next.opener}` `{next.closer}`"
  | pragmaIgnored content => s!"ignoring pragma `{content}`"
  | contentTypeIgnored name => s!"ignoring content type `{name}`"
  | compiled contentType nodes =>
    s!"compiled {contentType.title} template with {nodes} top-level nodes"
  | rendering contentType => s!"rendering {contentType.title} template"
  | lookup name => s!"looking up partial `{name}`"

def line (e : Event) : String :=
  e.level ++ " " ++ e.message

end Event

end Mustache
