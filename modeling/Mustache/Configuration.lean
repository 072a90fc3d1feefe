import Mustache.Json.Basic
import Mustache.Text.Blank

namespace Mustache

inductive ContentType where
  /-- Escaped variables are escaped for HTML. -/
  | html
  /-- Variables are written as they are. -/
  | text
deriving DecidableEq, Repr, Inhabited

def ContentType.name : ContentType → String
  | html => "html"
  | text => "text"

def ContentType.title : ContentType → String
  | html => "Html"
  | text => "Text"

/-- A delimiter is not empty and holds neither white space nor an equals sign. -/
def isDelimiter (s : List Char) : Bool :=
  !s.isEmpty && s.all fun c => !Text.isBlank c && c != '='

/-- The text that opens a tag and the text that closes it. -/
structure Delimiters where
  opener : String
  closer : String
  opener_valid : isDelimiter opener.toList = true
  closer_valid : isDelimiter closer.toList = true
deriving DecidableEq, Repr

namespace Delimiters

/-- The pair of two texts, if both are delimiters. -/
def new? (opener closer : String) : Option Delimiters :=
  if h : isDelimiter opener.toList = true ∧ isDelimiter closer.toList = true then
    some ⟨opener, closer, h.1, h.2⟩
  else none

def braces : Delimiters :=
  ⟨"\x7b\x7b", "\x7d\x7d", by decide, by decide⟩

instance : Inhabited Delimiters := ⟨braces⟩

theorem opener_ne_nil (d : Delimiters) : d.opener.toList ≠ [] := by
  intro empty
  have := d.opener_valid
  simp [isDelimiter, empty] at this

theorem closer_ne_nil (d : Delimiters) : d.closer.toList ≠ [] := by
  intro empty
  have := d.closer_valid
  simp [isDelimiter, empty] at this

end Delimiters

structure Configuration where
  contentType : ContentType := .html
  delimiters : Delimiters := .braces
deriving DecidableEq, Repr, Inhabited

inductive ConfigurationError where
  /-- A part has the wrong form. -/
  | malformed
  /-- Two texts are given that do not make a pair of delimiters. -/
  | delimiters (opener closer : String)
deriving DecidableEq, Repr

/-- Only invalid delimiters have a message. -/
def ConfigurationError.message? : ConfigurationError → Option String
  | malformed => none
  | delimiters opener closer => some s!"invalid delimiters `{opener}` `{closer}`"

/-- A content type is its name, or an object whose one key is the name, with null. -/
def ContentType.ofJson : Json → Except ConfigurationError ContentType
  | .string "html" => .ok html
  | .string "text" => .ok text
  | .object [("html", .null)] => .ok html
  | .object [("text", .null)] => .ok text
  | _ => .error .malformed

/-- A pair of delimiters is an array of two strings. -/
def Delimiters.ofJson : Json → Except ConfigurationError Delimiters
  | .array [.string opener, .string closer] =>
    match new? opener closer with
    | some d => .ok d
    | none => .error (.delimiters opener closer)
  | _ => .error .malformed

namespace Configuration

/-- Reads a part that may be missing. -/
private def part {α : Type} (read : Json → Except ConfigurationError α) (standard : α) :
    Option Json → Except ConfigurationError α
  | none => .ok standard
  | some v => read v

/-- Reads an object by its keys, of which unknown ones are ignored, or an array by
position. Missing parts have their standard values. -/
def ofJson : Json → Except ConfigurationError Configuration
  | .object members => do
    let contentType ← part ContentType.ofJson .html (members.lookup "content_type")
    let delimiters ← part Delimiters.ofJson .braces (members.lookup "delimiters")
    return { contentType, delimiters }
  | .array items => do
    let contentType ← part ContentType.ofJson .html items[0]?
    let delimiters ← part Delimiters.ofJson .braces items[1]?
    if items.length ≤ 2 then return { contentType, delimiters } else .error .malformed
  | _ => .error .malformed

end Configuration

end Mustache
