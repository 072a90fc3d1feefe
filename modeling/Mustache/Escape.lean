import Mustache.Configuration

namespace Mustache

/-- What is written for a text in a template of a content type. -/
abbrev Escaper : Type := String → ContentType → String

namespace Escape

/-- What stands for a character in HTML. -/
def htmlChar (c : Char) : List Char :=
  match c with
  | '&' => "&amp;".toList
  | '<' => "&lt;".toList
  | '>' => "&gt;".toList
  | '"' => "&quot;".toList
  | '\x27' => "&#39;".toList
  | _ => [c]

/-- The text with the five characters that HTML gives a meaning replaced. -/
def html (s : String) : String :=
  String.ofList (s.toList.flatMap htmlChar)

/-- Escapes in HTML templates only. -/
def standard : Escaper
  | s, .html => html s
  | s, .text => s

def identity : Escaper
  | s, _ => s

/-- Marks every text with the content type it is written for. -/
def mark : Escaper
  | s, contentType => "<" ++ contentType.name ++ ":" ++ s ++ ">"

def twice : Escaper
  | s, contentType => standard (standard s contentType) contentType

def drop : Escaper
  | _, _ => ""

def named? : String → Option Escaper
  | "html" => some standard
  | "identity" => some identity
  | "mark" => some mark
  | "double" => some twice
  | "drop" => some drop
  | _ => none

end Escape

end Mustache
