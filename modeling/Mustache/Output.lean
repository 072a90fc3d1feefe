/-!
The text that is written while a template is rendered, and the indentation of the
templates that are being included. Indentation stands before every line of template
text; a value is written as it is, so a line break inside a value is not indented.
-/

namespace Mustache

structure Output where
  buffer : String := ""
  /-- What stands before each line that is begun. -/
  indent : String := ""
  /-- Whether the next character begins a line of template text. -/
  lineStart : Bool := true
deriving DecidableEq, Repr, Inhabited

namespace Output

/-- A text with the indentation before each of its lines, of which the first one
counts only if it begins a line. -/
def indentLines (indent : List Char) (lineStart : Bool) : List Char → List Char
  | [] => []
  | c :: s =>
    (if lineStart then indent else []) ++ c :: indentLines indent (c == '\n') s

/-- Whether a line begins after a text. -/
def lineStartAfter (lineStart : Bool) : List Char → Bool
  | [] => lineStart
  | c :: s => lineStartAfter (c == '\n') s

def writeText (out : Output) (s : String) : Output :=
  { out with
    buffer := out.buffer ++ String.ofList (indentLines out.indent.toList out.lineStart s.toList)
    lineStart := lineStartAfter out.lineStart s.toList }

/-- Writes a value. An empty value changes nothing. -/
def writeValue (out : Output) (s : String) : Output :=
  if s.isEmpty then out
  else
    { out with
      buffer := out.buffer ++ (if out.lineStart then out.indent else "") ++ s
      lineStart := false }

/-- Enters a region with more indentation, which begins on a new line if it has any. -/
def enter (out : Output) (indent : String) : Output :=
  { out with
    indent := out.indent ++ indent
    lineStart := out.lineStart || !indent.isEmpty }

/-- Leaves a region and goes back to an indentation. -/
def leave (out : Output) (indent : String) : Output :=
  { out with indent }

end Output

inductive Piece where
  | text (s : String)
  | value (s : String)
  /-- The pieces of an included template. -/
  | region (indent : String) (pieces : List Piece)
  /-- A template was looked up; nothing is written. -/
  | lookup (name : String)
deriving Repr, Inhabited

namespace Output

mutual

def write (out : Output) : Piece → Output
  | .text s => out.writeText s
  | .value s => out.writeValue s
  | .region indent pieces => ((out.enter indent).writeAll pieces).leave out.indent
  | .lookup _ => out
termination_by structural piece => piece

def writeAll (out : Output) : List Piece → Output
  | [] => out
  | piece :: rest => (out.write piece).writeAll rest
termination_by structural pieces => pieces

end

end Output

mutual

/-- The names that were looked up for a piece. -/
def Piece.lookups : Piece → List String
  | .text _ => []
  | .value _ => []
  | .region _ pieces => allLookups pieces
  | .lookup name => [name]
termination_by structural piece => piece

/-- The names that were looked up for pieces, in order. -/
def Piece.allLookups : List Piece → List String
  | [] => []
  | piece :: rest => piece.lookups ++ allLookups rest
termination_by structural pieces => pieces

end

end Mustache
