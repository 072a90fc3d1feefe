import Mustache.Configuration
import Mustache.Position

/-!
The tokens of a source: runs of literal text, and tags. A tag keeps all that it was
read from, so a source can be put together again from its tokens.
-/

namespace Mustache

inductive TagKind where
  /-- Writes a value, escaped or as it is. -/
  | interpolation (escaped : Bool)
  /-- Opens a section; an inverted one stands for what is not there. -/
  | sect (inverted : Bool)
  /-- Closes the innermost open scope. -/
  | closing
  /-- Includes another template. -/
  | inclusion
  /-- Opens the inclusion of a template some of whose blocks are replaced. -/
  | parent
  /-- Opens a block that can be replaced. -/
  | block
  | comment
  /-- Changes the delimiters of the tags that follow. -/
  | delimiters (next : Delimiters)
  | pragma
deriving DecidableEq, Repr

namespace TagKind

/-- Whether a tag of this kind takes its line with it when nothing else is on it. -/
def standsAlone : TagKind → Bool
  | interpolation _ => false
  | _ => true

/-- Whether a tag of this kind is closed by another tag. -/
def opensScope : TagKind → Bool
  | sect _ => true
  | parent => true
  | block => true
  | _ => false

end TagKind

/-- What stands around a tag that is alone on its line. -/
structure Margins where
  /-- The blanks before the tag. -/
  indent : String
  /-- The blanks and the line end after the tag. -/
  trailing : String
deriving DecidableEq, Repr

structure Tag where
  kind : TagKind
  /-- What the tag holds besides its sigil, without white space at its ends. -/
  content : String
  /-- Where the open delimiter stands. -/
  position : Position
  /-- The tag's characters, delimiters included. -/
  lexeme : String
  /-- The rest of the line, for a tag that is alone on it. -/
  margins : Option Margins
deriving DecidableEq, Repr

/-- The blanks before a tag that is alone on its line. -/
def Tag.indent (t : Tag) : String :=
  match t.margins with
  | some m => m.indent
  | none => ""

inductive Token where
  | text (s : String)
  | tag (t : Tag)
deriving DecidableEq, Repr

end Mustache
