import Mustache.Text.Hex
import Mustache.Yaml.Basic

namespace Mustache.Yaml

/-- The characters that stand for themselves in a tag. -/
def isTagChar (c : Char) : Bool :=
  c.isAlphanum || "-_;/?:@&=+$,.~*'()[]".toList.contains c

/-- What stands for a character in a tag: itself or its bytes. -/
def escapeTagChar (c : Char) : List Char :=
  if isTagChar c then [c]
  else (String.utf8EncodeChar c).flatMap fun byte => '%' :: Text.capitalHex 2 byte.toNat

/-- A tag with its exclamation mark, up to the first NUL. -/
def fullTag (tag : String) : List Char :=
  let name := (tagName tag).toList
  (if name.head? == some '!' then name else '!' :: name).takeWhile (· != '\x00')

/-- The text of a tag. One without a name goes between angle brackets. -/
def tagText (tag : String) : List Char :=
  match fullTag tag with
  | mark :: c :: name => mark :: (c :: name).flatMap escapeTagChar
  | tag => '!' :: '<' :: tag.flatMap escapeTagChar ++ ['>']

end Mustache.Yaml
