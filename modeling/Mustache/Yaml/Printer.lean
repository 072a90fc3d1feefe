import Mustache.Text.Blank
import Mustache.Yaml.Scalar
import Mustache.Yaml.Tag

/-!
YAML text in block form. Collections without items are written `[]` and as a pair of
braces; a sequence inside a mapping is not indented; a mapping key that takes several
lines, or is long, stands behind a question mark. Some values have no text, and
`Yaml.isWritable` tells which.
-/

namespace Mustache.Yaml

/-- Whether a value takes lines of its own: a collection with items. -/
def isBlock : Yaml → Bool
  | .sequence (_ :: _) => true
  | .mapping (_ :: _) => true
  | _ => false

def untagged : Yaml → Yaml
  | .tagged _ v => untagged v
  | v => v

def truthText (b : Bool) : String :=
  if b then "true" else "false"

/-- The bytes that a value takes as a key on one line: those of its tag and of its
text before quoting. A value of more than one line cannot be such a key. -/
def keySize? : Yaml → Option Nat
  | .null => some "null".utf8ByteSize
  | .bool b => some (truthText b).utf8ByteSize
  | .number n => some (n.render Number.yamlStyle).utf8ByteSize
  | .string s => if s.toList.any isBreak then none else some s.utf8ByteSize
  | .sequence items => if items.isEmpty then some 0 else none
  | .mapping entries => if entries.isEmpty then some 0 else none
  | .tagged tag v => (keySize? v).map ((String.ofList (fullTag tag)).utf8ByteSize + ·)

/-- A simple key stands on one line before its colon and has at most 128 bytes. -/
def isSimpleKey (key : Yaml) : Bool :=
  (keySize? key).any (· ≤ 128)

/-- Goes on with a new line. A literal block may have ended its last line itself. -/
def onNewLine (indent : Nat) (before after : List Char) : List Char :=
  before ++ (if before.getLast?.any isBreak then [] else ['\n']) ++ pad indent ++ after

def stack (indent : Nat) : List (List Char) → List Char
  | [] => []
  | [block] => block
  | block :: rest => onNewLine indent block (stack indent rest)

/-- The indentation of a value behind the colon of a simple key: a sequence keeps that
of the mapping. -/
def indentAfterName (indent : Nat) (value : Yaml) : Nat :=
  match untagged value with
  | .sequence (_ :: _) => indent
  | _ => indent + 2

/-- The indentation of a key behind a question mark, and of its value: only a sequence
with a tag keeps that of the mapping. -/
def indentAfterMark (indent : Nat) (value : Yaml) : Nat :=
  match value with
  | .tagged _ _ => indentAfterName indent value
  | _ => indent + 2

mutual

/-- The text of a value whose first line is begun and whose further lines start after
so many blanks. -/
def block (indent : Nat) : Yaml → List Char
  | .null => "null".toList
  | .bool b => (truthText b).toList
  | .number n => (n.render Number.yamlStyle).toList
  | .string s => stringText indent s
  | .sequence [] => ['[', ']']
  | .sequence (item :: items) => stack indent (itemBlocks indent (item :: items))
  | .mapping [] => ['\x7b', '\x7d']
  | .mapping (entry :: entries) => stack indent (entryBlocks indent (entry :: entries))
  | .tagged tag v =>
    if isBlock v then onNewLine indent (tagText tag) (block indent v)
    else tagText tag ++ ' ' :: block indent v
termination_by structural v => v

/-- The items of a sequence, each behind a dash. -/
def itemBlocks (indent : Nat) : List Yaml → List (List Char)
  | [] => []
  | item :: rest => ('-' :: ' ' :: block (indent + 2) item) :: itemBlocks indent rest
termination_by structural items => items

def entryBlocks (indent : Nat) : List (Yaml × Yaml) → List (List Char)
  | [] => []
  | (key, value) :: rest =>
    let entry :=
      if isSimpleKey key then
        let name := block (indent + 2) key ++ [':']
        let inner := indentAfterName indent value
        if isBlock value then onNewLine inner name (block inner value)
        else name ++ ' ' :: block inner value
      else
        onNewLine indent ('?' :: ' ' :: block (indentAfterMark indent key) key)
          (':' :: ' ' :: block (indentAfterMark indent value) value)
    entry :: entryBlocks indent rest
termination_by structural entries => entries

end

/-- The values that are handed over as one entry: mappings of one entry, and tagged
values, whose entry is the tag with the value. -/
def isLoneEntry : Yaml → Bool
  | .mapping [_] => true
  | .tagged _ _ => true
  | _ => false

mutual

/-- Whether a value has a text. A tag cannot stand on another tag. A mapping of one
entry and a tag are told apart by their key, so a mapping of one entry that has no tag
cannot have a key of either kind. -/
def isWritable (hasTag : Bool) : Yaml → Bool
  | .sequence items => areWritable items
  | .mapping entries =>
    (hasTag || !entries.any (fun (key, _) => entries.length == 1 && isLoneEntry key)) &&
      entriesAreWritable entries
  | .tagged _ v => !hasTag && isWritable true v
  | _ => true
termination_by structural v => v

def areWritable : List Yaml → Bool
  | [] => true
  | item :: rest => isWritable false item && areWritable rest
termination_by structural items => items

def entriesAreWritable : List (Yaml × Yaml) → Bool
  | [] => true
  | (key, value) :: rest =>
    isWritable false key && isWritable false value && entriesAreWritable rest
termination_by structural entries => entries

end

/-- The text of a value without white space at its end. -/
def text? (v : Yaml) : Option String :=
  if isWritable false v then
    let indent := if isBlock (untagged v) then 0 else 2
    some (String.ofList (Text.trimEnd (block indent v)))
  else none

end Mustache.Yaml
