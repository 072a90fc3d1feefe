import Mustache.Proofs.Text.Offsets
import Mustache.Token.Scan

/-!
Reading a source by offsets. A `Reader` keeps the whole source and how far it has come, and takes
what it looks at out of the source between two offsets; there is no result where it would take out
a part that is not there. A call gives the next text or the next tag, and a tag that was found
behind a text is kept for the call after it.
-/

namespace Mustache

open Text (find? size slice? trim trimStart)

structure Reader where
  source : List Char
  opener : List Char
  closer : List Char
  /-- The offset of what has still to be read. -/
  offset : Nat
  /-- The tag behind the text that was given last. -/
  pending : Option Tag
  /-- The offset up to which lines were counted. -/
  counted : Nat
  /-- The line at that offset. -/
  line : Nat
  /-- The offset at which that line starts. -/
  lineStart : Nat

/-- Where a tag stands: the text before it ends, the tag starts and ends, and what is behind it
starts. The margins of a tag that is alone on its line are in between. -/
structure TagPlace where
  textEnd : Nat
  start : Nat
  stop : Nat
  next : Nat
deriving DecidableEq, Repr

inductive Reading where
  /-- Everything has been read. -/
  | ended
  /-- The tag behind the text that was given before is given. -/
  | pending (tag : Tag)
  /-- Only text is left. -/
  | rest (text : List Char)
  | fault (start : Nat) (error : SyntaxError)
  /-- A tag is found. The text before it is given first, if there is any. -/
  | tag (place : TagPlace) (text : List Char) (tag : Tag)

def Reading.item? : Reading → Option (Except SyntaxError Token)
  | ended => none
  | pending t => some (.ok (.tag t))
  | rest text => some (.ok (.text (String.ofList text)))
  | fault _ e => some (.error e)
  | tag _ text t => some (.ok (if text.isEmpty then .tag t else .text (String.ofList text)))

structure TagExtent where
  kind : TagKind
  content : List Char
  stop : Nat

namespace Reader

def start (d : Delimiters) (source : String) : Reader :=
  ⟨source.toList, d.opener.toList, d.closer.toList, 0, none, 0, 1, 0⟩

/-- The line and its start behind a text at an offset. -/
def countLines (offset line lineStart : Nat) : List Char → Nat × Nat
  | [] => (line, lineStart)
  | c :: s =>
    if c = '\n' then countLines (offset + c.utf8Size) (line + 1) (offset + 1) s
    else countLines (offset + c.utf8Size) line lineStart s

/-- The place of an offset. Lines are counted from where they were counted before. -/
def positionAt (r : Reader) (offset : Nat) : Option (Position × Reader) := do
  let passed ← slice? r.source r.counted offset
  let (line, lineStart) := countLines r.counted r.line r.lineStart passed
  let before ← slice? r.source lineStart offset
  return (⟨line, before.length + 1, offset⟩, { r with counted := offset, line, lineStart })

def sigilKind? : Char → Option TagKind
  | '&' => some (.interpolation false)
  | '#' => some (.sect false)
  | '^' => some (.sect true)
  | '/' => some .closing
  | '>' => some .inclusion
  | '<' => some .parent
  | '$' => some .block
  | '!' => some .comment
  | '%' => some .pragma
  | _ => none

/-- The kind of a tag, and its content without the sigil. -/
def classify (raw : List Char) : Option (TagKind × List Char) :=
  match raw.head?.bind sigilKind? with
  | none => some (.interpolation true, raw)
  | some kind => (slice? raw 1 (size raw)).map fun content => (kind, trimStart content)

/-- What ends a tag, by the first character behind its opener, and how many bytes are skipped to
search for it. -/
def terminator (closer : List Char) (first : Char) : List Char × Nat :=
  if first = '{' then ('}' :: closer, 1)
  else if first = '=' then ('=' :: closer, 1)
  else (closer, 0)

/-- The kind and the content of a tag, by the first character behind its opener. -/
def kindOf (first : Char) (raw : List Char) : Option (Except SyntaxCause (TagKind × List Char)) :=
  if first = '=' then
    match Delimiters.read? raw with
    | none => some (.error .invalidDelimiters)
    | some next => some (.ok (.delimiters next, raw))
  else do
    let (kind, content) ← if first = '{' then some (.interpolation false, raw) else classify raw
    return if content.isEmpty && kind != .comment then .error .emptyTag else .ok (kind, content)

def extent (r : Reader) (start : Nat) : Option (Except SyntaxCause TagExtent) := do
  let inner := start + size r.opener
  let rest ← slice? r.source inner (size r.source)
  match rest.head? with
  | none => return .error .unclosedTag
  | some first =>
    let (ending, skip) := terminator r.closer first
    let searched ← slice? rest skip (size rest)
    match find? ending searched with
    | none => return .error .unclosedTag
    | some length =>
      let raw ← slice? rest skip (skip + length)
      let kind ← kindOf first (trim raw)
      return kind.map fun (kind, content) => ⟨kind, content, inner + skip + length + size ending⟩

/-- The text without a carriage return at its end. -/
def stripReturn (s : List Char) : List Char :=
  if s.getLast? = some '\r' then s.dropLast else s

/-- The line before an offset, from its start if it has not been read and is blank. -/
def blankBefore (r : Reader) (start : Nat) : Option (Option Nat) := do
  let before ← slice? r.source 0 start
  let lineStart := Text.lineStart before
  if lineStart < r.offset then return none
  else
    let line ← slice? r.source lineStart start
    return if line.all isMargin then some lineStart else none

/-- The line behind an offset, up to what is behind its end if it is blank. -/
def blankBehind (r : Reader) (stop : Nat) : Option (Option Nat) := do
  let rest ← slice? r.source stop (size r.source)
  let (line, next) ← match find? ['\n'] rest with
    | none => some (rest, size r.source)
    | some feed => (slice? rest 0 feed).map fun line => (line, stop + feed + 1)
  return if (stripReturn line).all isMargin then some next else none

/-- The start of the line that a tag is alone on, and the offset of what is behind the line. -/
def aloneOnLine (r : Reader) (kind : TagKind) (start stop : Nat) : Option (Option (Nat × Nat)) :=
  if kind.standsAlone then do
    match ← r.blankBefore start with
    | none => return none
    | some lineStart => return (← r.blankBehind stop).map fun next => (lineStart, next)
  else some none

/-- The reader with the delimiters that are in effect behind a tag. -/
def withDelimiters (r : Reader) : TagKind → Reader
  | .delimiters next => { r with opener := next.opener.toList, closer := next.closer.toList }
  | _ => r

/-- The margins of a tag, and the offsets around it. -/
def place (r : Reader) (tag : TagExtent) (start : Nat) : Option (TagPlace × Option Margins) := do
  match ← r.aloneOnLine tag.kind start tag.stop with
  | none => return (⟨start, start, tag.stop, tag.stop⟩, none)
  | some (lineStart, next) =>
    let indent ← slice? r.source lineStart start
    let trailing ← slice? r.source tag.stop next
    return (⟨lineStart, start, tag.stop, next⟩,
      some ⟨String.ofList indent, String.ofList trailing⟩)

/-- Reads the tag that starts at an offset, and the text before it. -/
def readTag (r : Reader) (start : Nat) : Option (Reading × Reader) := do
  let (position, r) ← r.positionAt start
  match ← r.extent start with
  | .error cause => return (.fault start ⟨cause, position⟩, { r with offset := size r.source })
  | .ok tag =>
    let r := r.withDelimiters tag.kind
    let (place, margins) ← r.place tag start
    let text ← slice? r.source r.offset place.textEnd
    let lexeme ← slice? r.source start tag.stop
    let found : Tag :=
      ⟨tag.kind, String.ofList tag.content, position, String.ofList lexeme, margins⟩
    return (.tag place text found,
      { r with offset := place.next, pending := if text.isEmpty then none else some found })

def read (r : Reader) : Option (Reading × Reader) :=
  match r.pending with
  | some tag => some (.pending tag, { r with pending := none })
  | none =>
    if size r.source ≤ r.offset then some (.ended, r)
    else do
      let tail ← slice? r.source r.offset (size r.source)
      match find? r.opener tail with
      | none => return (.rest tail, { r with offset := size r.source })
      | some length => r.readTag (r.offset + length)

/-- A reader becomes another one while it makes calls. -/
inductive Calls : Reader → List Reading → Reader → Prop where
  | here {r : Reader} : Calls r [] r
  | call {r next later : Reader} {reading : Reading} {readings : List Reading}
      (read : r.read = some (reading, next)) (behind : Calls next readings later) :
      Calls r (reading :: readings) later

end Reader

end Mustache
