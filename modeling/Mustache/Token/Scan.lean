import Mustache.SyntaxError
import Mustache.Text.Search
import Mustache.Token.Basic

/-!
Cutting a source into tokens. A `Scanner` holds what is still to be read; each step
takes the text up to the next open delimiter and the tag after it. A delimiters tag
takes effect at once. The scan ends with the source or with the first fault.
-/

namespace Mustache

open Text (cut trim trimStart)

namespace Delimiters

/-- The content of a delimiters tag: two delimiters with white space between them. -/
def read? (content : List Char) : Option Delimiters :=
  let opener := content.takeWhile (!Text.isBlank ·)
  let closer := trimStart (content.dropWhile (!Text.isBlank ·))
  new? (String.ofList opener) (String.ofList closer)

end Delimiters

/-- A tag after its open delimiter. -/
structure TagBody where
  kind : TagKind
  content : List Char
  /-- The characters up to the end of the tag. -/
  span : List Char
  /-- The source after the tag. -/
  rest : List Char

namespace TagBody

/-- The kind that a sigil stands for, and the content after it. -/
def classify (raw : List Char) : TagKind × List Char :=
  match raw with
  | '&' :: rest => (.interpolation false, trimStart rest)
  | '#' :: rest => (.sect false, trimStart rest)
  | '^' :: rest => (.sect true, trimStart rest)
  | '/' :: rest => (.closing, trimStart rest)
  | '>' :: rest => (.inclusion, trimStart rest)
  | '<' :: rest => (.parent, trimStart rest)
  | '$' :: rest => (.block, trimStart rest)
  | '!' :: rest => (.comment, trimStart rest)
  | '%' :: rest => (.pragma, trimStart rest)
  | _ => (.interpolation true, raw)

/-- Only comments may be empty. -/
def checked (body : TagBody) : Except SyntaxCause TagBody :=
  if body.content.isEmpty && body.kind != .comment then .error .emptyTag else .ok body

/-- Reads a tag after its open delimiter. A brace or an equals sign that follows the
delimiter directly has its counterpart before the close delimiter; all other sigils
are found after trimming. -/
def read (d : Delimiters) (s : List Char) : Except SyntaxCause TagBody :=
  let closer := d.closer.toList
  match s with
  | '{' :: inner =>
    match cut ('}' :: closer) inner with
    | none => .error .unclosedTag
    | some (raw, rest) =>
      checked ⟨.interpolation false, trim raw, '{' :: raw ++ '}' :: closer, rest⟩
  | '=' :: inner =>
    match cut ('=' :: closer) inner with
    | none => .error .unclosedTag
    | some (raw, rest) =>
      match Delimiters.read? (trim raw) with
      | none => .error .invalidDelimiters
      | some next => .ok ⟨.delimiters next, trim raw, '=' :: raw ++ '=' :: closer, rest⟩
  | _ =>
    match cut closer s with
    | none => .error .unclosedTag
    | some (raw, rest) =>
      let (kind, content) := classify (trim raw)
      checked ⟨kind, content, raw ++ closer, rest⟩

end TagBody

/-- The blanks that may stand beside a tag on its own line. -/
def isMargin (c : Char) : Bool :=
  c == ' ' || c == '\t'

/-- Splits off the blanks at the end of a text, if they reach back to the start of a
line. The flag tells whether the text itself starts a line. -/
def splitIndent? (lineStart : Bool) (text : List Char) : Option (List Char × List Char) :=
  let indent := (text.reverse.takeWhile isMargin).reverse
  match text.reverse.dropWhile isMargin with
  | [] => if lineStart then some ([], indent) else none
  | c :: before => if c == '\n' then some ((c :: before).reverse, indent) else none

/-- Splits off blanks and the end of the line, which the end of the source also is. -/
def splitLineEnd? (s : List Char) : Option (List Char × List Char) :=
  let blanks := s.takeWhile isMargin
  match s.dropWhile isMargin with
  | [] => some (blanks, [])
  | '\n' :: rest => some (blanks ++ ['\n'], rest)
  | '\r' :: '\n' :: rest => some (blanks ++ ['\r', '\n'], rest)
  | ['\r'] => some (blanks ++ ['\r'], [])
  | _ => none

/-- A source that is read in part. -/
structure Scanner where
  /-- What is still to be read. -/
  rest : List Char
  /-- The place of its first character. -/
  position : Position
  /-- Whether it starts on a line of which no tag has taken a part. -/
  lineStart : Bool
  delimiters : Delimiters

inductive ScanStep where
  /-- Only text is left. -/
  | done (text : List Char)
  | fault (error : SyntaxError)
  | tag (text : List Char) (tag : Tag) (next : Scanner)

namespace Scanner

def delimitersAfter (d : Delimiters) : TagKind → Delimiters
  | .delimiters next => next
  | _ => d

/-- A tag between the text before it and the source after it. Alone on its line it
takes the rest of the line with it. -/
def place (s : Scanner) (text : List Char) (body : TagBody) : ScanStep :=
  let position := s.position.advance text
  let lexeme := s.delimiters.opener.toList ++ body.span
  let delimiters := delimitersAfter s.delimiters body.kind
  let tag (margins : Option Margins) : Tag :=
    ⟨body.kind, String.ofList body.content, position, String.ofList lexeme, margins⟩
  let inline : ScanStep :=
    .tag text (tag none) ⟨body.rest, position.advance lexeme, false, delimiters⟩
  if body.kind.standsAlone then
    match splitIndent? s.lineStart text, splitLineEnd? body.rest with
    | some (before, indent), some (trailing, rest) =>
      .tag before (tag (some ⟨String.ofList indent, String.ofList trailing⟩))
        ⟨rest, position.advance (lexeme ++ trailing), true, delimiters⟩
    | _, _ => inline
  else inline

def step (s : Scanner) : ScanStep :=
  match cut s.delimiters.opener.toList s.rest with
  | none => .done s.rest
  | some (text, body) =>
    match TagBody.read s.delimiters body with
    | .error cause => .fault ⟨cause, s.position.advance text⟩
    | .ok body => s.place text body

def start (delimiters : Delimiters) (source : String) : Scanner :=
  ⟨source.toList, .start, true, delimiters⟩

end Scanner

theorem TagBody.rest_of_checked {body result : TagBody} (ok : body.checked = .ok result) :
    result = body := by
  unfold checked at ok
  split at ok
  · simp at ok
  · simpa using ok.symm

theorem TagBody.length_rest_le {d : Delimiters} {s : List Char} {body : TagBody}
    (ok : read d s = .ok body) : body.rest.length ≤ s.length := by
  unfold read at ok
  simp only at ok
  split at ok
  · split at ok
    · simp at ok
    · rename_i found
      rw [rest_of_checked ok]
      have := Text.length_lt_of_cut (by simp) found
      simp
      omega
  · split at ok
    · simp at ok
    · rename_i found
      split at ok
      · simp at ok
      · obtain rfl := Except.ok.inj ok
        have := Text.length_lt_of_cut (by simp) found
        simp
        omega
  · split at ok
    · simp at ok
    · rename_i found
      rw [rest_of_checked ok]
      exact Nat.le_of_lt (Text.length_lt_of_cut d.closer_ne_nil found)

theorem length_splitLineEnd?_le {s trailing rest : List Char}
    (split : splitLineEnd? s = some (trailing, rest)) : rest.length ≤ s.length := by
  have dropped := (List.dropWhile_sublist isMargin (l := s)).length_le
  unfold splitLineEnd? at split
  simp only at split
  split at split
  all_goals simp_all
  all_goals omega

theorem Scanner.length_rest_lt {s next : Scanner} {text : List Char} {tag : Tag}
    (found : s.step = .tag text tag next) : next.rest.length < s.rest.length := by
  unfold step at found
  split at found
  · simp at found
  · rename_i opener
    have first := Text.length_lt_of_cut s.delimiters.opener_ne_nil opener
    split at found
    · simp at found
    · rename_i body read
      have second := TagBody.length_rest_le read
      unfold place at found
      simp only at found
      split at found
      · split at found
        · rename_i ending
          have third := length_splitLineEnd?_le ending
          simp only [ScanStep.tag.injEq] at found
          obtain ⟨-, -, rfl⟩ := found
          simp
          omega
        · simp only [ScanStep.tag.injEq] at found
          obtain ⟨-, -, rfl⟩ := found
          simp
          omega
      · simp only [ScanStep.tag.injEq] at found
        obtain ⟨-, -, rfl⟩ := found
        simp
        omega

/-- All tokens up to the end of a source or to its first fault. -/
structure Scan where
  tokens : List Token
  error : Option SyntaxError
deriving DecidableEq, Repr

namespace Scan

/-- A text token, unless there is no text. -/
def ofText (text : List Char) : List Token :=
  if text.isEmpty then [] else [.text (String.ofList text)]

/-- The scan of what a scanner has still to read. -/
def ofScanner (s : Scanner) : Scan :=
  match _found : s.step with
  | .done text => ⟨ofText text, none⟩
  | .fault error => ⟨[], some error⟩
  | .tag text tag next =>
    let others := ofScanner next
    ⟨ofText text ++ .tag tag :: others.tokens, others.error⟩
termination_by s.rest.length
decreasing_by exact Scanner.length_rest_lt _found

def ofSource (delimiters : Delimiters) (source : String) : Scan :=
  ofScanner (.start delimiters source)

end Scan

end Mustache
