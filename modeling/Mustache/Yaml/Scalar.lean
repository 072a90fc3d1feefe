import Mustache.Yaml.Resolution

/-!
The text of a scalar in block form. A string is written plain where that is possible,
else between single quotes; one of several lines is written as a literal block. Where
a style cannot show every character of the string, double quotes take its place.
-/

namespace Mustache.Yaml

def isBreak (c : Char) : Bool :=
  c == '\n' || c == '\r' || c == '\u0085' || c == '\u2028' || c == '\u2029'

/-- The characters that may stand for themselves. -/
def isPrintable (c : Char) : Bool :=
  c == '\n' || (' ' ≤ c && c ≤ '~') ||
    ('\u00a0' ≤ c && c != '\ufeff' && c != '\ufffe' && c != '\uffff')

/-- Whether somewhere a character of the second kind follows one of the first. -/
def hasAdjacent (p q : Char → Bool) : List Char → Bool
  | c :: d :: rest => (p c && q d) || hasAdjacent p q (d :: rest)
  | _ => false

/-- Whether a mark makes plain text mean something else: an indicator at its start, a
colon before a blank or at the end, a number sign after a blank, or the marks of a
document's start and end. -/
def hasIndicator (s : List Char) : Bool :=
  let opening := match s with
    | [] => false
    | c :: rest =>
      "#,[]\x7b\x7d&*!|>'\"%@\x60".toList.contains c ||
        ((c == '-' || c == '?') && (rest.isEmpty || rest.head? == some ' '))
  opening || s.getLast? == some ':' ||
    hasAdjacent (· == ':') (· == ' ') s || hasAdjacent (· == ' ') (· == '#') s ||
    "---".toList.isPrefixOf s || "...".toList.isPrefixOf s

/-- Whether the characters of a string, and the white space around its line breaks,
can be kept without escapes. -/
def isClear (s : List Char) : Bool :=
  s.all isPrintable && !hasAdjacent (· == ' ') isBreak s

/-- A string can be written plain when it is clear, stands on one line without a blank
at its ends, and no mark makes it something else. -/
def allowsPlain (s : List Char) : Bool :=
  isClear s && !s.any isBreak && s.head? != some ' ' && s.getLast? != some ' ' && !hasIndicator s

/-- Between single quotes no blank can follow a line break. -/
def allowsSingleQuotes (s : List Char) : Bool :=
  isClear s && !hasAdjacent isBreak (· == ' ') s

/-- A literal block cannot end in a blank. -/
def allowsLiteral (s : List Char) : Bool :=
  isClear s && s.getLast? != some ' '

inductive Style where
  | plain
  | singleQuoted
  | doubleQuoted
  | literal
deriving DecidableEq, Repr

def Style.ofString (s : List Char) : Style :=
  if s.contains '\n' then
    if allowsLiteral s then .literal else .doubleQuoted
  else if !isAmbiguous s && allowsPlain s then .plain
  else if allowsSingleQuotes s then .singleQuoted
  else .doubleQuoted

def pad (indent : Nat) : List Char :=
  List.replicate indent ' '

/-- Puts blanks in front of every line that is not empty. The first line is fresh or
goes on with what stands before it. -/
def padLines (indent : Nat) (fresh : Bool) : List Char → List Char
  | [] => []
  | c :: rest =>
    if isBreak c then c :: padLines indent true rest
    else (if fresh then pad indent else []) ++ c :: padLines indent false rest

/-- What stands for a character between double quotes. -/
def escape (c : Char) : List Char :=
  match c with
  | '\x00' => ['\\', '0']
  | '\x07' => ['\\', 'a']
  | '\x08' => ['\\', 'b']
  | '\t' => ['\\', 't']
  | '\n' => ['\\', 'n']
  | '\x0b' => ['\\', 'v']
  | '\x0c' => ['\\', 'f']
  | '\r' => ['\\', 'r']
  | '\x1b' => ['\\', 'e']
  | '"' => ['\\', '"']
  | '\\' => ['\\', '\\']
  | '\u0085' => ['\\', 'N']
  | '\u2028' => ['\\', 'L']
  | '\u2029' => ['\\', 'P']
  | _ =>
    if isPrintable c then [c]
    else if c.toNat < 0x100 then '\\' :: 'x' :: Text.capitalHex 2 c.toNat
    else '\\' :: 'u' :: Text.capitalHex 4 c.toNat

/-- The marks of a literal block: the width of the indentation when the first line
does not show it, and what becomes of the line breaks at the end. One break is kept
without a mark, none is `-`, and more than one, or nothing else, is `+`. -/
def literalHeader (s : List Char) : List Char :=
  let width := if s.head?.any (fun c => c == ' ' || isBreak c) then ['2'] else []
  let ending := match s.reverse with
    | [] => ['-']
    | [c] => if isBreak c then ['+'] else ['-']
    | c :: d :: _ => if !isBreak c then ['-'] else if isBreak d then ['+'] else []
  '|' :: width ++ ending

/-- A string in a style. Its further lines start after so many blanks. -/
def Style.write (indent : Nat) (s : List Char) : Style → List Char
  | plain => s
  | singleQuoted =>
    let doubled := s.flatMap fun c => if c == '\x27' then [c, c] else [c]
    '\x27' :: padLines indent false (doubled ++ ['\x27'])
  | doubleQuoted => '"' :: s.flatMap escape ++ ['"']
  | literal => literalHeader s ++ '\n' :: padLines indent true s

def stringText (indent : Nat) (s : String) : List Char :=
  (Style.ofString s.toList).write indent s.toList

end Mustache.Yaml
