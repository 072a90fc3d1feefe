import Mustache.Json.Basic
import Mustache.Number.Literal
import Mustache.Text.Hex

/-!
Reading JSON text. Values may nest 127 levels deep.
-/

namespace Mustache.Json

namespace Parser

/-- Drops the white space that JSON allows between its tokens. -/
def skip (s : List Char) : List Char :=
  s.dropWhile fun c => c == ' ' || c == '\n' || c == '\r' || c == '\t'

/-- The 16-bit unit that four hexadecimal digits spell. -/
def unit? (a b c d : Char) : Option Nat := do
  return 4096 * (← Text.hexValue? a) + 256 * (← Text.hexValue? b) + 16 * (← Text.hexValue? c) +
    (← Text.hexValue? d)

/-- The character that a backslash and one letter stand for. -/
def unescape? (c : Char) : Option Char :=
  match c with
  | '"' => some '"'
  | '\\' => some '\\'
  | '/' => some '/'
  | 'b' => some '\x08'
  | 'f' => some '\x0c'
  | 'n' => some '\n'
  | 'r' => some '\r'
  | 't' => some '\t'
  | _ => none

/-- The rest of a string after its opening quote. The characters read so far are
held in reverse. Two units that form a surrogate pair are one character, and a
surrogate on its own is refused. -/
def quoted (done : List Char) : List Char → Option (String × List Char)
  | [] => none
  | '"' :: rest => some (String.ofList done.reverse, rest)
  | '\\' :: 'u' :: a :: b :: c :: d :: rest =>
    match unit? a b c d with
    | none => none
    | some high =>
      if 0xD800 ≤ high && high < 0xDC00 then
        match rest with
        | '\\' :: 'u' :: e :: f :: g :: h :: rest =>
          match unit? e f g h with
          | none => none
          | some low =>
            if 0xDC00 ≤ low && low < 0xE000 then
              quoted (Char.ofNat (0x10000 + 0x400 * (high - 0xD800) + (low - 0xDC00)) :: done) rest
            else none
        | _ => none
      else if 0xDC00 ≤ high && high < 0xE000 then none
      else quoted (Char.ofNat high :: done) rest
  | '\\' :: c :: rest =>
    match unescape? c with
    | none => none
    | some c => quoted (c :: done) rest
  | c :: rest => if c.toNat < 0x20 then none else quoted (c :: done) rest

mutual

/-- One value and what follows it. The first argument bounds the steps, the second
the levels that may still be entered. -/
def value : Nat → Nat → List Char → Option (Json × List Char)
  | 0, _, _ => none
  | fuel + 1, depth, s =>
    match skip s with
    | '"' :: rest => (quoted [] rest).map fun (text, rest) => (.string text, rest)
    | '[' :: rest =>
      match depth with
      | 0 => none
      | depth + 1 =>
        match skip rest with
        | ']' :: rest => some (.array [], rest)
        | rest => (items fuel depth rest).map fun (found, rest) => (.array found, rest)
    | '{' :: rest =>
      match depth with
      | 0 => none
      | depth + 1 =>
        match skip rest with
        | '}' :: rest => some (.object [], rest)
        | rest => (members fuel depth rest).map fun (found, rest) => (ofMembers found, rest)
    | 'n' :: 'u' :: 'l' :: 'l' :: rest => some (.null, rest)
    | 't' :: 'r' :: 'u' :: 'e' :: rest => some (.bool true, rest)
    | 'f' :: 'a' :: 'l' :: 's' :: 'e' :: rest => some (.bool false, rest)
    | rest => do
      let (literal, rest) ← Literal.read? rest
      let number ← literal.number?
      return (.number number, rest)

/-- The items of an array that has some, and what follows its bracket. -/
def items : Nat → Nat → List Char → Option (List Json × List Char)
  | 0, _, _ => none
  | fuel + 1, depth, s => do
    let (item, rest) ← value fuel depth s
    match skip rest with
    | ',' :: rest =>
      let (more, rest) ← items fuel depth rest
      return (item :: more, rest)
    | ']' :: rest => return ([item], rest)
    | _ => none

/-- The members of an object that has some, and what follows its brace. -/
def members : Nat → Nat → List Char → Option (List (String × Json) × List Char)
  | 0, _, _ => none
  | fuel + 1, depth, s => do
    let '"' :: rest := skip s | none
    let (key, rest) ← quoted [] rest
    let ':' :: rest := skip rest | none
    let (item, rest) ← value fuel depth rest
    match skip rest with
    | ',' :: rest =>
      let (more, rest) ← members fuel depth rest
      return ((key, item) :: more, rest)
    | '}' :: rest => return ([(key, item)], rest)
    | _ => none

end

end Parser

/-- The value that a text spells as a whole. -/
def parse? (text : String) : Option Json :=
  let s := text.toList
  match Parser.value (2 * s.length + 2) 127 s with
  | some (value, rest) => if (Parser.skip rest).isEmpty then some value else none
  | none => none

end Mustache.Json
