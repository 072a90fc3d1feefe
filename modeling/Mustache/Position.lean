namespace Mustache

/-- Where a tag stands in its source. Lines and columns count from one and columns
count characters; the offset counts bytes of UTF-8 from zero. -/
structure Position where
  line : Nat
  column : Nat
  offset : Nat
deriving DecidableEq, Repr

namespace Position

def start : Position := ⟨1, 1, 0⟩

/-- The place after one character. Only a line feed ends a line. -/
def next (p : Position) (c : Char) : Position :=
  if c = '\n' then ⟨p.line + 1, 1, p.offset + c.utf8Size⟩
  else ⟨p.line, p.column + 1, p.offset + c.utf8Size⟩

def advance (p : Position) (s : List Char) : Position :=
  s.foldl next p

@[simp] theorem advance_append (p : Position) (s t : List Char) :
    p.advance (s ++ t) = (p.advance s).advance t := by
  simp [advance]

def message (p : Position) : String :=
  s!"line {p.line}, column {p.column}"

end Position

end Mustache
