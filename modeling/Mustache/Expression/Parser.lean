import Mustache.Expression.Basic
import Mustache.Number.Literal
import Mustache.Text.Blank

/-!
Reading expressions.

    expression := path filter*
    path       := "." | "." ident ("." ident)* | ident ("." ident)*
    filter     := "|" ident (":" argument ("," argument)*)?
    argument   := string | number | "true" | "false" | path

White space may stand around bars, colons and commas, and nowhere inside a path.
Each reader returns what it read and the text that follows; the lemmas say that no
text grows, which is why the readers of lists end.
-/

namespace Mustache.Expression

open Text (isBlank trimStart length_trimStart_le)

/-- What a reader returns: a value and the rest of the text, or the reason why there
is none. -/
abbrev Read (α : Type) : Type := Except ExpressionError (α × List Char)

/-- Identifiers hold anything but white space and the marks of the grammar. -/
def isIdentifierChar (c : Char) : Bool :=
  !isBlank c && c != '.' && c != '|' && c != ':' && c != ',' && c != '"'

/-- The identifier at the start of a text, which may be empty. -/
def takeIdentifier (s : List Char) : List Char :=
  s.takeWhile isIdentifierChar

/-- The text after the identifier at its start. -/
def dropIdentifier (s : List Char) : List Char :=
  s.dropWhile isIdentifierChar

theorem length_dropIdentifier_le (s : List Char) : (dropIdentifier s).length ≤ s.length :=
  (List.dropWhile_sublist isIdentifierChar).length_le

/-- Identifiers that follow a path's first component, each after a point. -/
def members (s : List Char) : Read (List Component) :=
  match s with
  | '.' :: rest =>
    match takeIdentifier rest with
    | [] =>
      match rest with
      | '.' :: _ => .error .consecutiveSeparators
      | _ => .error .trailingSeparator
    | name =>
      match members (dropIdentifier rest) with
      | .error e => .error e
      | .ok (others, rest) => .ok (.identifier (String.ofList name) :: others, rest)
  | _ => .ok ([], s)
termination_by s.length
decreasing_by
  have := length_dropIdentifier_le rest
  simp
  omega

/-- A path. A point at its start stands for the scope, and identifiers may follow it
at once. -/
def readPath (s : List Char) : Read (List Component) :=
  match s with
  | '.' :: '.' :: _ => .error .consecutiveSeparators
  | '.' :: rest =>
    match takeIdentifier rest with
    | [] => .ok ([.this], rest)
    | _ =>
      match members s with
      | .error e => .error e
      | .ok (others, rest) => .ok (.this :: others, rest)
  | _ =>
    match takeIdentifier s with
    | [] => .error (if s.isEmpty then .empty else .unexpected (String.ofList s))
    | name =>
      match members (dropIdentifier s) with
      | .error e => .error e
      | .ok (others, rest) => .ok (.identifier (String.ofList name) :: others, rest)

/-- The rest of a quoted string after its opening quote. A backslash stands for the
character after it. -/
def readString : List Char → Option (List Char × List Char)
  | [] => none
  | '"' :: rest => some ([], rest)
  | '\\' :: c :: rest => (readString rest).map fun (text, rest) => (c :: text, rest)
  | ['\\'] => none
  | c :: rest => (readString rest).map fun (text, rest) => (c :: text, rest)

/-- The characters that belong to a number, as far as its extent goes. -/
def isNumberChar (c : Char) : Bool :=
  c.isAlphanum || c == '+' || c == '-' || c == '.'

/-- A path that is the word for a truth value is that value. -/
def Argument.ofPath : List Component → Argument
  | [.identifier "true"] => .literal (.bool true)
  | [.identifier "false"] => .literal (.bool false)
  | path => .path path

/-- An argument, told apart by its first character. -/
def readArgument (s : List Char) : Read Argument :=
  match s with
  | [] => .error .missingArgument
  | c :: rest =>
    if c == '|' || c == ',' then .error .missingArgument
    else if c == '"' then
      match readString rest with
      | none => .error .unterminatedString
      | some (text, rest) => .ok (.literal (.string (String.ofList text)), rest)
    else if c == '-' || c.isDigit then
      let text := s.takeWhile isNumberChar
      match Number.read? text with
      | none => .error (.unexpected (String.ofList text))
      | some n => .ok (.literal (.number n), s.dropWhile isNumberChar)
    else
      match readPath s with
      | .error e => .error e
      | .ok (path, rest) => .ok (Argument.ofPath path, rest)

theorem members_cases {s rest : List Char} {path : List Component}
    (read : members s = .ok (path, rest)) :
    (path = [] ∧ s = rest ∧ ∀ tail, s ≠ '.' :: tail) ∨
      ∃ tail others, s = '.' :: tail ∧ takeIdentifier tail ≠ [] ∧
        members (dropIdentifier tail) = .ok (others, rest) ∧
        path = .identifier (String.ofList (takeIdentifier tail)) :: others := by
  unfold members at read
  split at read
  · rename_i tail
    split at read
    · split at read
      · simp at read
      · simp at read
    · rename_i nonempty
      split at read
      · simp at read
      · rename_i others behind step
        obtain ⟨rfl, rfl⟩ := Prod.mk.inj (Except.ok.inj read)
        exact .inr ⟨tail, others, rfl, nonempty, step, rfl⟩
  · rename_i other
    obtain ⟨rfl, rfl⟩ := Prod.mk.inj (Except.ok.inj read)
    exact .inl ⟨rfl, rfl, other⟩

theorem length_le_of_members {s rest : List Char} {path : List Component}
    (read : members s = .ok (path, rest)) : rest.length ≤ s.length := by
  induction path generalizing s with
  | nil =>
    obtain ⟨-, rfl, -⟩ | ⟨_, _, -, -, -, same⟩ := members_cases read
    · exact Nat.le_refl _
    · simp at same
  | cons first others ih =>
    obtain ⟨none, -⟩ | ⟨tail, behind, rfl, -, step, same⟩ := members_cases read
    · simp at none
    · obtain ⟨-, rfl⟩ := List.cons_eq_cons.mp same
      have shorter := ih step
      have dropped := length_dropIdentifier_le tail
      simp
      omega

theorem length_le_of_readPath {s rest : List Char} {path : List Component}
    (read : readPath s = .ok (path, rest)) : rest.length ≤ s.length := by
  unfold readPath at read
  split at read
  · simp at read
  · split at read
    · simp only [Except.ok.injEq, Prod.mk.injEq] at read
      obtain ⟨-, rfl⟩ := read
      simp
    · split at read
      · simp at read
      · rename_i step
        simp only [Except.ok.injEq, Prod.mk.injEq] at read
        obtain ⟨-, rfl⟩ := read
        exact length_le_of_members step
  · split at read
    · simp at read
    · split at read
      · simp at read
      · rename_i step
        simp only [Except.ok.injEq, Prod.mk.injEq] at read
        obtain ⟨-, rfl⟩ := read
        exact Nat.le_trans (length_le_of_members step) (length_dropIdentifier_le s)

theorem length_lt_of_readString {s text rest : List Char}
    (read : readString s = some (text, rest)) : rest.length < s.length := by
  fun_induction readString s generalizing text rest with
  | case1 => simp at read
  | case2 => simp_all
  | case3 c tail ih =>
    obtain ⟨⟨t, r⟩, step, same⟩ := Option.map_eq_some_iff.mp read
    simp only [Prod.mk.injEq] at same
    have := ih step
    simp_all
    omega
  | case4 => simp at read
  | case5 c tail _ _ _ ih =>
    obtain ⟨⟨t, r⟩, step, same⟩ := Option.map_eq_some_iff.mp read
    simp only [Prod.mk.injEq] at same
    have := ih step
    simp_all
    omega

theorem length_le_of_readArgument {s rest : List Char} {argument : Argument}
    (read : readArgument s = .ok (argument, rest)) : rest.length ≤ s.length := by
  unfold readArgument at read
  split at read
  · simp at read
  · rename_i c tail
    split at read
    · simp at read
    · split at read
      · split at read
        · simp at read
        · rename_i step
          simp only [Except.ok.injEq, Prod.mk.injEq] at read
          obtain ⟨-, rfl⟩ := read
          have := length_lt_of_readString step
          simp
          omega
      · split at read
        · simp only at read
          split at read
          · simp at read
          · simp only [Except.ok.injEq, Prod.mk.injEq] at read
            obtain ⟨-, rfl⟩ := read
            exact (List.dropWhile_sublist isNumberChar).length_le
        · split at read
          · simp at read
          · rename_i step
            simp only [Except.ok.injEq, Prod.mk.injEq] at read
            obtain ⟨-, rfl⟩ := read
            exact length_le_of_readPath step

/-- One argument or more, with commas between them. -/
def readArguments (s : List Char) : Read (List Argument) :=
  match _first : readArgument (trimStart s) with
  | .error e => .error e
  | .ok (argument, rest) =>
    match _comma : trimStart rest with
    | ',' :: more =>
      match readArguments more with
      | .error e => .error e
      | .ok (others, rest) => .ok (argument :: others, rest)
    | rest => .ok ([argument], rest)
termination_by s.length
decreasing_by
  have := length_le_of_readArgument _first
  have := length_trimStart_le s
  have := length_trimStart_le rest
  simp_all
  omega

/-- A filter call after its bar: a name, and arguments if a colon follows. -/
def readFilter (s : List Char) : Read FilterCall :=
  let s := trimStart s
  match takeIdentifier s with
  | [] => .error .missingFilterName
  | name =>
    match trimStart (dropIdentifier s) with
    | ':' :: rest =>
      match readArguments rest with
      | .error e => .error e
      | .ok (args, rest) => .ok (⟨String.ofList name, args⟩, rest)
    | rest => .ok (⟨String.ofList name, []⟩, rest)

theorem length_le_of_readArguments {s rest : List Char} {args : List Argument}
    (read : readArguments s = .ok (args, rest)) : rest.length ≤ s.length := by
  fun_induction readArguments s generalizing args rest with
  | case1 => simp at read
  | case2 => simp at read
  | case3 s argument tail first more comma others last step ih =>
    simp only [Except.ok.injEq, Prod.mk.injEq] at read
    obtain ⟨-, rfl⟩ := read
    have := ih step
    have := length_le_of_readArgument first
    have := length_trimStart_le s
    have := length_trimStart_le tail
    simp_all
    omega
  | case4 s argument tail first =>
    simp only [Except.ok.injEq, Prod.mk.injEq] at read
    obtain ⟨-, rfl⟩ := read
    have := length_le_of_readArgument first
    have := length_trimStart_le s
    have := length_trimStart_le tail
    omega

theorem length_le_of_readFilter {s rest : List Char} {call : FilterCall}
    (read : readFilter s = .ok (call, rest)) : rest.length ≤ s.length := by
  have start := length_trimStart_le s
  have name := length_dropIdentifier_le (trimStart s)
  have colon := length_trimStart_le (dropIdentifier (trimStart s))
  unfold readFilter at read
  simp only at read
  split at read
  · simp at read
  · split at read
    · rename_i tail same
      split at read
      · simp at read
      · rename_i step
        simp only [Except.ok.injEq, Prod.mk.injEq] at read
        obtain ⟨-, rfl⟩ := read
        have := length_le_of_readArguments step
        rw [same] at colon
        simp at colon
        omega
    · simp only [Except.ok.injEq, Prod.mk.injEq] at read
      obtain ⟨-, rfl⟩ := read
      omega

/-- The filter calls up to the end of the text. -/
def readFilters (s : List Char) : Except ExpressionError (List FilterCall) :=
  match _bar : trimStart s with
  | [] => .ok []
  | '|' :: rest =>
    match _call : readFilter rest with
    | .error e => .error e
    | .ok (filter, rest) =>
      match readFilters rest with
      | .error e => .error e
      | .ok others => .ok (filter :: others)
  | rest => .error (.unexpected (String.ofList rest))
termination_by s.length
decreasing_by
  have := length_le_of_readFilter _call
  have := length_trimStart_le s
  simp_all
  omega

def parse (content : String) : Except ExpressionError Expression :=
  match readPath (trimStart content.toList) with
  | .error e => .error e
  | .ok (path, rest) =>
    match readFilters rest with
    | .error e => .error e
    | .ok filters => .ok ⟨path, filters⟩

end Mustache.Expression
