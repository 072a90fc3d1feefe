import Mustache.Expression.Parser
import Mustache.Proofs.Number.Spelling
import Mustache.Proofs.Text.Blanks

/-!
The grammar of expressions, apart from any reader. An expression is composed of pieces:
paths, names, arguments and the marks between them. White space may stand before, between
and behind the pieces; inside a piece it stands in quoted strings only.
-/

namespace Mustache

open Text (Blanks Stops isBlank trimStart)

namespace Expression

/-- A name: one character or more, none of which is white space or a mark. -/
structure IsIdentifier (s : List Char) : Prop where
  nonempty : s ≠ []
  chars : ∀ c ∈ s, isIdentifierChar c = true

inductive SpellsMembers : List Char → List Component → Prop where
  | nil : SpellsMembers [] []
  | cons {name text : List Char} {others : List Component} (identifier : IsIdentifier name)
      (behind : SpellsMembers text others) :
      SpellsMembers ('.' :: (name ++ text)) (.identifier (String.ofList name) :: others)

/-- A path: a lone point, or names with points between them, perhaps after a point. -/
inductive SpellsPath : List Char → List Component → Prop where
  | scope : SpellsPath ['.'] [.this]
  | relative {text : List Char} {names : List Component} (members : SpellsMembers text names)
      (nonempty : names ≠ []) : SpellsPath text (.this :: names)
  | absolute {name text : List Char} {others : List Component} (identifier : IsIdentifier name)
      (behind : SpellsMembers text others) :
      SpellsPath (name ++ text) (.identifier (String.ofList name) :: others)

/-- The text between two quotes and its value. A backslash stands for the next character. -/
inductive SpellsString : List Char → List Char → Prop where
  | nil : SpellsString [] []
  | plain {c : Char} {text value : List Char} (unquoted : c ≠ '"') (unescaped : c ≠ '\\')
      (behind : SpellsString text value) : SpellsString (c :: text) (c :: value)
  | escaped (c : Char) {text value : List Char} (behind : SpellsString text value) :
      SpellsString ('\\' :: c :: text) (c :: value)

/-- The characters that numbers start with, and no path that is an argument. -/
def isNumberStart (c : Char) : Bool :=
  c == '-' || c.isDigit

inductive SpellsArgument : List Char → Argument → Prop where
  | string {text value : List Char} (quoted : SpellsString text value) :
      SpellsArgument ('"' :: (text ++ ['"'])) (.literal (.string (String.ofList value)))
  | number {text : List Char} {l : Literal} {n : Number} (literal : l.Spells text)
      (value : l.number? = some n) : SpellsArgument text (.literal (.number n))
  | truth : SpellsArgument "true".toList (.literal (.bool true))
  | falsehood : SpellsArgument "false".toList (.literal (.bool false))
  | path {text : List Char} {components : List Component} (spelled : SpellsPath text components)
      (start : Stops isNumberStart text) (other : text ≠ "true".toList)
      (different : text ≠ "false".toList) : SpellsArgument text (.path components)

/-- The pieces of one argument or more, with commas between them. -/
inductive SpellsArguments : List (List Char) → List Argument → Prop where
  | last {text : List Char} {a : Argument} (argument : SpellsArgument text a) :
      SpellsArguments [text] [a]
  | more {text : List Char} {a : Argument} {pieces : List (List Char)} {others : List Argument}
      (argument : SpellsArgument text a) (behind : SpellsArguments pieces others) :
      SpellsArguments (text :: [','] :: pieces) (a :: others)

/-- The pieces of a filter call: a name, and perhaps a colon and arguments. -/
inductive SpellsCall : List (List Char) → FilterCall → Prop where
  | bare {name : List Char} (identifier : IsIdentifier name) :
      SpellsCall [name] ⟨String.ofList name, []⟩
  | applied {name : List Char} {pieces : List (List Char)} {args : List Argument}
      (identifier : IsIdentifier name) (arguments : SpellsArguments pieces args) :
      SpellsCall (name :: [':'] :: pieces) ⟨String.ofList name, args⟩

/-- The pieces of a pipeline, with a bar before each filter call. -/
inductive SpellsFilters : List (List Char) → List FilterCall → Prop where
  | nil : SpellsFilters [] []
  | cons {call : FilterCall} {given pieces : List (List Char)} {others : List FilterCall}
      (first : SpellsCall given call) (behind : SpellsFilters pieces others) :
      SpellsFilters (['|'] :: (given ++ pieces)) (call :: others)

inductive Composes : List (List Char) → Expression → Prop where
  | mk {text : List Char} {path : List Component} {pieces : List (List Char)}
      {filters : List FilterCall} (first : SpellsPath text path)
      (pipeline : SpellsFilters pieces filters) : Composes (text :: pieces) ⟨path, filters⟩

/-- A text that consists of the pieces, with white space around each. -/
inductive Spaced : List (List Char) → List Char → Prop where
  | nil {w : List Char} (blanks : Blanks w) : Spaced [] w
  | cons {w piece text : List Char} {pieces : List (List Char)} (blanks : Blanks w)
      (behind : Spaced pieces text) : Spaced (piece :: pieces) (w ++ (piece ++ text))

def Spells (content : List Char) (e : Expression) : Prop :=
  ∃ pieces, Composes pieces e ∧ Spaced pieces content

/-- A piece that starts with something other than white space. -/
def Visible (s : List Char) : Prop :=
  ∃ c rest, s = c :: rest ∧ isBlank c = false

theorem Visible.stops_append {s : List Char} (visible : Visible s) (t : List Char) :
    Stops isBlank (s ++ t) := by
  obtain ⟨c, rest, rfl, shown⟩ := visible
  exact Text.stops_cons.mpr shown

private theorem not_isBlank_of_isIdentifierChar {c : Char}
    (identifier : isIdentifierChar c = true) : isBlank c = false := by
  simp only [isIdentifierChar, Bool.and_eq_true, Bool.not_eq_true'] at identifier
  exact identifier.1.1.1.1.1

private theorem isNumberChar_iff (c : Char) :
    isNumberChar c = true ↔
      65 ≤ c.toNat ∧ c.toNat ≤ 90 ∨ 97 ≤ c.toNat ∧ c.toNat ≤ 122 ∨
        48 ≤ c.toNat ∧ c.toNat ≤ 57 ∨ c.toNat = 43 ∨ c.toNat = 45 ∨ c.toNat = 46 := by
  have letter : c.isAlpha = (c.isUpper || c.isLower) := rfl
  have upper : c.isUpper = decide (65 ≤ c.val ∧ c.val ≤ 90) := rfl
  have lower : c.isLower = (decide (97 ≤ c.val) && decide (c.val ≤ 122)) := rfl
  simp only [isNumberChar, Char.isAlphanum, letter, upper, lower, Char.isDigit, Bool.or_eq_true,
    Bool.and_eq_true, decide_eq_true_eq, beq_iff_eq, UInt32.le_iff_toNat_le, ge_iff_le,
    ← Char.toNat_inj, Char.toNat]
  simp
  omega

private theorem not_isBlank_of_isNumberChar {c : Char} (number : isNumberChar c = true) :
    isBlank c = false := by
  rw [isNumberChar_iff] at number
  simp [isBlank]
  omega

private theorem isNumberChar_of_isDigit {c : Char} (digit : c.isDigit = true) :
    isNumberChar c = true := by
  simp [isNumberChar, Char.isAlphanum, digit]

theorem isNumberChar_of_spells {s : List Char} {l : Literal} (spelled : l.Spells s) :
    ∀ c ∈ s, isNumberChar c = true := by
  intro c member
  rcases spelled.mem member with digit | other
  · exact isNumberChar_of_isDigit digit
  · have others : ['-', '+', '.', 'e', 'E'].all isNumberChar = true := by decide
    exact List.all_eq_true.mp others c other

theorem IsIdentifier.exists_head {s : List Char} (identifier : IsIdentifier s) :
    ∃ c rest, s = c :: rest ∧ isIdentifierChar c = true := by
  cases s with
  | nil => exact absurd rfl identifier.nonempty
  | cons c rest => exact ⟨c, rest, rfl, identifier.chars c (by simp)⟩

theorem IsIdentifier.visible {s : List Char} (identifier : IsIdentifier s) : Visible s := by
  obtain ⟨c, rest, rfl, char⟩ := identifier.exists_head
  exact ⟨c, rest, rfl, not_isBlank_of_isIdentifierChar char⟩

theorem SpellsPath.exists_head {text : List Char} {path : List Component}
    (spelled : SpellsPath text path) :
    ∃ c rest, text = c :: rest ∧ (c = '.' ∨ isIdentifierChar c = true) := by
  cases spelled with
  | scope => exact ⟨'.', [], rfl, .inl rfl⟩
  | relative members nonempty =>
    cases members with
    | nil => exact absurd rfl nonempty
    | cons _ _ => exact ⟨'.', _, rfl, .inl rfl⟩
  | absolute identifier _ =>
    obtain ⟨c, rest, rfl, char⟩ := identifier.exists_head
    exact ⟨c, _, rfl, .inr char⟩

theorem SpellsPath.visible {text : List Char} {path : List Component}
    (spelled : SpellsPath text path) : Visible text := by
  obtain ⟨c, rest, rfl, point | char⟩ := spelled.exists_head
  · exact ⟨c, rest, rfl, by rw [point]; decide⟩
  · exact ⟨c, rest, rfl, not_isBlank_of_isIdentifierChar char⟩

theorem SpellsArgument.visible {text : List Char} {a : Argument}
    (spelled : SpellsArgument text a) : Visible text := by
  cases spelled with
  | string _ => exact ⟨'"', _, rfl, by decide⟩
  | number literal _ =>
    obtain ⟨c, rest, rfl, -⟩ := literal.exists_head
    have number := isNumberChar_of_spells literal c (by simp)
    exact ⟨c, rest, rfl, not_isBlank_of_isNumberChar number⟩
  | truth => exact ⟨'t', _, rfl, by decide⟩
  | falsehood => exact ⟨'f', _, rfl, by decide⟩
  | path spelled _ _ _ => exact spelled.visible

/-- A path is spelled by the text in which it is shown, and by no other. -/
theorem SpellsPath.pathText_eq {text : List Char} {path : List Component}
    (spelled : SpellsPath text path) : (pathText path).toList = text := by
  have members {text : List Char} {names : List Component} (spelled : SpellsMembers text names)
      (first : List Char) :
      (pathText (.identifier (String.ofList first) :: names)).toList = first ++ text := by
    induction spelled generalizing first with
    | nil => simp [pathText]
    | cons _ _ ih => simp [pathText, ih]
  cases spelled with
  | scope => rfl
  | relative spelled nonempty =>
    cases spelled with
    | nil => exact absurd rfl nonempty
    | cons _ behind => simp [pathText, members behind]
  | absolute _ behind => exact members behind _

theorem spaced_nil_iff {s : List Char} : Spaced [] s ↔ trimStart s = [] := by
  constructor
  · rintro ⟨blanks⟩
    exact List.dropWhile_eq_nil_iff.mpr blanks
  · intro none
    exact .nil (List.dropWhile_eq_nil_iff.mp none)

theorem spaced_cons_iff {s piece : List Char} {pieces : List (List Char)}
    (visible : Visible piece) :
    Spaced (piece :: pieces) s ↔ ∃ text, trimStart s = piece ++ text ∧ Spaced pieces text := by
  constructor
  · rintro (_ | ⟨blanks, behind⟩)
    rename_i w text
    refine ⟨text, ?_, behind⟩
    rw [Text.trimStart_append_of_blanks blanks, Text.trimStart_of_stops (visible.stops_append _)]
  · rintro ⟨text, same, behind⟩
    obtain ⟨w, blanks, split⟩ := Text.exists_trimStart s
    rw [split, same]
    exact .cons blanks behind

theorem Spaced.after {pieces : List (List Char)} {w s : List Char} (blanks : Blanks w)
    (spaced : Spaced pieces s) : Spaced pieces (w ++ s) := by
  cases spaced with
  | nil none => exact .nil (Text.blanks_append.mpr ⟨blanks, none⟩)
  | cons more behind =>
    rw [← List.append_assoc]
    exact .cons (Text.blanks_append.mpr ⟨blanks, more⟩) behind

theorem Spaced.of_trimStart {pieces : List (List Char)} {s : List Char}
    (spaced : Spaced pieces (trimStart s)) : Spaced pieces s := by
  obtain ⟨w, blanks, split⟩ := Text.exists_trimStart s
  rw [split]
  exact spaced.after blanks

theorem Spaced.append {pieces others : List (List Char)} {s t : List Char}
    (first : Spaced pieces s) (second : Spaced others t) : Spaced (pieces ++ others) (s ++ t) := by
  induction first with
  | nil blanks => exact second.after blanks
  | cons blanks _ ih =>
    rw [List.append_assoc, List.append_assoc]
    exact .cons blanks ih

theorem SpellsFilters.append {pieces others : List (List Char)} {calls more : List FilterCall}
    (first : SpellsFilters pieces calls) (second : SpellsFilters others more) :
    SpellsFilters (pieces ++ others) (calls ++ more) := by
  induction first with
  | nil => exact second
  | cons call _ ih =>
    rw [List.cons_append, List.append_assoc]
    exact .cons call ih

/-- What may stand behind a piece: white space, a mark or nothing. -/
def Ends (s : List Char) : Prop :=
  ∀ c ∈ s.head?, isBlank c = true ∨ c ∈ ['|', ':', ',']

theorem Ends.stops {s : List Char} {p : Char → Bool} (ends : Ends s)
    (visible : ∀ c, p c = true → isBlank c = false)
    (unmarked : ['|', ':', ','].all (fun c => !p c) = true) : Stops p s := by
  intro c first
  rcases ends c first with blank | mark
  · by_contra goesOn
    have shown := visible c (by simpa using goesOn)
    simp [blank] at shown
  · simpa using List.all_eq_true.mp unmarked c mark

theorem Ends.identifier {s : List Char} (ends : Ends s) : Stops isIdentifierChar s :=
  ends.stops (fun _ => not_isBlank_of_isIdentifierChar) (by decide)

theorem Ends.number {s : List Char} (ends : Ends s) : Stops isNumberChar s :=
  ends.stops (fun _ => not_isBlank_of_isNumberChar) (by decide)

theorem Ends.point {s : List Char} (ends : Ends s) : Stops (· == '.') s := by
  refine ends.stops ?_ (by decide)
  intro c point
  rw [beq_iff_eq.mp point]
  decide

theorem Spaced.ends_of_mark {m : Char} {pieces : List (List Char)} {s : List Char}
    (spaced : Spaced ([m] :: pieces) s) (mark : m ∈ ['|', ':', ',']) : Ends s := by
  cases spaced with
  | @cons w _ text _ blanks _ =>
    intro c first
    cases w with
    | nil =>
      obtain rfl := Option.some.inj first
      exact .inr mark
    | cons b w =>
      obtain rfl := Option.some.inj first
      exact .inl (blanks b (by simp))

theorem Spaced.ends_of_nil {s : List Char} (spaced : Spaced [] s) : Ends s := by
  cases spaced with
  | nil blanks =>
    intro c first
    exact .inl (blanks c (List.mem_of_mem_head? first))

theorem SpellsFilters.ends {pieces : List (List Char)} {calls : List FilterCall} {s : List Char}
    (spelled : SpellsFilters pieces calls) (spaced : Spaced pieces s) : Ends s := by
  cases spelled with
  | nil => exact spaced.ends_of_nil
  | cons _ _ => exact spaced.ends_of_mark (by simp)

end Expression

end Mustache
