import Mustache.Proofs.Expression.Equality
import Mustache.Proofs.Number.Printing

/-!
Expressions that are shown and read again. A string is shown as JSON text, whose escapes the
reader takes for letters, so a string comes back changed if it holds a control character.
-/

namespace Mustache

namespace Expression

/-! Strings. -/

/-- What the escape of a character is read as: the character itself, or the letters of the
escape. -/
def unescaped (c : Char) : List Char :=
  match Json.escape c with
  | '\\' :: letters => letters
  | plain => plain

/-- Characters that stand for themselves between quotes. -/
def isPlain (c : Char) : Bool :=
  c != '"' && c != '\\' && 0x20 ≤ c.toNat

private theorem escape_of_control : ∀ n < 0x20, ∃ d rest,
    Json.escape (Char.ofNat n) = '\\' :: d :: rest ∧ (d :: rest).all isPlain = true := by
  intro n bound
  have all : ∀ n < 0x20, Json.escape (Char.ofNat n) =
      '\\' :: (unescaped (Char.ofNat n)).headD ' ' :: (unescaped (Char.ofNat n)).tail ∧
        ((unescaped (Char.ofNat n)).headD ' ' :: (unescaped (Char.ofNat n)).tail).all isPlain =
          true := by
    decide +kernel
  exact ⟨_, _, all n bound⟩

/-- A character is escaped by itself, by a backslash before it or by letters after one. -/
theorem escape_cases (c : Char) :
    (0x20 ≤ c.toNat ∧ isPlain c = true ∧ Json.escape c = [c]) ∨
      (0x20 ≤ c.toNat ∧ Json.escape c = ['\\', c]) ∨
        (c.toNat < 0x20 ∧ ∃ d rest, Json.escape c = '\\' :: d :: rest ∧
          (d :: rest).all isPlain = true) := by
  by_cases control : c.toNat < 0x20
  · obtain ⟨d, rest, letters⟩ := escape_of_control c.toNat control
    rw [Char.ofNat_toNat] at letters
    exact .inr (.inr ⟨control, d, rest, letters⟩)
  · have printable : 0x20 ≤ c.toNat := by omega
    by_cases quote : c = '"'
    · subst quote
      exact .inr (.inl ⟨printable, rfl⟩)
    · by_cases backslash : c = '\\'
      · subst backslash
        exact .inr (.inl ⟨printable, rfl⟩)
      · refine .inl ⟨printable, by simp [isPlain, quote, backslash, printable], ?_⟩
        unfold Json.escape
        split
        · exact absurd rfl quote
        · exact absurd rfl backslash
        case h_8 => exact if_neg control
        all_goals exact absurd (by decide) control

private theorem spellsString_plain {letters text value : List Char}
    (plain : letters.all isPlain = true) (behind : SpellsString text value) :
    SpellsString (letters ++ text) (letters ++ value) := by
  induction letters with
  | nil => exact behind
  | cons c letters ih =>
    simp only [List.all_cons, Bool.and_eq_true, isPlain, bne_iff_ne] at plain
    exact .plain plain.1.1.1 plain.1.1.2 (ih plain.2)

private theorem spellsString_escape (c : Char) {text value : List Char}
    (behind : SpellsString text value) :
    SpellsString (Json.escape c ++ text) (unescaped c ++ value) := by
  unfold unescaped
  rcases escape_cases c with ⟨-, plain, same⟩ | ⟨-, same⟩ | ⟨-, d, rest, same, plain⟩
  · simp only [isPlain, Bool.and_eq_true, bne_iff_ne] at plain
    rw [same]
    split
    · rename_i backslash
      exact absurd (List.cons_eq_cons.mp backslash).1 plain.1.2
    · exact .plain plain.1.1 plain.1.2 behind
  · rw [same]
    exact .escaped c behind
  · rw [same]
    simp only [List.all_cons, Bool.and_eq_true] at plain
    exact .escaped d (spellsString_plain plain.2 behind)

private theorem unescaped_of_printable {c : Char} (printable : 0x20 ≤ c.toNat) :
    unescaped c = [c] := by
  unfold unescaped
  rcases escape_cases c with ⟨-, plain, same⟩ | ⟨-, same⟩ | ⟨control, -⟩
  · simp only [isPlain, Bool.and_eq_true, bne_iff_ne] at plain
    rw [same]
    split
    · rename_i backslash
      exact absurd (List.cons_eq_cons.mp backslash).1 plain.1.2
    · rfl
  · rw [same]
    rfl
  · omega

private theorem printable_of_mem_unescaped {c d : Char} (member : d ∈ unescaped c) :
    0x20 ≤ d.toNat := by
  by_cases printable : 0x20 ≤ c.toNat
  · rw [unescaped_of_printable printable] at member
    obtain rfl := List.mem_singleton.mp member
    exact printable
  · unfold unescaped at member
    rcases escape_cases c with ⟨high, -⟩ | ⟨high, -⟩ | ⟨-, e, rest, same, plain⟩
    · exact absurd high printable
    · exact absurd high printable
    · rw [same] at member
      have each := List.all_eq_true.mp plain d member
      simp only [isPlain, Bool.and_eq_true, decide_eq_true_eq] at each
      exact each.2

private theorem spellsString_quote (s : List Char) :
    SpellsString (s.flatMap Json.escape) (s.flatMap unescaped) := by
  induction s with
  | nil => exact .nil
  | cons c s ih => exact spellsString_escape c ih

/-- The escapes are lost on the reader, unless there are none that are letters. -/
theorem flatMap_unescaped_eq_iff (s : List Char) :
    s.flatMap unescaped = s ↔ ∀ c ∈ s, 0x20 ≤ c.toNat := by
  constructor
  · intro same c member
    rw [← same] at member
    obtain ⟨d, -, letter⟩ := List.mem_flatMap.mp member
    exact printable_of_mem_unescaped letter
  · intro printable
    induction s with
    | nil => rfl
    | cons c s ih =>
      have behind := ih fun d later => printable d (List.mem_cons_of_mem c later)
      rw [List.flatMap_cons, unescaped_of_printable (printable c (by simp)), behind]
      rfl

end Expression

open Expression

/-! Arguments. -/

/-- What the text of an argument is read as. -/
def Argument.reread : Argument → Argument
  | .literal (.string s) => .literal (.string (String.ofList (s.toList.flatMap unescaped)))
  | .literal (.number n) =>
    .literal (.number ((Number.read? (n.render Number.jsonStyle).toList).getD n))
  | a => a

/-- Every float among the arguments is written as a text that is read as an equal number. -/
def FloatsReadBack (args : List Argument) : Prop :=
  ∀ x, .literal (.number (.float x)) ∈ args → (Number.float x).readsBack = true

/-- No string among the arguments holds a control character. -/
def StringsPrintable (args : List Argument) : Prop :=
  ∀ s, .literal (.string s) ∈ args → ∀ c ∈ s.toList, 0x20 ≤ c.toNat

private theorem FloatsReadBack.of_mem {args : List Argument} (floats : FloatsReadBack args)
    {a : Argument} (member : a ∈ args) : FloatsReadBack [a] := by
  intro x same
  obtain rfl := List.mem_singleton.mp same
  exact floats x member

namespace Expression

private theorem readsBack_of_number? {l : Literal} {n : Number} (value : l.number? = some n)
    (floats : FloatsReadBack [.literal (.number n)]) : n.readsBack = true := by
  cases n with
  | integer n =>
    obtain ⟨low, high⟩ := Literal.bounds_of_number? value
    exact Number.readsBack_integer low high
  | float x => exact floats x (by simp)

private theorem SpellsArgument.printed {text : List Char} {a : Argument}
    (spelled : SpellsArgument text a) (floats : FloatsReadBack [a]) :
    SpellsArgument a.text.toList a.reread := by
  cases spelled with
  | @string _ value _ =>
    have quoted := spellsString_quote value
    have printed := SpellsArgument.string quoted
    simpa [Argument.text, Argument.reread, Json.render, Json.quote] using printed
  | @number _ l n _ value =>
    obtain ⟨m, read, -⟩ := Number.readsBack_iff.mp (readsBack_of_number? value floats)
    obtain ⟨l', spelled, again⟩ := Number.read?_eq_some_iff.mp read
    simp only [Argument.text, Argument.reread, Json.render, read, Option.getD_some]
    exact .number spelled again
  | truth => exact .truth
  | falsehood => exact .falsehood
  | path spelled start other different =>
    simp only [Argument.text, Argument.reread, spelled.pathText_eq]
    exact .path spelled start other different

theorem SpellsArgument.reread_beq_iff {text : List Char} {a : Argument}
    (spelled : SpellsArgument text a) (floats : FloatsReadBack [a]) :
    (a.reread == a) = true ↔ StringsPrintable [a] := by
  cases spelled with
  | @string _ value _ =>
    have strings (s t : String) :
        (Argument.literal (.string s) == Argument.literal (.string t)) = (s == t) := rfl
    have only : StringsPrintable [.literal (.string (String.ofList value))] ↔
        ∀ c ∈ value, 0x20 ≤ c.toNat := by
      simp [StringsPrintable]
    rw [only, ← flatMap_unescaped_eq_iff]
    simp only [Argument.reread, strings, beq_iff_eq, String.toList_ofList, String.ofList_inj]
  | @number _ l n _ value =>
    obtain ⟨m, read, same⟩ := Number.readsBack_iff.mp (readsBack_of_number? value floats)
    simp only [Argument.reread, read, Option.getD_some]
    simp [StringsPrintable]
    exact same
  | truth => simp [StringsPrintable]; rfl
  | falsehood => simp [StringsPrintable]; rfl
  | @path _ components _ _ _ _ =>
    simp [StringsPrintable]
    exact beq_self_eq_true components

/-! Pipelines. -/

private theorem Spaced.adjoin (piece : List Char) {pieces : List (List Char)} {text : List Char}
    (behind : Spaced pieces text) : Spaced (piece :: pieces) (piece ++ text) :=
  .cons Text.blanks_nil behind

private theorem Spaced.space (piece : List Char) {pieces : List (List Char)} {text : List Char}
    (behind : Spaced pieces text) : Spaced (piece :: pieces) (' ' :: (piece ++ text)) := by
  have blanks : Text.Blanks [' '] := by
    intro c member
    obtain rfl := List.mem_singleton.mp member
    decide
  exact .cons blanks behind

private theorem SpellsArguments.printed {pieces : List (List Char)} {args : List Argument}
    (spelled : SpellsArguments pieces args) (floats : FloatsReadBack args) :
    ∃ printed, SpellsArguments printed (args.map Argument.reread) ∧
      ∀ behind rest, Spaced behind rest →
        Spaced (printed ++ behind)
          (' ' :: ((", ".intercalate (args.map Argument.text)).toList ++ rest)) := by
  induction spelled with
  | @last text a argument =>
    refine ⟨[a.text.toList], .last (argument.printed floats), ?_⟩
    intro behind rest follows
    exact follows.space _
  | @more text a pieces others argument list ih =>
    have first := argument.printed (floats.of_mem (by simp))
    obtain ⟨printed, spelled, spaced⟩ := ih fun x later => floats x (List.mem_cons_of_mem a later)
    refine ⟨a.text.toList :: [','] :: printed, .more first spelled, ?_⟩
    intro behind rest follows
    have nonempty : others.map Argument.text ≠ [] := by
      cases list with
      | last _ => simp
      | more _ _ => simp
    have inner := ((spaced behind rest follows).adjoin [',']).space a.text.toList
    rw [List.map_cons, String.intercalate_cons_of_ne_nil nonempty]
    simpa using inner

private theorem SpellsCall.printed {pieces : List (List Char)} {call : FilterCall}
    (spelled : SpellsCall pieces call) (floats : FloatsReadBack call.args) :
    ∃ printed, SpellsCall printed { call with args := call.args.map Argument.reread } ∧
      ∀ behind rest, Spaced behind rest →
        Spaced (printed ++ behind) (' ' :: (call.text.toList ++ rest)) := by
  cases spelled with
  | @bare name identifier =>
    refine ⟨[name], .bare identifier, ?_⟩
    intro behind rest follows
    have inner := follows.space name
    simpa [FilterCall.text] using inner
  | @applied name pieces args identifier arguments =>
    obtain ⟨printed, list, spaced⟩ := arguments.printed floats
    refine ⟨name :: [':'] :: printed, .applied identifier list, ?_⟩
    intro behind rest follows
    have inner := ((spaced behind rest follows).adjoin [':']).space name
    have text : (FilterCall.text ⟨String.ofList name, args⟩) =
        String.ofList name ++ ": " ++ ", ".intercalate (args.map Argument.text) := by
      cases arguments with
      | last _ => rfl
      | more _ _ => rfl
    rw [text]
    simpa using inner

private theorem SpellsFilters.printed {pieces : List (List Char)} {calls : List FilterCall}
    (spelled : SpellsFilters pieces calls) (floats : ∀ call ∈ calls, FloatsReadBack call.args) :
    ∃ printed,
      SpellsFilters printed
          (calls.map fun call => { call with args := call.args.map Argument.reread }) ∧
        Spaced printed (calls.flatMap fun call => " | ".toList ++ call.text.toList) := by
  induction spelled with
  | nil => exact ⟨[], .nil, .nil Text.blanks_nil⟩
  | @cons call given pieces others first _ ih =>
    obtain ⟨behind, list, follows⟩ := ih fun c later => floats c (List.mem_cons_of_mem call later)
    obtain ⟨printed, one, spaced⟩ := first.printed (floats call (by simp))
    refine ⟨['|'] :: (printed ++ behind), .cons one list, ?_⟩
    have inner := (spaced behind _ follows).space ['|']
    simpa using inner

private theorem toList_text (e : Expression) :
    e.text.toList = (pathText e.path).toList ++
      e.filters.flatMap fun call => " | ".toList ++ call.text.toList := by
  unfold Expression.text
  generalize pathText e.path = first
  induction e.filters generalizing first with
  | nil => simp
  | cons call calls ih =>
    rw [List.map_cons, String.intercalate_cons_cons, String.toList_append, ih call.text]
    simp

/-- The text of an expression spells what is read back. -/
theorem Composes.printed {pieces : List (List Char)} {e : Expression}
    (composed : Composes pieces e) (floats : ∀ call ∈ e.filters, FloatsReadBack call.args) :
    Spells e.text.toList (e.mapArguments Argument.reread) := by
  cases composed with
  | @mk text path pieces filters first pipeline =>
    obtain ⟨printed, list, spaced⟩ := pipeline.printed floats
    refine ⟨text :: printed, .mk first list, ?_⟩
    rw [toList_text, first.pathText_eq]
    exact spaced.adjoin text

/-- The text of an expression that was read can be read. The result is equal exactly when no
string among the arguments holds a control character. -/
theorem parse_text {content : String} {e : Expression} (read : parse content = .ok e)
    (floats : ∀ call ∈ e.filters, FloatsReadBack call.args) :
    ∃ again, parse e.text = .ok again ∧
      ((again == e) = true ↔ ∀ call ∈ e.filters, StringsPrintable call.args) := by
  obtain ⟨pieces, composed, -⟩ := parse_eq_ok_iff.mp read
  refine ⟨_, parse_eq_ok_iff.mpr (composed.printed floats), ?_⟩
  rw [mapArguments_beq_iff]
  constructor
  · intro equal call member s literal
    obtain ⟨text, spelled⟩ := composed.exists_text call member _ literal
    have one := spelled.reread_beq_iff ((floats call member).of_mem literal)
    exact one.mp (equal call member _ literal) s (by simp)
  · intro printable call member a argument
    obtain ⟨text, spelled⟩ := composed.exists_text call member a argument
    have one := spelled.reread_beq_iff ((floats call member).of_mem argument)
    refine one.mpr fun s same => ?_
    obtain rfl := List.mem_singleton.mp same
    exact printable call member s argument

/-- A line feed is shown as an escape and comes back as a letter; the float comes back. -/
theorem parse_text_lineFeed :
    let e : Expression := ⟨[.identifier "a"],
      [⟨"f", [.literal (.string "\n"), .literal (.number (.float 1.5))]⟩]⟩
    parse "a|f:\"\n\",1.5" = .ok e ∧ (∀ call ∈ e.filters, FloatsReadBack call.args) ∧
      ∃ again, parse e.text = .ok again ∧
        ((again == e) = true ↔ ∀ call ∈ e.filters, StringsPrintable call.args) := by
  intro e
  have read : parse "a|f:\"\n\",1.5" = .ok e := by with_unfolding_all rfl
  have floats : ∀ call ∈ e.filters, FloatsReadBack call.args := by
    intro call member x literal
    obtain rfl := List.mem_singleton.mp member
    obtain rfl : x = 1.5 := by simpa using literal
    decide +kernel
  exact ⟨read, floats, parse_text read floats⟩

end Expression

end Mustache
