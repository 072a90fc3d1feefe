import Mustache.Number.Literal
import Mustache.Proofs.Text.Runs

/-!
The texts that are numbers. The grammar of number literals stands here as relations between
a text and its parts, and the reader accepts exactly the texts of the grammar.
-/

namespace Mustache

open Text (Stops stops_nil stops_append takeWhile_run dropWhile_run)

namespace Literal

/-- One digit or more. -/
structure IsDigits (s : List Char) : Prop where
  nonempty : s ≠ []
  digits : ∀ c ∈ s, c.isDigit = true

/-- The digits before the point: only a lone zero starts with one. -/
structure IsWhole (s : List Char) : Prop extends IsDigits s where
  zero : s.head? = some '0' → s = ['0']

/-- How the digits after the point are written. -/
inductive SpellsFraction : List Char → List Char → Prop where
  | absent : SpellsFraction [] []
  | digits {ds : List Char} (digits : IsDigits ds) : SpellsFraction ('.' :: ds) ds

inductive SpellsSign : List Char → Bool → Prop where
  | absent : SpellsSign [] false
  | plus : SpellsSign ['+'] false
  | minus : SpellsSign ['-'] true

inductive SpellsPower : List Char → Option (Bool × List Char) → Prop where
  | absent : SpellsPower [] none
  | digits {mark : Char} {sign ds : List Char} {negative : Bool}
      (letter : mark = 'e' ∨ mark = 'E') (signed : SpellsSign sign negative)
      (digits : IsDigits ds) : SpellsPower (mark :: (sign ++ ds)) (some (negative, ds))

/-- How a literal is written: a minus if it is negative, and its three parts. -/
structure Spells (l : Literal) (s : List Char) : Prop where
  whole : IsWhole l.whole
  parts : ∃ fraction power, SpellsFraction fraction l.fraction ∧ SpellsPower power l.power ∧
    s = (if l.negative then ['-'] else []) ++ (l.whole ++ (fraction ++ power))

private theorem isDigits_takeWhile {s : List Char} (nonempty : s.takeWhile Char.isDigit ≠ []) :
    IsDigits (s.takeWhile Char.isDigit) :=
  ⟨nonempty, fun _ => List.mem_takeWhile_imp⟩

theorem IsDigits.exists_head {s : List Char} (digits : IsDigits s) :
    ∃ c rest, s = c :: rest ∧ c.isDigit = true := by
  cases s with
  | nil => exact absurd rfl digits.nonempty
  | cons c rest => exact ⟨c, rest, rfl, digits.digits c (by simp)⟩

private theorem IsDigits.head_ne {c : Char} {s : List Char} (digits : IsDigits (c :: s)) {d : Char}
    (other : d.isDigit = false) : c ≠ d := by
  rintro rfl
  have digit := digits.digits c (by simp)
  simp [other] at digit

/-- What follows the digits before the point does not go on with a digit. -/
theorem stops_fraction {fraction digits power : List Char} {exponent : Option (Bool × List Char)}
    (spelled : SpellsFraction fraction digits) (scaled : SpellsPower power exponent) :
    Stops Char.isDigit (fraction ++ power) := by
  refine stops_append ?_ ?_
  · cases spelled with
    | absent => exact stops_nil
    | digits => simp
  · cases scaled with
    | absent => exact stops_nil
    | digits letter =>
      rcases letter with rfl | rfl <;> simp

private theorem append_of_readWhole? {s digits rest : List Char}
    (read : readWhole? s = some (digits, rest)) : s = digits ++ rest ∧ IsWhole digits := by
  unfold readWhole? at read
  split at read
  · obtain ⟨rfl, rfl⟩ := Prod.mk.inj (Option.some.inj read)
    exact ⟨rfl, ⟨by simp, by simp⟩, by simp⟩
  · rename_i other
    split at read
    · simp at read
    · rename_i taken
      obtain ⟨rfl, rfl⟩ := Prod.mk.inj (Option.some.inj read)
      refine ⟨List.takeWhile_append_dropWhile.symm, isDigits_takeWhile taken, ?_⟩
      intro zero
      have first : s.head? = some '0' := by
        rw [List.head?_takeWhile, Option.filter_eq_some_iff] at zero
        exact zero.1
      obtain ⟨tail, same⟩ := List.head?_eq_some_iff.mp first
      exact absurd same (other tail)

theorem readWhole?_append {digits rest : List Char} (whole : IsWhole digits)
    (stops : Stops Char.isDigit rest) : readWhole? (digits ++ rest) = some (digits, rest) := by
  by_cases zero : digits.head? = some '0'
  · rw [whole.zero zero]
    rfl
  · unfold readWhole?
    split
    · rename_i tail same
      obtain ⟨c, others, rfl, -⟩ := whole.exists_head
      obtain ⟨rfl, -⟩ := List.cons_eq_cons.mp same
      exact absurd rfl zero
    · rw [takeWhile_run whole.digits stops, dropWhile_run whole.digits stops]
      obtain ⟨c, others, rfl, -⟩ := whole.exists_head
      rfl

private theorem append_of_readFraction? {s digits rest : List Char}
    (read : readFraction? s = some (digits, rest)) :
    ∃ fraction, s = fraction ++ rest ∧ SpellsFraction fraction digits := by
  unfold readFraction? at read
  split at read
  · split at read
    · simp at read
    · rename_i tail _ taken
      obtain ⟨rfl, rfl⟩ := Prod.mk.inj (Option.some.inj read)
      refine ⟨'.' :: tail.takeWhile Char.isDigit, ?_, .digits (isDigits_takeWhile taken)⟩
      rw [List.cons_append, List.takeWhile_append_dropWhile]
  · obtain ⟨rfl, rfl⟩ := Prod.mk.inj (Option.some.inj read)
    exact ⟨[], rfl, .absent⟩

theorem readFraction?_append {fraction digits power : List Char}
    {exponent : Option (Bool × List Char)} (spelled : SpellsFraction fraction digits)
    (scaled : SpellsPower power exponent) :
    readFraction? (fraction ++ power) = some (digits, power) := by
  cases spelled with
  | absent =>
    cases scaled with
    | absent => rfl
    | digits letter =>
      rcases letter with rfl | rfl
      · rfl
      · rfl
  | digits some =>
    have stops := stops_fraction .absent scaled
    rw [List.nil_append] at stops
    unfold readFraction?
    simp only [List.cons_append]
    rw [takeWhile_run some.digits stops, dropWhile_run some.digits stops]
    obtain ⟨c, others, rfl, -⟩ := some.exists_head
    rfl

/-- The digits of an exponent whose sign was read. -/
private def readExponent? (negative : Bool) (s : List Char) :
    Option (Option (Bool × List Char) × List Char) :=
  match s.takeWhile Char.isDigit with
  | [] => none
  | digits => some (some (negative, digits), s.dropWhile Char.isDigit)

private def readSigned? (s : List Char) : Option (Option (Bool × List Char) × List Char) :=
  match s with
  | '-' :: rest => readExponent? true rest
  | '+' :: rest => readExponent? false rest
  | _ => readExponent? false s

private theorem readPower?_eq (s : List Char) :
    readPower? s = match s with
      | 'e' :: rest => readSigned? rest
      | 'E' :: rest => readSigned? rest
      | _ => some (none, s) :=
  rfl

private theorem append_of_readExponent? {sign s rest : List Char} {negative : Bool}
    {exponent : Option (Bool × List Char)} {mark : Char} (letter : mark = 'e' ∨ mark = 'E')
    (signed : SpellsSign sign negative) (read : readExponent? negative s = some (exponent, rest)) :
    ∃ power, mark :: (sign ++ s) = power ++ rest ∧ SpellsPower power exponent := by
  unfold readExponent? at read
  split at read
  · simp at read
  · rename_i taken
    obtain ⟨rfl, rfl⟩ := Prod.mk.inj (Option.some.inj read)
    refine ⟨mark :: (sign ++ s.takeWhile Char.isDigit), ?_,
      .digits letter signed (isDigits_takeWhile taken)⟩
    rw [List.cons_append, List.append_assoc, List.takeWhile_append_dropWhile]

private theorem append_of_readSigned? {s rest : List Char}
    {exponent : Option (Bool × List Char)} {mark : Char} (letter : mark = 'e' ∨ mark = 'E')
    (read : readSigned? s = some (exponent, rest)) :
    ∃ power, mark :: s = power ++ rest ∧ SpellsPower power exponent := by
  unfold readSigned? at read
  split at read
  · exact append_of_readExponent? letter .minus read
  · exact append_of_readExponent? letter .plus read
  · exact append_of_readExponent? letter .absent read

private theorem append_of_readPower? {s rest : List Char} {exponent : Option (Bool × List Char)}
    (read : readPower? s = some (exponent, rest)) :
    ∃ power, s = power ++ rest ∧ SpellsPower power exponent := by
  rw [readPower?_eq] at read
  split at read
  · exact append_of_readSigned? (.inl rfl) read
  · exact append_of_readSigned? (.inr rfl) read
  · obtain ⟨rfl, rfl⟩ := Prod.mk.inj (Option.some.inj read)
    exact ⟨[], rfl, .absent⟩

private theorem readExponent?_run {digits : List Char} (some : IsDigits digits)
    (negative : Bool) : readExponent? negative digits = Option.some (.some (negative, digits), []) := by
  have taken := takeWhile_run some.digits (stops_nil (p := Char.isDigit))
  have dropped := dropWhile_run some.digits (stops_nil (p := Char.isDigit))
  rw [List.append_nil] at taken dropped
  unfold readExponent?
  rw [taken, dropped]
  obtain ⟨c, others, rfl, -⟩ := some.exists_head
  rfl

private theorem readPower?_spelled {power : List Char} {exponent : Option (Bool × List Char)}
    (spelled : SpellsPower power exponent) : readPower? power = some (exponent, []) := by
  rw [readPower?_eq]
  cases spelled with
  | absent => rfl
  | digits letter signed some =>
    rename_i mark sign ds negative
    have read : readSigned? (sign ++ ds) = Option.some (Option.some (negative, ds), []) := by
      cases signed with
      | absent =>
        obtain ⟨c, others, rfl, digit⟩ := some.exists_head
        unfold readSigned?
        split
        · rename_i same
          exact absurd (List.cons_eq_cons.mp same).1 (some.head_ne (by decide))
        · rename_i same
          exact absurd (List.cons_eq_cons.mp same).1 (some.head_ne (by decide))
        · exact readExponent?_run some false
      | plus => exact readExponent?_run some false
      | minus => exact readExponent?_run some true
    rcases letter with rfl | rfl
    · exact read
    · exact read

/-- The literal whose sign was read. -/
private def readUnsigned? (negative : Bool) (s : List Char) : Option (Literal × List Char) := do
  let (whole, rest) ← readWhole? s
  let (fraction, rest) ← readFraction? rest
  let (power, rest) ← readPower? rest
  some (⟨negative, whole, fraction, power⟩, rest)

private theorem read?_eq (s : List Char) :
    read? s = match s with
      | '-' :: rest => readUnsigned? true rest
      | _ => readUnsigned? false s := by
  have split : read? s = (fun p => readUnsigned? p.1 p.2) (match s with
      | '-' :: rest => (true, rest)
      | _ => (false, s)) := rfl
  rw [split]
  split
  · rfl
  · rfl

private theorem spells_of_readUnsigned? {negative : Bool} {s : List Char} {l : Literal}
    (read : readUnsigned? negative s = some (l, [])) :
    l.Spells ((if negative then ['-'] else []) ++ s) := by
  unfold readUnsigned? at read
  simp only [Option.bind_eq_bind, Option.bind_eq_some_iff, Prod.exists, Option.some.injEq,
    Prod.mk.injEq] at read
  obtain ⟨whole, behind, first, digits, rest, second, exponent, _, third, rfl, rfl⟩ := read
  obtain ⟨rfl, isWhole⟩ := append_of_readWhole? first
  obtain ⟨fraction, rfl, fractional⟩ := append_of_readFraction? second
  obtain ⟨power, rfl, scaled⟩ := append_of_readPower? third
  refine ⟨isWhole, fraction, power, fractional, scaled, ?_⟩
  rw [List.append_nil]

private theorem readUnsigned?_spelled {l : Literal} {fraction power : List Char}
    (whole : IsWhole l.whole) (fractional : SpellsFraction fraction l.fraction)
    (scaled : SpellsPower power l.power) :
    readUnsigned? l.negative (l.whole ++ (fraction ++ power)) = some (l, []) := by
  unfold readUnsigned?
  rw [readWhole?_append whole (stops_fraction fractional scaled)]
  simp only [Option.bind_eq_bind, Option.bind_some]
  rw [readFraction?_append fractional scaled]
  simp only [Option.bind_some]
  rw [readPower?_spelled scaled]
  rfl

private theorem spells_of_read? {s : List Char} {l : Literal} (read : read? s = some (l, [])) :
    l.Spells s := by
  rw [read?_eq] at read
  split at read
  · exact spells_of_readUnsigned? read
  · exact spells_of_readUnsigned? read

private theorem read?_spelled {s : List Char} {l : Literal} (spelled : l.Spells s) :
    read? s = some (l, []) := by
  obtain ⟨whole, fraction, power, fractional, scaled, rfl⟩ := spelled
  have read := readUnsigned?_spelled whole fractional scaled
  rw [read?_eq]
  by_cases minus : l.negative = true
  · rw [minus] at read ⊢
    exact read
  · rw [Bool.not_eq_true] at minus
    rw [minus] at read ⊢
    obtain ⟨c, others, same, digit⟩ := whole.exists_head
    rw [same] at whole read ⊢
    split
    · rename_i found
      exact absurd (List.cons_eq_cons.mp found).1 (whole.head_ne (by decide))
    · exact read

theorem Spells.exists_head {s : List Char} {l : Literal} (spelled : l.Spells s) :
    ∃ c rest, s = c :: rest ∧ (c = '-' ∨ c.isDigit = true) := by
  obtain ⟨whole, fraction, power, -, -, rfl⟩ := spelled
  by_cases minus : l.negative = true
  · exact ⟨'-', _, by rw [if_pos minus]; rfl, .inl rfl⟩
  · obtain ⟨c, rest, same, digit⟩ := whole.exists_head
    refine ⟨c, rest ++ (fraction ++ power), ?_, .inr digit⟩
    rw [if_neg minus, same]
    rfl

theorem Spells.mem {s : List Char} {l : Literal} (spelled : l.Spells s) {c : Char}
    (member : c ∈ s) : c.isDigit = true ∨ c ∈ ['-', '+', '.', 'e', 'E'] := by
  obtain ⟨negative, before, behind, exponent⟩ := l
  obtain ⟨whole, fraction, power, fractional, scaled, rfl⟩ := spelled
  rcases List.mem_append.mp member with sign | member
  · split at sign
    · exact .inr (by simp_all)
    · simp at sign
  · rcases List.mem_append.mp member with digit | member
    · exact .inl (whole.digits c digit)
    · rcases List.mem_append.mp member with fractionMember | powerMember
      · cases fractional with
        | absent => simp at fractionMember
        | digits some =>
          rcases List.mem_cons.mp fractionMember with rfl | digit
          · exact .inr (by simp)
          · exact .inl (some.digits c digit)
      · cases scaled with
        | absent => simp at powerMember
        | digits letter signed some =>
          rcases List.mem_cons.mp powerMember with rfl | behind
          · rcases letter with rfl | rfl
            · exact .inr (by simp)
            · exact .inr (by simp)
          · rcases List.mem_append.mp behind with sign | digit
            · cases signed with
              | absent => simp at sign
              | plus => exact .inr (by simp_all)
              | minus => exact .inr (by simp_all)
            · exact .inl (some.digits c digit)

end Literal

/-- The texts of numbers are the literals whose number is not too large. -/
theorem Number.read?_eq_some_iff {s : List Char} {n : Number} :
    Number.read? s = some n ↔ ∃ l : Literal, l.Spells s ∧ l.number? = some n := by
  unfold Number.read?
  constructor
  · intro read
    split at read
    · rename_i l whole
      exact ⟨l, Literal.spells_of_read? whole, read⟩
    · simp at read
  · rintro ⟨l, spelled, number⟩
    rw [Literal.read?_spelled spelled]
    exact number

end Mustache
