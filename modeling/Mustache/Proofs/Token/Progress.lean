import Mathlib.Data.List.Induction
import Mustache.Proofs.Token.Continuation
import Mustache.Proofs.Token.Relocation

/-!
How far a scan has come. Of the source that it has read a scanner keeps only its place, and
whether a line starts there. Main statements: both are what that source says of them, and each tag
of a scan is found by the scanner that has read what the tokens before it stand for.
-/

namespace Mustache

open Text (WholeLines)

namespace Text

/-- The end of a text, behind its last line feed. -/
def lastLine (s : List Char) : List Char :=
  (s.reverse.takeWhile (· != '\n')).reverse

theorem lastLine_concat (s : List Char) (c : Char) :
    lastLine (s ++ [c]) = if c = '\n' then [] else lastLine s ++ [c] := by
  by_cases feed : c = '\n' <;> simp [lastLine, feed]

theorem utf8ByteSize_pos {s : List Char} (nonempty : s ≠ []) :
    0 < (String.ofList s).utf8ByteSize := by
  cases s with
  | nil => exact absurd rfl nonempty
  | cons c s =>
    rw [String.ofList_cons, String.utf8ByteSize_append, String.utf8ByteSize_singleton]
    exact Nat.add_pos_left c.utf8Size_pos _

end Text

namespace Position

/-- The place behind a text at the start of a source: one line more than it has line feeds, and one
column more than there are characters behind the last of them. -/
def behind (s : List Char) : Position :=
  ⟨1 + s.count '\n', 1 + (Text.lastLine s).length, (String.ofList s).utf8ByteSize⟩

theorem column_advance_start (s : List Char) :
    (start.advance s).column = 1 + (Text.lastLine s).length := by
  induction s using List.reverseRecOn with
  | nil => rfl
  | append_singleton s c ih =>
    have last : start.advance (s ++ [c]) = (start.advance s).next c := advance_append start s [c]
    rw [last, Text.lastLine_concat, next]
    split
    · rfl
    · simp only [ih, List.length_append, List.length_singleton]
      omega

/-- The place that is kept while a source is read is the place that is counted. -/
theorem advance_start (s : List Char) : start.advance s = behind s := by
  obtain ⟨line, offset⟩ := advance_counts start s
  have column := column_advance_start s
  cases place : start.advance s with
  | mk l k o =>
    rw [place] at line column offset
    simp only [behind, mk.injEq]
    exact ⟨line, column, offset.trans (Nat.zero_add _)⟩

theorem offset_le_advance (p : Position) (s : List Char) :
    p.offset ≤ (p.advance s).offset := by
  rw [(advance_counts p s).2]
  exact Nat.le_add_right _ _

end Position

namespace Scanner

theorem offset_le_of_mem (s : Scanner) {t : Tag}
    (member : .tag t ∈ (Scan.ofScanner s).tokens) : s.position.offset ≤ t.position.offset := by
  induction s using Scan.ofScanner.induct with
  | case1 s text step =>
    rw [Scan.ofScanner_of_done step] at member
    exact absurd member (Scan.not_mem_ofText t text)
  | case2 s e step =>
    rw [Scan.ofScanner_of_fault step] at member
    cases member
  | case3 s text tag next step ih =>
    obtain ⟨here, behind⟩ := position_of_step step
    rw [Scan.ofScanner_of_tag step] at member
    rcases List.mem_append.mp member with before | after
    · exact absurd before (Scan.not_mem_ofText t text)
    · rcases List.mem_cons.mp after with same | later
      · cases Token.tag.inj same
        rw [here]
        exact Position.offset_le_advance _ _
      · refine Nat.le_trans ?_ (ih later)
        rw [behind]
        exact Position.offset_le_advance _ _

/-- A tag is not empty, so the scanner has passed its opener when it has found the tag. -/
theorem offset_lt_next {s next : Scanner} {text : List Char} {tag : Tag}
    (step : s.step = .tag text tag next) : tag.position.offset < next.position.offset := by
  obtain ⟨span, lexeme, -⟩ := (found_of_step step).read.span
  have nonempty : tag.lexeme.toList ≠ [] := by
    rw [lexeme]
    simp [s.delimiters.opener_ne_nil]
  obtain ⟨here, behind⟩ := position_of_step step
  rw [here, behind, Tag.region, ← List.append_assoc, ← List.append_assoc,
    Position.advance_append _ _ tag.trailing, Position.advance_append _ _ tag.lexeme.toList]
  refine Nat.lt_of_lt_of_le ?_ (Position.offset_le_advance _ _)
  rw [(Position.advance_counts _ tag.lexeme.toList).2]
  exact Nat.lt_add_of_pos_right (Text.utf8ByteSize_pos nonempty)

/-- A scanner that has read a text from the start of the source. What stands before it on its line,
if anything does, ends with a tag. -/
structure HasRead (s : Scanner) (done : List Char) : Prop where
  position : s.position = .behind done
  fresh : s.lineStart = true → s.rest = [] ∨ WholeLines done
  begun : s.lineStart = false → ∃ c, done.getLast? = some c ∧ Text.isBlank c = false

theorem hasRead_start (d : Delimiters) (source : String) : (start d source).HasRead [] where
  position := rfl
  fresh := fun _ => .inr Text.wholeLines_nil
  begun := fun begun => by cases begun

theorem exists_getLast?_lexeme {d : Delimiters} {behind : List Char} {t : Tag}
    (read : t.ReadWith d behind) :
    ∃ c, t.lexeme.toList.getLast? = some c ∧ Text.isBlank c = false := by
  obtain ⟨span, lexeme, is⟩ := read.span
  obtain ⟨inner, rfl⟩ := is.exists_closer
  have last := List.getLast?_eq_some_getLast d.closer_ne_nil
  refine ⟨_, ?_, Delimiters.not_isBlank (.inr (List.getLast_mem d.closer_ne_nil))⟩
  rw [lexeme, ← List.append_assoc, List.getLast?_append, last]
  rfl

theorem exists_head?_lexeme {d : Delimiters} {behind : List Char} {t : Tag}
    (read : t.ReadWith d behind) :
    ∃ c, t.lexeme.toList.head? = some c ∧ Text.isBlank c = false := by
  obtain ⟨span, lexeme, -⟩ := read.span
  have first := List.head?_eq_some_head d.opener_ne_nil
  refine ⟨_, ?_, Delimiters.not_isBlank (.inl (List.head_mem d.opener_ne_nil))⟩
  rw [lexeme, List.head?_append, first]
  rfl

theorem HasRead.next {s next : Scanner} {done text : List Char} {tag : Tag} (read : s.HasRead done)
    (step : s.step = .tag text tag next) : next.HasRead (done ++ text ++ tag.region) := by
  have found := found_of_step step
  obtain ⟨c, last, visible⟩ := exists_getLast?_lexeme found.read
  obtain ⟨before, inner, body, -, -, placed⟩ := exists_read_of_tag step
  refine ⟨?_, ?_, ?_⟩
  · rw [(position_of_step step).2, read.position, ← Position.advance_start,
      ← Position.advance_append, Position.advance_start, List.append_assoc]
  · intro fresh
    cases placed_of_place placed with
    | inline => cases fresh
    | alone indented ended =>
      obtain ⟨-, blanks, ending, same, -, lineEnd⟩ := append_of_splitLineEnd? ended
      rcases lineEnd with rfl | rfl | ⟨-, ended⟩
      · exact .inr (by simp [WholeLines, Tag.region, Tag.trailing, same])
      · exact .inr (by simp [WholeLines, Tag.region, Tag.trailing, same])
      · exact .inl ended
  · intro begun
    cases placed_of_place placed with
    | alone indented ended => cases begun
    | inline =>
      refine ⟨c, ?_, visible⟩
      simp only [Tag.region, Tag.indent, Tag.trailing, List.append_nil, List.getLast?_append, last,
        Option.some_or]

/-- A scanner becomes another one while it reads the tokens. -/
inductive Reads : Scanner → List Token → Scanner → Prop where
  | here {s : Scanner} : Reads s [] s
  | tag {s next later : Scanner} {text : List Char} {tag : Tag} {tokens : List Token}
      (step : s.step = .tag text tag next) (rest : Reads next tokens later) :
      Reads s (Scan.ofText text ++ .tag tag :: tokens) later

end Scanner

namespace Scan

theorem flatMap_source_ofText (text : List Char) : (ofText text).flatMap Token.source = text := by
  unfold ofText
  split
  · rename_i empty
    rw [List.isEmpty_iff.mp empty]
    rfl
  · simp [Token.source]

end Scan

namespace Scanner

variable {s later : Scanner} {tokens : List Token}

theorem Reads.rest_eq (reads : s.Reads tokens later) :
    s.rest = tokens.flatMap Token.source ++ later.rest := by
  induction reads with
  | here => rfl
  | tag step rest ih =>
    simp [(found_of_step step).whole, ih, Scan.flatMap_source_ofText, Token.source]

theorem Reads.delimiters_eq (reads : s.Reads tokens later) :
    later.delimiters = tokens.foldl Token.delimitersAfter s.delimiters := by
  induction reads with
  | here => rfl
  | tag step rest ih =>
    simp [ih, (found_of_step step).delimiters, Scan.foldl_delimitersAfter_ofText,
      Token.delimitersAfter]

theorem Reads.hasRead (reads : s.Reads tokens later) {done : List Char} (read : s.HasRead done) :
    later.HasRead (done ++ tokens.flatMap Token.source) := by
  induction reads generalizing done with
  | here => simpa using read
  | tag step rest ih =>
    simpa [Scan.flatMap_source_ofText, Token.source] using ih (read.next step)

end Scanner

namespace Scan

private theorem everywhere_ofText {P : List Token → Tag → List Token → Prop} (text : List Char) :
    Everywhere (fun before t behind => ∀ tag, t = .tag tag → P before tag behind) (ofText text) := by
  intro before t behind split tag same
  have member : .tag tag ∈ ofText text := by simp [split, same]
  exact absurd member (not_mem_ofText tag text)

/-- Each tag of a scan is found by a scanner that has read the tokens before it. -/
theorem everywhere_reads (s : Scanner) :
    Everywhere (fun before t behind => ∀ tag, t = .tag tag → ∃ earlier text finder next,
      s.Reads earlier finder ∧ finder.step = .tag text tag next ∧ before = earlier ++ ofText text ∧
        behind = (ofScanner next).tokens) (ofScanner s).tokens := by
  induction s using ofScanner.induct with
  | case1 s text step =>
    rw [ofScanner_of_done step]
    exact everywhere_ofText text
  | case2 s e step =>
    rw [ofScanner_of_fault step]
    exact everywhere_nil _
  | case3 s text tag next step ih =>
    rw [ofScanner_of_tag step, everywhere_append, everywhere_cons]
    refine ⟨everywhere_ofText text, ?_, ?_⟩
    · intro found same
      cases Token.tag.inj same
      exact ⟨[], text, s, next, .here, step, by simp, rfl⟩
    · refine ih.imp fun before t behind inner tag same => ?_
      obtain ⟨earlier, later, finder, after, reads, found, rfl, rest⟩ := inner tag same
      exact ⟨_, later, finder, after, .tag step reads, found, by simp, rest⟩

/-- A scan ends with text, or with a fault of a scanner that has read all its tokens. -/
theorem exists_end (s : Scanner) :
    ∃ earlier last, s.Reads earlier last ∧
      ((∃ text, last.step = .done text ∧ ofScanner s = ⟨earlier ++ ofText text, none⟩) ∨
        ∃ e, last.step = .fault e ∧ ofScanner s = ⟨earlier, some e⟩) := by
  induction s using ofScanner.induct with
  | case1 s text step => exact ⟨[], s, .here, .inl ⟨text, step, ofScanner_of_done step⟩⟩
  | case2 s e step => exact ⟨[], s, .here, .inr ⟨e, step, ofScanner_of_fault step⟩⟩
  | case3 s text tag next step ih =>
    obtain ⟨earlier, last, reads, ending⟩ := ih
    refine ⟨_, last, .tag step reads, ?_⟩
    rcases ending with ⟨text, done, same⟩ | ⟨e, fault, same⟩
    · exact .inl ⟨text, done, by simp [ofScanner_of_tag step, same]⟩
    · exact .inr ⟨e, fault, by simp [ofScanner_of_tag step, same]⟩

end Scan

end Mustache
