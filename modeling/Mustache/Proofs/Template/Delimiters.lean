import Mathlib
import Mustache.Proofs.Template.Relocation

namespace Mustache

open Text (Stops cut)

namespace Delimiters

/-- What stands between the equals signs of a delimiters tag. -/
def spelling (d : Delimiters) : List Char :=
  d.opener.toList ++ ' ' :: d.closer.toList

private theorem ne_equals {d : Delimiters} {c : Char}
    (member : c ∈ d.opener.toList ∨ c ∈ d.closer.toList) : c ≠ '=' := by
  have opener := d.opener_valid
  have closer := d.closer_valid
  simp only [isDelimiter, Bool.and_eq_true, List.all_eq_true] at opener closer
  rcases member with member | member
  · simpa using (opener.2 c member).2
  · simpa using (closer.2 c member).2

private theorem trim_spelling (d : Delimiters) : Text.trim d.spelling = d.spelling := by
  refine Text.trim_of_stops ?_ ?_
  · cases chars : d.opener.toList with
    | nil => exact absurd chars d.opener_ne_nil
    | cons c rest =>
      simpa [spelling, chars] using d.not_isBlank (c := c) (.inl (by simp [chars]))
  · cases chars : d.closer.toList.reverse with
    | nil => exact absurd (List.reverse_eq_nil_iff.mp chars) d.closer_ne_nil
    | cons c rest =>
      have member : c ∈ d.closer.toList := List.mem_reverse.mp (by simp [chars])
      simpa [spelling, chars] using d.not_isBlank (.inr member)

theorem read?_spelling (d : Delimiters) : read? d.spelling = some d := by
  have opener : ∀ c ∈ d.opener.toList, (!Text.isBlank c) = true := by
    intro c member
    simp [d.not_isBlank (.inl member)]
  have closer : Text.trimStart (' ' :: d.closer.toList) = d.closer.toList := by
    have visible : Stops Text.isBlank d.closer.toList :=
      Text.stops_of_forall fun c member => d.not_isBlank (.inr member)
    rw [Text.trimStart, List.dropWhile_cons_of_pos (by decide), Text.dropWhile_of_stops visible]
  have space : Stops (!Text.isBlank ·) (' ' :: d.closer.toList) := Text.stops_cons.mpr (by decide)
  have valid := And.intro d.opener_valid d.closer_valid
  simp only [read?, spelling, Text.takeWhile_run opener space, Text.dropWhile_run opener space,
    closer, new?, String.ofList_toList, dif_pos valid]

/-- A line with nothing but the tag that sets the delimiters, under those in braces. -/
def line (d : Delimiters) : String :=
  "\x7b\x7b=" ++ d.opener ++ " " ++ d.closer ++ "=\x7d\x7d\n"

private theorem toList_line (d : Delimiters) :
    d.line.toList = braces.opener.toList ++ '=' :: d.spelling ++ '=' :: braces.closer.toList ++ ['\n'] := by
  simp [line, spelling, braces]

private theorem wholeLines_line (d : Delimiters) : Text.WholeLines d.line.toList := by
  intro c last
  rw [toList_line, List.getLast?_concat] at last
  exact (Option.some.inj last).symm

/-- The line ends where it seems to, as delimiters hold no white space. -/
theorem count_line (d : Delimiters) : d.line.toList.count '\n' = 1 := by
  have none : '\n' ∉ d.opener.toList ∧ '\n' ∉ d.closer.toList := by
    constructor
    · intro member
      exact absurd (d.not_isBlank (.inl member)) (by decide)
    · intro member
      exact absurd (d.not_isBlank (.inr member)) (by decide)
  simp [toList_line, spelling, braces, List.count_eq_zero.mpr none.1,
    List.count_eq_zero.mpr none.2]

/-- The first equals sign behind the tag's own ends it, as delimiters hold none. -/
theorem read_line (d : Delimiters) (rest : List Char) :
    TagBody.read braces ('=' :: d.spelling ++ '=' :: braces.closer.toList ++ rest) =
      .ok ⟨.delimiters d, d.spelling, '=' :: d.spelling ++ '=' :: braces.closer.toList, rest⟩ := by
  have none : Text.NoneStarts ('=' :: braces.closer.toList) d.spelling
      ('=' :: braces.closer.toList ++ rest) := by
    refine Text.noneStarts_of_forall fun c member => ?_
    rcases List.mem_append.mp member with opener | closer
    · exact d.ne_equals (.inl opener)
    · rcases List.mem_cons.mp closer with rfl | closer
      · decide
      · exact d.ne_equals (.inr closer)
  have found := Text.cut_append_of_noneStarts none
  rw [Text.cut_needle (List.cons_ne_nil _ _) rest] at found
  simp only [List.cons_append, List.append_assoc] at found ⊢
  simp only [TagBody.read, found, Option.map_some, List.append_nil, d.trim_spelling, d.read?_spelling,
    List.cons_append]

end Delimiters

/-- The tag of a line that sets the delimiters. -/
def Delimiters.lineTag (d : Delimiters) : Tag :=
  ⟨.delimiters d, String.ofList d.spelling, .start,
    String.ofList (Delimiters.braces.opener.toList ++ '=' :: d.spelling ++
      '=' :: Delimiters.braces.closer.toList), some ⟨"", "\n"⟩⟩

/-- Behind the line the source is read as if it had the delimiters from the start. -/
theorem Scanner.step_line (d : Delimiters) (source : String) :
    (start .braces (d.line ++ source)).step =
      .tag [] d.lineTag ((start d source).relocate (·.below d.line)) := by
  have place := Position.advance_wholeLines d.wholeLines_line
  have found := Text.cut_needle Delimiters.braces.opener_ne_nil
    ('=' :: d.spelling ++ '=' :: Delimiters.braces.closer.toList ++ '\n' :: source.toList)
  have read := d.read_line ('\n' :: source.toList)
  have whole : (d.line ++ source).toList = Delimiters.braces.opener.toList ++
      ('=' :: d.spelling ++ '=' :: Delimiters.braces.closer.toList ++ '\n' :: source.toList) := by
    simp [d.toList_line]
  rw [d.toList_line] at place
  simp only [step, start, whole, found, read, Scanner.place, TagKind.standsAlone, ↓reduceIte]
  simp only [relocate, ← place]
  rfl

namespace Scan

/-- The scan of the line and a source is the tag of the line and the scan of the source. -/
theorem ofSource_line (d : Delimiters) (source : String) :
    ofSource .braces (d.line ++ source) =
      ⟨.tag d.lineTag :: ((ofSource d source).relocate (·.below d.line)).tokens,
        ((ofSource d source).relocate (·.below d.line)).error⟩ := by
  have behind := ofScanner_relocate (Position.uniform_below d.line) (.start d source)
  rw [ofSource, ofScanner_of_tag (Scanner.step_line d source), behind]
  rfl

end Scan

namespace Template

/-- A first line that sets the delimiters does what their configuration does: the source behind
it gives the same template or the same fault, with each place a line further down and further
on by the bytes of the line. -/
theorem compile_line (contentType : ContentType) (d : Delimiters) (source : String) :
    let line := "\x7b\x7b=" ++ d.opener ++ " " ++ d.closer ++ "=\x7d\x7d\n"
    let move (p : Position) : Position := ⟨p.line + 1, p.column, p.offset + line.utf8ByteSize⟩
    compile ⟨contentType, .braces⟩ (line ++ source) =
      ((compile ⟨contentType, d⟩ source).map (·.relocate move)).mapError (·.relocate move) := by
  intro line move
  have same : move = (·.below d.line) := by
    funext p
    rw [Position.below, d.count_line]
    rfl
  have skipped (scan : Scan) :
      ofScan contentType ⟨.tag d.lineTag :: scan.tokens, scan.error⟩ = ofScan contentType scan := rfl
  have behind := skipped ((Scan.ofSource d source).relocate (·.below d.line))
  rw [← Scan.ofSource_line d source, ofScan_relocate] at behind
  rw [same]
  exact behind

/-- A variable in a section, and a fault, each behind a letter of two bytes and a tag on two
lines. -/
theorem compile_line_nested :
    let line := "\x7b\x7b=<% %>=\x7d\x7d\n"
    let source := "é<%#a\n%>-<%b%><%/a%>"
    let faulty := "é<%#a\n%><%/b%>"
    compile {} (line ++ source) = .ok ⟨[.text "é", .sect ⟨[.identifier "a"], []⟩ false
        [.text "-", .interpolation ⟨[.identifier "b"], []⟩ true ⟨3, 4, 22⟩] ⟨2, 2, 14⟩], .html⟩ ∧
      compile {} (line ++ faulty) =
        .error ⟨.unexpectedClosingTag "b" (some "a"), ⟨3, 3, 21⟩⟩ := by
  intro line source faulty
  have read : compile ⟨.html, ⟨"<%", "%>", rfl, rfl⟩⟩ source =
      .ok ⟨[.text "é", .sect ⟨[.identifier "a"], []⟩ false
        [.text "-", .interpolation ⟨[.identifier "b"], []⟩ true ⟨2, 4, 10⟩] ⟨1, 2, 2⟩], .html⟩ := by
    cbv
  have refused : compile ⟨.html, ⟨"<%", "%>", rfl, rfl⟩⟩ faulty =
      .error ⟨.unexpectedClosingTag "b" (some "a"), ⟨2, 3, 9⟩⟩ := by
    cbv
  have moved := compile_line .html ⟨"<%", "%>", rfl, rfl⟩ source
  have stays := compile_line .html ⟨"<%", "%>", rfl, rfl⟩ faulty
  rw [read] at moved
  rw [refused] at stays
  exact ⟨moved, stays⟩

end Template

end Mustache
