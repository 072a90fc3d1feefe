import Mustache.Proofs.Token.Progress

namespace Mustache

open Text (WholeLines)

namespace Text

theorem not_mem_of_margin {s : List Char} (margin : ∀ c ∈ s, c = ' ' ∨ c = '\t') : '\n' ∉ s := by
  intro member
  rcases margin _ member with other | other <;> cases other

theorem lastLine_append (s t : List Char) :
    lastLine (s ++ t) = if '\n' ∈ t then lastLine t else lastLine s ++ t := by
  induction t using List.reverseRecOn with
  | nil => simp
  | append_singleton t c ih =>
    rw [← List.append_assoc, lastLine_concat, lastLine_concat, ih]
    by_cases feed : c = '\n'
    · simp [feed]
    · have other : '\n' ≠ c := Ne.symm feed
      by_cases member : '\n' ∈ t <;> simp [feed, other, member]

theorem exists_lastLine (s : List Char) :
    ∃ lines, s = lines ++ lastLine s ∧ WholeLines lines ∧ '\n' ∉ lastLine s := by
  refine ⟨(s.reverse.dropWhile (· != '\n')).reverse, ?_, ?_, ?_⟩
  · rw [lastLine, ← List.reverse_append, List.takeWhile_append_dropWhile, List.reverse_reverse]
  · intro c last
    rw [List.getLast?_reverse] at last
    simpa using stops_dropWhile (· != '\n') s.reverse c last
  · intro member
    have other := List.mem_takeWhile_imp (List.mem_reverse.mp member)
    simp at other

private theorem suffix_lastLine (s : List Char) : lastLine s <:+ s := by
  obtain ⟨lines, split, -⟩ := exists_lastLine s
  exact ⟨lines, split.symm⟩

theorem suffix_lastLine_append {s kept : List Char} (suffix : lastLine s <:+ kept) (t : List Char) :
    lastLine (s ++ t) <:+ kept ++ t := by
  rw [lastLine_append]
  split
  · exact (suffix_lastLine t).trans (List.suffix_append _ _)
  · obtain ⟨before, rfl⟩ := suffix
    exact ⟨before, by simp⟩

private theorem lastLine_of_wholeLines {s : List Char} (lines : WholeLines s) :
    lastLine s = [] := by
  rcases List.eq_nil_or_concat s with rfl | ⟨before, c, rfl⟩
  · rfl
  · rw [List.concat_eq_append, lastLine_concat, if_pos (lines c (by simp))]

/-- The start of a text, up to its first line feed. -/
def firstLine : List Char → List Char
  | [] => []
  | c :: s => if c = '\n' then [c] else c :: firstLine s

theorem firstLine_append (s t : List Char) :
    firstLine (s ++ t) = if '\n' ∈ s then firstLine s else s ++ firstLine t := by
  induction s with
  | nil => simp
  | cons c s ih =>
    rw [List.cons_append, firstLine, firstLine, ih]
    by_cases feed : c = '\n'
    · simp [feed]
    · have other : '\n' ≠ c := Ne.symm feed
      by_cases member : '\n' ∈ s <;> simp [feed, other, member]

theorem prefix_firstLine (s : List Char) : firstLine s <+: s := by
  induction s with
  | nil => exact List.prefix_rfl
  | cons c s ih =>
    unfold firstLine
    split
    · exact ⟨s, rfl⟩
    · exact List.cons_prefix_cons.mpr ⟨rfl, ih⟩

theorem firstLine_of_not_mem {s : List Char} (noFeed : '\n' ∉ firstLine s) : firstLine s = s := by
  induction s with
  | nil => rfl
  | cons c s ih =>
    unfold firstLine at noFeed ⊢
    split
    · rename_i feed
      simp [feed] at noFeed
    · rename_i other
      rw [if_neg other, List.mem_cons, not_or] at noFeed
      rw [ih noFeed.2]

theorem prefix_firstLine_append {s kept : List Char} (starts : firstLine s <+: kept)
    (t : List Char) : firstLine (t ++ s) <+: t ++ kept := by
  rw [firstLine_append]
  split
  · exact (prefix_firstLine t).trans (List.prefix_append _ _)
  · exact (List.prefix_append_right_inj t).mpr starts

/-- How a line ends that a tag may be alone on. -/
def lineEnds : List (List Char) :=
  [['\n'], ['\r', '\n'], []]

/-- A line of spaces and tabs with one of the given ends. -/
def IsBlankLine (ends : List (List Char)) (line : List Char) : Prop :=
  ∃ blanks ending, line = blanks ++ ending ∧ (∀ c ∈ blanks, c = ' ' ∨ c = '\t') ∧ ending ∈ ends

end Text

open Text (firstLine lastLine IsBlankLine lineEnds)

/-- A tag with nothing but spaces and tabs beside it on its line, which ends in one of the given
ways. The texts are what stands before the tag and what stands behind it. -/
structure Tag.AloneBetween (t : Tag) (ends : List (List Char)) (before behind : List Char) :
    Prop where
  kind : ∀ escaped, t.kind ≠ .interpolation escaped
  before : ∀ c ∈ lastLine before, c = ' ' ∨ c = '\t'
  behind : IsBlankLine ends (firstLine behind)

theorem TagKind.standsAlone_iff {kind : TagKind} :
    kind.standsAlone = true ↔ ∀ escaped, kind ≠ .interpolation escaped := by
  cases kind <;> simp [standsAlone]

/-- The blanks and the line end that a tag takes are the rest of its line, which may also end with
a carriage return at the end of the source. -/
theorem firstLine_of_splitLineEnd? {s trailing rest : List Char}
    (split : splitLineEnd? s = some (trailing, rest)) :
    trailing = firstLine s ∧ IsBlankLine (['\r'] :: lineEnds) (firstLine s) := by
  obtain ⟨rfl, blanks, ending, rfl, margin, lineEnd⟩ := append_of_splitLineEnd? split
  have noFeed := Text.not_mem_of_margin margin
  have whole : firstLine (blanks ++ ending ++ rest) = blanks ++ ending := by
    rw [List.append_assoc, Text.firstLine_append, if_neg noFeed]
    rcases lineEnd with rfl | rfl | ⟨rfl | rfl, rfl⟩ <;> simp [firstLine]
  refine ⟨whole.symm, blanks, ending, whole, margin, ?_⟩
  rcases lineEnd with rfl | rfl | ⟨rfl | rfl, -⟩ <;> simp [lineEnds]

theorem exists_splitLineEnd? {s : List Char}
    (blank : IsBlankLine (['\r'] :: lineEnds) (firstLine s)) :
    ∃ rest, splitLineEnd? s = some (firstLine s, rest) := by
  obtain ⟨rest, whole⟩ := Text.prefix_firstLine s
  obtain ⟨blanks, ending, line, margin, lineEnd⟩ := blank
  have noFeed := Text.not_mem_of_margin margin
  have run : ∀ c ∈ blanks, isMargin c = true := fun c member => isMargin_iff.mpr (margin c member)
  have last (none : '\n' ∉ ending) : s = blanks ++ ending := by
    rw [← line]
    exact (Text.firstLine_of_not_mem (by simp [line, noFeed, none])).symm
  rw [line]
  rw [line] at whole
  simp only [lineEnds, List.mem_cons, List.not_mem_nil, or_false] at lineEnd
  unfold splitLineEnd?
  rcases lineEnd with rfl | rfl | rfl | rfl
  · rw [last (by decide), Text.takeWhile_run run (by simp; decide),
      Text.dropWhile_run run (by simp; decide)]
    exact ⟨[], rfl⟩
  · rw [← whole, List.append_assoc, Text.takeWhile_run run (by simp; decide),
      Text.dropWhile_run run (by simp; decide)]
    exact ⟨rest, rfl⟩
  · rw [← whole, List.append_assoc, Text.takeWhile_run run (by simp; decide),
      Text.dropWhile_run run (by simp; decide)]
    exact ⟨rest, rfl⟩
  · rw [last (by simp), Text.takeWhile_run run (by simp), Text.dropWhile_run run (by simp)]
    exact ⟨[], by simp⟩

theorem splitIndent?_line {line : List Char} (noFeed : '\n' ∉ line) (lineStart : Bool) :
    splitIndent? lineStart line =
      if lineStart && line.all isMargin then some ([], line) else none := by
  have whole : line.reverse.takeWhile isMargin ++ line.reverse.dropWhile isMargin = line.reverse :=
    List.takeWhile_append_dropWhile
  unfold splitIndent?
  simp only
  split
  · rename_i none
    rw [none, List.append_nil] at whole
    have all : line.all isMargin = true := by
      rw [← List.all_reverse, ← whole, List.all_eq_true]
      exact fun c => List.mem_takeWhile_imp
    rw [whole, List.reverse_reverse, all, Bool.and_true]
  · rename_i c others stopped
    have member : c ∈ line := by
      rw [← List.mem_reverse, ← whole, stopped]
      simp
    have other : isMargin c = false :=
      Text.stops_dropWhile isMargin line.reverse c (by rw [stopped]; rfl)
    have notAll : line.all isMargin = false :=
      List.all_eq_false.mpr ⟨c, member, by simp [other]⟩
    have noEnd : ¬ c = '\n' := fun same => noFeed (same ▸ member)
    simp [notAll, noEnd]

namespace Scanner

theorem HasRead.not_all_isMargin {s : Scanner} {done text : List Char} (read : s.HasRead done)
    (begun : s.lineStart = false) (noFeed : '\n' ∉ text) :
    (lastLine (done ++ text)).all isMargin = false := by
  obtain ⟨c, last, visible⟩ := read.begun begun
  obtain ⟨before, rfl⟩ := List.getLast?_eq_some_iff.mp last
  have other : ¬ c = '\n' := by
    rintro rfl
    cases visible
  rw [Text.lastLine_append, if_neg noFeed, Text.lastLine_concat, if_neg other]
  refine List.all_eq_false.mpr ⟨c, by simp, ?_⟩
  intro margin
  rcases isMargin_iff.mp margin with rfl | rfl <;> cases visible

/-- Whether the line before a tag is blank is seen from what has still to be read, as a line of
which a tag has taken a part is not blank. -/
theorem HasRead.splitIndent? {s : Scanner} {done : List Char} (read : s.HasRead done)
    (left : s.rest ≠ []) (text : List Char) :
    (splitIndent? s.lineStart text).map Prod.snd =
      if (lastLine (done ++ text)).all isMargin then some (lastLine (done ++ text)) else none := by
  obtain ⟨lines, split, whole, noFeed⟩ := Text.exists_lastLine text
  have inLine : lines = [] ∧ s.lineStart = false ∨
      WholeLines (done ++ lines) ∧ (lines = [] → s.lineStart = true) := by
    cases fresh : s.lineStart with
    | true =>
      refine .inr ⟨fun c last => ?_, fun _ => rfl⟩
      rw [List.getLast?_append] at last
      cases here : lines.getLast? with
      | none =>
        rw [here, Option.none_or] at last
        exact (read.fresh fresh).resolve_left left c last
      | some d =>
        rw [here, Option.some_or] at last
        exact whole c (here.trans last)
    | false =>
      rcases List.eq_nil_or_concat lines with rfl | ⟨before, d, rfl⟩
      · exact .inl ⟨rfl, rfl⟩
      · exact .inr ⟨fun c last => whole c (by simpa using last), by simp⟩
  rcases inLine with ⟨rfl, begun⟩ | ⟨whole, fresh⟩
  · rw [List.nil_append] at split
    rw [← split] at noFeed
    rw [read.not_all_isMargin begun noFeed, splitIndent?_line noFeed, begun]
    rfl
  · have line : lastLine (done ++ text) = lastLine text := by
      rw [split, ← List.append_assoc, Text.lastLine_append, if_neg noFeed,
        Text.lastLine_of_wholeLines whole, List.nil_append, ← split]
    rw [line]
    conv_lhs => rw [split, splitIndent?_append _ whole.right fresh, splitIndent?_line noFeed]
    cases (lastLine text).all isMargin <;> rfl

theorem HasRead.margins {s next : Scanner} {done text : List Char} {tag : Tag}
    (read : s.HasRead done) (step : s.step = .tag text tag next) :
    (tag.AloneBetween (['\r'] :: lineEnds) (done ++ text ++ tag.indent.toList)
        (tag.trailing ++ next.rest) ∧
      tag.margins = some ⟨String.ofList (lastLine (done ++ text ++ tag.indent.toList)),
        String.ofList (firstLine (tag.trailing ++ next.rest))⟩ ∧ next.lineStart = true) ∨
    ¬ tag.AloneBetween (['\r'] :: lineEnds) (done ++ text ++ tag.indent.toList)
        (tag.trailing ++ next.rest) ∧ tag.margins = none ∧ next.lineStart = false := by
  have left : s.rest ≠ [] := by
    intro ended
    rw [step_of_rest_eq_nil ended] at step
    cases step
  obtain ⟨before, inner, body, -, -, placed⟩ := exists_read_of_tag step
  have indent := read.splitIndent? left before
  unfold place at placed
  simp only at placed
  split at placed
  · rename_i kind
    split at placed
    · rename_i lines blanks trailing rest indented ended
      obtain ⟨rfl, rfl, rfl⟩ := ScanStep.tag.inj placed
      obtain ⟨rfl, -⟩ := append_of_splitIndent? indented
      obtain ⟨behind, -⟩ := append_of_splitLineEnd? ended
      obtain ⟨line, blank⟩ := firstLine_of_splitLineEnd? ended
      rw [indented, Option.map_some] at indent
      split at indent
      · rename_i all
        have same : blanks = lastLine (done ++ (lines ++ blanks)) := Option.some.inj indent
        left
        simp only [Tag.indent, Tag.trailing, String.toList_ofList, List.append_assoc, ← behind]
        refine ⟨⟨TagKind.standsAlone_iff.mp kind, ?_, blank⟩, by rw [← same, ← line], trivial⟩
        exact fun c member => isMargin_iff.mp (List.all_eq_true.mp all c member)
      · cases indent
    · rename_i shared
      obtain ⟨rfl, rfl, rfl⟩ := ScanStep.tag.inj placed
      refine .inr ⟨fun alone => ?_, rfl, rfl⟩
      have before := alone.before
      have behind := alone.behind
      simp only [Tag.indent, Tag.trailing, String.toList_empty, List.append_nil,
        List.nil_append] at before behind
      obtain ⟨rest, ended⟩ := exists_splitLineEnd? behind
      rw [if_pos (List.all_eq_true.mpr fun c member => isMargin_iff.mpr (before c member)),
        Option.map_eq_some_iff] at indent
      obtain ⟨⟨lines, blanks⟩, indented, -⟩ := indent
      exact shared lines blanks _ rest indented ended
  · rename_i kind
    obtain ⟨rfl, rfl, rfl⟩ := ScanStep.tag.inj placed
    exact .inr ⟨fun alone => kind (TagKind.standsAlone_iff.mpr alone.kind), rfl, rfl⟩

end Scanner

/-- What is kept of a token: all its characters but its margins. -/
def Token.kept : Token → List Char
  | text s => s.toList
  | tag t => t.lexeme.toList

namespace Scan

private theorem flatMap_kept_ofText (text : List Char) :
    (ofText text).flatMap Token.kept = text := by
  unfold ofText
  split
  · rename_i empty
    rw [List.isEmpty_iff.mp empty]
    rfl
  · simp [Token.kept]

end Scan

namespace Tag

private theorem region_of_margins {t : Tag} (none : t.margins = none) :
    t.region = t.lexeme.toList := by
  simp [region, indent, trailing, none]

end Tag

namespace Scanner

theorem Reads.lastLine_kept {s later : Scanner} {tokens : List Token} (reads : s.Reads tokens later)
    {done keeping : List Char} (read : s.HasRead done) (kept : lastLine done <:+ keeping) :
    later.rest = [] ∨
      lastLine (done ++ tokens.flatMap Token.source) <:+ keeping ++ tokens.flatMap Token.kept := by
  induction reads generalizing done keeping with
  | here => exact .inr (by simpa using kept)
  | @tag s next later text tag tokens step rest ih =>
    have after : lastLine (done ++ text ++ tag.region) <:+ keeping ++ text ++ tag.lexeme.toList ∨
        next.rest = [] := by
      rcases read.margins step with ⟨-, -, fresh⟩ | ⟨-, shared, -⟩
      · rcases (read.next step).fresh fresh with ended | whole
        · exact .inr ended
        · exact .inl (Text.lastLine_of_wholeLines whole ▸ List.nil_suffix)
      · rw [Tag.region_of_margins shared, List.append_assoc, List.append_assoc]
        exact .inl (Text.suffix_lastLine_append kept _)
    rcases after with kept | ended
    · simpa [Scan.flatMap_source_ofText, Scan.flatMap_kept_ofText, Token.source, Token.kept]
        using ih (read.next step) kept
    · have whole := rest.rest_eq
      rw [ended] at whole
      exact .inl (List.append_eq_nil_iff.mp whole.symm).2

/-- A tag on a line that was begun before shares it with what began it. -/
theorem shared_of_begun {s next : Scanner} {text : List Char} {tag : Tag}
    (begun : s.lineStart = false) (step : s.step = .tag text tag next) (noFeed : '\n' ∉ text) :
    tag.margins = none ∧ next.lineStart = false := by
  obtain ⟨raw, inner, body, -, -, placed⟩ := exists_read_of_tag step
  cases placed_of_place placed with
  | inline => exact ⟨rfl, rfl⟩
  | @alone _ blanks _ _ indented ended =>
    obtain ⟨rfl, margin⟩ := append_of_splitIndent? indented
    have line : '\n' ∉ text ++ blanks := by
      rw [List.mem_append, not_or]
      exact ⟨noFeed, Text.not_mem_of_margin margin⟩
    rw [begun, splitIndent?_line line] at indented
    cases indented

theorem firstLine_kept (s : Scanner) (begun : s.lineStart = false) {unread : List Char}
    (whole : s.rest = (Scan.ofScanner s).tokens.flatMap Token.source ++ unread) :
    firstLine s.rest <+: (Scan.ofScanner s).tokens.flatMap Token.kept ++ unread := by
  induction s using Scan.ofScanner.induct with
  | case1 s text step =>
    obtain ⟨-, rfl⟩ := cut_of_done step
    rw [Scan.ofScanner_of_done step, Scan.flatMap_kept_ofText]
    exact (Text.prefix_firstLine s.rest).trans (List.prefix_append _ _)
  | case2 s e step =>
    rw [Scan.ofScanner_of_fault step] at whole ⊢
    rw [whole]
    exact Text.prefix_firstLine _
  | case3 s text tag next step ih =>
    have found := (found_of_step step).whole
    rw [Scan.ofScanner_of_tag step] at whole ⊢
    have later : next.rest = (Scan.ofScanner next).tokens.flatMap Token.source ++ unread := by
      rw [found] at whole
      simpa [Scan.flatMap_source_ofText, Token.source] using whole
    have parts : (Scan.ofText text ++ .tag tag :: (Scan.ofScanner next).tokens).flatMap Token.kept =
        text ++ tag.lexeme.toList ++ (Scan.ofScanner next).tokens.flatMap Token.kept := by
      simp [Scan.flatMap_kept_ofText, Token.kept]
    rw [parts, found]
    by_cases feed : '\n' ∈ text
    · rw [List.append_assoc, Text.firstLine_append, if_pos feed, List.append_assoc,
        List.append_assoc]
      exact (Text.prefix_firstLine text).trans (List.prefix_append _ _)
    · obtain ⟨shared, goesOn⟩ := shared_of_begun begun step feed
      rw [Tag.region_of_margins shared, List.append_assoc, List.append_assoc, List.append_assoc]
      exact Text.prefix_firstLine_append
        (Text.prefix_firstLine_append (ih goesOn later) tag.lexeme.toList) text

end Scanner

theorem Text.IsBlankLine.blanks {line : List Char} (blank : IsBlankLine (['\r'] :: lineEnds) line) :
    Text.Blanks line := by
  obtain ⟨blanks, ending, rfl, margin, lineEnd⟩ := blank
  rw [Text.blanks_append]
  constructor
  · intro c member
    rcases margin c member with rfl | rfl <;> rfl
  · simp only [lineEnds, List.mem_cons, List.not_mem_nil, or_false] at lineEnd
    intro c member
    rcases lineEnd with rfl | rfl | rfl | rfl <;> simp at member
    · subst member
      rfl
    · subst member
      rfl
    · rcases member with rfl | rfl <;> rfl

namespace Tag

variable {t : Tag} {before behind between : List Char} {c : Char}

/-- A tag is not alone on a line that it shares with a visible character before it. -/
theorem AloneBetween.noneBefore {ends : List (List Char)}
    (alone : t.AloneBetween ends (before ++ between) behind) (noFeed : '\n' ∉ between)
    (last : before.getLast? = some c) : Text.isBlank c = true := by
  obtain ⟨others, rfl⟩ := List.getLast?_eq_some_iff.mp last
  have blank := alone.before
  rw [Text.lastLine_append, if_neg noFeed, Text.lastLine_concat] at blank
  by_cases feed : c = '\n'
  · rw [feed]
    rfl
  · rw [if_neg feed] at blank
    rcases blank c (by simp) with rfl | rfl <;> rfl

/-- A tag is not alone on a line that it shares with a visible character behind it. -/
theorem AloneBetween.noneBehind
    (alone : t.AloneBetween (['\r'] :: lineEnds) before (between ++ behind))
    (noFeed : '\n' ∉ between) (first : behind.head? = some c) : Text.isBlank c = true := by
  obtain ⟨others, rfl⟩ := List.head?_eq_some_iff.mp first
  have blank := alone.behind.blanks
  rw [Text.firstLine_append, if_neg noFeed] at blank
  refine blank c (List.mem_append_right _ ?_)
  unfold firstLine
  split <;> simp

/-- The source before a tag that stands behind the given tokens. -/
def sourceBefore (t : Tag) (tokens : List Token) : List Char :=
  tokens.flatMap Token.source ++ t.indent.toList

/-- The source behind a tag that stands before the given tokens, with what no token stands for. -/
def sourceBehind (t : Tag) (tokens : List Token) (unread : List Char) : List Char :=
  t.trailing ++ (tokens.flatMap Token.source ++ unread)

/-- What a tag takes of its line: all of it if the tag is alone on the line, and otherwise nothing,
so that the line is kept in the tokens. -/
structure LineTaken (t : Tag) (ends : List (List Char)) (before behind : List Token)
    (unread : List Char) : Prop where
  alone : t.AloneBetween ends (t.sourceBefore before) (t.sourceBehind behind unread) →
    t.margins = some ⟨String.ofList (lastLine (t.sourceBefore before)),
      String.ofList (firstLine (t.sourceBehind behind unread))⟩
  shared : ¬ t.AloneBetween ends (t.sourceBefore before) (t.sourceBehind behind unread) →
    t.margins = none ∧ lastLine (t.sourceBefore before) <:+ before.flatMap Token.kept ∧
      firstLine (t.sourceBehind behind unread) <+: behind.flatMap Token.kept ++ unread

end Tag

namespace Scan

variable {d : Delimiters} {source : String}

/-- The part of a source that no token stands for: nothing, unless there is a fault. -/
theorem exists_unread (d : Delimiters) (source : String) :
    ∃ unread, source.toList = (ofSource d source).tokens.flatMap Token.source ++ unread ∧
      ((ofSource d source).error = none → unread = []) := by
  obtain ⟨earlier, last, reads, ⟨text, step, whole⟩ | ⟨e, step, whole⟩⟩ :=
    exists_end (.start d source)
  · refine ⟨[], ?_, fun _ => rfl⟩
    obtain ⟨-, rfl⟩ := Scanner.cut_of_done step
    rw [ofSource, whole, List.flatMap_append, flatMap_source_ofText, List.append_nil]
    exact reads.rest_eq
  · refine ⟨last.rest, ?_, ?_⟩
    · rw [ofSource, whole]
      exact reads.rest_eq
    · rw [ofSource, whole]
      intro none
      cases none

/-- Every tag of a scan takes its line or leaves it as it is. -/
theorem lineTaken_ofSource {unread : List Char}
    (whole : source.toList = (ofSource d source).tokens.flatMap Token.source ++ unread) :
    Everywhere (fun before t behind => ∀ tag, t = .tag tag →
      tag.LineTaken (['\r'] :: lineEnds) before behind unread) (ofSource d source).tokens := by
  intro before t behind split tag same
  obtain ⟨earlier, text, finder, next, reads, step, rfl, rfl⟩ :=
    everywhere_reads (.start d source) before t behind split tag same
  have rest : source.toList = _ := reads.rest_eq
  have left : next.rest = (ofScanner next).tokens.flatMap Token.source ++ unread := by
    rw [split, same, rest, (Scanner.found_of_step step).whole] at whole
    simpa [flatMap_source_ofText, Token.source] using whole
  have read := reads.hasRead (Scanner.hasRead_start d source)
  have before : tag.sourceBefore (earlier ++ ofText text) =
      [] ++ earlier.flatMap Token.source ++ text ++ tag.indent.toList := by
    simp [Tag.sourceBefore, flatMap_source_ofText]
  have behind : tag.sourceBehind (ofScanner next).tokens unread = tag.trailing ++ next.rest := by
    rw [Tag.sourceBehind, left]
  have taken := read.margins step
  rw [← before, ← behind] at taken
  rcases taken with ⟨alone, margins, -⟩ | ⟨shared, none, begun⟩
  · exact ⟨fun _ => margins, fun shared => absurd alone shared⟩
  · refine ⟨fun alone => absurd alone shared, fun _ => ⟨none, ?_, ?_⟩⟩
    · have initially : lastLine [] <:+ [] := List.suffix_rfl
      have kept := reads.lastLine_kept (Scanner.hasRead_start d source) initially
      have kept := kept.resolve_left fun ended => by
        rw [Scanner.step_of_rest_eq_nil ended] at step
        cases step
      rw [before, List.flatMap_append, flatMap_kept_ofText]
      simpa [Tag.indent, none] using Text.suffix_lastLine_append kept text
    · rw [behind]
      simpa [Tag.trailing, none] using next.firstLine_kept begun left

theorem margins_eq_none_of_line {unread : List Char}
    (whole : source.toList = (ofSource d source).tokens.flatMap Token.source ++ unread)
    {before middle behind : List Token} {first second : Tag}
    (split : (ofSource d source).tokens =
      before ++ .tag first :: (middle ++ .tag second :: behind))
    (line : '\n' ∉ first.trailing ++ middle.flatMap Token.source ++ second.indent.toList) :
    first.margins = none ∧ second.margins = none := by
  have again : (ofSource d source).tokens =
      before ++ .tag first :: middle ++ .tag second :: behind := by simp [split]
  have taken := lineTaken_ofSource whole
  constructor
  · refine ((taken _ _ _ split first rfl).shared fun alone => ?_).1
    obtain ⟨_, _, _, _, -, step, -, -⟩ := everywhere_reads _ _ _ _ again second rfl
    obtain ⟨c, head, visible⟩ := Scanner.exists_head?_lexeme (Scanner.found_of_step step).read
    have parts : first.sourceBehind (middle ++ .tag second :: behind) unread =
        first.trailing ++ middle.flatMap Token.source ++ second.indent.toList ++
          (second.lexeme.toList ++ (second.trailing ++ (behind.flatMap Token.source ++ unread))) := by
      simp [Tag.sourceBehind, Token.source, Tag.region]
    rw [parts] at alone
    have blank := alone.noneBehind line (c := c) (by simp [List.head?_append, head])
    rw [visible] at blank
    cases blank
  · refine ((taken _ _ _ again second rfl).shared fun alone => ?_).1
    obtain ⟨_, _, _, _, -, step, -, -⟩ := everywhere_reads _ _ _ _ split first rfl
    obtain ⟨c, last, visible⟩ := Scanner.exists_getLast?_lexeme (Scanner.found_of_step step).read
    have parts : second.sourceBefore (before ++ .tag first :: middle) =
        before.flatMap Token.source ++ first.indent.toList ++ first.lexeme.toList ++
          (first.trailing ++ middle.flatMap Token.source ++ second.indent.toList) := by
      simp [Tag.sourceBefore, Token.source, Tag.region]
    rw [parts] at alone
    have blank := alone.noneBefore line (c := c) (by simp [List.getLast?_append, last])
    rw [visible] at blank
    cases blank

/-- A tag takes its line, and then all of it, exactly if it is no interpolation and alone on the
line between spaces and tabs; the line ends with a line feed, with a carriage return before it, with
the source, or with a carriage return at the end of the source. Otherwise, and always if there are
two tags on the line, what stands beside the tag is kept in the texts and the other tags. -/
theorem lines_ofSource (d : Delimiters) (source : String) :
    ∃ unread, source.toList = (ofSource d source).tokens.flatMap Token.source ++ unread ∧
      ((ofSource d source).error = none → unread = []) ∧
      Everywhere (fun before t behind => ∀ tag, t = .tag tag →
        tag.LineTaken (['\r'] :: lineEnds) before behind unread) (ofSource d source).tokens ∧
      ∀ before first middle second behind,
        (ofSource d source).tokens = before ++ .tag first :: (middle ++ .tag second :: behind) →
        '\n' ∉ first.trailing ++ middle.flatMap Token.source ++ second.indent.toList →
        first.margins = none ∧ second.margins = none := by
  obtain ⟨unread, whole, fine⟩ := exists_unread d source
  refine ⟨unread, whole, fine, lineTaken_ofSource whole, ?_⟩
  intro before first middle second behind split line
  exact margins_eq_none_of_line whole split line

/-- A comment on two lines takes both, and two tags on one line leave it. -/
theorem lines_ofSource_comment :
    let source := "é\n \x7b\x7b!c\nd\x7d\x7d\t\r\n\x7b\x7b#a\x7d\x7d \x7b\x7b/a\x7d\x7d"
    let comment : Tag :=
      ⟨.comment, "c\nd", ⟨2, 2, 4⟩, "\x7b\x7b!c\nd\x7d\x7d", some ⟨" ", "\t\r\n"⟩⟩
    let opener : Tag := ⟨.sect false, "a", ⟨4, 1, 15⟩, "\x7b\x7b#a\x7d\x7d", none⟩
    let closer : Tag := ⟨.closing, "a", ⟨4, 8, 22⟩, "\x7b\x7b/a\x7d\x7d", none⟩
    let behind : List Token := [.tag opener, .text " ", .tag closer]
    (ofSource .braces source).tokens = .text "é\n" :: .tag comment :: behind ∧
      comment.AloneBetween (['\r'] :: lineEnds) (comment.sourceBefore [.text "é\n"])
        (comment.sourceBehind behind []) ∧
      opener.margins = none ∧ closer.margins = none := by
  intro source comment opener closer behind
  have tokens : (ofSource .braces source).tokens = .text "é\n" :: .tag comment :: behind := by
    decide +kernel
  obtain ⟨unread, -, fine, taken, shared⟩ := lines_ofSource .braces source
  obtain rfl : unread = [] := fine (by decide +kernel)
  rw [tokens] at taken shared
  have line := taken [.text "é\n"] (.tag comment) behind rfl comment rfl
  have alone := not_imp_comm.mp fun shares => (line.shared shares).1
  exact ⟨tokens, alone nofun,
    shared [.text "é\n", .tag comment] opener [.text " "] closer [] rfl (by decide)⟩

/-- A carriage return alone is none of the line ends, also at the end of the source. There it is
taken with the line all the same. -/
theorem carriageReturn_taken :
    let scan := ofSource .braces "\x7b\x7b!c\x7d\x7d\r"
    scan.error = none ∧ ∃ tag, scan.tokens = [.tag tag] ∧ tag.margins = some ⟨"", "\r"⟩ ∧
      ¬ tag.AloneBetween lineEnds (tag.sourceBefore []) (tag.sourceBehind [] []) := by
  refine ⟨by decide +kernel,
    ⟨.comment, "c", .start, "\x7b\x7b!c\x7d\x7d", some ⟨"", "\r"⟩⟩, by decide +kernel, rfl, ?_⟩
  intro alone
  obtain ⟨blanks, ending, line, margin, lineEnd⟩ := alone.behind
  have line : ['\r'] = blanks ++ ending := line
  simp only [lineEnds, List.mem_cons, List.not_mem_nil, or_false] at lineEnd
  have last := congrArg List.getLast? line
  rcases lineEnd with rfl | rfl | rfl
  · simp at last
  · simp at last
  · rw [List.append_nil] at line
    rcases margin '\r' (by simp [← line]) with other | other <;> cases other

end Scan

end Mustache
