import Mustache.Proofs.Token.Reader
import Mustache.Proofs.Token.Standalone

/-!
What a reader finds by offsets is what a scanner finds. Main statements: the place of an offset is
what the text before it says, a tag is read as its body is read, and a tag is alone on its line
where the scanner sees that it is; none of them takes out a part of the source that is not there.
-/

namespace Mustache

open Text (cut find? firstLine lastLine size slice? trim trimStart IsBlankLine lineEnds)

namespace Text

theorem lineStart_add_lastLine (s : List Char) : lineStart s + size (lastLine s) = size s := by
  have whole : s.reverse.takeWhile (· != '\n') ++ s.reverse.dropWhile (· != '\n') = s.reverse :=
    List.takeWhile_append_dropWhile
  have sizes := congrArg size whole
  rw [size_append, size_reverse] at sizes
  cases stopped : s.reverse.dropWhile (· != '\n') with
  | nil =>
    rw [stopped, size_nil] at sizes
    simp only [lineStart, findLast?, stopped, lastLine, size_reverse]
    omega
  | cons c before =>
    have same : c = '\n' := by
      simpa using stops_dropWhile (· != '\n') s.reverse c (by rw [stopped]; rfl)
    have one : c.utf8Size = 1 := by rw [same]; rfl
    rw [stopped, size_cons] at sizes
    simp only [lineStart, findLast?, stopped, lastLine, size_reverse]
    omega

/-- Where the last line starts and the text ends, the last line is taken out. -/
theorem slice?_lastLine {s : List Char} {start : Nat} (starts : start + size (lastLine s) = size s)
    (behind : List Char) : slice? (s ++ behind) start (size s) = some (lastLine s) := by
  obtain ⟨before, split, -, -⟩ := exists_lastLine s
  have sizes : size s = size before + size (lastLine s) := by
    conv_lhs => rw [split]
    exact size_append before (lastLine s)
  have here : start = size before := by omega
  have taken := slice?_append before (lastLine s) behind
  rwa [← split, ← sizes, ← here] at taken

end Text

def Tag.placeBehind (t : Tag) (before : List Char) : TagPlace :=
  ⟨size before, size (before ++ t.indent.toList),
    size (before ++ t.indent.toList ++ t.lexeme.toList), size (before ++ t.region)⟩

/-- A tag stands behind its indentation, and holds what was read of it. -/
theorem Scanner.tag_of_place {s next : Scanner} {text before : List Char} {body : TagBody}
    {tag : Tag} (placed : s.place text body = .tag before tag next) :
    text = before ++ tag.indent.toList ∧
      tag = ⟨body.kind, String.ofList body.content, s.position.advance text,
        String.ofList (s.delimiters.opener.toList ++ body.span), tag.margins⟩ := by
  cases placed_of_place placed with
  | inline => exact ⟨(List.append_nil text).symm, rfl⟩
  | alone indented ended =>
    obtain ⟨rfl, -⟩ := append_of_splitIndent? indented
    exact ⟨by simp [Tag.indent], rfl⟩

namespace Reader

/-! Places -/

structure Counted (r : Reader) (seen : List Char) : Prop where
  counted : r.counted = size seen
  line : r.line = 1 + seen.count '\n'
  lineStart : r.lineStart + size (lastLine seen) = size seen

theorem countLines_append {seen : List Char} {line lineStart : Nat}
    (lines : line = 1 + seen.count '\n') (start : lineStart + size (lastLine seen) = size seen)
    (passed : List Char) :
    (countLines (size seen) line lineStart passed).1 = 1 + (seen ++ passed).count '\n' ∧
      (countLines (size seen) line lineStart passed).2 + size (lastLine (seen ++ passed)) =
        size (seen ++ passed) := by
  -- What was seen grows with each character, so the induction is over any text seen before.
  induction passed generalizing seen line lineStart with
  | nil => simpa [countLines] using ⟨lines, start⟩
  | cons c passed ih =>
    have longer : size seen + c.utf8Size = size (seen ++ [c]) := by simp
    have whole : seen ++ c :: passed = seen ++ [c] ++ passed := by simp
    rw [countLines, longer, whole]
    by_cases feed : c = '\n'
    · rw [if_pos feed]
      refine ih ?_ ?_
      · rw [lines, feed, List.count_append]
        rfl
      · rw [Text.lastLine_concat, if_pos feed, ← longer, feed]
        rfl
    · rw [if_neg feed]
      refine ih ?_ ?_
      · simp [lines, List.count_append, feed]
      · rw [Text.lastLine_concat, if_neg feed, Text.size_append, Text.size_append, ← start]
        omega

theorem exists_positionAt {r : Reader} {seen passed behind : List Char} (counted : r.Counted seen)
    (source : r.source = seen ++ passed ++ behind) :
    ∃ line lineStart,
      r.positionAt (size (seen ++ passed)) = some (.behind (seen ++ passed),
        { r with counted := size (seen ++ passed), line, lineStart }) ∧
      Counted { r with counted := size (seen ++ passed), line, lineStart } (seen ++ passed) := by
  have lines := countLines_append counted.line counted.lineStart passed
  rw [← counted.counted] at lines
  refine ⟨_, _, ?_, ⟨rfl, lines.1, lines.2⟩⟩
  have passing : slice? r.source r.counted (size (seen ++ passed)) = some passed := by
    rw [source, counted.counted, Text.size_append]
    exact Text.slice?_append seen passed behind
  have line := Text.slice?_lastLine lines.2 behind
  rw [← source] at line
  simp only [positionAt, passing, line, Option.bind_eq_bind, Option.bind_some, lines.1,
    Position.behind, Nat.add_comm 1]
  rfl

/-! Tags -/

theorem classify_cons (c : Char) (rest : List Char) :
    TagBody.classify (c :: rest) =
      match sigilKind? c with
      | none => (.interpolation true, c :: rest)
      | some kind => (kind, trimStart rest) := by
  unfold TagBody.classify sigilKind?
  split
  all_goals simp_all

/-- A sigil is one byte, so a tag can be cut behind it. -/
theorem utf8Size_of_sigil {c : Char} {kind : TagKind} (sigil : sigilKind? c = some kind) :
    c.utf8Size = 1 := by
  unfold sigilKind? at sigil
  split at sigil
  all_goals first
    | rfl
    | cases sigil

private theorem classify_eq (raw : List Char) : classify raw = some (TagBody.classify raw) := by
  cases raw with
  | nil => rfl
  | cons c rest =>
    rw [classify_cons, classify, List.head?_cons, Option.bind_some]
    cases sigil : sigilKind? c with
    | none => rfl
    | some kind =>
      have one : size [c] = 1 := by simp [utf8Size_of_sigil sigil]
      have taken := Text.slice?_behind [c] rest
      rw [one, List.singleton_append] at taken
      simp only [taken, Option.map_some]

section Extent

variable {r : Reader} {before skipped searched ending : List Char} {c : Char}

/-- What is searched for the end of a tag: all behind the opener, or all but its first character. -/
structure Searches (r : Reader) (before : List Char) (c : Char)
    (skipped searched ending : List Char) : Prop where
  rest : slice? r.source (size before + size r.opener) (size r.source) = some (skipped ++ searched)
  first : (skipped ++ searched).head? = some c
  terminator : terminator r.closer c = (ending, size skipped)

private theorem Searches.of_miss (search : r.Searches before c skipped searched ending)
    (miss : cut ending searched = none) :
    r.extent (size before) = some (.error .unclosedTag) := by
  have behind := Text.slice?_behind skipped searched
  simp only [extent, search.rest, search.first, search.terminator, behind, find?, miss,
    Option.bind_eq_bind, Option.bind_some, Option.map_none]
  rfl

private theorem Searches.of_found (search : r.Searches before c skipped searched ending)
    {raw behind : List Char} (found : cut ending searched = some (raw, behind))
    {body : Except SyntaxCause TagBody}
    (kind : kindOf c (trim raw) = some (body.map fun b => (b.kind, b.content)))
    (span : ∀ b, body = .ok b → b.span = skipped ++ raw ++ ending) :
    r.extent (size before) = some (body.map fun b =>
      ⟨b.kind, b.content, size before + size r.opener + size b.span⟩) := by
  have rest := Text.slice?_behind skipped searched
  have inside :
      slice? (skipped ++ searched) (size skipped) (size skipped + size raw) = some raw := by
    rw [Text.eq_append_of_cut found, List.append_assoc raw, ← List.append_assoc skipped]
    exact Text.slice?_append skipped raw _
  simp only [extent, search.rest, search.first, search.terminator, rest, inside, find?, found, kind,
    Option.bind_eq_bind, Option.bind_some, Option.map_some]
  cases body with
  | error cause => rfl
  | ok b =>
    have sizes : size b.span = size skipped + (size raw + size ending) := by
      rw [span b rfl, Text.size_append, Text.size_append, Nat.add_assoc]
    simp only [Except.map, sizes, ← Nat.add_assoc]
    rfl

theorem map_checked (b : TagBody) :
    b.checked.map (fun b => (b.kind, b.content)) =
      if b.content.isEmpty && b.kind != .comment then .error .emptyTag
      else .ok (b.kind, b.content) := by
  unfold TagBody.checked
  split <;> rfl

end Extent

theorem extent_eq {r : Reader} {d : Delimiters} {before inner : List Char}
    (opener : r.opener = d.opener.toList) (closer : r.closer = d.closer.toList)
    (source : r.source = before ++ d.opener.toList ++ inner) :
    r.extent (size before) = some ((TagBody.read d inner).map fun body =>
      ⟨body.kind, body.content, size before + size d.opener.toList + size body.span⟩) := by
  have rest : slice? r.source (size before + size r.opener) (size r.source) = some inner := by
    rw [opener, source, ← Text.size_append]
    exact Text.slice?_behind _ inner
  rw [← opener]
  unfold TagBody.read
  simp only
  split
  · rename_i inner
    have search : r.Searches before '{' ['{'] inner ('}' :: d.closer.toList) :=
      ⟨rest, rfl, by rw [terminator, if_pos rfl, closer]; rfl⟩
    split
    · rename_i miss
      exact search.of_miss miss
    · rename_i raw behind found
      refine search.of_found found ?_ ?_
      · rw [map_checked]
        rfl
      · intro body ok
        rw [TagBody.rest_of_checked ok]
        rfl
  · rename_i inner
    have search : r.Searches before '=' ['='] inner ('=' :: d.closer.toList) :=
      ⟨rest, rfl, by rw [terminator, if_neg (by decide), if_pos rfl, closer]; rfl⟩
    split
    · rename_i miss
      exact search.of_miss miss
    · rename_i raw behind found
      refine search.of_found found ?_ ?_
      · rw [kindOf, if_pos rfl]
        cases Delimiters.read? (trim raw) <;> rfl
      · intro body ok
        split at ok
        · cases ok
        · obtain rfl := Except.ok.inj ok
          rfl
  · rename_i notBrace notEquals
    cases inner with
    | nil =>
      have miss : cut d.closer.toList [] = none := by simp [cut, d.closer_ne_nil]
      simp only [miss, extent, rest, Option.bind_eq_bind, Option.bind_some, List.head?_nil]
      rfl
    | cons c inner =>
      have brace : c ≠ '{' := fun same => notBrace inner (by rw [same])
      have equals : c ≠ '=' := fun same => notEquals inner (by rw [same])
      have search : r.Searches before c [] (c :: inner) d.closer.toList :=
        ⟨rest, rfl, by rw [terminator, if_neg brace, if_neg equals, closer]; rfl⟩
      split
      · rename_i miss
        exact search.of_miss miss
      · rename_i raw behind found
        refine search.of_found found ?_ ?_
        · rw [map_checked, kindOf, if_neg equals, if_neg brace, classify_eq]
          rfl
        · intro body ok
          rw [TagBody.rest_of_checked ok]
          rfl

/-! Lines -/

theorem all_stripReturn_iff {line : List Char} :
    (stripReturn line).all isMargin = true ↔
      ∃ blanks, (∀ c ∈ blanks, c = ' ' ∨ c = '\t') ∧ (line = blanks ∨ line = blanks ++ ['\r']) := by
  have margins {blanks : List Char} :
      blanks.all isMargin = true ↔ ∀ c ∈ blanks, c = ' ' ∨ c = '\t' := by
    simp [List.all_eq_true, isMargin_iff]
  unfold stripReturn
  split
  · rename_i last
    obtain ⟨before, rfl⟩ := List.getLast?_eq_some_iff.mp last
    rw [List.dropLast_concat, margins]
    constructor
    · intro blank
      exact ⟨before, blank, .inr rfl⟩
    · rintro ⟨blanks, blank, rfl | same⟩
      · exact absurd (blank '\r' (by simp)) (by decide)
      · rwa [List.append_cancel_right same]
  · rename_i other
    rw [margins]
    constructor
    · intro blank
      exact ⟨line, blank, .inl rfl⟩
    · rintro ⟨blanks, blank, rfl | rfl⟩
      · exact blank
      · exact absurd (by simp) other

/-- The rest of a line is blank, whether a line feed ends it or the source. -/
theorem isBlankLine_iff {line ending : List Char} (noFeed : '\n' ∉ line)
    (ends : ending = [] ∨ ending = ['\n']) :
    IsBlankLine (['\r'] :: lineEnds) (line ++ ending) ↔ (stripReturn line).all isMargin = true := by
  rw [all_stripReturn_iff]
  constructor
  · rintro ⟨blanks, stop, whole, blank, member⟩
    refine ⟨blanks, blank, ?_⟩
    have feedless := Text.not_mem_of_margin blank
    simp only [lineEnds, List.mem_cons, List.not_mem_nil, or_false] at member
    -- The line feed stands behind the line or nowhere, which leaves two of the four line ends each.
    rcases ends with rfl | rfl
    · rw [List.append_nil] at whole
      rw [whole, List.mem_append, not_or] at noFeed
      rcases member with rfl | rfl | rfl | rfl
      · exact .inr whole
      · simp at noFeed
      · simp at noFeed
      · exact .inl (by simpa using whole)
    · rcases member with rfl | rfl | rfl | rfl
      · have last := (List.append_inj' whole rfl).2
        cases last
      · exact .inl (List.append_cancel_right whole)
      · have same : line ++ ['\n'] = blanks ++ ['\r'] ++ ['\n'] := by simpa using whole
        exact .inr (List.append_cancel_right same)
      · rw [List.append_nil] at whole
        exact absurd (by simp [← whole]) feedless
  · rintro ⟨blanks, blank, rfl | rfl⟩
    · rcases ends with rfl | rfl
      · exact ⟨line, [], rfl, blank, by simp [lineEnds]⟩
      · exact ⟨line, ['\n'], rfl, blank, by simp [lineEnds]⟩
    · rcases ends with rfl | rfl
      · exact ⟨blanks, ['\r'], by simp, blank, by simp⟩
      · exact ⟨blanks, ['\r', '\n'], by simp, blank, by simp [lineEnds]⟩

/-- A line end can be split off exactly if the rest of the line is blank. -/
theorem map_splitLineEnd? {rest line ending : List Char} (noFeed : '\n' ∉ line)
    (ends : ending = [] ∨ ending = ['\n']) (whole : firstLine rest = line ++ ending) :
    (splitLineEnd? rest).map Prod.fst =
      if (stripReturn line).all isMargin then some (line ++ ending) else none := by
  have blank := isBlankLine_iff noFeed ends
  rw [← whole] at blank ⊢
  split
  · rename_i all
    obtain ⟨behind, split⟩ := exists_splitLineEnd? (blank.mpr all)
    rw [split, Option.map_some]
  · rename_i other
    cases split : splitLineEnd? rest with
    | none => rfl
    | some parts => exact absurd (blank.mp (firstLine_of_splitLineEnd? split).2) other

theorem blankBehind_eq {r : Reader} {before rest : List Char} (source : r.source = before ++ rest) :
    r.blankBehind (size before) =
      some ((splitLineEnd? rest).map fun split => size (before ++ split.1)) := by
  have taken : slice? r.source (size before) (size r.source) = some rest := by
    rw [source]
    exact Text.slice?_behind before rest
  have moved : (splitLineEnd? rest).map (fun split => size (before ++ split.1)) =
      ((splitLineEnd? rest).map Prod.fst).map fun line => size (before ++ line) := by
    rw [Option.map_map]
    rfl
  rw [moved]
  cases found : cut ['\n'] rest with
  | none =>
    have noFeed := Text.not_mem_of_cut_eq_none found
    have line : firstLine rest = rest ++ [] := by
      rw [List.append_nil]
      exact Text.firstLine_of_not_mem fun member =>
        noFeed ((Text.prefix_firstLine rest).subset member)
    rw [map_splitLineEnd? noFeed (.inl rfl) line]
    simp only [blankBehind, taken, find?, found, Option.bind_eq_bind, Option.bind_some,
      Option.map_none, List.append_nil]
    rw [source]
    split <;> rfl
  | some parts =>
    obtain ⟨line, behind⟩ := parts
    have noFeed := Text.not_mem_of_cut found
    have whole := Text.eq_append_of_cut found
    have first : firstLine rest = line ++ ['\n'] := by
      rw [whole, List.append_assoc, Text.firstLine_append, if_neg noFeed]
      rfl
    have inside : slice? rest 0 (size line) = some line := by
      rw [whole, List.append_assoc]
      exact Text.slice?_upTo line _
    rw [map_splitLineEnd? noFeed (.inr rfl) first]
    simp only [blankBehind, taken, find?, found, inside, Option.bind_eq_bind, Option.bind_some,
      Option.map_some]
    split
    · have feed : size (line ++ ['\n']) = size line + 1 := Text.size_append line ['\n']
      rw [Option.map_some, Text.size_append, feed, Nat.add_assoc]
      rfl
    · rfl

/-- What is before a tag on its line is taken if it is blank and has not been read. -/
theorem blankBefore_eq {r : Reader} {s : Scanner} {done text behind : List Char}
    (read : s.HasRead done) (left : s.rest ≠ []) (offset : r.offset = size done)
    (source : r.source = done ++ text ++ behind) :
    r.blankBefore (size (done ++ text)) =
      some ((splitIndent? s.lineStart text).map fun split => size (done ++ split.1)) := by
  have indent := read.splitIndent? left text
  have starts := Text.lineStart_add_lastLine (done ++ text)
  have before : slice? r.source 0 (size (done ++ text)) = some (done ++ text) := by
    rw [source]
    exact Text.slice?_upTo (done ++ text) behind
  have line := Text.slice?_lastLine starts behind
  rw [← source] at line
  simp only [blankBefore, before, line, Option.bind_eq_bind, Option.bind_some]
  cases split : splitIndent? s.lineStart text with
  | none =>
    rw [split, Option.map_none] at indent
    split
    · rfl
    · split
      · rename_i all
        rw [if_pos all] at indent
        cases indent
      · rfl
  | some parts =>
    obtain ⟨lines, blanks⟩ := parts
    rw [split, Option.map_some] at indent
    split at indent
    · rename_i all
      have same : blanks = lastLine (done ++ text) := Option.some.inj indent
      obtain ⟨rfl, -⟩ := append_of_splitIndent? split
      have here : Text.lineStart (done ++ (lines ++ blanks)) = size (done ++ lines) := by
        rw [← same, Text.size_append done, Text.size_append lines] at starts
        rw [Text.size_append]
        omega
      have behind : ¬ size (done ++ lines) < r.offset := by
        rw [offset, Text.size_append]
        omega
      rw [here, if_neg behind, if_pos all]
      rfl
    · cases indent

section Place

variable {r : Reader} {s next : Scanner} {done text lexeme rest before : List Char} {body : TagBody}
  {tag : Tag}

/-- A tag is alone on its line exactly if both ends of the line can be split off. -/
theorem aloneOnLine_eq (read : s.HasRead done) (left : s.rest ≠ []) (offset : r.offset = size done)
    (source : r.source = done ++ text ++ lexeme ++ rest) (kind : TagKind) :
    r.aloneOnLine kind (size (done ++ text)) (size (done ++ text ++ lexeme)) =
      some (if kind.standsAlone then
        match splitIndent? s.lineStart text, splitLineEnd? rest with
        | some (lines, _), some (trailing, _) =>
          some (size (done ++ lines), size (done ++ text ++ lexeme ++ trailing))
        | _, _ => none
      else none) := by
  have front := blankBefore_eq read left offset (source.trans (List.append_assoc _ lexeme rest))
  have back := blankBehind_eq source
  unfold aloneOnLine
  split
  · rw [front, back]
    cases splitIndent? s.lineStart text with
    | none => rfl
    | some indented =>
      cases splitLineEnd? rest <;> rfl
  · rfl

theorem place_of_shared {e : TagExtent} {start : Nat}
    (shared : r.aloneOnLine e.kind start e.stop = some none) :
    r.place e start = some (⟨start, start, e.stop, e.stop⟩, none) := by
  simp only [place, shared, Option.bind_eq_bind, Option.bind_some]
  rfl

theorem place_eq (read : s.HasRead done) (left : s.rest ≠ []) (offset : r.offset = size done)
    (source : r.source =
      done ++ text ++ (s.delimiters.opener.toList ++ body.span) ++ body.rest)
    (placed : s.place text body = .tag before tag next) :
    r.place ⟨body.kind, body.content,
        size (done ++ text ++ (s.delimiters.opener.toList ++ body.span))⟩ (size (done ++ text)) =
      some (tag.placeBehind (done ++ before), tag.margins) := by
  have alone := aloneOnLine_eq read left offset source body.kind
  unfold Scanner.place at placed
  simp only at placed
  split at placed
  · rename_i kind
    rw [if_pos kind] at alone
    split at placed
    · rename_i lines blanks trailing rest indented ended
      obtain ⟨rfl, rfl, rfl⟩ := ScanStep.tag.inj placed
      obtain ⟨rfl, -⟩ := append_of_splitIndent? indented
      obtain ⟨behind, -⟩ := append_of_splitLineEnd? ended
      simp only [indented, ended] at alone
      rw [behind] at source
      have indent : slice? r.source (size (done ++ lines)) (size (done ++ (lines ++ blanks))) =
          some blanks := by
        rw [← List.append_assoc]
        refine Text.slice?_between
          (s.delimiters.opener.toList ++ body.span ++ (trailing ++ rest)) ?_
        simp only [source, List.append_assoc]
      have behindTag := Text.slice?_between rest (source.trans (List.append_assoc _ _ _).symm)
      simp only [place, alone, indent, behindTag, Option.bind_eq_bind, Option.bind_some]
      simp [Tag.placeBehind, Tag.region, Tag.indent, Tag.trailing]
    · rename_i shared
      obtain ⟨rfl, rfl, rfl⟩ := ScanStep.tag.inj placed
      rw [place_of_shared]
      · simp [Tag.placeBehind, Tag.region, Tag.indent, Tag.trailing]
      · rw [alone]
        split
        · rename_i indented ended
          exact absurd ended (shared _ _ _ _ indented)
        · rfl
  · rename_i kind
    obtain ⟨rfl, rfl, rfl⟩ := ScanStep.tag.inj placed
    rw [if_neg kind] at alone
    rw [place_of_shared alone]
    simp [Tag.placeBehind, Tag.region, Tag.indent, Tag.trailing]

end Place

end Reader

end Mustache
