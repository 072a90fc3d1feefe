import Mustache.Proofs.Token.Regions

/-!
Scanning at the end of a line. When a source of whole lines is followed by another source, the
scanner reads the tags of the first as if nothing came after them, and then the second as if
nothing had come before it. Only the texts at the boundary become one.
-/

namespace Mustache

open Text (Stops NoneStarts cut)

namespace Text

/-- A text that is empty or ends with a line feed. -/
def WholeLines (s : List Char) : Prop :=
  ∀ c ∈ s.getLast?, c = '\n'

@[simp] theorem wholeLines_nil : WholeLines [] := by
  simp [WholeLines]

theorem WholeLines.right {s t : List Char} (lines : WholeLines (s ++ t)) : WholeLines t := by
  intro c last
  refine lines c ?_
  simp only [List.getLast?_append, Option.mem_def] at last ⊢
  simp [last]

/-- A text of whole lines with a visible part is not over with that part. -/
theorem WholeLines.ne_nil {before visible rest : List Char}
    (lines : WholeLines (before ++ visible ++ rest)) (nonempty : visible ≠ [])
    (chars : ∀ c ∈ visible, isBlank c = false) : rest ≠ [] := by
  rintro rfl
  have last := List.getLast_mem nonempty
  have feed : visible.getLast nonempty = '\n' := by
    refine lines _ ?_
    simp [List.getLast?_append, List.getLast?_eq_some_getLast nonempty]
  have blank := chars _ last
  rw [feed] at blank
  cases blank

end Text

open Text (WholeLines)

/-- A delimiter that is not in whole lines does not begin in them either. -/
theorem Delimiters.noneStarts_of_wholeLines {d : Delimiters} {inside : List Char}
    (lines : WholeLines inside) (none : cut d.opener.toList inside = none) (behind : List Char) :
    NoneStarts d.opener.toList inside behind := by
  refine (Text.noneStarts_of_cut_eq_none none).extend ?_
  rintro c last member
  have visible := not_isBlank (d := d) (c := c) (.inl member)
  rw [lines c last] at visible
  cases visible

theorem TagSpan.exists_closer {d : Delimiters} {behind : List Char} {kind : TagKind}
    {span : List Char} (is : TagSpan d behind kind span) :
    ∃ inner, span = inner ++ d.closer.toList := by
  cases is with
  | @plain _ inner start ends other => exact ⟨inner, rfl⟩
  | @braced inner ends => exact ⟨'{' :: inner ++ ['}'], by simp⟩
  | @delimiters next inner ends spelled => exact ⟨'=' :: inner ++ ['='], by simp⟩

/-! What is looked for behind a tag does not reach over the end of a line. -/

namespace TagBody

def followedBy (body : TagBody) (more : List Char) : TagBody :=
  { body with rest := body.rest ++ more }

private theorem checked_followedBy (body : TagBody) (more : List Char) :
    (body.followedBy more).checked = body.checked.map (·.followedBy more) := by
  unfold checked
  by_cases empty : (body.content.isEmpty && body.kind != .comment) = true
  · rw [if_pos empty]
    exact if_pos empty
  · rw [if_neg empty]
    exact if_neg empty

/-- A tag that is closed is the same tag in a longer source, or has the same fault. -/
theorem read_append {d : Delimiters} {s : List Char} (more : List Char)
    (closed : read d s ≠ .error .unclosedTag) :
    read d (s ++ more) = (read d s).map (·.followedBy more) := by
  unfold read at closed
  simp only at closed
  split at closed
  · rename_i inner
    cases found : cut ('}' :: d.closer.toList) inner with
    | none => simp [found] at closed
    | some parts =>
      simp only [read, List.cons_append, found, Text.cut_append more found]
      exact checked_followedBy ⟨_, _, _, _⟩ more
  · rename_i inner
    cases found : cut ('=' :: d.closer.toList) inner with
    | none => simp [found] at closed
    | some parts =>
      simp only [read, List.cons_append, found, Text.cut_append more found]
      cases Delimiters.read? (Text.trim parts.1) <;> rfl
  · rename_i notBrace notEquals
    cases found : cut d.closer.toList s with
    | none => simp [found] at closed
    | some parts =>
      have longer := Text.cut_append more found
      cases s with
      | nil =>
        have none := Text.length_lt_of_cut d.closer_ne_nil found
        simp at none
      | cons c s =>
        have brace : c ≠ '{' := fun same => notBrace s (by rw [same])
        have equals : c ≠ '=' := fun same => notEquals s (by rw [same])
        rw [List.cons_append] at longer ⊢
        simp only [read, found, longer, brace, equals, List.cons.injEq, false_and, imp_self,
          implies_true]
        exact checked_followedBy ⟨_, _, _, _⟩ more

private theorem checked_withRest {body result : TagBody} (rest : List Char)
    (ok : body.checked = .ok result) : checked { body with rest } = .ok { result with rest } := by
  obtain rfl := rest_of_checked ok
  unfold checked at ok ⊢
  split at ok
  · cases ok
  · rename_i holds
    rw [if_neg holds]

theorem read_append_of_ok {d : Delimiters} {s : List Char} {body : TagBody} (more : List Char)
    (ok : read d s = .ok body) : read d (s ++ more) = .ok (body.followedBy more) := by
  rw [read_append more (by simp [ok]), ok]
  rfl

/-- A tag is read from its own characters, whatever comes behind them. -/
theorem read_span {d : Delimiters} {s : List Char} {body : TagBody} (ok : read d s = .ok body)
    (rest : List Char) : read d (body.span ++ rest) = .ok { body with rest } := by
  have cut_again {needle text before behind : List Char} (nonempty : needle ≠ [])
      (found : cut needle text = some (before, behind)) :
      cut needle (before ++ needle ++ rest) = some (before, rest) := by
    have first := Text.firstAfter_of_cut found
    rw [Text.eq_append_of_cut found] at first
    exact Text.cut_of_firstAfter nonempty first.within rest
  unfold read at ok
  simp only at ok
  split at ok
  · split at ok
    · cases ok
    · rename_i inner _ raw behind found
      have again := cut_again (by simp) found
      obtain rfl := rest_of_checked ok
      simp only [read, List.cons_append, again]
      exact checked_withRest rest ok
  · split at ok
    · cases ok
    · rename_i inner _ raw behind found
      split at ok
      · cases ok
      · rename_i next spelled
        have again := cut_again (by simp) found
        obtain rfl := Except.ok.inj ok
        simp only [read, List.cons_append, again, spelled]
  · rename_i notBrace notEquals
    split at ok
    · cases ok
    · rename_i raw behind found
      have again := cut_again d.closer_ne_nil found
      have whole := Text.eq_append_of_cut found
      obtain rfl := rest_of_checked ok
      have nonempty : raw ++ d.closer.toList ≠ [] := by
        simp [d.closer_ne_nil]
      cases span : raw ++ d.closer.toList with
      | nil => exact absurd span nonempty
      | cons c others =>
        rw [span] at again whole
        have brace : c ≠ '{' := fun same => notBrace (others ++ behind) (by rw [whole, same]; rfl)
        have equals : c ≠ '=' := fun same => notEquals (others ++ behind) (by rw [whole, same]; rfl)
        simp only [read, List.cons_append, brace, equals, List.cons.injEq, false_and, imp_self,
          implies_true] at again ⊢
        simp only [again]
        rw [← span]
        exact checked_withRest rest ok

end TagBody

/-- What a line ends with is known when more source comes, unless the line was ended by the end
of the source. -/
theorem splitLineEnd?_append (s more : List Char) :
    splitLineEnd? (s ++ more) = (splitLineEnd? s).map (fun (t, r) => (t, r ++ more)) ∨
      '\n' ∉ s ∧ ∃ trailing, splitLineEnd? s = some (trailing, []) := by
  have run : ∀ c ∈ s.takeWhile isMargin, isMargin c = true := fun c => List.mem_takeWhile_imp
  have whole : s.takeWhile isMargin ++ s.dropWhile isMargin = s := List.takeWhile_append_dropWhile
  have stops := Text.stops_dropWhile isMargin s
  generalize s.takeWhile isMargin = blanks at run whole
  generalize s.dropWhile isMargin = ending at whole stops
  subst whole
  have noFeed : '\n' ∉ blanks := fun member => absurd (run _ member) (by decide)
  cases ending with
  | nil =>
    refine .inr ⟨by simpa using noFeed, blanks, ?_⟩
    unfold splitLineEnd?
    rw [Text.takeWhile_run run stops, Text.dropWhile_run run stops]
  | cons c ending =>
    have longer : Stops isMargin (c :: ending ++ more) := by simpa using stops
    unfold splitLineEnd?
    rw [List.append_assoc, Text.takeWhile_run run stops, Text.dropWhile_run run stops,
      Text.takeWhile_run run longer, Text.dropWhile_run run longer]
    by_cases feed : c = '\n'
    · subst feed
      exact .inl rfl
    · by_cases carriage : c = '\r'
      · subst carriage
        cases ending with
        | nil => exact .inr ⟨by simpa using noFeed, blanks ++ ['\r'], rfl⟩
        | cons d ending =>
          by_cases feed : d = '\n'
          · subst feed
            exact .inl rfl
          · exact .inl (by simp [feed])
      · exact .inl (by simp [feed, carriage])

theorem splitLineEnd?_wholeLines {s : List Char} (more : List Char) (lines : WholeLines s)
    (nonempty : s ≠ []) :
    splitLineEnd? (s ++ more) = (splitLineEnd? s).map fun (t, r) => (t, r ++ more) := by
  refine (splitLineEnd?_append s more).resolve_right fun ⟨noFeed, _⟩ => noFeed ?_
  rw [← lines _ (List.getLast?_eq_some_getLast nonempty)]
  exact List.getLast_mem nonempty

theorem splitIndent?_append {lineStart : Bool} {before : List Char} (text : List Char)
    (lines : WholeLines before) (fresh : before = [] → lineStart = true) :
    splitIndent? lineStart (before ++ text) =
      (splitIndent? true text).map fun (b, i) => (before ++ b, i) := by
  have run : ∀ c ∈ text.reverse.takeWhile isMargin, isMargin c = true :=
    fun c => List.mem_takeWhile_imp
  have whole : text.reverse.takeWhile isMargin ++ text.reverse.dropWhile isMargin = text.reverse :=
    List.takeWhile_append_dropWhile
  have stops : Stops isMargin before.reverse := by
    intro c head
    rw [List.head?_reverse] at head
    rw [lines c head]
    rfl
  have stopsText := Text.stops_dropWhile isMargin text.reverse
  unfold splitIndent?
  rw [List.reverse_append]
  generalize text.reverse.takeWhile isMargin = indent at run whole
  generalize text.reverse.dropWhile isMargin = others at whole stopsText
  rw [← whole, List.append_assoc, Text.takeWhile_run run (Text.stops_append stopsText stops),
    Text.dropWhile_run run (Text.stops_append stopsText stops)]
  cases others with
  | cons c others => by_cases feed : c = '\n' <;> simp [feed]
  | nil =>
    rw [List.nil_append]
    cases reversed : before.reverse with
    | nil =>
      have empty : before = [] := List.reverse_eq_nil_iff.mp reversed
      simp [empty, fresh empty]
    | cons c earlier =>
      have feed : c = '\n' := lines c (by simp [← List.head?_reverse, reversed])
      have same : before = earlier.reverse ++ [c] := by
        rw [← List.reverse_reverse before, reversed, List.reverse_cons]
      subst feed
      simp [same]

namespace Scanner

/-- The scanner with more source after its own. -/
def followedBy (s : Scanner) (more : List Char) : Scanner :=
  { s with rest := s.rest ++ more }

@[simp] theorem followedBy_start (d : Delimiters) (source more : String) :
    (start d source).followedBy more.toList = start d (source ++ more) := by
  simp [followedBy, start]

/-- A scanner of whole lines; with nothing left to read it is at the start of a line. -/
structure AtLines (s : Scanner) : Prop where
  lines : WholeLines s.rest
  fresh : s.rest = [] → s.lineStart = true

/-- What placing a tag says of the tag's place and of the scanner behind it. -/
theorem next_of_place {s next : Scanner} {text before : List Char} {body : TagBody} {tag : Tag}
    (found : s.place text body = .tag before tag next) :
    tag.position = s.position.advance (before ++ tag.indent.toList) ∧
      next.position = s.position.advance (before ++ tag.region) ∧
      (next.rest = body.rest ∨ next.lineStart = true) := by
  cases placed_of_place found with
  | inline =>
    exact ⟨by simp [Tag.indent], by simp [Tag.region, Tag.indent, Tag.trailing], .inl rfl⟩
  | alone indented ended =>
    obtain ⟨rfl, -⟩ := append_of_splitIndent? indented
    exact ⟨by simp [Tag.indent], by simp [Tag.region, Tag.indent, Tag.trailing], .inr rfl⟩

/-- The places of a tag that is found and of what is read after it. -/
theorem position_of_step {s next : Scanner} {text : List Char} {tag : Tag}
    (step : s.step = .tag text tag next) :
    tag.position = s.position.advance (text ++ tag.indent.toList) ∧
      next.position = s.position.advance (text ++ tag.region) := by
  obtain ⟨before, inner, body, -, -, placed⟩ := exists_read_of_tag step
  obtain ⟨here, behind, -⟩ := next_of_place placed
  exact ⟨here, behind⟩

/-- A tag whose line ends as in a longer source is placed as in the longer source. -/
theorem place_followedBy {s next : Scanner} {text before : List Char} {body : TagBody} {tag : Tag}
    (more : List Char)
    (ended : splitLineEnd? (body.rest ++ more) =
      (splitLineEnd? body.rest).map fun (t, r) => (t, r ++ more))
    (found : s.place text body = .tag before tag next) :
    (s.followedBy more).place text (body.followedBy more) = .tag before tag (next.followedBy more) := by
  unfold place at found ⊢
  simp only [followedBy, TagBody.followedBy, ended] at found ⊢
  split at found
  · rename_i alone
    rw [if_pos alone]
    split at found
    · rename_i indented split
      simp only [ScanStep.tag.injEq] at found
      obtain ⟨rfl, rfl, rfl⟩ := found
      simp [indented, split]
    · rename_i none
      simp only [ScanStep.tag.injEq] at found
      obtain ⟨rfl, rfl, rfl⟩ := found
      cases indented : splitIndent? s.lineStart text with
      | none => simp
      | some parts =>
        cases split : splitLineEnd? body.rest with
        | none => simp
        | some behind => exact absurd split (none parts.1 parts.2 behind.1 behind.2 indented)
  · rename_i notAlone
    simp only [ScanStep.tag.injEq] at found
    obtain ⟨rfl, rfl, rfl⟩ := found
    rw [if_neg notAlone]

/-- A tag in whole lines is found in a longer source too, and whole lines are left. -/
theorem step_followedBy {s next : Scanner} {text : List Char} {tag : Tag} (more : List Char)
    (settled : s.AtLines) (step : s.step = .tag text tag next) :
    (s.followedBy more).step = .tag text tag (next.followedBy more) ∧ next.AtLines ∧
      next.position = s.position.advance (text ++ tag.region) := by
  have whole := (found_of_step step).whole
  have lines := settled.lines
  obtain ⟨before, inner, body, opener, read, placed⟩ := exists_read_of_tag step
  have split := Text.eq_append_of_cut opener
  obtain ⟨parts, span⟩ := TagBody.span_of_read read
  obtain ⟨content, closed⟩ := span.exists_closer
  have ends : s.rest = before ++ s.delimiters.opener.toList ++ content ++
      s.delimiters.closer.toList ++ body.rest := by
    rw [split, parts, closed]
    simp [List.append_assoc]
  have left : body.rest ≠ [] := by
    rw [ends] at lines
    exact lines.ne_nil s.delimiters.closer_ne_nil fun c member =>
      Delimiters.not_isBlank (.inr member)
  obtain ⟨-, position, fresh⟩ := next_of_place placed
  refine ⟨?_, ⟨?_, ?_⟩, position⟩
  · have longer : (s.followedBy more).step =
        (s.followedBy more).place before (body.followedBy more) :=
      step_eq_place (Text.cut_append more opener) (TagBody.read_append_of_ok more read)
    rw [longer]
    rw [ends] at lines
    exact place_followedBy more (splitLineEnd?_wholeLines more lines.right left) placed
  · rw [whole] at lines
    exact lines.right
  · intro empty
    rcases fresh with same | fresh
    · exact absurd (same.symm.trans empty) left
    · exact fresh

/-- The scanner that goes on after a text with the source behind it. -/
def restart (s : Scanner) (text more : List Char) : Scanner :=
  ⟨more, s.position.advance text, true, s.delimiters⟩

end Scanner

/-- A step with more text before what it finds. -/
def ScanStep.behind (inside : List Char) : ScanStep → ScanStep
  | .done text => .done (inside ++ text)
  | .fault e => .fault e
  | .tag text t next => .tag (inside ++ text) t next

namespace Scanner

private theorem place_behind {s : Scanner} (settled : s.AtLines) (more text : List Char)
    (body : TagBody) :
    (s.followedBy more).place (s.rest ++ text) body =
      ((s.restart s.rest more).place text body).behind s.rest := by
  have indented := splitIndent?_append text settled.lines settled.fresh
  unfold place
  simp only [followedBy, restart, Position.advance_append, indented]
  split
  · cases splitIndent? true text with
    | none => rfl
    | some parts => cases splitLineEnd? body.rest <;> rfl
  · rfl

/-- Behind whole lines without a tag the source after them is read from its own start, with
the lines before its first text. -/
theorem step_behind {s : Scanner} {text : List Char} (more : List Char) (settled : s.AtLines)
    (step : s.step = .done text) :
    (s.followedBy more).step = (s.restart text more).step.behind text := by
  obtain ⟨miss, rfl⟩ := cut_of_done step
  have none := Delimiters.noneStarts_of_wholeLines settled.lines miss more
  have moved := Text.cut_append_of_noneStarts none
  unfold Scanner.step
  simp only [followedBy, restart] at moved ⊢
  rw [moved]
  cases cut s.delimiters.opener.toList more with
  | none => rfl
  | some found =>
    obtain ⟨before, inner⟩ := found
    simp only [Option.map_some, Position.advance_append]
    cases TagBody.read s.delimiters inner with
    | error cause => rfl
    | ok body => exact place_behind settled more before body

end Scanner

/-- A scan is made of two parts at the end of a line: the last text of the first and the first
text of the second, either of which may be empty, are one text of the whole. -/
structure Scan.Joined (first second whole : Scan) : Prop where
  tokens : ∃ front last next others,
    first.tokens = front ++ ofText last ∧ second.tokens = ofText next ++ others ∧
      whole.tokens = front ++ ofText (last ++ next) ++ others
  error : whole.error = second.error

namespace Scan

private theorem joined_of_done {s : Scanner} {text : List Char} (more : List Char)
    (settled : s.AtLines) (step : s.step = .done text)
    (whole : (ofScanner (s.restart text more)).error = none) :
    (ofScanner s).Joined (ofScanner (s.restart text more)) (ofScanner (s.followedBy more)) := by
  have behind := Scanner.step_behind more settled step
  rw [ofScanner_of_done step]
  cases found : (s.restart text more).step with
  | done next =>
    rw [found] at behind
    rw [ofScanner_of_done found, ofScanner_of_done behind]
    exact ⟨⟨[], text, next, [], by simp⟩, rfl⟩
  | fault e =>
    rw [ofScanner_of_fault found] at whole
    cases whole
  | tag next tag after =>
    rw [found] at behind
    rw [ofScanner_of_tag found, ofScanner_of_tag behind]
    exact ⟨⟨[], text, next, .tag tag :: (ofScanner after).tokens, by simp⟩, rfl⟩

end Scan

/-- The scanner of more source after all that a scanner reads, at the start of a line. -/
def Scanner.after (s : Scanner) (more : List Char) : Scanner :=
  ⟨more, s.position.advance s.rest, true,
    (Scan.ofScanner s).tokens.foldl Token.delimitersAfter s.delimiters⟩

namespace Scan

theorem not_mem_ofText (t : Tag) (text : List Char) : .tag t ∉ ofText text := by
  unfold ofText
  split <;> simp

theorem foldl_delimitersAfter_ofText (d : Delimiters) (text : List Char) :
    (ofText text).foldl Token.delimitersAfter d = d := by
  unfold ofText
  split <;> rfl

theorem after_of_done {s : Scanner} {text : List Char} (more : List Char)
    (step : s.step = .done text) : s.after more = s.restart text more := by
  obtain ⟨-, rfl⟩ := Scanner.cut_of_done step
  simp only [Scanner.after, Scanner.restart, ofScanner_of_done step, foldl_delimitersAfter_ofText]

theorem after_of_tag {s next : Scanner} {text : List Char} {tag : Tag} (more : List Char)
    (step : s.step = .tag text tag next)
    (position : next.position = s.position.advance (text ++ tag.region)) :
    s.after more = next.after more := by
  have found := Scanner.found_of_step step
  simp only [Scanner.after, ofScanner_of_tag step, List.foldl_append,
    foldl_delimitersAfter_ofText, List.foldl_cons, Token.delimitersAfter, ← found.delimiters,
    position, found.whole, Position.advance_append]

/-- The scan of whole lines with more source behind them is made of the scan of the lines and
the scan of the source. -/
theorem joined_ofScanner {s : Scanner} (more : List Char) (settled : s.AtLines)
    (first : (ofScanner s).error = none) (second : (ofScanner (s.after more)).error = none) :
    (ofScanner s).Joined (ofScanner (s.after more)) (ofScanner (s.followedBy more)) := by
  -- tags of the first source are read one by one, and nothing but text is left at its end
  induction s using ofScanner.induct with
  | case1 s text step =>
    rw [after_of_done more step] at second ⊢
    exact joined_of_done more settled step second
  | case2 s e step =>
    rw [ofScanner_of_fault step] at first
    cases first
  | case3 s text tag next step ih =>
    obtain ⟨longer, left, position⟩ := Scanner.step_followedBy more settled step
    rw [after_of_tag more step position] at second ⊢
    rw [ofScanner_of_tag step] at first ⊢
    rw [ofScanner_of_tag longer]
    obtain ⟨⟨front, last, following, others, tokens, behind, joined⟩, error⟩ := ih left first second
    refine ⟨⟨ofText text ++ .tag tag :: front, last, following, others, ?_, behind, ?_⟩, error⟩
    · simp [tokens]
    · simp [joined]

end Scan

end Mustache
