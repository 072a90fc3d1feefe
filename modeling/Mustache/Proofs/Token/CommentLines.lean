import Mustache.Proofs.Token.Progress

/-!
Comments on lines of their own. At the start of a line and outside every tag a source can be cut:
the lines before are read as if nothing came after them. Main statement: a line with a comment
there adds the comment's tag to the tokens, and cuts the text around it in two.
-/

namespace Mustache

open Text (FirstAfter WholeLines)

/-- Whether a token is a tag that starts before the offset. -/
def Token.startsBefore (offset : Nat) : Token → Bool
  | text _ => false
  | tag t => t.position.offset < offset

/-- A tag is over at the offset, or it does not start before. -/
def Token.IsOutside (offset : Nat) : Token → Prop
  | text _ => True
  | tag t => t.position.offset + t.lexeme.utf8ByteSize ≤ offset ∨ offset ≤ t.position.offset

instance (offset : Nat) (t : Token) : Decidable (t.IsOutside offset) :=
  match t with
  | .text _ => inferInstanceAs (Decidable True)
  | .tag _ => inferInstanceAs (Decidable (_ ∨ _))

namespace Scan

def Outside (scan : Scan) (offset : Nat) : Prop :=
  ∀ t ∈ scan.tokens, t.IsOutside offset

instance (scan : Scan) (offset : Nat) : Decidable (scan.Outside offset) :=
  inferInstanceAs (Decidable (∀ t ∈ scan.tokens, t.IsOutside offset))

/-- The delimiters that are active at the offset: the given ones, until a tag before it sets
others. -/
def delimitersAt (scan : Scan) (d : Delimiters) (offset : Nat) : Delimiters :=
  (scan.tokens.filter (·.startsBefore offset)).foldl Token.delimitersAfter d

private theorem filter_startsBefore_ofText (offset : Nat) (text : List Char) :
    (ofText text).filter (·.startsBefore offset) = [] := by
  unfold ofText
  split <;> rfl

end Scan

/-- The tags behind whole lines without a tag are those of the source after the lines. -/
theorem Scan.mem_of_step_behind {s t : Scanner} {inside : List Char}
    (step : t.step = s.step.behind inside) {tag : Tag}
    (member : .tag tag ∈ (ofScanner t).tokens) : .tag tag ∈ (ofScanner s).tokens := by
  cases found : s.step with
  | done text =>
    rw [found] at step
    rw [ofScanner_of_done step] at member
    exact absurd member (not_mem_ofText tag _)
  | fault e =>
    rw [found] at step
    rw [ofScanner_of_fault step] at member
    cases member
  | tag text first next =>
    rw [found] at step
    rw [ofScanner_of_tag step] at member
    rw [ofScanner_of_tag found]
    rcases List.mem_append.mp member with before | after
    · exact absurd before (not_mem_ofText tag _)
    · exact List.mem_append_right _ after

/-- A tag that ends within a source is read without what is behind the source. -/
theorem TagBody.exists_read_of_le {d : Delimiters} {inner more : List Char} {body : TagBody}
    (ok : read d (inner ++ more) = .ok body)
    (within : (String.ofList body.span).utf8ByteSize ≤ (String.ofList inner).utf8ByteSize) :
    ∃ shorter, read d inner = .ok shorter := by
  have span : ∃ rest, inner = body.span ++ rest := by
    obtain ⟨parts, -⟩ := span_of_read ok
    rcases List.append_eq_append_iff.mp parts with ⟨beyond, longer, -⟩ | ⟨rest, shorter, -⟩
    · rw [longer, String.ofList_append, String.utf8ByteSize_append] at within
      have none : beyond = [] := by
        by_contra nonempty
        have positive := Text.utf8ByteSize_pos nonempty
        omega
      exact ⟨[], by simp [longer, none]⟩
    · exact ⟨rest, shorter⟩
  obtain ⟨rest, rfl⟩ := span
  exact ⟨_, read_span ok rest⟩

namespace Scanner

/-- Where all that the scanner reads ends. -/
def limit (s : Scanner) : Nat :=
  (s.position.advance s.rest).offset

private theorem limit_eq_of_tag {s next : Scanner} {text : List Char} {tag : Tag}
    (step : s.step = .tag text tag next) : next.limit = s.limit := by
  rw [limit, limit, (position_of_step step).2, (found_of_step step).whole,
    Position.advance_append _ _ next.rest]

theorem offset_lt_limit {s next : Scanner} {text : List Char} {tag : Tag}
    (step : s.step = .tag text tag next) : tag.position.offset < s.limit := by
  rw [← limit_eq_of_tag step]
  exact Nat.lt_of_lt_of_le (offset_lt_next step) (Position.offset_le_advance _ _)

/-- Lines that are cut outside every tag hold the tags whose openers they hold. -/
theorem step_ne_fault {s : Scanner} (more : List Char)
    (whole : (Scan.ofScanner (s.followedBy more)).error = none)
    (outside : (Scan.ofScanner (s.followedBy more)).Outside s.limit) (e : SyntaxError) :
    s.step ≠ .fault e := by
  intro step
  have fine (e : SyntaxError) : (s.followedBy more).step ≠ .fault e := by
    intro step
    rw [Scan.ofScanner_of_fault step] at whole
    cases whole
  obtain ⟨text, inner, cause, opener, unread, rfl⟩ := exists_read_of_fault step
  have longer : Text.cut (s.followedBy more).delimiters.opener.toList (s.followedBy more).rest =
      some (text, inner ++ more) := Text.cut_append more opener
  cases read : TagBody.read s.delimiters (inner ++ more) with
  | error other => exact fine _ (step_eq_fault longer read)
  | ok body =>
    -- the tag that is read with more source starts in the lines, so it ends in them
    obtain ⟨before, margins, next, placed⟩ := (s.followedBy more).exists_place text body
    have found := (step_eq_place longer read).trans placed
    have bounds := outside _ (by
      rw [Scan.ofScanner_of_tag found]
      exact List.mem_append_right _ List.mem_cons_self)
    have limit : s.limit = (s.position.advance text).offset +
        s.delimiters.opener.utf8ByteSize + (String.ofList inner).utf8ByteSize := by
      rw [Scanner.limit, Text.eq_append_of_cut opener, Position.advance_append,
        Position.advance_append, (Position.advance_counts _ inner).2,
        (Position.advance_counts _ _).2, String.ofList_toList]
    have positive := Text.utf8ByteSize_pos s.delimiters.opener_ne_nil
    simp only [Token.IsOutside, followedBy, String.ofList_append, String.ofList_toList,
      String.utf8ByteSize_append, limit] at bounds positive
    obtain ⟨shorter, again⟩ := TagBody.exists_read_of_le read (by omega)
    rw [again] at unread
    cases unread

end Scanner

namespace Scan

private theorem startsBefore_of_step {s next : Scanner} {text : List Char} {tag : Tag}
    (step : s.step = .tag text tag next) : (Token.tag tag).startsBefore s.limit = true :=
  decide_eq_true (Scanner.offset_lt_limit step)

/-- Whole lines that are cut outside every tag have no fault of their own, and the tags before
the cut are theirs. -/
theorem settled_of_outside {s : Scanner} (more : List Char) (settled : s.AtLines)
    (whole : (ofScanner (s.followedBy more)).error = none)
    (outside : (ofScanner (s.followedBy more)).Outside s.limit) :
    (ofScanner s).error = none ∧
      (ofScanner (s.followedBy more)).delimitersAt s.delimiters s.limit =
        (ofScanner s).tokens.foldl Token.delimitersAfter s.delimiters := by
  induction s using ofScanner.induct with
  | case1 s text step =>
    have behind := Scanner.step_behind more settled step
    obtain ⟨-, rfl⟩ := Scanner.cut_of_done step
    have none : (ofScanner (s.followedBy more)).tokens.filter (·.startsBefore s.limit) = [] := by
      refine List.filter_eq_nil_iff.mpr ?_
      intro token member
      cases token with
      | text t => simp [Token.startsBefore]
      | tag t =>
        have later := (s.restart s.rest more).offset_le_of_mem (mem_of_step_behind behind member)
        have bound : s.limit ≤ t.position.offset := later
        simpa [Token.startsBefore] using bound
    rw [ofScanner_of_done step, delimitersAt, none, foldl_delimitersAfter_ofText]
    exact ⟨rfl, rfl⟩
  | case2 s e step => exact absurd step (Scanner.step_ne_fault more whole outside e)
  | case3 s text tag next step ih =>
    obtain ⟨longer, left, -⟩ := Scanner.step_followedBy more settled step
    have limit := Scanner.limit_eq_of_tag step
    rw [ofScanner_of_tag longer] at whole outside
    have later : (ofScanner (next.followedBy more)).Outside next.limit := by
      intro t member
      rw [limit]
      exact outside t (List.mem_append_right _ (List.mem_cons_of_mem _ member))
    obtain ⟨fine, delimiters⟩ := ih left whole later
    rw [limit] at delimiters
    have set := (Scanner.found_of_step step).delimiters
    rw [ofScanner_of_tag step, ofScanner_of_tag longer]
    refine ⟨fine, ?_⟩
    simp only [delimitersAt, List.filter_append, filter_startsBefore_ofText, List.nil_append,
      List.filter_cons_of_pos (startsBefore_of_step step), List.foldl_cons, List.foldl_append,
      foldl_delimitersAfter_ofText, Token.delimitersAfter, ← set] at delimiters ⊢
    exact delimiters

/-- What is wrong with a source behind whole lines is wrong with both together. -/
theorem error_followedBy {s : Scanner} (more : List Char) (settled : s.AtLines)
    (first : (ofScanner s).error = none) :
    (ofScanner (s.followedBy more)).error = (ofScanner (s.after more)).error := by
  induction s using ofScanner.induct with
  | case1 s text step =>
    have behind := Scanner.step_behind more settled step
    rw [after_of_done more step]
    cases found : (s.restart text more).step with
    | done next =>
      rw [found] at behind
      rw [ofScanner_of_done found, ofScanner_of_done behind]
    | fault e =>
      rw [found] at behind
      rw [ofScanner_of_fault found, ofScanner_of_fault behind]
    | tag next tag after =>
      rw [found] at behind
      rw [ofScanner_of_tag found, ofScanner_of_tag behind]
  | case2 s e step =>
    rw [ofScanner_of_fault step] at first
    cases first
  | case3 s text tag next step ih =>
    obtain ⟨longer, left, position⟩ := Scanner.step_followedBy more settled step
    rw [ofScanner_of_tag step] at first
    rw [after_of_tag more step position, ofScanner_of_tag longer]
    exact ih left first

end Scan

/-- A line with nothing on it but a comment. -/
def Delimiters.commentLine (d : Delimiters) (comment : String) : String :=
  d.opener ++ "!" ++ comment ++ d.closer ++ "\n"

private theorem Delimiters.toList_commentLine (d : Delimiters) (comment : String) :
    (d.commentLine comment).toList =
      d.opener.toList ++ ('!' :: comment.toList ++ d.closer.toList) ++ ['\n'] := by
  simp [commentLine]

/-- A comment reads as one whatever it holds, up to the first closer behind it. -/
theorem TagBody.read_comment {d : Delimiters} {comment : List Char}
    (ends : FirstAfter ('!' :: comment) d.closer.toList ('!' :: comment ++ d.closer.toList))
    (rest : List Char) :
    ∃ content, read d ('!' :: comment ++ d.closer.toList ++ rest) =
      .ok ⟨.comment, content, '!' :: comment ++ d.closer.toList, rest⟩ := by
  obtain ⟨inner, trimmed⟩ := Text.exists_trim_cons (c := '!') (by decide) comment
  have found := Text.cut_of_firstAfter d.closer_ne_nil ends rest
  have classified : classify (Text.trim ('!' :: comment)) = (.comment, Text.trimStart inner) := by
    rw [trimmed]
    rfl
  refine ⟨Text.trimStart inner, ?_⟩
  unfold read
  simp only [List.cons_append] at found ⊢
  simp only [found, classified, checked, bne_self_eq_false, Bool.and_false, Bool.false_eq_true,
    ↓reduceIte, List.cons_append]
  rfl

theorem Scanner.step_comment {s : Scanner} {comment : String} {more : List Char}
    (fresh : s.lineStart = true)
    (ends : FirstAfter ('!' :: comment.toList) s.delimiters.closer.toList
      ('!' :: comment.toList ++ s.delimiters.closer.toList))
    (rest : s.rest = (s.delimiters.commentLine comment).toList ++ more) :
    ∃ tag, tag.kind = .comment ∧ s.step =
      .tag [] tag ⟨more, s.position.advance (s.delimiters.commentLine comment).toList, true,
        s.delimiters⟩ := by
  obtain ⟨content, read⟩ := TagBody.read_comment ends ('\n' :: more)
  have found := Text.cut_needle s.delimiters.opener_ne_nil
    ('!' :: comment.toList ++ s.delimiters.closer.toList ++ '\n' :: more)
  have line := s.delimiters.toList_commentLine comment
  have whole : s.rest = s.delimiters.opener.toList ++
      ('!' :: comment.toList ++ s.delimiters.closer.toList ++ '\n' :: more) := by
    rw [rest, line]
    simp
  refine ⟨⟨.comment, String.ofList content, s.position, String.ofList (s.delimiters.opener.toList ++
    ('!' :: comment.toList ++ s.delimiters.closer.toList)), some ⟨"", "\n"⟩⟩, rfl, ?_⟩
  simp only [step, whole, found, read, place, TagKind.standsAlone, fresh, ↓reduceIte, line]
  rfl

private theorem Position.below_below (p : Position) (first second : String) :
    (p.below first).below second = p.below (first ++ second) := by
  simp only [below, String.toList_append, List.count_append, String.utf8ByteSize_append, mk.injEq,
    true_and]
  omega

/-- Behind whole lines, a line is counted as it is in front of a source. -/
theorem Position.advance_line {lines line : String} (whole : WholeLines lines.toList)
    (ended : ∃ before, line.toList = before ++ ['\n']) :
    (start.advance lines.toList).advance line.toList = (start.advance lines.toList).below line := by
  have both : WholeLines (lines ++ line).toList := by
    obtain ⟨before, last⟩ := ended
    intro c found
    rw [String.toList_append, last, ← List.append_assoc, List.getLast?_concat] at found
    exact (Option.some.inj found).symm
  rw [← advance_append, ← String.toList_append, advance_wholeLines both, advance_wholeLines whole,
    below_below]

namespace Scan

theorem append_of_joined {first second whole : Scan} {tag : Tag} {tokens : List Token}
    (joined : first.Joined second whole) (starts : second.tokens = .tag tag :: tokens) :
    whole.tokens = first.tokens ++ .tag tag :: tokens := by
  obtain ⟨⟨front, last, next, others, left, right, both⟩, -⟩ := joined
  have none : next = [] := by
    cases next with
    | nil => rfl
    | cons c next =>
      rw [starts] at right
      cases right
  subst none
  have same : others = .tag tag :: tokens := right.symm.trans starts
  rw [both, left, same, List.append_nil]

/-- A comment behind whole lines is read first; the source behind its line is further down. -/
theorem exists_comment_first {active : Delimiters} {lines comment : String} (source : String)
    (whole : WholeLines lines.toList)
    (ends : FirstAfter ('!' :: comment.toList) active.closer.toList
      ('!' :: comment.toList ++ active.closer.toList)) :
    let line := active.commentLine comment
    let place := Position.start.advance lines.toList
    let behind := (ofScanner ⟨source.toList, place, true, active⟩).relocate (·.below line)
    ∃ tag, tag.kind = .comment ∧ ofScanner ⟨(line ++ source).toList, place, true, active⟩ =
      ⟨.tag tag :: behind.tokens, behind.error⟩ := by
  intro line place behind
  have below : place.advance line.toList = place.below line :=
    Position.advance_line whole ⟨_, active.toList_commentLine comment⟩
  have moved : ofScanner ⟨source.toList, place.below line, true, active⟩ = behind :=
    ofScanner_relocate (Position.uniform_below line) ⟨source.toList, place, true, active⟩
  obtain ⟨tag, kind, step⟩ := Scanner.step_comment
    (s := ⟨(line ++ source).toList, place, true, active⟩) rfl ends String.toList_append
  refine ⟨tag, kind, ?_⟩
  rw [ofScanner_of_tag step, below, moved]
  rfl

/-- Whole lines that are cut outside every tag: how they are read, and from where any source
behind them is read. -/
theorem after_of_outside {d active : Delimiters} {lines source : String}
    (whole : WholeLines lines.toList) (fine : (ofSource d (lines ++ source)).error = none)
    (outside : (ofSource d (lines ++ source)).Outside lines.utf8ByteSize)
    (delimiters : (ofSource d (lines ++ source)).delimitersAt d lines.utf8ByteSize = active) :
    (ofSource d lines).error = none ∧ ∀ more : String,
      (Scanner.start d lines).after more.toList =
        ⟨more.toList, Position.start.advance lines.toList, true, active⟩ := by
  have settled : (Scanner.start d lines).AtLines := ⟨whole, fun _ => rfl⟩
  have limit : (Scanner.start d lines).limit = lines.utf8ByteSize := by
    have counted := (Position.advance_counts .start lines.toList).2
    rw [String.ofList_toList] at counted
    simpa [Scanner.limit, Scanner.start, Position.start] using counted
  obtain ⟨first, set⟩ := settled_of_outside source.toList settled
    (by rw [Scanner.followedBy_start]; exact fine)
    (by rw [Scanner.followedBy_start, limit]; exact outside)
  rw [Scanner.followedBy_start, limit] at set
  have active_eq : (ofScanner (.start d lines)).tokens.foldl Token.delimitersAfter d = active :=
    set.symm.trans delimiters
  refine ⟨first, fun more => ?_⟩
  exact congrArg (Scanner.mk more.toList (Position.start.advance lines.toList) true) active_eq

/-- A line with a comment, between whole lines and other source and outside every tag, adds its
tag and cuts the text around it. The tags behind it are further down. -/
theorem exists_commented {d active : Delimiters} {lines source comment : String}
    (whole : WholeLines lines.toList) (fine : (ofSource d (lines ++ source)).error = none)
    (outside : (ofSource d (lines ++ source)).Outside lines.utf8ByteSize)
    (delimiters : (ofSource d (lines ++ source)).delimitersAt d lines.utf8ByteSize = active)
    (ends : FirstAfter ('!' :: comment.toList) active.closer.toList
      ('!' :: comment.toList ++ active.closer.toList)) :
    ∃ front last next others tag, tag.kind = .comment ∧
      ofSource d (lines ++ source) = ⟨front ++ ofText (last ++ next) ++ others, none⟩ ∧
      ofSource d (lines ++ (active.commentLine comment ++ source)) =
        ⟨front ++ ofText last ++ .tag tag :: (ofText next ++
          others.map (·.relocate (·.below (active.commentLine comment)))), none⟩ := by
  have settled : (Scanner.start d lines).AtLines := ⟨whole, fun _ => rfl⟩
  obtain ⟨first, after⟩ := after_of_outside whole fine outside delimiters
  obtain ⟨tag, kind, behind⟩ := exists_comment_first source whole ends
  rw [← after, ← after] at behind
  have second : (ofScanner ((Scanner.start d lines).after source.toList)).error = none := by
    rw [← error_followedBy _ settled first, Scanner.followedBy_start]
    exact fine
  have relocated : (ofScanner ((Scanner.start d lines).after
      (active.commentLine comment ++ source).toList)).error = none := by
    rw [behind, relocate, second]
    rfl
  -- the same lines with the source behind them, and with the comment between both
  obtain ⟨⟨front, last, next, others, left, right, both⟩, error⟩ :=
    joined_ofScanner source.toList settled first second
  have joined := joined_ofScanner _ settled first relocated
  have tokens := append_of_joined joined (congrArg Scan.tokens behind)
  have commented := joined.error.trans relocated
  rw [Scanner.followedBy_start] at both error tokens commented
  rw [relocate, right, List.map_append, map_relocate_ofText, left] at tokens
  refine ⟨front, last, next, others, tag, kind, ?_, ?_⟩
  · rw [← both, ← error.trans second]
    rfl
  · rw [← tokens, ← commented]
    rfl

end Scan

end Mustache
