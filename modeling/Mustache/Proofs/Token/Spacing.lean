import Mathlib.Data.List.Forall2
import Mustache.Proofs.Token.Lines

namespace Mustache

open Text (Blanks Stops)

/-- The characters that choose the terminator of a tag if they follow its opener directly. -/
def TagBody.isBracket (c : Char) : Bool :=
  c == '{' || c == '='

namespace Token

/-- Texts made of tokens and of white space behind the openers of tags. A tag that begins with a
bracket has none there. -/
inductive Spaced : Delimiters → List Token → List Char → Prop where
  | nil (d : Delimiters) : Spaced d [] []
  | text {d : Delimiters} {tokens : List Token} {behind : List Char} (s : String)
      (rest : Spaced d tokens behind) : Spaced d (.text s :: tokens) (s.toList ++ behind)
  | tag {d : Delimiters} {t : Tag} {tokens : List Token} {gap span behind : List Char}
      (lexeme : t.lexeme.toList = d.opener.toList ++ span) (blank : Blanks gap)
      (allowed : gap = [] ∨ Stops TagBody.isBracket span)
      (rest : Spaced (Scanner.delimitersAfter d t.kind) tokens behind) :
      Spaced d (.tag t :: tokens)
        (t.indent.toList ++ d.opener.toList ++ gap ++ span ++ t.trailing ++ behind)

/-- Tokens that differ in their places and in white space behind openers at most. -/
inductive Respaced : Token → Token → Prop where
  | text (s : String) : Respaced (.text s) (.text s)
  | tag {t u : Tag} (kind : u.kind = t.kind) (content : u.content = t.content)
      (indent : u.indent = t.indent) : Respaced (.tag t) (.tag u)

end Token

namespace TagBody

private theorem checked_eq_ok {body result : TagBody} (ok : body.checked = .ok result) :
    ∀ span rest, checked { body with span, rest } = .ok { result with span, rest } := by
  obtain rfl := rest_of_checked ok
  intro span rest
  unfold checked at ok ⊢
  split at ok
  · cases ok
  · rename_i holds
    rw [if_neg holds]

theorem read_eq_of_stops {d : Delimiters} {s : List Char} (plain : Stops isBracket s) :
    read d s =
      match Text.cut d.closer.toList s with
      | none => .error .unclosedTag
      | some (raw, rest) =>
        checked ⟨(classify (Text.trim raw)).1, (classify (Text.trim raw)).2,
          raw ++ d.closer.toList, rest⟩ := by
  unfold read
  split
  · simp [isBracket] at plain
  · simp [isBracket] at plain
  · rfl

/-- A tag without a bracket in front is read behind white space as without it. -/
theorem read_blanks {d : Delimiters} {s gap : List Char} {body : TagBody} (blank : Blanks gap)
    (plain : Stops isBracket s) (ok : read d s = .ok body) :
    read d (gap ++ s) = .ok { body with span := gap ++ body.span } := by
  have plainGap : Stops isBracket gap := by
    refine Text.stops_of_forall fun c member => ?_
    have white := blank c member
    simp only [isBracket, Bool.or_eq_false_iff, beq_eq_false_iff_ne]
    constructor
    · rintro rfl
      cases white
    · rintro rfl
      cases white
  have none : Text.NoneStarts d.closer.toList gap s :=
    Text.noneStarts_of_blanks (fun c member => Delimiters.not_isBlank (.inr member))
      d.closer_ne_nil blank
  rw [read_eq_of_stops plain] at ok
  rw [read_eq_of_stops (Text.stops_append plainGap plain), Text.cut_append_of_noneStarts none]
  cases found : Text.cut d.closer.toList s with
  | none =>
    rw [found] at ok
    cases ok
  | some parts =>
    obtain ⟨raw, rest⟩ := parts
    rw [found] at ok
    have trimmed : Text.trim (gap ++ raw) = Text.trim raw := by
      rw [Text.trim, Text.trimStart_append_of_blanks blank, Text.trim]
    have read := checked_eq_ok ok (gap ++ raw ++ d.closer.toList) rest
    obtain rfl := rest_of_checked ok
    simp only [Option.map_some, trimmed]
    simpa using read

/-- A tag is read from its own characters and white space in front of them, whatever comes
behind. -/
theorem read_spaced {d : Delimiters} {s gap : List Char} {body : TagBody} (blank : Blanks gap)
    (allowed : gap = [] ∨ Stops isBracket body.span) (ok : read d s = .ok body)
    (rest : List Char) :
    read d (gap ++ body.span ++ rest) = .ok { body with span := gap ++ body.span, rest } := by
  have again := read_span ok rest
  rcases allowed with rfl | plain
  · simpa using again
  · have nonempty : body.span ≠ [] := by
      obtain ⟨inner, closed⟩ := (span_of_read ok).2.exists_closer
      rw [closed]
      simp [d.closer_ne_nil]
    have plainRest : Stops isBracket (body.span ++ rest) := by
      obtain ⟨c, others, chars⟩ := List.exists_cons_of_ne_nil nonempty
      rw [chars] at plain ⊢
      simpa using plain
    rw [List.append_assoc]
    exact read_blanks blank plainRest again

end TagBody

/-! Where a line ends does not depend on what comes behind its first visible character. -/

/-- Texts that are the same, or are so up to a visible character. -/
inductive SameLine : List Char → List Char → Prop where
  | refl (s : List Char) : SameLine s s
  | upTo {c : Char} (before : List Char) (visible : Text.isBlank c = false) (s t : List Char) :
      SameLine (before ++ c :: s) (before ++ c :: t)

theorem SameLine.eq_nil {t : List Char} (same : SameLine [] t) : t = [] := by
  generalize empty : ([] : List Char) = s at same
  cases same with
  | refl => rfl
  | upTo before visible s t => simp at empty

private theorem splitLineEnd?_visible {c : Char} (before : List Char)
    (visible : Text.isBlank c = false) (s : List Char) :
    splitLineEnd? (before ++ c :: s) =
      (splitLineEnd? (before ++ [c])).map fun (t, r) => (t, r ++ s) := by
  rcases splitLineEnd?_append (before ++ [c]) s with same | ⟨noFeed, trailing, ended⟩
  · simpa using same
  · have blank := blanks_of_splitLineEnd? ended
    have whole := (append_of_splitLineEnd? ended).1
    rw [List.append_nil] at whole
    rw [← whole] at blank
    rw [blank c (by simp)] at visible
    cases visible

private theorem splitLineEnd?_eq_none_of_sameLine {s t : List Char} (same : SameLine s t)
    (none : splitLineEnd? s = none) : splitLineEnd? t = Option.none := by
  cases same with
  | refl => exact none
  | upTo before visible s t =>
    rw [splitLineEnd?_visible before visible, Option.map_eq_none_iff] at none ⊢
    exact none

private theorem splitLineEnd?_of_sameLine {s trailing rest t : List Char}
    (split : splitLineEnd? s = some (trailing, rest)) (same : SameLine rest t) :
    splitLineEnd? (trailing ++ t) = some (trailing, t) := by
  obtain ⟨rfl, blanks, ending, rfl, margin, lineEnd⟩ := append_of_splitLineEnd? split
  have run : ∀ c ∈ blanks, isMargin c = true := fun c member => isMargin_iff.mpr (margin c member)
  rcases lineEnd with rfl | rfl | ⟨-, rfl⟩
  · have stops : Stops isMargin (['\n'] ++ t) := by simp [isMargin]
    unfold splitLineEnd?
    rw [List.append_assoc, Text.takeWhile_run run stops, Text.dropWhile_run run stops]
    rfl
  · have stops : Stops isMargin (['\r', '\n'] ++ t) := by simp [isMargin]
    unfold splitLineEnd?
    rw [List.append_assoc, Text.takeWhile_run run stops, Text.dropWhile_run run stops]
    rfl
  · obtain rfl := same.eq_nil
    exact split

namespace Scanner

variable {s r next : Scanner} {text : List Char} {tag : Tag}

theorem place_spaced (delimiters : r.delimiters = s.delimiters) (fresh : r.lineStart = s.lineStart)
    {before span behind : List Char} {body : TagBody}
    (found : s.place before body = .tag text tag next) (same : SameLine next.rest behind) :
    ∃ tag' next', r.place before { body with span, rest := tag.trailing ++ behind } =
        .tag text tag' next' ∧ Token.Respaced (.tag tag) (.tag tag') ∧ next'.rest = behind ∧
      next'.lineStart = next.lineStart ∧ next'.delimiters = next.delimiters := by
  unfold place at found ⊢
  simp only [delimiters, fresh] at found ⊢
  cases alone : body.kind.standsAlone with
  | false =>
    simp only [alone, Bool.false_eq_true, ↓reduceIte] at found ⊢
    obtain ⟨rfl, rfl, rfl⟩ := ScanStep.tag.inj found
    exact ⟨_, _, rfl, .tag rfl rfl rfl, rfl, rfl, rfl⟩
  | true =>
    simp only [alone, ↓reduceIte] at found ⊢
    cases indented : splitIndent? s.lineStart before with
    | none =>
      simp only [indented] at found ⊢
      obtain ⟨rfl, rfl, rfl⟩ := ScanStep.tag.inj found
      exact ⟨_, _, rfl, .tag rfl rfl rfl, rfl, rfl, rfl⟩
    | some parts =>
      cases ended : splitLineEnd? body.rest with
      | none =>
        simp only [indented, ended] at found
        obtain ⟨rfl, rfl, rfl⟩ := ScanStep.tag.inj found
        have unended := splitLineEnd?_eq_none_of_sameLine same ended
        simp only [Tag.trailing, List.nil_append, unended]
        exact ⟨_, _, rfl, .tag rfl rfl rfl, rfl, rfl, rfl⟩
      | some line =>
        obtain ⟨trailing, rest⟩ := line
        simp only [indented, ended] at found
        obtain ⟨rfl, rfl, rfl⟩ := ScanStep.tag.inj found
        have again := splitLineEnd?_of_sameLine ended same
        simp only [Tag.trailing, String.toList_ofList, again]
        exact ⟨_, _, rfl, .tag rfl rfl rfl, rfl, rfl, rfl⟩

private theorem before_of_place {before : List Char} {body : TagBody}
    (found : s.place before body = .tag text tag next) : before = text ++ tag.indent.toList := by
  cases placed_of_place found with
  | inline => simp [Tag.indent]
  | alone indented ended =>
    obtain ⟨rfl, -⟩ := append_of_splitIndent? indented
    simp [Tag.indent]

/-- What a step finds is found with white space behind the opener too. -/
theorem step_spaced (delimiters : r.delimiters = s.delimiters) (fresh : r.lineStart = s.lineStart)
    (step : s.step = .tag text tag next) {gap span behind : List Char}
    (lexeme : tag.lexeme.toList = s.delimiters.opener.toList ++ span) (blank : Blanks gap)
    (allowed : gap = [] ∨ Stops TagBody.isBracket span) (same : SameLine next.rest behind)
    (rest : r.rest = text ++ (tag.indent.toList ++ s.delimiters.opener.toList ++ gap ++ span ++
      tag.trailing ++ behind)) :
    ∃ tag' next', r.step = .tag text tag' next' ∧ Token.Respaced (.tag tag) (.tag tag') ∧
      next'.rest = behind ∧ next'.lineStart = next.lineStart ∧
      next'.delimiters = next.delimiters := by
  obtain ⟨before, inner, body, opener, read, placed⟩ := exists_read_of_tag step
  have inside : body.span = span := by
    obtain ⟨_, _, _, found⟩ := s.exists_place before body
    rw [found, ScanStep.tag.injEq] at placed
    obtain ⟨-, rfl, -⟩ := placed
    rw [String.toList_ofList] at lexeme
    exact List.append_cancel_left lexeme
  subst inside
  have first := Text.firstAfter_of_cut opener
  rw [Text.eq_append_of_cut opener] at first
  have again : Text.cut r.delimiters.opener.toList r.rest =
      some (before, gap ++ body.span ++ (tag.trailing ++ behind)) := by
    rw [delimiters, rest, ← Text.cut_of_firstAfter s.delimiters.opener_ne_nil first.within,
      before_of_place placed]
    simp [List.append_assoc]
  have spaced := TagBody.read_spaced blank allowed read (tag.trailing ++ behind)
  rw [← delimiters] at spaced
  rw [step_eq_place again spaced]
  exact place_spaced delimiters fresh placed same

end Scanner

namespace Scan

private theorem respaced_ofText (text : List Char) :
    List.Forall₂ Token.Respaced (ofText text) (ofText text) := by
  unfold ofText
  split
  · exact .nil
  · exact .cons (.text _) .nil

/-- The text in front of tokens is in front of all that is made of them. -/
theorem exists_spaced_of_ofText {d : Delimiters} {text spaced : List Char} {tokens : List Token}
    (made : Token.Spaced d (ofText text ++ tokens) spaced) :
    ∃ behind, spaced = text ++ behind ∧ Token.Spaced d tokens behind := by
  unfold ofText at made
  split at made
  · rename_i empty
    rw [List.isEmpty_iff] at empty
    exact ⟨spaced, by simp [empty], made⟩
  · cases made with
    | text s rest => exact ⟨_, by simp, rest⟩

/-- What is made of the tokens of a source goes on as the source does. -/
theorem sameLine_of_spaced {s : Scanner} {spaced : List Char} (fine : (ofScanner s).error = none)
    (made : Token.Spaced s.delimiters (ofScanner s).tokens spaced) : SameLine s.rest spaced := by
  cases step : s.step with
  | done text =>
    obtain ⟨-, rfl⟩ := Scanner.cut_of_done step
    rw [ofScanner_of_done step, ← List.append_nil (ofText s.rest)] at made
    obtain ⟨behind, rfl, ended⟩ := exists_spaced_of_ofText made
    cases ended
    rw [List.append_nil]
    exact .refl _
  | fault e =>
    rw [ofScanner_of_fault step] at fine
    cases fine
  | tag text tag next =>
    have found := Scanner.found_of_step step
    rw [ofScanner_of_tag step] at made
    obtain ⟨behind, rfl, others⟩ := exists_spaced_of_ofText made
    rw [found.whole]
    cases others with
    | @tag _ _ _ gap span after lexeme blank allowed rest =>
      cases chars : s.delimiters.opener.toList with
      | nil => exact absurd chars s.delimiters.opener_ne_nil
      | cons c others =>
        have visible := Delimiters.not_isBlank (d := s.delimiters) (c := c) (.inl (by simp [chars]))
        have same := SameLine.upTo (text ++ tag.indent.toList) visible
          (others ++ span ++ tag.trailing ++ next.rest)
          (others ++ gap ++ span ++ tag.trailing ++ after)
        simpa [Tag.region, lexeme, chars, List.append_assoc] using same

/-- What is made of the tokens of a source without a fault has these tokens, with white space
behind openers. -/
theorem exists_respaced {s r : Scanner} (delimiters : r.delimiters = s.delimiters)
    (fresh : r.lineStart = s.lineStart) (fine : (ofScanner s).error = none)
    (made : Token.Spaced s.delimiters (ofScanner s).tokens r.rest) :
    ∃ tokens, ofScanner r = ⟨tokens, none⟩ ∧
      List.Forall₂ Token.Respaced (ofScanner s).tokens tokens := by
  induction s using ofScanner.induct generalizing r with
  | case1 s text step =>
    obtain ⟨miss, rfl⟩ := Scanner.cut_of_done step
    rw [ofScanner_of_done step, ← List.append_nil (ofText s.rest)] at made
    obtain ⟨behind, rest, ended⟩ := exists_spaced_of_ofText made
    cases ended
    have done : r.step = .done s.rest := by
      rw [List.append_nil] at rest
      rw [← rest]
      exact Scanner.step_eq_done (by rw [delimiters, rest, miss])
    rw [ofScanner_of_done step, ofScanner_of_done done]
    exact ⟨_, rfl, respaced_ofText s.rest⟩
  | case2 s e step =>
    rw [ofScanner_of_fault step] at fine
    cases fine
  | case3 s text tag next step ih =>
    rw [ofScanner_of_tag step] at fine made ⊢
    obtain ⟨behind, rest, made⟩ := exists_spaced_of_ofText made
    cases made with
    | @tag _ _ _ gap span after lexeme blank allowed others =>
      rw [← (Scanner.found_of_step step).delimiters] at others
      have same := sameLine_of_spaced fine others
      obtain ⟨tag', next', found, alike, left, lineStart, later⟩ :=
        Scanner.step_spaced delimiters fresh step lexeme blank allowed same rest
      obtain ⟨tokens, scanned, following⟩ := ih later lineStart fine (left.symm ▸ others)
      rw [ofScanner_of_tag found, scanned]
      exact ⟨_, rfl, List.rel_append (respaced_ofText text) (.cons alike following)⟩

end Scan

end Mustache
