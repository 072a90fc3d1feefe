import Mustache.Proofs.Places
import Mustache.Proofs.Text.Blanks
import Mustache.Proofs.Text.Occurrence
import Mustache.Token.Scan

/-!
What the tokens of a source are made of. A text token stands for itself and a tag for its
region: its margins and between them its span. The tokens of a source without a fault
put it together again, each span ends with the first terminator that can end it, and no
open delimiter stands in a text or in a margin.
-/

namespace Mustache

open Text (Blanks FirstAfter NoneStarts)

/-- A delimiters tag holds two delimiters with white space between them. -/
def Delimiters.SpelledBy (d : Delimiters) (inner : List Char) : Prop :=
  ∃ before between behind, inner = before ++ d.opener.toList ++ between ++ d.closer.toList ++ behind ∧
    Blanks before ∧ Blanks between ∧ between ≠ [] ∧ Blanks behind

/-- A tag's characters after its opener, up to the source behind it. A brace or an equals
sign right after the opener asks for its counterpart before the closer. -/
inductive TagSpan (d : Delimiters) (behind : List Char) : TagKind → List Char → Prop where
  | plain {kind : TagKind} {inner : List Char}
      (start : ∀ c, (inner ++ d.closer.toList).head? = some c → c ≠ '{' ∧ c ≠ '=')
      (ends : FirstAfter inner d.closer.toList (inner ++ d.closer.toList ++ behind))
      (other : ∀ next, kind ≠ .delimiters next) :
      TagSpan d behind kind (inner ++ d.closer.toList)
  | braced {inner : List Char}
      (ends : FirstAfter ('{' :: inner) ('}' :: d.closer.toList)
        ('{' :: inner ++ '}' :: d.closer.toList ++ behind)) :
      TagSpan d behind (.interpolation false) ('{' :: inner ++ '}' :: d.closer.toList)
  | delimiters {next : Delimiters} {inner : List Char}
      (ends : FirstAfter inner ('=' :: d.closer.toList)
        (inner ++ '=' :: d.closer.toList ++ behind))
      (spelled : next.SpelledBy inner) :
      TagSpan d behind (.delimiters next) ('=' :: inner ++ '=' :: d.closer.toList)

/-- Margins are spaces and tabs, and behind them the end of a line or of the source. -/
structure Margins.Fit (m : Margins) (behind : List Char) : Prop where
  indent : ∀ c ∈ m.indent.toList, c = ' ' ∨ c = '\t'
  trailing : ∃ blanks ending, m.trailing.toList = blanks ++ ending ∧
    (∀ c ∈ blanks, c = ' ' ∨ c = '\t') ∧
    (ending = ['\n'] ∨ ending = ['\r', '\n'] ∨ (ending = [] ∨ ending = ['\r']) ∧ behind = [])

namespace Tag

/-- The characters of a tag's margin behind it. -/
def trailing (t : Tag) : List Char :=
  match t.margins with
  | some m => m.trailing.toList
  | none => []

def region (t : Tag) : List Char :=
  t.indent.toList ++ t.lexeme.toList ++ t.trailing

/-- A tag that was read with the given delimiters, with the source behind its region. -/
structure ReadWith (t : Tag) (d : Delimiters) (behind : List Char) : Prop where
  span : ∃ span, t.lexeme.toList = d.opener.toList ++ span ∧
    TagSpan d (t.trailing ++ behind) t.kind span
  margins : ∀ m, t.margins = some m → m.Fit behind
  indent : NoneStarts d.opener.toList t.indent.toList (t.lexeme.toList ++ t.trailing ++ behind)
  trailing : NoneStarts (Scanner.delimitersAfter d t.kind).opener.toList t.trailing behind

end Tag

namespace Token

/-- The characters of a source that a token stands for. -/
def source : Token → List Char
  | text s => s.toList
  | tag t => t.region

def delimitersAfter (d : Delimiters) : Token → Delimiters
  | text _ => d
  | tag t => Scanner.delimitersAfter d t.kind

/-- A token that was read with the given delimiters, with the source behind it. -/
def ReadWith (d : Delimiters) (behind : List Char) : Token → Prop
  | text s => s.toList ≠ [] ∧ NoneStarts d.opener.toList s.toList behind
  | tag t => t.ReadWith d behind

/-- Tokens that make up a text, each read with the delimiters in effect at its place: the
given ones, until a tag sets others. -/
structure Cover (d : Delimiters) (text : List Char) (tokens : List Token) : Prop where
  source : tokens.flatMap source = text
  read : Everywhere (fun before t behind =>
    t.ReadWith (before.foldl delimitersAfter d) (behind.flatMap Token.source)) tokens

end Token

private theorem Delimiters.eq_of_new? {opener closer : String} {d : Delimiters}
    (made : Delimiters.new? opener closer = some d) : d.opener = opener ∧ d.closer = closer := by
  unfold Delimiters.new? at made
  split at made
  · obtain rfl := Option.some.inj made
    exact ⟨rfl, rfl⟩
  · simp at made

theorem Delimiters.not_isBlank {d : Delimiters} {c : Char}
    (member : c ∈ d.opener.toList ∨ c ∈ d.closer.toList) : Text.isBlank c = false := by
  have opener := d.opener_valid
  have closer := d.closer_valid
  simp only [isDelimiter, Bool.and_eq_true, List.all_eq_true] at opener closer
  rcases member with member | member
  · simpa using (opener.2 c member).1
  · simpa using (closer.2 c member).1

private theorem Delimiters.spelledBy_of_read? {inner : List Char} {d : Delimiters}
    (read : Delimiters.read? (Text.trim inner) = some d) : d.SpelledBy inner := by
  obtain ⟨before, behind, blankBefore, blankBehind, split⟩ := Text.exists_trim inner
  generalize Text.trim inner = content at read split
  obtain ⟨opener, closer⟩ := eq_of_new? read
  obtain ⟨between, blankBetween, rest⟩ :=
    Text.exists_trimStart (content.dropWhile (!Text.isBlank ·))
  have whole : content = d.opener.toList ++ between ++ d.closer.toList := by
    rw [opener, closer, String.toList_ofList, String.toList_ofList, List.append_assoc, ← rest,
      List.takeWhile_append_dropWhile]
  refine ⟨before, between, behind, ?_, blankBefore, blankBetween, ?_, blankBehind⟩
  · rw [split, whole]
    simp [List.append_assoc]
  · -- without white space between them the closer would start with what ended the opener
    rintro rfl
    have same : content.dropWhile (!Text.isBlank ·) = d.closer.toList := by
      rw [closer, String.toList_ofList]
      exact rest
    have stopped := List.head?_dropWhile_not (!Text.isBlank ·) content
    rw [same] at stopped
    cases chars : d.closer.toList with
    | nil => exact d.closer_ne_nil chars
    | cons c others =>
      have visible := Delimiters.not_isBlank (d := d) (c := c) (.inr (by simp [chars]))
      simp [chars, visible] at stopped

private theorem TagBody.classify_ne_delimiters (raw : List Char) (next : Delimiters) :
    (classify raw).1 ≠ .delimiters next := by
  unfold classify
  split <;> simp

/-- Reading a tag loses nothing, and its span ends where it can first end. -/
theorem TagBody.span_of_read {d : Delimiters} {s : List Char} {body : TagBody}
    (ok : read d s = .ok body) :
    s = body.span ++ body.rest ∧ TagSpan d body.rest body.kind body.span := by
  unfold read at ok
  simp only at ok
  split at ok
  · split at ok
    · simp at ok
    · rename_i inner _ raw rest found
      rw [rest_of_checked ok]
      have whole := Text.eq_append_of_cut found
      refine ⟨by simp [whole], ?_⟩
      have first := (Text.firstAfter_of_cut found).cons (c := '{') (by decide)
      exact .braced (by simpa [whole] using first)
  · split at ok
    · simp at ok
    · rename_i inner _ raw rest found
      have whole := Text.eq_append_of_cut found
      split at ok
      · simp at ok
      · rename_i next spelled
        obtain rfl := Except.ok.inj ok
        refine ⟨by simp [whole], ?_⟩
        have first := Text.firstAfter_of_cut found
        exact .delimiters (by simpa [whole] using first) (Delimiters.spelledBy_of_read? spelled)
  · rename_i notBrace notEquals
    split at ok
    · simp at ok
    · rename_i raw rest found
      rw [rest_of_checked ok]
      have whole := Text.eq_append_of_cut found
      refine ⟨by simp [whole], ?_⟩
      have first := Text.firstAfter_of_cut found
      refine .plain ?_ (by simpa [whole] using first) (classify_ne_delimiters _)
      intro c head
      obtain ⟨others, chars⟩ := List.head?_eq_some_iff.mp head
      rw [chars] at whole
      refine ⟨?_, ?_⟩
      · rintro rfl
        exact notBrace _ whole
      · rintro rfl
        exact notEquals _ whole

theorem isMargin_iff {c : Char} : isMargin c = true ↔ c = ' ' ∨ c = '\t' := by
  simp [isMargin]

theorem append_of_splitIndent? {lineStart : Bool} {text before indent : List Char}
    (split : splitIndent? lineStart text = some (before, indent)) :
    text = before ++ indent ∧ ∀ c ∈ indent, c = ' ' ∨ c = '\t' := by
  have whole : text = (text.reverse.dropWhile isMargin).reverse ++
      (text.reverse.takeWhile isMargin).reverse := by
    rw [← List.reverse_append, List.takeWhile_append_dropWhile, List.reverse_reverse]
  have margin : ∀ c ∈ (text.reverse.takeWhile isMargin).reverse, c = ' ' ∨ c = '\t' :=
    fun c member => isMargin_iff.mp (List.mem_takeWhile_imp (List.mem_reverse.mp member))
  unfold splitIndent? at split
  simp only at split
  split at split
  · rename_i none
    split at split
    · obtain ⟨rfl, rfl⟩ := Prod.mk.inj (Option.some.inj split)
      rw [none] at whole
      exact ⟨whole, margin⟩
    · simp at split
  · rename_i c others stopped
    split at split
    · obtain ⟨rfl, rfl⟩ := Prod.mk.inj (Option.some.inj split)
      rw [← stopped]
      exact ⟨whole, margin⟩
    · simp at split

theorem append_of_splitLineEnd? {s trailing rest : List Char}
    (split : splitLineEnd? s = some (trailing, rest)) :
    s = trailing ++ rest ∧ ∃ blanks ending, trailing = blanks ++ ending ∧
      (∀ c ∈ blanks, c = ' ' ∨ c = '\t') ∧
      (ending = ['\n'] ∨ ending = ['\r', '\n'] ∨ (ending = [] ∨ ending = ['\r']) ∧ rest = []) := by
  have whole : s.takeWhile isMargin ++ s.dropWhile isMargin = s := List.takeWhile_append_dropWhile
  have margin : ∀ c ∈ s.takeWhile isMargin, c = ' ' ∨ c = '\t' :=
    fun c member => isMargin_iff.mp (List.mem_takeWhile_imp member)
  unfold splitLineEnd? at split
  simp only at split
  split at split
  case h_1 stopped =>
    obtain ⟨rfl, rfl⟩ := Prod.mk.inj (Option.some.inj split)
    rw [stopped] at whole
    exact ⟨whole.symm, _, [], (List.append_nil _).symm, margin, by simp⟩
  case h_5 => simp at split
  all_goals
    rename_i stopped
    obtain ⟨rfl, rfl⟩ := Prod.mk.inj (Option.some.inj split)
    rw [stopped] at whole
    refine ⟨by simpa using whole.symm, _, _, rfl, margin, ?_⟩
    simp

theorem blanks_of_splitLineEnd? {s trailing rest : List Char}
    (split : splitLineEnd? s = some (trailing, rest)) : Blanks trailing := by
  obtain ⟨-, blanks, ending, rfl, margin, lineEnd⟩ := append_of_splitLineEnd? split
  intro c member
  rcases List.mem_append.mp member with member | member
  · rcases margin c member with rfl | rfl <;> rfl
  · rcases lineEnd with rfl | rfl | ⟨rfl | rfl, -⟩
    all_goals simp at member
    · subst member
      rfl
    · rcases member with rfl | rfl <;> rfl
    · subst member
      rfl

/-- What a step knows of the text and the tag it finds. -/
structure Scanner.Found (s : Scanner) (text : List Char) (tag : Tag) (next : Scanner) :
    Prop where
  whole : s.rest = text ++ tag.region ++ next.rest
  before : NoneStarts s.delimiters.opener.toList text (tag.region ++ next.rest)
  read : tag.ReadWith s.delimiters next.rest
  delimiters : next.delimiters = delimitersAfter s.delimiters tag.kind

/-- A text without white space does not start among blanks and line ends. -/
theorem Text.noneStarts_of_blanks {needle inside behind : List Char}
    (visible : ∀ c ∈ needle, Text.isBlank c = false) (nonempty : needle ≠ [])
    (blanks : Blanks inside) : NoneStarts needle inside behind := by
  obtain ⟨c, others, rfl⟩ := List.exists_cons_of_ne_nil nonempty
  apply Text.noneStarts_of_forall
  intro other member same
  have first := visible c List.mem_cons_self
  rw [← same, blanks other member] at first
  cases first

/-- Delimiters hold no white space, so none starts among blanks and line ends. -/
theorem Delimiters.noneStarts_of_blanks {d : Delimiters} {inside behind : List Char}
    (blanks : Blanks inside) : NoneStarts d.opener.toList inside behind :=
  Text.noneStarts_of_blanks (fun _ member => not_isBlank (.inl member)) d.opener_ne_nil blanks

private theorem Scanner.found_inline {s : Scanner} {text content : List Char} {body : TagBody}
    {place after : Position} {fresh : Bool}
    (whole : s.rest = text ++ s.delimiters.opener.toList ++ body.span ++ body.rest)
    (span : TagSpan s.delimiters body.rest body.kind body.span)
    (none : NoneStarts s.delimiters.opener.toList text
      (s.delimiters.opener.toList ++ body.span ++ body.rest)) :
    s.Found text
      ⟨body.kind, String.ofList content, place,
        String.ofList (s.delimiters.opener.toList ++ body.span), Option.none⟩
      ⟨body.rest, after, fresh, delimitersAfter s.delimiters body.kind⟩ where
  whole := by simpa [Tag.region, Tag.indent, Tag.trailing] using whole
  before := by simpa [Tag.region, Tag.indent, Tag.trailing] using none
  read :=
    { span := ⟨body.span, by simp, span⟩
      margins := by simp
      indent := Text.noneStarts_nil _ _
      trailing := Text.noneStarts_nil _ _ }
  delimiters := rfl

/-- Where a tag is placed: alone on its line, which it takes with it, or among what stands around
it. -/
inductive Scanner.Placed (s : Scanner) (text : List Char) (body : TagBody) :
    List Char → Tag → Scanner → Prop where
  | alone {before indent trailing rest : List Char}
      (indented : splitIndent? s.lineStart text = some (before, indent))
      (ended : splitLineEnd? body.rest = some (trailing, rest)) :
      Placed s text body before
        ⟨body.kind, String.ofList body.content, s.position.advance text,
          String.ofList (s.delimiters.opener.toList ++ body.span),
          some ⟨String.ofList indent, String.ofList trailing⟩⟩
        ⟨rest, (s.position.advance text).advance
            (s.delimiters.opener.toList ++ body.span ++ trailing), true,
          delimitersAfter s.delimiters body.kind⟩
  | inline :
      Placed s text body text
        ⟨body.kind, String.ofList body.content, s.position.advance text,
          String.ofList (s.delimiters.opener.toList ++ body.span), none⟩
        ⟨body.rest, (s.position.advance text).advance (s.delimiters.opener.toList ++ body.span),
          false, delimitersAfter s.delimiters body.kind⟩

theorem Scanner.placed_of_place {s next : Scanner} {text before : List Char} {body : TagBody}
    {tag : Tag} (found : s.place text body = .tag before tag next) :
    s.Placed text body before tag next := by
  unfold place at found
  simp only at found
  split at found
  · split at found
    · rename_i indented ended
      obtain ⟨rfl, rfl, rfl⟩ := ScanStep.tag.inj found
      exact .alone indented ended
    · obtain ⟨rfl, rfl, rfl⟩ := ScanStep.tag.inj found
      exact .inline
  · obtain ⟨rfl, rfl, rfl⟩ := ScanStep.tag.inj found
    exact .inline

private theorem Scanner.found_of_place {s next : Scanner} {text before : List Char} {body : TagBody}
    {tag : Tag} (whole : s.rest = text ++ s.delimiters.opener.toList ++ body.span ++ body.rest)
    (span : TagSpan s.delimiters body.rest body.kind body.span)
    (none : NoneStarts s.delimiters.opener.toList text
      (s.delimiters.opener.toList ++ body.span ++ body.rest))
    (found : s.place text body = .tag before tag next) : s.Found before tag next := by
  cases placed_of_place found with
  | inline => exact found_inline whole span none
  | alone indented ended =>
    obtain ⟨rfl, indentMargin⟩ := append_of_splitIndent? indented
    obtain ⟨behind, blanks, ending, rfl, trailingMargin, lineEnd⟩ := append_of_splitLineEnd? ended
    rw [behind] at whole span none
    have blank := blanks_of_splitLineEnd? ended
    exact
      { whole := by simpa [Tag.region, Tag.indent, Tag.trailing] using whole
        before := by simpa [Tag.region, Tag.indent, Tag.trailing] using none.left
        read :=
          { span := ⟨body.span, by simp, by simpa [Tag.trailing] using span⟩
            margins := by
              rintro m same
              obtain rfl := Option.some.inj same
              exact ⟨by simpa using indentMargin, blanks, ending, by simp, trailingMargin, lineEnd⟩
            indent := by simpa [Tag.indent, Tag.trailing] using none.right
            trailing := by simpa [Tag.trailing] using Delimiters.noneStarts_of_blanks blank }
        delimiters := rfl }

/-! What a step finds, by what is read behind the first opener. -/

namespace Scanner

variable {s next : Scanner} {text inner : List Char} {tag : Tag} {body : TagBody}

/-- Where a tag is placed only its margins depend on the lines around it. -/
theorem exists_place (s : Scanner) (text : List Char) (body : TagBody) :
    ∃ before margins next, s.place text body =
      .tag before ⟨body.kind, String.ofList body.content, s.position.advance text,
        String.ofList (s.delimiters.opener.toList ++ body.span), margins⟩ next := by
  unfold place
  simp only
  split
  · split
    · exact ⟨_, _, _, rfl⟩
    · exact ⟨_, _, _, rfl⟩
  · exact ⟨_, _, _, rfl⟩

theorem step_eq_done (miss : Text.cut s.delimiters.opener.toList s.rest = none) :
    s.step = .done s.rest := by
  simp only [step, miss]

theorem step_eq_fault {cause : SyntaxCause}
    (opener : Text.cut s.delimiters.opener.toList s.rest = some (text, inner))
    (read : TagBody.read s.delimiters inner = .error cause) :
    s.step = .fault ⟨cause, s.position.advance text⟩ := by
  simp only [step, opener, read]

theorem step_eq_place (opener : Text.cut s.delimiters.opener.toList s.rest = some (text, inner))
    (read : TagBody.read s.delimiters inner = .ok body) : s.step = s.place text body := by
  simp only [step, opener, read]

theorem cut_of_done (step : s.step = .done text) :
    Text.cut s.delimiters.opener.toList s.rest = none ∧ s.rest = text := by
  unfold Scanner.step at step
  split at step
  · exact ⟨by assumption, ScanStep.done.inj step⟩
  · rename_i before inner opener
    split at step
    · cases step
    · rename_i body read
      obtain ⟨_, _, _, placed⟩ := s.exists_place before body
      rw [placed] at step
      cases step

theorem exists_read_of_fault {e : SyntaxError} (step : s.step = .fault e) :
    ∃ text inner cause, Text.cut s.delimiters.opener.toList s.rest = some (text, inner) ∧
      TagBody.read s.delimiters inner = .error cause ∧ e = ⟨cause, s.position.advance text⟩ := by
  unfold Scanner.step at step
  split at step
  · cases step
  · rename_i text inner opener
    split at step
    · rename_i cause read
      exact ⟨text, inner, cause, opener, read, (ScanStep.fault.inj step).symm⟩
    · rename_i body read
      obtain ⟨_, _, _, placed⟩ := s.exists_place text body
      rw [placed] at step
      cases step

theorem exists_read_of_tag (step : s.step = .tag text tag next) :
    ∃ before inner body, Text.cut s.delimiters.opener.toList s.rest = some (before, inner) ∧
      TagBody.read s.delimiters inner = .ok body ∧ s.place before body = .tag text tag next := by
  unfold Scanner.step at step
  split at step
  · cases step
  · rename_i before inner opener
    split at step
    · cases step
    · rename_i body read
      exact ⟨before, inner, body, opener, read, step⟩

theorem found_of_step (step : s.step = .tag text tag next) : s.Found text tag next := by
  obtain ⟨before, inner, body, opener, read, placed⟩ := exists_read_of_tag step
  have whole := Text.eq_append_of_cut opener
  have first := Text.firstAfter_of_cut opener
  obtain ⟨split, span⟩ := TagBody.span_of_read read
  rw [split] at whole
  rw [whole, List.append_assoc] at first
  refine found_of_place (by simpa using whole) span ?_ placed
  simpa using first.noneStarts

end Scanner

namespace Scan

theorem ofScanner_of_done {s : Scanner} {text : List Char} (step : s.step = .done text) :
    ofScanner s = ⟨ofText text, none⟩ := by
  rw [ofScanner]
  split <;> simp_all

theorem ofScanner_of_fault {s : Scanner} {e : SyntaxError} (step : s.step = .fault e) :
    ofScanner s = ⟨[], some e⟩ := by
  rw [ofScanner]
  split <;> simp_all

theorem ofScanner_of_tag {s next : Scanner} {text : List Char} {tag : Tag}
    (step : s.step = .tag text tag next) :
    ofScanner s = ⟨ofText text ++ .tag tag :: (ofScanner next).tokens, (ofScanner next).error⟩ := by
  rw [ofScanner]
  split <;> simp_all

/-- A text in front of covered tokens is a token of its own, unless it is empty. -/
theorem cover_ofText {d : Delimiters} {text behind : List Char} {tokens : List Token}
    (none : NoneStarts d.opener.toList text behind) (others : Token.Cover d behind tokens) :
    Token.Cover d (text ++ behind) (ofText text ++ tokens) := by
  unfold ofText
  split
  · rename_i empty
    simpa [List.isEmpty_iff.mp empty] using others
  · rename_i nonempty
    refine ⟨by simp [Token.source, others.source], ?_⟩
    rw [List.singleton_append, everywhere_cons, others.source]
    exact ⟨⟨by simpa using nonempty, by simpa using none⟩, others.read⟩

private theorem cover_tag {s next : Scanner} {text : List Char} {tag : Tag} {tokens : List Token}
    (found : s.Found text tag next) (others : Token.Cover next.delimiters next.rest tokens) :
    Token.Cover s.delimiters (tag.region ++ next.rest) (.tag tag :: tokens) := by
  refine ⟨by simp [Token.source, others.source], ?_⟩
  rw [everywhere_cons, others.source]
  refine ⟨found.read, ?_⟩
  simpa [Token.delimitersAfter, ← found.delimiters] using others.read

private theorem cover_ofScanner (s : Scanner) (whole : (ofScanner s).error = none) :
    Token.Cover s.delimiters s.rest (ofScanner s).tokens := by
  induction s using ofScanner.induct with
  | case1 s text step =>
    obtain ⟨miss, rfl⟩ := Scanner.cut_of_done step
    rw [ofScanner_of_done step]
    have none := Text.noneStarts_of_cut_eq_none miss
    simpa using cover_ofText none ⟨rfl, everywhere_nil _⟩
  | case2 s e step =>
    rw [ofScanner_of_fault step] at whole
    simp at whole
  | case3 s text tag next step ih =>
    rw [ofScanner_of_tag step] at whole ⊢
    have found := Scanner.found_of_step step
    rw [found.whole, List.append_assoc]
    exact cover_ofText found.before (cover_tag found (ih whole))

/-- The tokens of a source without a fault lose and repeat nothing of it. -/
theorem cover_ofSource (d : Delimiters) (source : String)
    (whole : (ofSource d source).error = none) :
    Token.Cover d source.toList (ofSource d source).tokens :=
  cover_ofScanner (.start d source) whole

/-- Margins with both line ends, a change of delimiters and a closer inside a text. -/
theorem cover_ofSource_margins :
    let source := "a\n \t\x7b\x7b! b \x7d\x7d \r\n\x7b\x7b=<% %>=\x7d\x7d\n\x7b\x7b<%c%>"
    (ofSource .braces source).error = none ∧
      Token.Cover .braces source.toList (ofSource .braces source).tokens :=
  ⟨by decide +kernel, cover_ofSource .braces _ (by decide +kernel)⟩

/-- The equals sign after an opener is no part of the terminator: a closer right after it
does not end the tag, although both together read like one. -/
theorem equalsSign_not_terminator :
    let scan := ofSource .braces "\x7b\x7b=\x7d\x7d \x7d\x7d=\x7d\x7d"
    scan.error = none ∧ ∃ t, scan.tokens = [.tag t] ∧
      ¬ ∃ inner, t.lexeme.toList = ['\x7b', '\x7b'] ++ inner ++ ['=', '\x7d', '\x7d'] ∧
        FirstAfter inner ['=', '\x7d', '\x7d'] (inner ++ ['=', '\x7d', '\x7d']) := by
  refine ⟨by decide +kernel,
    ⟨.delimiters ⟨"\x7d\x7d", "\x7d\x7d", rfl, rfl⟩, "\x7d\x7d \x7d\x7d", .start,
      "\x7b\x7b=\x7d\x7d \x7d\x7d=\x7d\x7d", some ⟨"", ""⟩⟩, by decide +kernel, ?_⟩
  rintro ⟨inner, lexeme, first⟩
  have sign : "=\x7d\x7d \x7d\x7d".toList = inner := by
    have parts : ['\x7b', '\x7b'] ++ "=\x7d\x7d \x7d\x7d".toList ++ ['=', '\x7d', '\x7d'] =
        ['\x7b', '\x7b'] ++ inner ++ ['=', '\x7d', '\x7d'] := lexeme
    exact List.append_cancel_left (List.append_cancel_right parts)
  rw [← sign] at first
  have bound := first.first [] (by decide)
  simp at bound

end Scan

end Mustache
