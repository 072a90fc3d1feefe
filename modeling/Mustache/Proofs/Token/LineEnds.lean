import Mustache.Proofs.Text.LineEnds
import Mustache.Proofs.Token.Continuation

namespace Mustache

open Text (OnLine Stops WholeLines cut withReturns)

private theorem Delimiters.onLine {d : Delimiters} {s : List Char}
    (inside : ∀ c ∈ s, c ∈ d.opener.toList ∨ c ∈ d.closer.toList) : OnLine s := by
  intro c member
  have visible := d.not_isBlank (inside c member)
  constructor
  · rintro rfl
    cases visible
  · rintro rfl
    cases visible

theorem splitLineEnd?_withReturns {s : List Char} (plain : '\r' ∉ s) :
    splitLineEnd? (withReturns s) =
      (splitLineEnd? s).map fun (t, r) => (withReturns t, withReturns r) := by
  have run : ∀ c ∈ s.takeWhile isMargin, isMargin c = true := fun c => List.mem_takeWhile_imp
  have whole : s.takeWhile isMargin ++ s.dropWhile isMargin = s := List.takeWhile_append_dropWhile
  have stops := Text.stops_dropWhile isMargin s
  generalize s.takeWhile isMargin = blanks at run whole
  generalize s.dropWhile isMargin = ending at whole stops
  subst whole
  have noFeed : '\n' ∉ blanks := fun member => absurd (run _ member) (by decide)
  have line := Text.withReturns_of_not_mem noFeed
  have stopped : Stops isMargin (withReturns ending) := by
    cases ending with
    | nil => simp
    | cons c ending =>
      by_cases feed : c = '\n'
      · subst feed
        simp [isMargin]
      · rw [Text.withReturns_cons feed]
        simpa using stops
  unfold splitLineEnd?
  rw [Text.withReturns_append, line, Text.takeWhile_run run stops, Text.dropWhile_run run stops,
    Text.takeWhile_run run stopped, Text.dropWhile_run run stopped]
  cases ending with
  | nil => simp [line]
  | cons c ending =>
    by_cases feed : c = '\n'
    · subst feed
      simp [line]
    · have other : c ≠ '\r' := by
        rintro rfl
        exact plain (by simp)
      simp [Text.withReturns_cons feed, feed, other]

theorem splitIndent?_withReturns (lineStart : Bool) (text : List Char) :
    splitIndent? lineStart (withReturns text) =
      (splitIndent? lineStart text).map fun (b, i) => (withReturns b, i) := by
  have run : ∀ c ∈ text.reverse.takeWhile isMargin, isMargin c = true :=
    fun c => List.mem_takeWhile_imp
  have whole : text = (text.reverse.dropWhile isMargin).reverse ++
      (text.reverse.takeWhile isMargin).reverse := by
    rw [← List.reverse_append, List.takeWhile_append_dropWhile, List.reverse_reverse]
  have stops := Text.stops_dropWhile isMargin text.reverse
  unfold splitIndent?
  generalize text.reverse.takeWhile isMargin = indent at run whole
  generalize text.reverse.dropWhile isMargin = others at whole stops
  have noFeed : '\n' ∉ indent.reverse := fun member =>
    absurd (run _ (List.mem_reverse.mp member)) (by decide)
  have stopped : Stops isMargin (withReturns others.reverse).reverse := by
    intro c head
    rw [List.head?_reverse, Text.getLast?_withReturns, List.getLast?_reverse] at head
    exact stops c head
  rw [whole, Text.withReturns_append, Text.withReturns_of_not_mem noFeed, List.reverse_append,
    List.reverse_reverse, Text.takeWhile_run run stopped, Text.dropWhile_run run stopped]
  cases others with
  | nil => cases lineStart <;> simp
  | cons c others =>
    by_cases feed : c = '\n'
    · subst feed
      simp
    · simp [Text.withReturns_cons feed, feed]

theorem TagBody.read_withReturns {d : Delimiters} {s : List Char} {body : TagBody}
    (ok : read d s = .ok body) (line : '\n' ∉ body.span) :
    read d (withReturns s) = .ok { body with rest := withReturns body.rest } := by
  rw [(span_of_read ok).1, Text.withReturns_append, Text.withReturns_of_not_mem line]
  exact read_span ok (withReturns body.rest)

/-- A tag that is on one line, or a text. -/
def Token.IsOnLine : Token → Prop
  | text _ => True
  | tag t => '\n' ∉ t.lexeme.toList

instance (t : Token) : Decidable t.IsOnLine :=
  match t with
  | .text _ => inferInstanceAs (Decidable True)
  | .tag _ => inferInstanceAs (Decidable (_ ∉ _))

/-- Tags that differ in their places and in what stands behind them at most. -/
structure Tag.Returned (t u : Tag) : Prop where
  kind : u.kind = t.kind
  content : u.content = t.content
  indent : u.indent = t.indent

namespace Scanner

/-- The second scanner has to read what the first one has, with carriage returns. -/
structure Returned (s r : Scanner) : Prop where
  rest : r.rest = withReturns s.rest
  lineStart : r.lineStart = s.lineStart
  delimiters : r.delimiters = s.delimiters

variable {s r next : Scanner} {text : List Char} {tag : Tag}

private theorem place_withReturns (same : s.Returned r) {before : List Char} {body : TagBody}
    (plain : '\r' ∉ body.rest) (found : s.place before body = .tag text tag next) :
    ∃ tag' next', r.place (withReturns before) { body with rest := withReturns body.rest } =
      .tag (withReturns text) tag' next' ∧ tag.Returned tag' ∧ next.Returned next' := by
  unfold place at found ⊢
  simp only [same.lineStart, same.delimiters, splitIndent?_withReturns,
    splitLineEnd?_withReturns plain] at found ⊢
  generalize splitIndent? s.lineStart before = indented at found ⊢
  generalize splitLineEnd? body.rest = ended at found ⊢
  generalize body.kind.standsAlone = alone at found ⊢
  -- the tag is alone on its line in both or in neither
  cases alone <;> cases indented <;> cases ended
  all_goals
    obtain ⟨rfl, rfl, rfl⟩ := ScanStep.tag.inj found
    exact ⟨_, _, rfl, ⟨rfl, rfl, rfl⟩, rfl, rfl, rfl⟩

theorem step_withReturns (same : s.Returned r) (plain : '\r' ∉ s.rest)
    (step : s.step = .tag text tag next) (line : '\n' ∉ tag.lexeme.toList) :
    ∃ tag' next', r.step = .tag (withReturns text) tag' next' ∧ tag.Returned tag' ∧
      next.Returned next' := by
  obtain ⟨before, inner, body, opener, read, placed⟩ := exists_read_of_tag step
  have span : '\n' ∉ body.span := by
    obtain ⟨_, _, _, found⟩ := s.exists_place before body
    rw [found, ScanStep.tag.injEq] at placed
    obtain ⟨-, rfl, -⟩ := placed
    simp only [String.toList_ofList, List.mem_append, not_or] at line
    exact line.2
  have rest : '\r' ∉ body.rest := by
    intro member
    refine plain ?_
    rw [Text.eq_append_of_cut opener, (TagBody.span_of_read read).1]
    simp [member]
  have moved := Text.cut_withReturns s.delimiters.opener_ne_nil
    (Delimiters.onLine fun _ => .inl) s.rest
  rw [opener, ← same.rest, ← same.delimiters] at moved
  have again := TagBody.read_withReturns read span
  rw [← same.delimiters] at again
  rw [step_eq_place moved again]
  exact place_withReturns same rest placed

theorem step_done_withReturns (same : s.Returned r) (step : s.step = .done text) :
    r.step = .done (withReturns text) := by
  obtain ⟨miss, rfl⟩ := cut_of_done step
  have moved := Text.cut_withReturns s.delimiters.opener_ne_nil
    (Delimiters.onLine fun _ => .inl) s.rest
  rw [miss, ← same.rest, ← same.delimiters] at moved
  rw [step_eq_done moved, same.rest]

end Scanner

end Mustache
