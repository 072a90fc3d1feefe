import Mustache.Proofs.Token.Lines

/-!
Scanning a source that goes on. Whatever comes behind a source, its tags are found again at
their places, and so are its faults other than a tag that is not closed. Only the source's last
tag may be alone on its line in the one and not in the other.
-/

namespace Mustache

open Text (cut)

namespace Scanner

theorem step_of_rest_eq_nil {s : Scanner} (ended : s.rest = []) : s.step = .done [] := by
  have none : cut s.delimiters.opener.toList s.rest = Option.none := by
    rw [ended]
    simp [cut, s.delimiters.opener_ne_nil]
  rw [step_eq_done none, ended]

/-- A tag that shares its line with what stands before it takes nothing but its span. -/
theorem place_of_shared {s : Scanner} {text : List Char} {body : TagBody}
    (shared : body.kind.standsAlone = false ∨ splitIndent? s.lineStart text = none) :
    s.place text body =
      .tag text ⟨body.kind, String.ofList body.content, s.position.advance text,
          String.ofList (s.delimiters.opener.toList ++ body.span), none⟩
        ⟨body.rest, (s.position.advance text).advance (s.delimiters.opener.toList ++ body.span),
          false, delimitersAfter s.delimiters body.kind⟩ := by
  unfold place
  rcases shared with never | none
  · simp only [never, Bool.false_eq_true, ↓reduceIte]
  · simp only [none, ite_self]

/-- A tag that leaves source behind it is placed as in a longer source. -/
theorem place_followedBy_of_ne_nil {s next : Scanner} {text before : List Char} {body : TagBody}
    {tag : Tag} (more : List Char) (found : s.place text body = .tag before tag next)
    (left : next.rest ≠ []) :
    (s.followedBy more).place text (body.followedBy more) = .tag before tag (next.followedBy more) := by
  rcases splitLineEnd?_append body.rest more with ended | ⟨-, trailing, ended⟩
  · exact place_followedBy more ended found
  · -- the source ends on the tag's line, so a tag alone on it would leave nothing
    have shared : body.kind.standsAlone = false ∨ splitIndent? s.lineStart text = none := by
      cases alone : body.kind.standsAlone with
      | false => exact .inl rfl
      | true =>
        cases indented : splitIndent? s.lineStart text with
        | none => exact .inr rfl
        | some parts =>
          simp only [place, alone, indented, ended, ↓reduceIte, ScanStep.tag.injEq] at found
          exact absurd (found.2.2 ▸ rfl) left
    rw [place_of_shared shared, ScanStep.tag.injEq] at found
    obtain ⟨rfl, rfl, rfl⟩ := found
    exact place_of_shared shared

/-- A tag is found in a longer source too, but for its margins if nothing comes behind it. -/
theorem step_append {s next : Scanner} {text : List Char} {tag : Tag} (more : List Char)
    (step : s.step = .tag text tag next) :
    (s.followedBy more).step = .tag text tag (next.followedBy more) ∨
      next.rest = [] ∧ ∃ before margins later,
        (s.followedBy more).step = .tag before { tag with margins } later := by
  obtain ⟨before, inner, body, opener, read, placed⟩ := exists_read_of_tag step
  have longer : (s.followedBy more).step =
      (s.followedBy more).place before (body.followedBy more) :=
    step_eq_place (Text.cut_append more opener) (TagBody.read_append_of_ok more read)
  rw [longer]
  by_cases last : next.rest = []
  · obtain ⟨_, _, _, short⟩ := s.exists_place before body
    obtain ⟨earlier, margins, later, long⟩ :=
      (s.followedBy more).exists_place before (body.followedBy more)
    rw [short] at placed
    simp only [ScanStep.tag.injEq] at placed
    obtain ⟨-, rfl, rfl⟩ := placed
    exact .inr ⟨last, earlier, margins, later, long⟩
  · exact .inl (place_followedBy_of_ne_nil more placed last)

/-- A fault inside a tag that is closed is found in a longer source too. -/
theorem step_fault_append {s : Scanner} {e : SyntaxError} (more : List Char)
    (step : s.step = .fault e) (closed : e.cause ≠ .unclosedTag) :
    (s.followedBy more).step = .fault e := by
  obtain ⟨before, inner, cause, opener, read, rfl⟩ := exists_read_of_fault step
  have again := TagBody.read_append (d := s.delimiters) (s := inner) more
    (by simpa [read] using closed)
  rw [read] at again
  exact step_eq_fault (Text.cut_append more opener) again

end Scanner

end Mustache
