import Mathlib
import Mustache.Proofs.Template.Nesting
import Mustache.Proofs.Token.Continuation

/-!
The fault of a source. Whether a builder refuses a tag depends on the tag and on what the open
scopes were opened with, and not on texts and margins. Main statement: a fault that is not for
want of more source stays the fault of the source, whatever comes behind it.
-/

namespace Mustache

namespace Builder

variable {b c : Builder}

/-- Builders whose scopes were opened alike. -/
def OpenedAlike (b c : Builder) : Prop :=
  b.scopes.map (some ·.opening) = c.scopes.map (some ·.opening)

theorem OpenedAlike.length_eq (alike : b.OpenedAlike c) : b.scopes.length = c.scopes.length := by
  simpa using congrArg List.length alike

private theorem close_error_of_openedAlike (alike : b.OpenedAlike c) {t : Tag} {e : SyntaxError}
    (refused : b.close t = .error e) : c.close t = .error e := by
  unfold OpenedAlike at alike
  unfold close at refused ⊢
  cases left : b.scopes with
  | nil =>
    have right : c.scopes = [] := by simpa [left] using alike.symm
    simp only [left] at refused
    simp only [right, refused]
  | cons s outer =>
    cases right : c.scopes with
    | nil => simp [left, right] at alike
    | cons r others =>
      simp only [left, right, List.map_cons, List.cons.injEq, Option.some.injEq] at alike refused ⊢
      have closed : r.isClosedBy t.content = s.isClosedBy t.content := by
        unfold OpenScope.isClosedBy
        rw [alike.1]
      have name : r.name = s.name := by
        unfold OpenScope.name
        rw [alike.1]
      rw [closed, name]
      split at refused
      · cases refused
      · rename_i other
        rw [if_neg other]
        exact refused

/-- What a builder refuses, another one whose scopes were opened alike refuses too, whatever the
tag's margins. -/
theorem addTag_error_of_openedAlike (alike : b.OpenedAlike c) {t : Tag} {e : SyntaxError}
    (margins : Option Margins) (refused : b.addTag t = .error e) :
    c.addTag { t with margins } = .error e := by
  unfold addTag at refused ⊢
  simp only [← alike.length_eq]
  split at refused
  · rename_i full
    rw [if_pos full]
    exact refused
  · rename_i room
    rw [if_neg room]
    cases kind : t.kind with
    | closing =>
      simp only [kind] at refused ⊢
      exact close_error_of_openedAlike alike (t := { t with margins }) refused
    | interpolation | sect | block | parent | inclusion =>
      simp only [kind, bind_pure_eq_error_iff] at refused ⊢
      exact refused
    | _ =>
      simp only [kind] at refused
      cases refused

private theorem openedAlike_add (b : Builder) (n : Node) : (b.add n).OpenedAlike b :=
  map_opening_add b n

theorem exists_addTokens_ofText (b : Builder) (text : List Char) :
    ∃ c : Builder, c.OpenedAlike b ∧
      ∀ others, b.addTokens (Scan.ofText text ++ others) = c.addTokens others := by
  unfold Scan.ofText
  split
  · exact ⟨b, rfl, fun _ => rfl⟩
  · exact ⟨b.add (.text (String.ofList text)), openedAlike_add b _, fun _ => rfl⟩

/-- The template that a builder makes of a scan. -/
def complete (b : Builder) (scan : Scan) : Except SyntaxError Template :=
  match b.addTokens scan.tokens with
  | .error e => .error e
  | .ok b =>
    match scan.error with
    | some e => .error e
    | none => b.finish

theorem cause_of_complete_done {s : Scanner} {text : List Char} {e : SyntaxError}
    (step : s.step = .done text) (failed : b.complete (Scan.ofScanner s) = .error e) :
    ∃ name, e.cause = .unclosedSection name := by
  obtain ⟨c, -, taken⟩ := b.exists_addTokens_ofText text
  have taken := taken []
  rw [List.append_nil] at taken
  rw [Scan.ofScanner_of_done step] at failed
  simp only [complete, taken, addTokens, finish] at failed
  split at failed
  · cases failed
  · obtain rfl := Except.error.inj failed
    exact ⟨_, rfl⟩

theorem exists_complete_tag (b : Builder) (text : List Char) :
    ∃ c : Builder, c.OpenedAlike b ∧ ∀ s tag next, s.step = .tag text tag next →
      b.complete (Scan.ofScanner s) =
        match c.addTag tag with
        | .error e => .error e
        | .ok c => c.complete (Scan.ofScanner next) := by
  obtain ⟨c, alike, taken⟩ := b.exists_addTokens_ofText text
  refine ⟨c, alike, fun s tag next step => ?_⟩
  rw [Scan.ofScanner_of_tag step]
  simp only [complete, taken, addTokens, addToken]
  cases c.addTag tag <;> rfl

/-- What is wrong with a source is wrong with every longer source, unless the source only ended
too early. -/
theorem complete_followedBy {s : Scanner} {e : SyntaxError} (more : List Char)
    (failed : b.complete (Scan.ofScanner s) = .error e) (closed : e.cause ≠ .unclosedTag)
    (left : ∀ name, e.cause ≠ .unclosedSection name) :
    b.complete (Scan.ofScanner (s.followedBy more)) = .error e := by
  -- up to the fault both sources have the same tags, but for the margins of the last one
  induction s using Scan.ofScanner.induct generalizing b with
  | case1 s text step =>
    obtain ⟨name, cause⟩ := cause_of_complete_done step failed
    exact absurd cause (left name)
  | case2 s fault step =>
    rw [Scan.ofScanner_of_fault step] at failed
    obtain rfl := Except.error.inj failed
    rw [Scan.ofScanner_of_fault (Scanner.step_fault_append more step closed)]
    rfl
  | case3 s text tag next step ih =>
    obtain ⟨c, alike, taken⟩ := b.exists_complete_tag text
    rw [taken s tag next step] at failed
    rcases Scanner.step_append more step with longer | ⟨ended, before, margins, later, longer⟩
    · rw [taken _ tag _ longer]
      cases took : c.addTag tag with
      | error cause =>
        rw [took] at failed
        exact failed
      | ok c =>
        rw [took] at failed
        exact ih failed
    · obtain ⟨d, others, takes⟩ := b.exists_complete_tag before
      rw [takes _ _ _ longer]
      cases took : c.addTag tag with
      | error cause =>
        rw [took] at failed
        obtain rfl := Except.error.inj failed
        rw [addTag_error_of_openedAlike (alike.trans others.symm) margins took]
      | ok c =>
        rw [took] at failed
        obtain ⟨name, cause⟩ := cause_of_complete_done (Scanner.step_of_rest_eq_nil ended) failed
        exact absurd cause (left name)

end Builder

namespace Template

/-- A fault of a source is final: whatever comes behind the source, the fault stays the same and
stays at its place, unless the source only ended inside a tag or inside a scope. -/
theorem compile_append_of_error (config : Configuration) {source : String} {e : SyntaxError}
    (failed : compile config source = .error e) (closed : e.cause ≠ .unclosedTag)
    (left : ∀ name, e.cause ≠ .unclosedSection name) (more : String) :
    compile config (source ++ more) = .error e := by
  have longer : (Scanner.start config.delimiters source).followedBy more.toList =
      .start config.delimiters (source ++ more) := by
    simp [Scanner.followedBy, Scanner.start]
  have final := Builder.complete_followedBy more.toList failed closed left
  rw [longer] at final
  exact final

/-- The closing tag is alone on its line, and then it is not. -/
theorem compile_append_of_error_closing :
    let source := "\x7b\x7b#a\x7d\x7d\n \x7b\x7b/b\x7d\x7d "
    let e : SyntaxError := ⟨.unexpectedClosingTag "b" (some "a"), ⟨2, 2, 8⟩⟩
    compile {} source = .error e ∧ compile {} (source ++ "x\x7b\x7b") = .error e := by
  intro source e
  have failed : compile {} source = .error e := by cbv
  exact ⟨failed, compile_append_of_error {} failed (by decide) (by simp [e]) _⟩

end Template

end Mustache
