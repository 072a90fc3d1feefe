import Mathlib
import Mustache.Proofs.Render.Writing
import Mustache.Proofs.Template.Comparison
import Mustache.Proofs.Template.Subtrees
import Mustache.Proofs.Token.LineEnds

namespace Mustache

open Text (withReturns)

mutual

def Piece.values : Piece → List String
  | .text _ => []
  | .value s => [s]
  | .region _ pieces => allValues pieces
  | .lookup _ => []
termination_by structural piece => piece

def Piece.allValues : List Piece → List String
  | [] => []
  | piece :: rest => piece.values ++ allValues rest
termination_by structural pieces => pieces

end

theorem Piece.allValues_append (ps qs : List Piece) :
    allValues (ps ++ qs) = allValues ps ++ allValues qs := by
  induction ps with
  | nil => rfl
  | cons p rest ih => rw [List.cons_append, allValues, allValues, ih, List.append_assoc]

namespace Output

private theorem indentLines_withReturns {indent : List Char} (line : '\n' ∉ indent)
    (lineStart : Bool) (s : List Char) :
    indentLines indent lineStart (withReturns s) = withReturns (indentLines indent lineStart s) := by
  have same := Text.withReturns_of_not_mem line
  induction s generalizing lineStart with
  | nil => rfl
  | cons c s ih =>
    have start : withReturns (if lineStart then indent else []) = if lineStart then indent else [] := by
      cases lineStart
      · rfl
      · exact same
    by_cases feed : c = '\n'
    · subst feed
      simp [indentLines, ih, start]
    · simp [indentLines, Text.withReturns_cons feed, ih, start]

private theorem lineStartAfter_withReturns (lineStart : Bool) (s : List Char) :
    lineStartAfter lineStart (withReturns s) = lineStartAfter lineStart s := by
  induction s generalizing lineStart with
  | nil => rfl
  | cons c s ih =>
    by_cases feed : c = '\n'
    · subst feed
      simp [lineStartAfter, ih]
    · simp [lineStartAfter, Text.withReturns_cons feed, ih]

/-- The second output has the lines of the first one with carriage returns. -/
structure Returned (out more : Output) : Prop where
  buffer : more.buffer = crlf out.buffer
  indent : more.indent = out.indent
  lineStart : more.lineStart = out.lineStart
  line : '\n' ∉ out.indent.toList

variable {out more : Output}

theorem Returned.writeText (same : out.Returned more) (s : String) :
    (out.writeText s).Returned (more.writeText (crlf s)) := by
  obtain ⟨buffer, indent, lineStart, line⟩ := same
  refine ⟨?_, indent, ?_, line⟩
  · have lines := indentLines_withReturns line out.lineStart s.toList
    simp only [Output.writeText, buffer, indent, lineStart, toList_crlf, lines, crlf_append]
    rw [crlf, crlf, String.toList_ofList]
  · simp only [Output.writeText, lineStart, toList_crlf, lineStartAfter_withReturns]

theorem Returned.writeValue (same : out.Returned more) {s : String} (value : '\n' ∉ s.toList) :
    (out.writeValue s).Returned (more.writeValue s) := by
  unfold Output.writeValue
  split
  · exact same
  · obtain ⟨buffer, indent, lineStart, line⟩ := same
    refine ⟨?_, indent, rfl, line⟩
    have start : '\n' ∉ (if out.lineStart then out.indent else "").toList := by
      cases out.lineStart
      · simp
      · exact line
    simp only [buffer, indent, lineStart, crlf_append, crlf_of_not_mem start, crlf_of_not_mem value]

theorem Returned.enter (same : out.Returned more) {indent : String} (line : '\n' ∉ indent.toList) :
    (out.enter indent).Returned (more.enter indent) where
  buffer := same.buffer
  indent := congrArg (· ++ indent) same.indent
  lineStart := congrArg (· || !indent.isEmpty) same.lineStart
  line := by
    simp only [Output.enter, String.toList_append, List.mem_append]
    exact fun member => member.elim same.line line

theorem Returned.leave {inner outer : Output} (inside : inner.Returned outer)
    (same : out.Returned more) : (inner.leave out.indent).Returned (outer.leave more.indent) :=
  ⟨inside.buffer, same.indent, inside.lineStart, same.line⟩

end Output

/-- Pieces that write the lines of others with carriage returns, if no value has a line feed. -/
def Piece.ReturnedAll (ps qs : List Piece) : Prop :=
  (∀ s ∈ allValues ps, '\n' ∉ s.toList) → ∀ out more : Output, out.Returned more →
    (out.writeAll ps).Returned (more.writeAll qs)

namespace Piece

theorem ReturnedAll.append {ps qs others more : List Piece} (first : ReturnedAll ps qs)
    (second : ReturnedAll others more) : ReturnedAll (ps ++ others) (qs ++ more) := by
  intro values out after same
  rw [allValues_append] at values
  rw [Output.writeAll_append, Output.writeAll_append]
  exact second (fun s member => values s (List.mem_append_right _ member)) _ _
    (first (fun s member => values s (List.mem_append_left _ member)) out after same)

theorem ReturnedAll.region {ps qs : List Piece} (inside : ReturnedAll ps qs) {indent : String}
    (line : '\n' ∉ indent.toList) : ReturnedAll [.region indent ps] [.region indent qs] := by
  intro values out more same
  have inner := inside (by simpa [allValues, Piece.values] using values) _ _ (same.enter line)
  exact inner.leave same

end Piece

namespace Comparison

/-- Nothing differs but the places of tags and the line ends. Indentation has none. -/
def returning : Comparison where
  texts s t := t = crlf s
  indents i j := j = i ∧ '\n' ∉ i.toList
  expressions := Eq
  places _ _ := True
  parts _ _ _ := False
  values := Eq
  runs := Run.Compares Piece.ReturnedAll fun _ _ => True

private theorem returning_lawful {c d : Collaborators} (filters : d.filters = c.filters)
    (escaper : d.escaper = c.escaper)
    (templates : ∀ name, Option.Rel returning.Templates (c.templates name) (d.templates name)) :
    returning.Lawful c d where
  empty := ⟨fun _ _ _ same => same, .none⟩
  andThen := by
    intro r s next more first second
    exact first.andThen Piece.ReturnedAll.append second
  region := by
    rintro indent _ r s ⟨rfl, line⟩ inside
    exact ⟨inside.pieces.region line, inside.error⟩
  text := by
    rintro s _ rfl
    exact ⟨fun _ _ _ same => same.writeText s, .none⟩
  value s := by
    refine ⟨?_, .none⟩
    intro values out more same
    exact same.writeValue (values s (by simp [Run.piece, Piece.allValues, Piece.values]))
  lookup name := ⟨fun _ _ _ same => same, .none⟩
  fail e p q alike := .fail (fun _ _ _ same => same) e alike
  agreement := .eq
  evaluate := by
    rintro s t e _ p q scopes rfl _
    exact outcomes_of_agreement .eq filters scopes p q e
  parts _ _ _ _ impossible := impossible.elim
  templates := templates
  escaper := escaper

private theorem returning_ofText (contentType : ContentType) (text : List Char) :
    returning.Tokens contentType (Scan.ofText text) (Scan.ofText (withReturns text)) := by
  have ends : withReturns text = [] ↔ text = [] := Text.withReturns_eq_nil_iff
  unfold Scan.ofText
  cases text with
  | nil => exact .nil
  | cons c rest =>
    generalize lines : withReturns (c :: rest) = others at ends
    cases others with
    | nil => simp at ends
    | cons d others =>
      refine .text ?_ .nil
      show String.ofList (d :: others) = crlf (String.ofList (c :: rest))
      rw [crlf, String.toList_ofList, lines]

/-- A source that is scanned without a fault is scanned so with carriage returns. -/
theorem returning_scan (contentType : ContentType) {s r : Scanner} (same : s.Returned r)
    (plain : '\r' ∉ s.rest) (fine : (Scan.ofScanner s).error = none)
    (line : ∀ t ∈ (Scan.ofScanner s).tokens, t.IsOnLine) :
    ∃ tokens, Scan.ofScanner r = ⟨tokens, none⟩ ∧
      returning.Tokens contentType (Scan.ofScanner s).tokens tokens := by
  induction s using Scan.ofScanner.induct generalizing r with
  | case1 s text step =>
    rw [Scan.ofScanner_of_done step, Scan.ofScanner_of_done (Scanner.step_done_withReturns same step)]
    exact ⟨_, rfl, returning_ofText contentType text⟩
  | case2 s e step =>
    rw [Scan.ofScanner_of_fault step] at fine
    cases fine
  | case3 s text tag next step ih =>
    have indent : '\n' ∉ tag.indent.toList := by
      intro member
      have present : .tag tag ∈ (Scan.ofScanner s).tokens := by
        rw [Scan.ofScanner_of_tag step]
        exact List.mem_append_right _ List.mem_cons_self
      exact absurd (Scan.isMargin_of_mem_indent s present member) (by decide)
    rw [Scan.ofScanner_of_tag step] at fine line ⊢
    obtain ⟨tag', next', found, alike, left⟩ := Scanner.step_withReturns same plain step
      (line (.tag tag) (List.mem_append_right _ List.mem_cons_self))
    have behind : '\r' ∉ next.rest := by
      intro member
      refine plain ?_
      rw [(Scanner.found_of_step step).whole]
      exact List.mem_append_right _ member
    obtain ⟨tokens, scanned, others⟩ := ih left behind fine fun t member =>
      line t (List.mem_append_right _ (List.mem_cons_of_mem _ member))
    rw [Scan.ofScanner_of_tag found, scanned]
    refine ⟨_, rfl, (returning_ofText contentType text).append (.tag ?_ others)⟩
    exact ⟨alike.kind, alike.content, trivial, alike.indent, indent⟩

end Comparison

namespace Template

/-- The template of a source without carriage returns, whose tags are each on one line. -/
structure FromLines (config : Configuration) (source : String) (t : Template) : Prop where
  compiled : compile config source = .ok t
  plain : '\r' ∉ source.toList
  tags : ∀ t ∈ (Scan.ofSource config.delimiters source).tokens, t.IsOnLine

/-- With carriage returns the source compiles to a template with the same lines. -/
theorem FromLines.exists_crlf {config : Configuration} {source : String} {t : Template}
    (lines : FromLines config source t) :
    ∃ u, compile config (crlf source) = .ok u ∧ Comparison.returning.Templates t u := by
  obtain ⟨compiled, plain, tags⟩ := lines
  obtain ⟨_, -, fine, -⟩ := ofScan_eq_ok_iff.mp compiled
  have same : (Scanner.start config.delimiters source).Returned
      (.start config.delimiters (crlf source)) := ⟨toList_crlf source, rfl, rfl⟩
  obtain ⟨tokens, scanned, alike⟩ :=
    Comparison.returning_scan t.contentType same plain fine tags
  have whole : Scan.ofSource config.delimiters source =
      ⟨(Scan.ofSource config.delimiters source).tokens, none⟩ := by
    rw [← fine]
  rw [compile, whole] at compiled
  obtain ⟨u, spelled, templates⟩ := Comparison.Tokens.exists_ofScan alike (fun _ _ => eq_comm) compiled
  refine ⟨u, ?_, templates⟩
  rw [compile, Scan.ofSource, scanned, spelled]

/-- Sources whose tags are each on one line may end their lines with a carriage return and a line
feed. They compile again, and if no value that is written has a line feed, the same lines are
rendered with these ends, or the same error is returned up to its place. -/
theorem render_crlf {config : Configuration} {source : String} {t : Template} {c : Collaborators}
    {sources : String → Option (Configuration × String)} (root : FromLines config source t)
    (stored : ∀ name, Option.Rel (fun s p => FromLines s.1 s.2 p) (sources name)
      (c.templates name)) :
    ∃ u templates, compile config (crlf source) = .ok u ∧
      (∀ name, Option.Rel (fun s p => compile s.1 (crlf s.2) = .ok p) (sources name)
        (templates name)) ∧
      ∀ data, (∀ s ∈ Piece.allValues (t.run data c).pieces, '\n' ∉ s.toList) →
        Results (fun out lines => lines = crlf out) (fun _ _ => True) (t.render data c)
          (u.render data { c with templates }) := by
  obtain ⟨u, compiled, alike⟩ := root.exists_crlf
  let templates (name : String) : Option Template :=
    (sources name).bind fun s => (compile s.1 (crlf s.2)).toOption
  have compiles (name : String) :
      Option.Rel (fun s p => compile s.1 (crlf s.2) = .ok p) (sources name) (templates name) ∧
        Option.Rel Comparison.returning.Templates (c.templates name) (templates name) := by
    have given := stored name
    simp only [templates]
    generalize sources name = s at given ⊢
    generalize c.templates name = p at given ⊢
    cases given with
    | none => exact ⟨.none, .none⟩
    | some lines =>
      obtain ⟨q, again, both⟩ := lines.exists_crlf
      simp only [Option.bind_some, again, Except.toOption]
      exact ⟨.some again, .some both⟩
  refine ⟨u, templates, compiled, fun name => (compiles name).1, ?_⟩
  intro data values
  have laws := Comparison.returning_lawful (c := c) (d := { c with templates }) rfl rfl
    fun name => (compiles name).2
  have compared := laws.run alike (v := data) rfl
  rw [render_eq_text, render_eq_text]
  refine compared.text fun pieces => ?_
  exact (pieces values {} {} ⟨rfl, rfl, rfl, by simp⟩).buffer

/-- A section whose tags stand alone on their lines, and a stored template that is indented. -/
theorem render_crlf_rows :
    let source := "\x7b\x7b#xs\x7d\x7d\n \x7b\x7b>row\x7d\x7d\n\x7b\x7b/xs\x7d\x7d\nend\n"
    let row : Template :=
      ⟨[.text "<", .interpolation ⟨[.identifier "x"], []⟩ true ⟨1, 2, 1⟩, .text "\n>\n"], .html⟩
    let t : Template :=
      ⟨[.sect ⟨[.identifier "xs"], []⟩ false [.inclusion "row" " " ⟨2, 2, 9⟩] .start,
        .text "end\n"], .html⟩
    let c : Collaborators := { templates := fun name => if name = "row" then some row else none }
    let data : Data := .json (.object [("xs", .array [.object [("x", .string "a")]])])
    compile {} source = .ok t ∧ compile {} "<\x7b\x7bx\x7d\x7d\n>\n" = .ok row ∧
      t.render data c = .ok " <a\n >\nend\n" ∧
      ∃ u templates, compile {}
          "\x7b\x7b#xs\x7d\x7d\r\n \x7b\x7b>row\x7d\x7d\r\n\x7b\x7b/xs\x7d\x7d\r\nend\r\n" = .ok u ∧
        (∃ p, templates "row" = some p ∧ compile {} "<\x7b\x7bx\x7d\x7d\r\n>\r\n" = .ok p) ∧
        u.render data { c with templates } = .ok " <a\r\n >\r\nend\r\n" := by
  intro source row t c data
  have compiled : compile {} source = .ok t := by cbv
  have compiledRow : compile {} "<\x7b\x7bx\x7d\x7d\n>\n" = .ok row := by cbv
  have rendered : t.render data c = .ok " <a\n >\nend\n" := by decide +kernel
  have root : FromLines {} source t := ⟨compiled, by decide, by decide +kernel⟩
  have stored (name : String) :
      Option.Rel (fun s p => FromLines s.1 s.2 p)
        (if name = "row" then some (({} : Configuration), "<\x7b\x7bx\x7d\x7d\n>\n") else none)
        (c.templates name) := by
    by_cases named : name = "row"
    · simp only [c, named, ↓reduceIte]
      exact .some ⟨compiledRow, by decide, by decide +kernel⟩
    · simp only [c, named, ↓reduceIte]
      exact .none
  obtain ⟨u, templates, again, others, renders⟩ := render_crlf root stored
  have results := renders data (by decide +kernel)
  have rootLines : crlf source =
      "\x7b\x7b#xs\x7d\x7d\r\n \x7b\x7b>row\x7d\x7d\r\n\x7b\x7b/xs\x7d\x7d\r\nend\r\n" := by
    decide +kernel
  have rowLines : crlf "<\x7b\x7bx\x7d\x7d\n>\n" = "<\x7b\x7bx\x7d\x7d\r\n>\r\n" := by
    decide +kernel
  have other := others "row"
  rw [rootLines] at again
  simp only [↓reduceIte] at other
  refine ⟨compiled, compiledRow, rendered, u, templates, again, ?_, ?_⟩
  · generalize templates "row" = found at other
    cases other with
    | some compiles => exact ⟨_, rfl, rowLines ▸ compiles⟩
  · rw [rendered] at results
    generalize u.render data { c with templates } = result at results ⊢
    cases results with
    | ok lines =>
      rw [lines]
      decide +kernel

end Template

end Mustache
