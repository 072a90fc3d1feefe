import Mathlib
import Mustache.Proofs.Render.Labelled
import Mustache.Proofs.Render.Writing
import Mustache.Proofs.Template.Joining

namespace Mustache

namespace Run

variable {ε δ : Type}

private theorem writesAs_joinBefore {f : Node → Run ε} (texts : ∀ s, f (.text s) = piece (.text s))
    (n : Node) (rest : List Node) : (each f (n.joinBefore rest)).WritesAs (each f (n :: rest)) := by
  unfold Node.joinBefore
  split
  · refine ⟨?_, by simp [each, texts, Run.andThen, piece]⟩
    intro out
    simp [each, texts, Run.andThen, piece, Output.writeAll, Output.write, Output.writeText_append]
  · exact .refl _

theorem writesAs_joinTexts {f : Node → Run ε} (texts : ∀ s, f (.text s) = piece (.text s))
    (nodes : List Node) : (each f (Node.joinTexts nodes)).WritesAs (each f nodes) := by
  induction nodes with
  | nil => exact .refl _
  | cons n rest ih => exact (writesAs_joinBefore texts n _).trans (.andThen (.refl (f n)) ih)

theorem text_andThen (r : Run ε) (next : Unit → Run ε) :
    (r.andThen next).text = do
      let first ← r.text
      let second ← (next ()).text
      return first ++ second := by
  obtain ⟨pieces, error⟩ := r
  cases error with
  | some e => rfl
  | none =>
    cases failed : (next ()).error with
    | some e => simp [text, Run.andThen, failed, bind, Except.bind]
    | none =>
      simp [text, Run.andThen, failed, bind, Except.bind, pure, Except.pure,
        Output.buffer_writeAll_append]

end Run

theorem LabelledCollaborators.render_eq_text (c : LabelledCollaborators)
    (nodes : List LabelledNode) (data : Data) : c.render nodes data = (c.run nodes data).text := by
  simp only [render, Run.text]
  cases (c.run nodes data).error <;> rfl

namespace Template

/-- A template whose tags were moved renders as before, up to the places in errors at its own
tags. -/
theorem render_relocate (move : Position → Position) (t : Template) (data : Data)
    (c : Collaborators) :
    render { t with nodes := Node.relocateAll move t.nodes } data c =
      (c.labelled.render t.labelled data).mapError (·.errorAfter move) := by
  rw [render_eq_text, run_relocate, Run.text_mapError, LabelledCollaborators.render_eq_text]

/-- Nodes that are those of two templates, one after the other, render to both texts. -/
theorem render_of_joinTexts {nodes : List Node} {t u : Template}
    (types : t.contentType = u.contentType)
    (same : Node.joinTexts nodes = Node.joinTexts (t.nodes ++ u.nodes)) (data : Data)
    (c : Collaborators) :
    render ⟨nodes, t.contentType⟩ data c = do
      let first ← t.render data c
      let second ← u.render data c
      return first ++ second := by
  simp only [render_eq_text, run, Collaborators.renderNodes, ← types]
  have texts (s : String) : c.renderNode maxNesting ⟨t.contentType, 0, []⟩ (.root data) (.text s) =
      .piece (.text s) := rfl
  rw [← (Run.writesAs_joinTexts texts nodes).text_eq, same,
    (Run.writesAs_joinTexts texts (t.nodes ++ u.nodes)).text_eq, Run.each_append, Run.text_andThen]

/-- Two sources compile and render like one after the other when the first is made of whole
lines and ends with the delimiters it begins with, and both give one content type. The tree is
that of both, up to texts that meet at the boundary; an error of the first source comes first,
and an error at a tag of the second one has its place below the first. -/
theorem compile_append (config : Configuration) {first second : String} {t u : Template}
    (compiled : compile config first = .ok t) (others : compile config second = .ok u)
    (types : t.contentType = u.contentType)
    (lines : first = "" ∨ ∃ before, first = before ++ "\n")
    (delimiters : (Scan.ofSource config.delimiters first).tokens.foldl Token.delimitersAfter
      config.delimiters = config.delimiters) :
    ∃ nodes, compile config (first ++ second) = .ok ⟨nodes, t.contentType⟩ ∧
      Node.joinTexts nodes =
        Node.joinTexts (t.nodes ++ Node.relocateAll (·.below first) u.nodes) ∧
      ∀ data c,
        (∀ e, t.render data c = .error e → render ⟨nodes, t.contentType⟩ data c = .error e) ∧
        ∀ out, t.render data c = .ok out →
          (∀ more, u.render data c = .ok more →
            render ⟨nodes, t.contentType⟩ data c = .ok (out ++ more)) ∧
          ∀ e, u.render data c = .error e →
            ∃ x, c.labelled.render u.labelled data = .error x ∧ x.error = e ∧
              render ⟨nodes, t.contentType⟩ data c = .error (x.errorAfter (·.below first)) := by
  have left := spelledBy_of_ofScan compiled
  have right := spelledBy_of_ofScan others
  have whole : Text.WholeLines first.toList := by
    rcases lines with rfl | ⟨before, rfl⟩ <;> simp [Text.WholeLines]
  have scans := Scan.joined_ofSource whole left.whole right.whole delimiters
  obtain ⟨nodes, spelled, same⟩ := left.joined (right.relocate (·.below first)) types scans
  refine ⟨nodes, ofScan_eq_ok_iff_spelledBy.mpr spelled, same, ?_⟩
  intro data c
  have moved := u.render_relocate (·.below first) data c
  have plain : u.render data c = (c.labelled.render u.labelled data).mapError Fault.error := by
    rw [render_eq_text, run_labelled, Run.text_mapError, LabelledCollaborators.render_eq_text]
  have both := @render_of_joinTexts nodes t { u with nodes := Node.relocateAll (·.below first) u.nodes }
    types same data c
  rw [both, moved, plain]
  cases t.render data c with
  | error e =>
    refine ⟨fun _ same => same, ?_⟩
    intro out impossible
    cases impossible
  | ok out =>
    refine ⟨fun _ impossible => (by cases impossible), ?_⟩
    rintro _ ⟨⟩
    cases c.labelled.render u.labelled data with
    | error x =>
      refine ⟨fun _ impossible => (by cases impossible), ?_⟩
      rintro _ ⟨⟩
      exact ⟨x, rfl, rfl, rfl⟩
    | ok more =>
      refine ⟨?_, fun _ impossible => (by cases impossible)⟩
      rintro _ ⟨⟩
      rfl

/-- A text that is cut by the boundary, and a filter at a place below it. -/
theorem compile_append_texts :
    let first := "\x7b\x7b! c \x7d\x7d\na\n"
    let second := "b\x7b\x7bx|f\x7d\x7d"
    let filtered : Expression := ⟨[.identifier "x"], [⟨"f", []⟩]⟩
    let t : Template := ⟨[.text "a\n"], .html⟩
    let u : Template := ⟨[.text "b", .interpolation filtered true ⟨1, 2, 1⟩], .html⟩
    let data : Data := .json (.object [("x", .string "<")])
    compile {} first = .ok t ∧ compile {} second = .ok u ∧
      (Scan.ofSource .braces first).tokens.foldl Token.delimitersAfter .braces = .braces ∧
      ∃ nodes, compile {} (first ++ second) = .ok ⟨nodes, .html⟩ ∧
        Node.joinTexts nodes = [.text "a\nb", .interpolation filtered true ⟨3, 2, 12⟩] ∧
        render ⟨nodes, .html⟩ data { filters := fun _ => some fun v _ => .ok v } = .ok "a\nb&lt;" ∧
        render ⟨nodes, .html⟩ data {} = .error (.unknownFilter "f" ⟨3, 2, 12⟩) := by
  intro first second filtered t u data
  have compiled : compile {} first = .ok t := by cbv
  have others : compile {} second = .ok u := by cbv
  have delimiters :
      (Scan.ofSource .braces first).tokens.foldl Token.delimitersAfter .braces = .braces := by
    decide +kernel
  refine ⟨compiled, others, delimiters, ?_⟩
  obtain ⟨nodes, both, same, rendered⟩ := compile_append {} compiled others rfl
    (.inr ⟨"\x7b\x7b! c \x7d\x7d\na", rfl⟩) delimiters
  refine ⟨nodes, both, same.trans (by cbv), ?_, ?_⟩
  · exact ((rendered data _).2 "a\n" (by decide +kernel)).1 "b&lt;" (by decide +kernel)
  · obtain ⟨x, failed, -, error⟩ := ((rendered data {}).2 "a\n" (by decide +kernel)).2
      (.unknownFilter "f" ⟨1, 2, 1⟩) (by decide +kernel)
    have fault : x = ⟨.unknownFilter "f" ⟨1, 2, 1⟩, ⟨none, .html, ⟨1, 2, 1⟩⟩⟩ := by
      refine Except.error.inj (failed.symm.trans ?_)
      decide +kernel
    rw [error, fault]
    decide +kernel

end Template

end Mustache
