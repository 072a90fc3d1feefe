import Mathlib
import Mustache.Proofs.Render.Writing
import Mustache.Proofs.Template.Comparison
import Mustache.Proofs.Token.CommentLines

namespace Mustache

namespace Comparison

/-- Nothing differs but the places of tags, and that texts may be cut in two. -/
def cutting : Comparison where
  texts := Eq
  indents := Eq
  expressions := Eq
  places _ _ := True
  parts _ ns ms := ∃ s t : String, ns = [.text (s ++ t)] ∧ ms = [.text s, .text t]
  values := Eq
  runs := Run.Compares (fun ps qs => ∀ out : Output, out.writeAll ps = out.writeAll qs)
    fun _ _ => True

private theorem cutting_reflexive : cutting.Reflexive :=
  ⟨fun _ => rfl, fun _ => rfl, fun _ => rfl, fun _ => trivial⟩

private theorem cutting_tokens (contentType : ContentType) (move : Position → Position)
    (tokens : List Token) :
    cutting.Tokens contentType tokens (tokens.map (·.relocate move)) := by
  induction tokens with
  | nil => exact .nil
  | cons t rest ih =>
    cases t with
    | text s => exact .text rfl ih
    | tag t => exact .tag ⟨rfl, rfl, trivial, rfl⟩ ih

private theorem cutting_ofText (contentType : ContentType) (first second : List Char) :
    cutting.Tokens contentType (Scan.ofText (first ++ second))
      (Scan.ofText first ++ Scan.ofText second) := by
  cases first with
  | nil => exact cutting_reflexive.tokens contentType (Scan.ofText second)
  | cons c first =>
    cases second with
    | nil =>
      rw [List.append_nil]
      exact cutting_reflexive.tokens contentType (Scan.ofText (c :: first) ++ Scan.ofText [])
    | cons d second =>
      have both : Scan.ofText (c :: first ++ d :: second) =
          [.text (String.ofList (c :: first) ++ String.ofList (d :: second))] := by
        rw [← String.ofList_append]
        rfl
      rw [both]
      exact .cut ⟨_, _, rfl, rfl⟩ .nil

private theorem cutting_lawful {c d : Collaborators} (filters : d.filters = c.filters)
    (escaper : d.escaper = c.escaper)
    (templates : ∀ name, Option.Rel cutting.Templates (c.templates name) (d.templates name)) :
    cutting.Lawful c d where
  empty := ⟨fun _ => rfl, .none⟩
  andThen := by
    intro r s next more first second
    refine first.andThen ?_ second
    intro a b c d left right out
    rw [Output.writeAll_append, Output.writeAll_append, left, right]
  region := by
    rintro indent _ r s rfl inside
    refine ⟨?_, inside.error⟩
    intro out
    simp only [Run.region, Output.writeAll, Output.write, inside.pieces]
  text := by
    rintro s _ rfl
    exact ⟨fun _ => rfl, .none⟩
  value s := ⟨fun _ => rfl, .none⟩
  lookup name := ⟨fun _ => rfl, .none⟩
  fail e p q alike := .fail (fun _ => rfl) e alike
  agreement := .eq
  evaluate := by
    rintro s t e _ p q scopes rfl _
    exact outcomes_of_agreement .eq filters scopes p q e
  parts := by
    rintro room room' f g s t _ _ inner frames scopes levels ⟨first, second, rfl, rfl⟩
    have text (c : Collaborators) (room : Nat) (f : Frame) (s : Scopes) (x : String) :
        c.renderNode room f s (.text x) = .piece (.text x) := by
      rw [Collaborators.renderNode]
    simp only [Run.each, text]
    refine ⟨?_, .none⟩
    intro out
    simp [Run.andThen, Run.piece, Run.empty, Output.writeAll, Output.write, Output.writeText_append]
  templates := templates
  escaper := escaper

end Comparison

theorem Builder.addTokens_comment {t : Tag} (kind : t.kind = .comment) (before rest : List Token)
    (b : Builder) : b.addTokens (before ++ .tag t :: rest) = b.addTokens (before ++ rest) := by
  induction before generalizing b with
  | nil =>
    have skipped : b.addTag t = .ok b := addTag_of_step (.skip (.inl kind))
    simp only [List.nil_append, addTokens, addToken, skipped]
  | cons first before ih => simp only [List.cons_append, addTokens, ih]

namespace Template

private theorem ofScan_comment {t : Tag} (kind : t.kind = .comment) (contentType : ContentType)
    (before rest : List Token) (error : Option SyntaxError) :
    ofScan contentType ⟨before ++ .tag t :: rest, error⟩ =
      ofScan contentType ⟨before ++ rest, error⟩ := by
  simp only [ofScan, Builder.addTokens_comment kind]

/-- The same template, or one of two in place of the other. -/
def Exchanged (t u p q : Template) : Prop :=
  q = p ∨ p = t ∧ q = u

/-- A line with a comment and nothing else may be put into a source that compiles, behind whole
lines and outside every tag. The source compiles again, and as root template or as stored template
it is rendered to the same text, or fails with the same error up to its place. -/
theorem compile_commentLine (config : Configuration) {lines source comment : String} {t : Template}
    {active : Delimiters} (compiled : compile config (lines ++ source) = .ok t)
    (whole : lines = "" ∨ ∃ before, lines = before ++ "\n")
    (outside : (Scan.ofSource config.delimiters (lines ++ source)).Outside lines.utf8ByteSize)
    (delimiters : (Scan.ofSource config.delimiters (lines ++ source)).delimitersAt
      config.delimiters lines.utf8ByteSize = active)
    (ends : Text.FirstAfter ('!' :: comment.toList) active.closer.toList
      ('!' :: comment.toList ++ active.closer.toList)) :
    ∃ u, compile config (lines ++ active.opener ++ "!" ++ comment ++ active.closer ++ "\n" ++ source)
        = .ok u ∧
      ∀ {c d : Collaborators}, d.filters = c.filters → d.escaper = c.escaper →
        (∀ name, Option.Rel (Exchanged t u) (c.templates name) (d.templates name)) →
        ∀ p q, Exchanged t u p q → ∀ data,
          Results Eq (fun _ _ => True) (p.render data c) (q.render data d) := by
  have wholeLines : Text.WholeLines lines.toList := by
    rcases whole with rfl | ⟨before, rfl⟩ <;> simp [Text.WholeLines]
  obtain ⟨_, -, fine, -⟩ := ofScan_eq_ok_iff.mp compiled
  obtain ⟨front, last, next, others, tag, kind, scan, commented⟩ :=
    Scan.exists_commented wholeLines fine outside delimiters ends
  have alike : Comparison.cutting.Tokens t.contentType (front ++ Scan.ofText (last ++ next) ++ others)
      (front ++ (Scan.ofText last ++ Scan.ofText next) ++
        others.map (·.relocate (·.below (active.commentLine comment)))) :=
    ((Comparison.cutting_reflexive.tokens _ front).append
      (Comparison.cutting_ofText _ last next)).append (Comparison.cutting_tokens _ _ others)
  rw [compile, scan] at compiled
  obtain ⟨u, spelled, templates⟩ := alike.exists_ofScan (fun _ _ => eq_comm) compiled
  refine ⟨u, ?_, ?_⟩
  · have source_eq : lines ++ active.opener ++ "!" ++ comment ++ active.closer ++ "\n" ++ source =
        lines ++ (active.commentLine comment ++ source) := by
      simp [Delimiters.commentLine, String.append_assoc]
    rw [source_eq, compile, commented, ofScan_comment kind, ← spelled]
    simp only [List.append_assoc]
  · intro c d filters escaper stored p q exchanged data
    have alike {p q : Template} (exchanged : Exchanged t u p q) :
        Comparison.cutting.Templates p q := by
      rcases exchanged with rfl | ⟨rfl, rfl⟩
      · exact Comparison.cutting_reflexive.template q
      · exact templates
    have laws := Comparison.cutting_lawful filters escaper fun name =>
      rel_option_imp (fun _ _ => alike) (stored name)
    have compared := laws.run (alike exchanged) (v := data) rfl
    rw [render_eq_text, render_eq_text]
    exact compared.text fun same => by rw [same]

/-- A comment between lines of text, with delimiters that the source set, in a stored template
that is indented. -/
theorem compile_commentLine_indented :
    let lines := "\x7b\x7b=<% %>=\x7d\x7d\na\n"
    let source := "b<%x%>\n"
    let t : Template :=
      ⟨[.text "a\nb", .interpolation ⟨[.identifier "x"], []⟩ true ⟨3, 2, 15⟩, .text "\n"], .html⟩
    let page : Template := ⟨[.inclusion "row" " " .start], .html⟩
    let store (row : Template) : Collaborators :=
      { templates := fun name => if name = "row" then some row else none }
    let data : Data := .json (.object [("x", .string "1")])
    ∃ u, compile {} (lines ++ source) = .ok t ∧
      compile {} "\x7b\x7b=<% %>=\x7d\x7d\na\n<%! \x7d\x7d %>\nb<%x%>\n" = .ok u ∧
      page.render data (store t) = .ok " a\n b1\n" ∧
      page.render data (store u) = .ok " a\n b1\n" := by
  intro lines source t page store data
  have tokens : (Scan.ofSource .braces (lines ++ source)).tokens =
      [.tag ⟨.delimiters ⟨"<%", "%>", rfl, rfl⟩, "<% %>", .start, "\x7b\x7b=<% %>=\x7d\x7d",
          some ⟨"", "\n"⟩⟩,
        .text "a\nb", .tag ⟨.interpolation true, "x", ⟨3, 2, 15⟩, "<%x%>", none⟩, .text "\n"] := by
    decide +kernel
  have fine : (Scan.ofSource .braces (lines ++ source)).error = none := by
    decide +kernel
  have compiled : compile {} (lines ++ source) = .ok t := by
    simp only [compile, ofScan, tokens, fine]
    cbv
  have outside : (Scan.ofSource .braces (lines ++ source)).Outside lines.utf8ByteSize := by
    decide +kernel
  have delimiters : (Scan.ofSource .braces (lines ++ source)).delimitersAt .braces
      lines.utf8ByteSize = ⟨"<%", "%>", rfl, rfl⟩ := by
    decide +kernel
  let comment := " \x7d\x7d "
  have found : Text.cut "%>".toList ('!' :: comment.toList ++ "%>".toList) =
      some ('!' :: comment.toList, []) := by
    decide
  have ends : Text.FirstAfter ('!' :: comment.toList) "%>".toList
      ('!' :: comment.toList ++ "%>".toList) :=
    Text.firstAfter_of_cut found
  obtain ⟨u, again, rendered⟩ := compile_commentLine {} compiled
    (.inr ⟨"\x7b\x7b=<% %>=\x7d\x7d\na", rfl⟩) outside delimiters ends
  have stored (name : String) :
      Option.Rel (Exchanged t u) ((store t).templates name) ((store u).templates name) := by
    have row : Exchanged t u t u := .inr ⟨rfl, rfl⟩
    by_cases named : name = "row"
    · simpa [store, named] using row
    · simp [store, named]
  have first : page.render data (store t) = .ok " a\n b1\n" := by
    decide +kernel
  have second := rendered (c := store t) (d := store u) rfl rfl stored page page (.inl rfl) data
  rw [first] at second
  exact ⟨u, compiled, again, first, second.eq_ok⟩

end Template

end Mustache
