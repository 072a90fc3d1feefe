import Mathlib
import Mustache.Proofs.Escape
import Mustache.Proofs.Render.Reach
import Mustache.Proofs.Render.Runs
import Mustache.Template.Compile

namespace Mustache

mutual

/-- The texts among pieces, in the order in which they are written. -/
def Piece.texts : Piece → List String
  | .text s => [s]
  | .value _ => []
  | .region _ pieces => allTexts pieces
  | .lookup _ => []
termination_by structural piece => piece

def Piece.allTexts : List Piece → List String
  | [] => []
  | piece :: rest => piece.texts ++ allTexts rest
termination_by structural pieces => pieces

end

/-- A piece all of whose texts are among the given ones, whose values were escaped, and in
which only spaces and tabs are used to indent. -/
inductive Piece.Escaped (allowed : String → Prop) : Piece → Prop where
  | text {s : String} (member : allowed s) : Escaped allowed (.text s)
  | value (s : String) : Escaped allowed (.value (Escape.html s))
  | region {indent : String} {pieces : List Piece}
      (margin : ∀ c ∈ indent.toList, isMargin c = true)
      (inside : ∀ p ∈ pieces, Escaped allowed p) : Escaped allowed (.region indent pieces)
  | lookup (name : String) : Escaped allowed (.lookup name)

namespace Output

/-- What is known of an output after template texts were written, and nothing else that is
markup. -/
structure Extends (out after : Output) (texts : List String) : Prop where
  indent : after.indent = out.indent
  markup : after.buffer.toList.filter isMarkup =
    out.buffer.toList.filter isMarkup ++ (texts.flatMap String.toList).filter isMarkup
  entities : (∀ s ∈ texts, '&' ∉ s.toList) → EntitiesOnly out.buffer.toList →
    EntitiesOnly after.buffer.toList

theorem Extends.refl (out : Output) : out.Extends out [] where
  indent := rfl
  markup := by simp
  entities _ only := only

theorem Extends.trans {out middle after : Output} {first second : List String}
    (before : out.Extends middle first) (behind : middle.Extends after second) :
    out.Extends after (first ++ second) where
  indent := behind.indent.trans before.indent
  markup := by
    rw [behind.markup, before.markup, List.flatMap_append, List.filter_append, List.append_assoc]
  entities none only := by
    refine behind.entities (fun s member => none s ?_) (before.entities (fun s member => none s ?_) only)
    · exact List.mem_append_right first member
    · exact List.mem_append_left second member

private theorem isMarkup_of_isMargin {c : Char} (margin : isMargin c = true) :
    isMarkup c = false ∧ c ≠ '&' := by
  rcases isMargin_iff.mp margin with rfl | rfl <;> decide

private theorem filter_isMarkup_margin {s : List Char} (margin : ∀ c ∈ s, isMargin c = true) :
    s.filter isMarkup = [] := by
  rw [List.filter_eq_nil_iff]
  intro c member markup
  rw [(isMarkup_of_isMargin (margin c member)).1] at markup
  cases markup

private theorem entitiesOnly_margin {s : List Char} (margin : ∀ c ∈ s, isMargin c = true) :
    EntitiesOnly s :=
  entitiesOnly_of_not_mem fun member => (isMarkup_of_isMargin (margin '&' member)).2 rfl

private theorem filter_isMarkup_indentLines {indent : List Char}
    (margin : ∀ c ∈ indent, isMargin c = true) (lineStart : Bool) (s : List Char) :
    (indentLines indent lineStart s).filter isMarkup = s.filter isMarkup := by
  induction s generalizing lineStart with
  | nil => rfl
  | cons c s ih =>
    rw [indentLines, List.filter_append, List.filter_cons, List.filter_cons, ih]
    cases lineStart <;> simp [filter_isMarkup_margin margin]

private theorem not_mem_indentLines {indent : List Char} (margin : ∀ c ∈ indent, isMargin c = true)
    (lineStart : Bool) {s : List Char} (none : '&' ∉ s) :
    '&' ∉ indentLines indent lineStart s := by
  have absent : '&' ∉ indent := fun member => (isMarkup_of_isMargin (margin '&' member)).2 rfl
  induction s generalizing lineStart with
  | nil => exact none
  | cons c s ih =>
    rw [List.mem_cons, not_or] at none
    have rest := ih (c == '\n') none.2
    rw [indentLines]
    cases lineStart <;> simp [none.1, rest, absent]

private theorem extends_writeText {out : Output}
    (margin : ∀ c ∈ out.indent.toList, isMargin c = true) (s : String) :
    out.Extends (out.writeText s) [s] where
  indent := rfl
  markup := by simp [writeText, filter_isMarkup_indentLines margin]
  entities none only := by
    have absent := not_mem_indentLines margin out.lineStart (none s (by simp))
    simpa [writeText] using only.append (entitiesOnly_of_not_mem absent)

private theorem extends_writeValue {out : Output}
    (margin : ∀ c ∈ out.indent.toList, isMargin c = true) (s : String) :
    out.Extends (out.writeValue (Escape.html s)) [] := by
  unfold writeValue
  split
  · exact .refl out
  · have harmless : ∀ b : Bool, ((if b then out.indent else "").toList.filter isMarkup = []) ∧
        EntitiesOnly (if b then out.indent else "").toList := by
      intro b
      cases b
      · exact ⟨rfl, entitiesOnly_of_not_mem (by simp)⟩
      · exact ⟨filter_isMarkup_margin margin, entitiesOnly_margin margin⟩
    obtain ⟨markup, entities⟩ := harmless out.lineStart
    refine ⟨rfl, by simp [markup, Escape.filter_isMarkup_html], ?_⟩
    intro _ only
    simpa using (only.append entities).append (Escape.entitiesOnly_html s)

mutual

private theorem extends_write {allowed : String → Prop} (piece : Piece)
    (escaped : piece.Escaped allowed) {out : Output}
    (margin : ∀ c ∈ out.indent.toList, isMargin c = true) :
    out.Extends (out.write piece) piece.texts := by
  cases piece with
  | text s => exact extends_writeText margin s
  | value s =>
    cases escaped with
    | value s => exact extends_writeValue margin s
  | region indent pieces =>
    cases escaped with
    | region inner inside =>
      have both : ∀ c ∈ (out.enter indent).indent.toList, isMargin c = true := by
        intro c member
        rw [enter, String.toList_append, List.mem_append] at member
        rcases member with outer | added
        · exact margin c outer
        · exact inner c added
      have written := extends_writeAll pieces inside both
      exact ⟨rfl, written.markup, written.entities⟩
  | lookup name => exact .refl out
termination_by structural piece

private theorem extends_writeAll {allowed : String → Prop} (pieces : List Piece)
    (escaped : ∀ p ∈ pieces, p.Escaped allowed) {out : Output}
    (margin : ∀ c ∈ out.indent.toList, isMargin c = true) :
    out.Extends (out.writeAll pieces) (Piece.allTexts pieces) := by
  cases pieces with
  | nil => exact .refl out
  | cons piece rest =>
    have first := extends_write piece (escaped piece List.mem_cons_self) margin
    have kept : ∀ c ∈ (out.write piece).indent.toList, isMargin c = true := by
      rw [first.indent]
      exact margin
    exact first.trans
      (extends_writeAll rest (fun p member => escaped p (List.mem_cons_of_mem piece member)) kept)
termination_by structural pieces

end

end Output

namespace Template

/-- A compiled HTML template in which every variable is escaped. -/
structure EscapesAll (t : Template) : Prop where
  compiled : ∃ config source, compile config source = .ok t
  contentType : t.contentType = .html
  escaped : ∀ e p, .interpolation e false p ∉ Node.subtrees t.nodes

theorem EscapesAll.isMargin_of_mem_indent {t : Template} (safe : t.EscapesAll) {n : Node}
    (inside : n ∈ Node.subtrees t.nodes) : ∀ c ∈ n.indent.toList, isMargin c = true := by
  obtain ⟨config, source, compiled⟩ := safe.compiled
  intro c member
  exact (spelledBy_of_ofScan compiled).isMargin_of_mem_indent inside member

end Template

namespace Collaborators

variable {c : Collaborators} {root : Template}

/-- The frame of an HTML template's nodes, whose blocks come from HTML templates that can be
reached. -/
structure HtmlFrame (c : Collaborators) (root : Template) (f : Frame) : Prop where
  contentType : f.contentType = .html
  blocks : ∀ b ∈ f.blocks, (∀ n ∈ b.2.1, c.Within root n) ∧ b.2.2 = .html

theorem HtmlFrame.entering {f : Frame} (html : c.HtmlFrame root f) {t : Template}
    (contentType : t.contentType = .html) : c.HtmlFrame root (f.entering t) :=
  ⟨contentType, html.blocks⟩

theorem HtmlFrame.withOverrides {f : Frame} (html : c.HtmlFrame root f) {overrides : List Node}
    (within : ∀ n ∈ overrides, c.Within root n) :
    c.HtmlFrame root (f.withOverrides overrides) where
  contentType := html.contentType
  blocks := by
    intro b member
    rcases List.mem_append.mp member with before | added
    · exact html.blocks b before
    · obtain ⟨p, present, contentType⟩ := Frame.mem_overrides_iff.mp added
      exact ⟨fun inner inside => (within _ present).child inside, contentType.trans html.contentType⟩

theorem Within.isMargin_of_mem_indent (safe : ∀ t, c.Reaches root t → t.EscapesAll) {n : Node}
    (within : c.Within root n) : ∀ c ∈ n.indent.toList, isMargin c = true := by
  obtain ⟨t, reached, inside⟩ := within
  exact (safe t reached).isMargin_of_mem_indent inside

/-- The pieces of an inclusion: a look-up, and what is rendered of the template found. -/
theorem forall_withTemplate {P : Piece → Prop} {f : Frame} {name : String} {position : Position}
    {next : Template → Run RenderError} (lookup : P (.lookup name))
    (found : ∀ t, c.templates name = some t → ∀ p ∈ (next t).pieces, P p) :
    ∀ p ∈ (c.withTemplate f name position next).pieces, P p := by
  unfold withTemplate
  split
  · intro p member
    cases member
  · refine Run.forall_andThen (by simpa [Run.piece] using lookup) ?_
    cases stored : c.templates name with
    | none =>
      intro p member
      cases member
    | some t => exact found t stored

/-- All that is rendered of nodes that can be reached is template text, escaped values and
indentation. -/
theorem escaped_renderNode (standard : c.escaper = Escape.standard)
    (safe : ∀ t, c.Reaches root t → t.EscapesAll) (room : Nat) {f : Frame}
    (html : c.HtmlFrame root f) (scopes : Scopes) {n : Node} (within : c.Within root n) :
    ∀ p ∈ (c.renderNode room f scopes n).pieces, p.Escaped fun s => c.Within root (.text s) := by
  induction room using Nat.strongRecOn generalizing f scopes n with
  | ind room ih =>
    cases n with
    | text s =>
      rw [renderNode]
      simpa [Run.piece] using Piece.Escaped.text within
    | interpolation e escaped p =>
      obtain ⟨t, reached, inside⟩ := within
      have set : escaped = true := by
        cases escaped
        · exact absurd inside ((safe t reached).escaped e p)
        · rfl
      rw [renderNode, set]
      cases c.evaluate scopes p e with
      | error cause => exact Run.forall_fail cause
      | ok value =>
        simpa [Run.piece, valueText, standard, html.contentType, Escape.standard] using
          Piece.Escaped.value _
    | sect e inverted nodes p =>
      rw [renderNode]
      cases c.evaluate scopes p e with
      | error cause => exact Run.forall_fail cause
      | ok value =>
        cases room with
        | zero => exact Run.forall_fail _
        | succ room =>
          refine Run.forall_each fun pushed _ => Run.forall_each fun child member => ?_
          exact ih room (Nat.lt_succ_self room) html _ (within.child member)
    | inclusion name indent p =>
      rw [renderNode]
      refine forall_withTemplate (.lookup name) fun t found => ?_
      have reached := within.reaches rfl found
      cases room with
      | zero => exact Run.forall_fail _
      | succ room =>
        have entered := html.entering (safe t reached).contentType
        have inside := Run.forall_each fun child member =>
          ih room (Nat.lt_succ_self room) entered scopes (reached.within member)
        intro p region
        obtain rfl := List.mem_singleton.mp region
        exact .region (within.isMargin_of_mem_indent safe) inside
    | block name nodes p =>
      cases room with
      | zero => exact Run.forall_fail _
      | succ room =>
        rw [renderNode]
        cases found : f.blocks.lookup name with
        | none =>
          exact Run.forall_each fun child member =>
            ih room (Nat.lt_succ_self room) html scopes (within.child member)
        | some replacement =>
          obtain ⟨nodes, contentType⟩ := replacement
          obtain ⟨inside, type⟩ := html.blocks _ (Frame.mem_of_lookup found)
          have switched : c.HtmlFrame root { f with contentType } := ⟨type, html.blocks⟩
          exact Run.forall_each fun child member =>
            ih room (Nat.lt_succ_self room) switched scopes (inside child member)
    | parent name indent overrides p =>
      rw [renderNode]
      refine forall_withTemplate (.lookup name) fun t found => ?_
      have reached := within.reaches rfl found
      cases room with
      | zero => exact Run.forall_fail _
      | succ room =>
        have blocks : ∀ n ∈ overrides, c.Within root n := fun n member => within.child member
        have extended := (html.withOverrides blocks).entering (safe t reached).contentType
        have inside := Run.forall_each fun child member =>
          ih room (Nat.lt_succ_self room) extended scopes (reached.within member)
        intro p region
        obtain rfl := List.mem_singleton.mp region
        exact .region (within.isMargin_of_mem_indent safe) inside

end Collaborators

mutual

private theorem Piece.allowed_of_mem_texts {allowed : String → Prop} (piece : Piece)
    (escaped : piece.Escaped allowed) : ∀ s ∈ piece.texts, allowed s := by
  cases escaped with
  | text member =>
    intro s same
    obtain rfl := List.mem_singleton.mp same
    exact member
  | value s => simp [texts]
  | region margin inside => exact Piece.allowed_of_mem_allTexts _ inside
  | lookup name => simp [texts]
termination_by structural piece

private theorem Piece.allowed_of_mem_allTexts {allowed : String → Prop} (pieces : List Piece)
    (escaped : ∀ p ∈ pieces, p.Escaped allowed) : ∀ s ∈ allTexts pieces, allowed s := by
  cases pieces with
  | nil => simp [allTexts]
  | cons piece rest =>
    intro s member
    rw [allTexts, List.mem_append] at member
    rcases member with first | later
    · exact Piece.allowed_of_mem_texts piece (escaped piece List.mem_cons_self) s first
    · exact Piece.allowed_of_mem_allTexts rest
        (fun p member => escaped p (List.mem_cons_of_mem piece member)) s later
termination_by structural pieces

end

namespace Template

/-- A rendering writes texts of templates that can be reached, and while these escape all
their variables, its markup is that of those texts, and each of its ampersands begins an
entity if there are none in the texts. -/
theorem render_markup {root : Template} (data : Data) {c : Collaborators}
    (standard : c.escaper = Escape.standard) (safe : ∀ t, c.Reaches root t → t.EscapesAll)
    {out : String} (rendered : root.render data c = .ok out) :
    (∀ s ∈ Piece.allTexts (root.run data c).pieces, c.Within root (.text s)) ∧
      out.toList.filter isMarkup =
        ((Piece.allTexts (root.run data c).pieces).flatMap String.toList).filter isMarkup ∧
      ((∀ s, c.Within root (.text s) → '&' ∉ s.toList) →
        ∀ before behind, out.toList = before ++ '&' :: behind →
          ∃ e ∈ entities, e.toList <+: '&' :: behind) := by
  have initial : c.HtmlFrame root ⟨root.contentType, 0, []⟩ := ⟨(safe root .root).contentType, by simp⟩
  have escaped : ∀ p ∈ (root.run data c).pieces, p.Escaped fun s => c.Within root (.text s) :=
    Run.forall_each fun n member => Collaborators.escaped_renderNode standard safe maxNesting initial
      (.root data) (Collaborators.Reaches.root.within member)
  have texts := Piece.allowed_of_mem_allTexts _ escaped
  have written : ({} : Output).Extends (({} : Output).writeAll (root.run data c).pieces)
      (Piece.allTexts (root.run data c).pieces) := Output.extends_writeAll _ escaped (by simp)
  have buffer : (({} : Output).writeAll (root.run data c).pieces).buffer = out := by
    unfold render at rendered
    simp only at rendered
    split at rendered
    · cases rendered
    · exact Except.ok.inj rendered
  rw [← buffer]
  refine ⟨texts, written.markup, ?_⟩
  intro none before behind split
  have only := written.entities (fun s member => none s (texts s member))
    (entitiesOnly_of_not_mem (by simp))
  exact only before '&' behind split rfl

/-- Quotes in an attribute, and an array of markup in an indented partial. -/
theorem render_markup_partial :
    let item : Template := ⟨[.text "<i>", .interpolation ⟨[.identifier "x"], []⟩ true ⟨1, 4, 3⟩,
      .text "</i>"], .html⟩
    let root : Template := ⟨[.text "<a b=\"", .interpolation ⟨[.identifier "x"], []⟩ true ⟨1, 7, 6⟩,
      .text "\">\n", .inclusion "item" " " ⟨2, 2, 15⟩], .html⟩
    let c : Collaborators := { templates := fun name => if name = "item" then some item else none }
    let data : Data := .json (.object [("x", .array [.string "\"<", .string "&"])])
    let out := "<a b=\"&quot;&lt;&amp;\">\n <i>&quot;&lt;&amp;</i>"
    c.escaper = Escape.standard ∧ (∀ t, c.Reaches root t → t.EscapesAll) ∧
      root.render data c = .ok out ∧
      out.toList.filter isMarkup =
        ((Piece.allTexts (root.run data c).pieces).flatMap String.toList).filter isMarkup := by
  intro item root c data out
  have safe : ∀ t, c.Reaches root t → t.EscapesAll := by
    intro t reached
    have known : t = root ∨ t = item := by
      apply reached.mem_of_closed (.inl rfl)
      intro _ _ _ _ name u _ found
      have stored : (if name = "item" then some item else none) = some u := found
      split at stored
      · exact .inr (Option.some.inj stored).symm
      · cases stored
    rcases known with rfl | rfl
    · exact ⟨⟨{}, "<a b=\"\x7b\x7bx\x7d\x7d\">\n \x7b\x7b>item\x7d\x7d\n", by cbv⟩, rfl,
        by simp [root, Node.subtrees, Node.subtree]⟩
    · exact ⟨⟨{}, "<i>\x7b\x7bx\x7d\x7d</i>", by cbv⟩, rfl,
        by simp [item, Node.subtrees, Node.subtree]⟩
  have rendered : root.render data c = .ok out := by decide +kernel
  exact ⟨rfl, safe, rendered, (render_markup data rfl safe rendered).2.1⟩

end Template

end Mustache
