import Mathlib
import Mustache.Proofs.Render.Arrivals
import Mustache.Proofs.Render.Comparison

/-!
Inclusions of templates without nodes. Main statement: such an inclusion may be removed, at any
depth and in any template, and what could be rendered still can. The text is the same if wherever
the inclusion is rendered a line begins, or the tag has no blanks, or there is no indentation
around it; otherwise only indentation may be missing, as the tag begins a line that it writes
nothing on.
-/

namespace Mustache

/-- Nothing differs but that a node is missing in some of its places. Of runs nothing is said. -/
def Comparison.erasing (n : Node) : Comparison where
  texts := Eq
  indents := Eq
  expressions := Eq
  places := Eq
  parts _ ns ms := ns = [n] ∧ ms = []
  values := Eq
  runs _ _ := True

open Comparison (erasing)

theorem Comparison.erasing_reflexive (n : Node) : (erasing n).Reflexive :=
  ⟨fun _ => rfl, fun _ => rfl, fun _ => rfl, fun _ => rfl⟩

theorem Comparison.erasing_first {n : Node} {contentType : ContentType} {ns ms : List Node}
    (behind : (erasing n).Nodes contentType false ns ms) :
    (erasing n).Nodes contentType false (n :: ns) ms :=
  @Comparison.Nodes.part (erasing n) contentType [n] [] ns ms ⟨rfl, rfl⟩ behind

/-- Collaborators whose stored templates are the same, but for a node that is missing in some of
its places. -/
structure Collaborators.Erased (n : Node) (c d : Collaborators) : Prop where
  templates : ∀ name, Option.Rel (erasing n).Templates (c.templates name) (d.templates name)
  filters : d.filters = c.filters
  escaper : d.escaper = c.escaper

/-- Nodes that differ in what is missing inside them. -/
inductive Node.Erased (n : Node) (contentType : ContentType) : Node → Node → Prop where
  | text (s : String) : Erased n contentType (.text s) (.text s)
  | interpolation (e : Expression) (escaped : Bool) (p : Position) :
      Erased n contentType (.interpolation e escaped p) (.interpolation e escaped p)
  | sect (e : Expression) (inverted : Bool) {ns ms : List Node} (p : Position)
      (inside : (erasing n).Nodes contentType false ns ms) :
      Erased n contentType (.sect e inverted ns p) (.sect e inverted ms p)
  | inclusion (name indent : String) (p : Position) :
      Erased n contentType (.inclusion name indent p) (.inclusion name indent p)
  | block (name : String) {ns ms : List Node} (p : Position)
      (inside : (erasing n).Nodes contentType false ns ms) :
      Erased n contentType (.block name ns p) (.block name ms p)
  | parent (name indent : String) {ns ms : List Node} (p : Position)
      (overrides : (erasing n).Nodes contentType true ns ms) :
      Erased n contentType (.parent name indent ns p) (.parent name indent ms p)

theorem Node.Erased.indent_eq {n m m' : Node} {contentType : ContentType}
    (erased : Node.Erased n contentType m m') : m'.indent = m.indent := by
  cases erased <;> rfl

namespace Visit

/-- Visits of such nodes, with the same scopes and levels around them. -/
structure Erased (n : Node) (v w : Visit) : Prop where
  node : Node.Erased n v.frame.contentType v.node w.node
  frames : (erasing n).Frames v.frame w.frame
  depth : w.frame.depth = v.frame.depth
  scopes : w.scopes = v.scopes
  nesting : w.nesting = v.nesting

/-- Rows of visits, in the second of which visits of the node are missing. -/
inductive ErasedRow (n : Node) : List Visit → List Visit → Prop where
  | nil : ErasedRow n [] []
  | keep {v w : Visit} {vs ws : List Visit} (erased : v.Erased n w) (behind : ErasedRow n vs ws) :
      ErasedRow n (v :: vs) (w :: ws)
  | drop {v : Visit} {vs ws : List Visit} (node : v.node = n) (behind : ErasedRow n vs ws) :
      ErasedRow n (v :: vs) ws

variable {n : Node}

theorem ErasedRow.append {vs ws us xs : List Visit} (before : ErasedRow n vs ws)
    (behind : ErasedRow n us xs) : ErasedRow n (vs ++ us) (ws ++ xs) := by
  induction before with
  | nil => exact behind
  | keep erased _ ih => exact .keep erased ih
  | drop node _ ih => exact .drop node ih

theorem erasedRow_map {f g : Frame} {inParent : Bool} {ns ms : List Node}
    (nodes : (erasing n).Nodes f.contentType inParent ns ms) (frames : (erasing n).Frames f g)
    (depth : g.depth = f.depth) (scopes : Scopes) (nesting : Nat) (around others : List Node) :
    ErasedRow n (ns.map fun m => ⟨m, f, scopes, nesting, around⟩)
      (ms.map fun m => ⟨m, g, scopes, nesting, others⟩) := by
  induction nodes with
  | nil => exact .nil
  | part exchanged _ ih =>
    obtain ⟨rfl, rfl⟩ := exchanged
    exact .drop rfl ih
  | text texts _ ih =>
    obtain rfl := texts
    exact .keep ⟨.text _, frames, depth, rfl, rfl⟩ ih
  | interpolation expressions escaped places _ ih =>
    obtain rfl := expressions
    obtain rfl := places
    exact .keep ⟨.interpolation _ escaped _, frames, depth, rfl, rfl⟩ ih
  | sect expressions inverted places inside _ _ ih =>
    obtain rfl := expressions
    obtain rfl := places
    exact .keep ⟨.sect _ inverted _ inside, frames, depth, rfl, rfl⟩ ih
  | inclusion name indents places _ ih =>
    obtain rfl := indents
    obtain rfl := places
    exact .keep ⟨.inclusion name _ _, frames, depth, rfl, rfl⟩ ih
  | block name places inside _ _ ih =>
    obtain rfl := places
    exact .keep ⟨.block name _ inside, frames, depth, rfl, rfl⟩ ih
  | parent name indents places overrides _ _ ih =>
    obtain rfl := indents
    obtain rfl := places
    exact .keep ⟨.parent name _ _ overrides, frames, depth, rfl, rfl⟩ ih

end Visit

namespace Collaborators

variable {n : Node} {c d : Collaborators} {v w : Visit}

theorem Erased.evaluate_eq (others : c.Erased n d) (scopes : Scopes) (p : Position)
    (e : Expression) : d.evaluate scopes p e = c.evaluate scopes p e :=
  evaluate_congr scopes p fun call _ => congrFun others.filters call.name

theorem Erased.own_eq (others : c.Erased n d) (erased : v.Erased n w) : d.own w = c.own v := by
  obtain ⟨m, f, _, _, around⟩ := v
  obtain ⟨m', g, scopes, nesting, around'⟩ := w
  obtain ⟨node, frames, depth, rfl, rfl⟩ := erased
  have looking (name : String) (p q : Position) :
      (d.withTemplate g name p fun _ => Visit.enter ⟨m', g, scopes, nesting, around'⟩ q) =
        c.withTemplate f name p fun _ => Visit.enter ⟨m, f, scopes, nesting, around⟩ q := by
    have stored := others.templates name
    simp only at depth
    unfold withTemplate
    rw [depth]
    generalize c.templates name = mine at stored ⊢
    generalize d.templates name = other at stored ⊢
    cases stored <;> rfl
  cases node with
  | text s => rfl
  | interpolation e escaped p =>
    have contentType := frames.contentType
    simp only at contentType
    simp only [own, others.evaluate_eq, valueText, others.escaper, contentType]
  | sect e inverted p inside =>
    simp only [own, others.evaluate_eq]
    rfl
  | inclusion name indent p => exact looking name p p
  | block name p inside => rfl
  | parent name indent p overrides => exact looking name p p

theorem Erased.descents (others : c.Erased n d) (erased : v.Erased n w) :
    Visit.ErasedRow n (c.descents v) (d.descents w) := by
  have own := others.own_eq erased
  unfold Collaborators.descents
  rw [own]
  cases (c.own v).error with
  | some e => exact .nil
  | none =>
    obtain ⟨m, f, _, _, around⟩ := v
    obtain ⟨m', g, scopes, nesting, around'⟩ := w
    obtain ⟨node, frames, depth, rfl, rfl⟩ := erased
    have deeper {t u : Template} (alike : (erasing n).Templates t u) {f g : Frame}
        (frames : (erasing n).Frames f g) (depth : g.depth = f.depth) (m m' : Node) :
        Visit.ErasedRow n
          (t.nodes.map (Visit.inside ⟨m, f, scopes, nesting, around⟩ (f.entering t) scopes))
          (u.nodes.map (Visit.inside ⟨m', g, scopes, nesting, around'⟩ (g.entering u) scopes)) :=
      Visit.erasedRow_map alike.nodes (frames.entering alike) (congrArg (· + 1) depth) scopes
        (nesting + 1) (m :: around) (m' :: around')
    cases node with
    | text s => exact .nil
    | interpolation e escaped p => exact .nil
    | sect e inverted p inside =>
      simp only [body, others.evaluate_eq]
      cases c.evaluate scopes p e with
      | error cause => exact .nil
      | ok value =>
        simp only
        induction passes inverted value with
        | nil => exact .nil
        | cons pushed rest ih =>
          exact (Visit.erasedRow_map inside frames depth (scopes.pushAny pushed) (nesting + 1)
            _ _).append ih
    | inclusion name indent p =>
      have stored := others.templates name
      simp only [body]
      generalize c.templates name = mine at stored ⊢
      generalize d.templates name = other at stored ⊢
      cases stored with
      | none => exact .nil
      | some alike => exact deeper alike frames depth _ _
    | block name p inside =>
      have replaced := Comparison.lookup_blocks frames.blocks name
      simp only [body]
      generalize f.blocks.lookup name = mine at replaced ⊢
      generalize g.blocks.lookup name = other at replaced ⊢
      cases replaced with
      | none => exact Visit.erasedRow_map inside frames depth scopes (nesting + 1) _ _
      | @some a b alike =>
        obtain ⟨types, nodes⟩ := alike
        have switched : (erasing n).Frames { f with contentType := a.2 }
            { g with contentType := b.2 } := ⟨types, frames.blocks⟩
        exact Visit.erasedRow_map nodes switched depth scopes (nesting + 1) _ _
    | parent name indent p overrides =>
      have stored := others.templates name
      simp only [body]
      generalize c.templates name = mine at stored ⊢
      generalize d.templates name = other at stored ⊢
      cases stored with
      | none => exact .nil
      | some alike => exact deeper alike (frames.withOverrides overrides) depth _ _

end Collaborators

namespace Output

/-- A relation of outputs that is kept where both are written alike. -/
structure KeptAlike (R : Output → Output → Prop) : Prop where
  text : ∀ {out other} s, R out other → R (out.writeText s) (other.writeText s)
  value : ∀ {out other} s, R out other → R (out.writeValue s) (other.writeValue s)
  enter : ∀ {out other} indent, R out other → R (out.enter indent) (other.enter indent)
  leave : ∀ {out other inner within} indent, R out other → R inner within →
    inner.indent = out.indent ++ indent → R (inner.leave out.indent) (within.leave other.indent)

private theorem keptAlike_alike (before : String) : KeptAlike (Alike before) where
  text := fun s alike => alike.writeText s
  value := fun s alike => alike.writeValue s
  enter := fun indent alike => alike.enter indent
  leave := by
    intro out other inner within indent outside inside deeper
    rw [outside.indent]
    refine inside.leave ?_
    by_cases none : out.indent = ""
    · exact .inl none
    · exact .inr (by simp [deeper, none])

/-- An output that may have more of the indentation than another one. -/
structure Indented (out less : Output) : Prop where
  buffer : less.buffer.toList.Sublist out.buffer.toList
  indent : less.indent = out.indent
  lineStart : less.lineStart = true → out.lineStart = true

private theorem indentLines_sublist (indent : List Char) {before after : Bool}
    (implies : before = true → after = true) (s : List Char) :
    (indentLines indent before s).Sublist (indentLines indent after s) := by
  cases s with
  | nil => exact List.Sublist.slnil
  | cons c s =>
    refine List.Sublist.append ?_ (List.Sublist.refl _)
    cases before with
    | true => rw [implies rfl]
    | false => exact List.nil_sublist _

private theorem keptAlike_indented : KeptAlike Indented where
  text := by
    rintro out less s ⟨buffer, indent, lineStart⟩
    refine ⟨?_, indent, lineStartAfter_mono lineStart s.toList⟩
    simp only [writeText, String.toList_append, String.toList_ofList, indent]
    exact buffer.append (indentLines_sublist _ lineStart s.toList)
  value := by
    rintro out less s ⟨buffer, indent, lineStart⟩
    unfold writeValue
    split
    · exact ⟨buffer, indent, lineStart⟩
    · refine ⟨?_, indent, fun begun => by cases begun⟩
      simp only [String.toList_append, indent]
      refine (buffer.append ?_).append (List.Sublist.refl _)
      cases begun : less.lineStart with
      | true => rw [lineStart begun]
      | false => exact List.nil_sublist _
  enter := by
    rintro out less i ⟨buffer, indent, lineStart⟩
    refine ⟨buffer, congrArg (· ++ i) indent, ?_⟩
    simp only [enter, Bool.or_eq_true]
    exact Or.imp_left lineStart
  leave := by
    rintro out less inner within i outside inside -
    exact ⟨inside.buffer, outside.indent, inside.lineStart⟩

end Output

namespace Collaborators

variable {n : Node} {c d : Collaborators} {t u : Template} {data : Data} {v w : Visit}
  {out other : Output}

/-- A visit goes through if what it does itself and all visits inside it do. -/
theorem fine_of_descents (bounded : v.nesting ≤ maxNesting) (own : (c.own v).error = none)
    (inner : ∀ w ∈ c.descents v, (c.visit w).error = none) : (c.visit v).error = none := by
  rw [visit_eq bounded, Run.error_andThen_eq_none_iff, Node.error_around]
  exact ⟨own, Run.error_each_eq_none_iff.mpr inner⟩

/-- An inclusion of a template without nodes writes nothing, but begins a line if it has blanks. -/
theorem outputAfter_empty {name indent : String} {p : Position} {e : Template}
    (stored : c.templates name = some e) (none : e.nodes = [])
    (node : v.node = .inclusion name indent p) (bounded : v.nesting ≤ maxNesting)
    (fine : (c.visit v).error = Option.none) (out : Output) :
    c.outputAfter out [v] = (out.enter indent).leave out.indent := by
  obtain ⟨u, found, descents⟩ := exists_descents_of_inclusion node (fine_of_visit bounded fine).1
  obtain rfl := Option.some.inj (found.symm.trans stored)
  rw [none, List.map_nil] at descents
  rw [outputAfter_visit bounded fine, descents, writeAll_own (by rw [node]; rfl), node]
  rfl

/-- Behind the first visit of a row, a rendering arrives at the others with what that wrote. -/
theorem arrives_behind {row : List Visit} (fine : (c.visit v).error = none)
    (arrives : ∀ before w behind, v :: row = before ++ w :: behind →
      c.Arrives t data w (c.outputAfter out before)) :
    ∀ before w behind, row = before ++ w :: behind →
      c.Arrives t data w (c.outputAfter (c.outputAfter out [v]) before) := by
  intro before w behind split
  rw [← outputAfter_cons fine]
  exact arrives (v :: before) w behind (by rw [split]; rfl)

/-- A relation of outputs that is kept where both are written alike, and where a rendering of the
template comes to the node and the other one does not. -/
structure KeptWithout (c : Collaborators) (t : Template) (data : Data) (n : Node)
    (R : Output → Output → Prop) : Prop extends Output.KeptAlike R where
  without : ∀ {v out other}, c.Arrives t data v out → (c.visit v).error = none → v.node = n →
    R out other → R (c.outputAfter out [v]) other

namespace KeptWithout

variable {R : Output → Output → Prop} (kept : c.KeptWithout t data n R)

include kept

theorem own (v : Visit) (related : R out other) :
    R (out.writeAll (c.own v).pieces) (other.writeAll (c.own v).pieces) := by
  cases node : v.node with
  | text s =>
    simp only [Collaborators.own, node]
    exact kept.text s related
  | interpolation e escaped p =>
    simp only [Collaborators.own, node]
    cases c.evaluate v.scopes p e with
    | error cause => exact related
    | ok value => exact kept.value _ related
  | _ => rwa [writeAll_own (by rw [node]; rfl), writeAll_own (by rw [node]; rfl)]

/-- Of a row, what is there is written alike, and what is missing is made up for. -/
theorem row {vs ws : List Visit} (rows : Visit.ErasedRow n vs ws)
    (each : ∀ v ∈ vs, ∀ {w out other}, v.Erased n w → c.Arrives t data v out → R out other →
      (d.visit w).error = none ∧ R (c.outputAfter out [v]) (d.outputAfter other [w]))
    (fine : ∀ v ∈ vs, (c.visit v).error = none)
    (arrives : ∀ before v behind, vs = before ++ v :: behind →
      c.Arrives t data v (c.outputAfter out before)) (related : R out other) :
    (∀ w ∈ ws, (d.visit w).error = none) ∧ R (c.outputAfter out vs) (d.outputAfter other ws) := by
  induction rows generalizing out other with
  | nil => exact ⟨nofun, related⟩
  | @keep v w vs ws erased rest ih =>
    obtain ⟨here, later⟩ := List.forall_mem_cons.mp fine
    obtain ⟨goes, after⟩ := each v List.mem_cons_self erased (arrives [] v vs rfl) related
    obtain ⟨others, last⟩ := ih (fun v member => each v (List.mem_cons_of_mem _ member)) later
      (arrives_behind here arrives) after
    rw [outputAfter_cons here vs, outputAfter_cons goes ws]
    exact ⟨List.forall_mem_cons.mpr ⟨goes, others⟩, last⟩
  | @drop v vs ws node rest ih =>
    obtain ⟨here, later⟩ := List.forall_mem_cons.mp fine
    rw [outputAfter_cons here vs]
    exact ih (fun v member => each v (List.mem_cons_of_mem _ member)) later (arrives_behind here arrives)
      (kept.without (arrives [] v vs rfl) here node related)

/-- Where a visit goes through, so does what is left of it, and the outputs stay related. -/
theorem visit (others : c.Erased n d) (erased : v.Erased n w) (arrives : c.Arrives t data v out)
    (fine : (c.visit v).error = none) (related : R out other) :
    (d.visit w).error = none ∧ R (c.outputAfter out [v]) (d.outputAfter other [w]) := by
  -- The induction is on the visits inside, which for both are the same but for what is missing.
  induction v using (wellFounded_descents c).induction generalizing w out other with
  | h v ih =>
    have bounded := arrives.reached.nesting_le
    have own := others.own_eq erased
    obtain ⟨itself, inner⟩ := fine_of_visit bounded fine
    have inside : ∀ before x behind, c.descents v = before ++ x :: behind → c.Arrives t data x
        (c.outputAfter ((out.writeAll (c.own v).pieces).enter v.node.indent) before) := by
      intro before x behind split
      have member : x ∈ c.descents v := by simp [split]
      rw [writeAll_own (descent_of_mem member).2.eq_inside.1]
      exact arrives.inside split
    obtain ⟨goes, after⟩ := kept.row (others.descents erased)
      (fun x member _ _ _ erased arrives related =>
        ih x member erased arrives (inner x member) related)
      inner inside (kept.enter v.node.indent (kept.own v related))
    have through : (d.visit w).error = none :=
      fine_of_descents (erased.nesting ▸ bounded) (own ▸ itself) goes
    refine ⟨through, ?_⟩
    rw [outputAfter_visit bounded fine, outputAfter_visit (erased.nesting ▸ bounded) through, own,
      erased.node.indent_eq]
    exact kept.leave v.node.indent related after (by simp [Output.enter])

/-- Where a rendering goes through, so does what is left of it, and the outputs are related. -/
theorem render (others : c.Erased n d) (root : (erasing n).Templates t u) {text : String}
    (rendered : t.render data c = .ok text) (start : R {} {}) :
    ∃ shorter, u.render data d = .ok shorter.buffer ∧
      R (c.outputAfter {} (t.visits data)) shorter := by
  have frames : (erasing n).Frames ⟨t.contentType, 0, []⟩ ⟨u.contentType, 0, []⟩ :=
    ⟨root.contentType, .nil⟩
  have fine : ∀ v ∈ t.visits data, (c.visit v).error = none :=
    fun v member => Reached.fine rendered (.outermost member)
  obtain ⟨goes, related⟩ := kept.row
    (Visit.erasedRow_map root.nodes frames rfl (.root data) 0 [] [])
    (fun v member _ _ _ erased arrives related =>
      kept.visit others erased arrives (fine v member) related)
    fine (fun before v behind split => .outermost split) start
  refine ⟨_, ?_, related⟩
  have through : (Run.each d.visit (u.visits data)).error = none :=
    Run.error_each_eq_none_iff.mpr goes
  rw [Template.render_eq_text, Run.text, run_eq_visits, through]
  rfl

end KeptWithout

section

variable {name indent : String} {p : Position} {e : Template}

/-- The other rendering has no more indentation than the one with the tag. -/
theorem keptWithout_indented (stored : c.templates name = some e) (empty : e.nodes = []) :
    c.KeptWithout t data (.inclusion name indent p) Output.Indented where
  toKeptAlike := Output.keptAlike_indented
  without := by
    rintro v out less arrives fine node ⟨buffer, indents, lineStart⟩
    rw [outputAfter_empty stored empty node arrives.reached.nesting_le fine]
    refine ⟨buffer, indents, fun begun => ?_⟩
    simp [Output.enter, Output.leave, lineStart begun]

/-- That the tag begins a line does not count where one has begun or nothing would be indented. -/
theorem keptWithout_alike (stored : c.templates name = some e) (empty : e.nodes = [])
    (unseen : ∀ v mid, c.Arrives t data v mid → v.node = .inclusion name indent p →
      indent = "" ∨ v.indentation = "" ∨ mid.lineStart = true) :
    c.KeptWithout t data (.inclusion name indent p) (Output.Alike "") where
  toKeptAlike := Output.keptAlike_alike ""
  without := by
    rintro v out other arrives fine node ⟨buffer, indents, lineStart⟩
    rw [outputAfter_empty stored empty node arrives.reached.nesting_le fine]
    refine ⟨buffer, indents, ?_⟩
    rcases unseen v out arrives node with rfl | bare | begun
    · simpa [Output.leave] using lineStart
    · exact .inl (arrives.indent_eq.trans bare)
    · exact lineStart.imp_right fun same => by simp [Output.enter, Output.leave, same, begun]

end

end Collaborators

namespace Template

/-- A partial tag that names a template without nodes may be removed. The text is the same if
nowhere the tag begins a line that is indented otherwise; some indentation may be missing else. -/
theorem render_erased {t u : Template} {data : Data} {c d : Collaborators} {text : String}
    {name indent : String} {p : Position} {e : Template} (stored : c.templates name = some e)
    (empty : e.nodes = []) (root : (erasing (.inclusion name indent p)).Templates t u)
    (others : c.Erased (.inclusion name indent p) d) (rendered : t.render data c = .ok text) :
    ∃ shorter, u.render data d = .ok shorter ∧ shorter.toList.Sublist text.toList ∧
      ((∀ v mid, c.Arrives t data v mid → v.node = .inclusion name indent p →
        indent = "" ∨ v.indentation = "" ∨ mid.lineStart = true) → shorter = text) := by
  have buffer := Collaborators.buffer_of_render rendered
  obtain ⟨out, goes, indented⟩ := (Collaborators.keptWithout_indented stored empty).render others
    root rendered ⟨List.Sublist.refl _, rfl, id⟩
  refine ⟨out.buffer, goes, buffer ▸ indented.buffer, fun unseen => ?_⟩
  obtain ⟨same, again, alike⟩ := (Collaborators.keptWithout_alike stored empty unseen).render others
    root rendered ⟨rfl, rfl, .inr rfl⟩
  have one : out.buffer = same.buffer := Except.ok.inj (goes.symm.trans again)
  rw [one, alike.buffer, buffer, String.empty_append]

/-- A tag between two lines. -/
theorem render_erased_between :
    let n : Node := .inclusion "e" "  " ⟨2, 3, 4⟩
    let root : Template := ⟨[.text "x\n", n, .text "y"], .html⟩
    let less : Template := ⟨[.text "x\n", .text "y"], .html⟩
    let c : Collaborators :=
      { templates := fun name => if name = "e" then some ⟨[], .html⟩ else none }
    compile {} "x\n  \x7b\x7b>e\x7d\x7d\ny" = .ok root ∧ compile {} "" = .ok ⟨[], .html⟩ ∧
      (erasing n).Templates root less ∧ root.render (.json .null) c = .ok "x\ny" ∧
      less.render (.json .null) c = .ok "x\ny" := by
  intro n root less c
  have alike : (erasing n).Templates root less :=
    ⟨rfl, .text rfl (Comparison.erasing_first (.text rfl .nil))⟩
  have others : c.Erased n c := by
    refine ⟨fun name => ?_, rfl, rfl⟩
    cases c.templates name with
    | none => exact .none
    | some t => exact .some ((Comparison.erasing_reflexive n).template t)
  have rendered : root.render (.json .null) c = .ok "x\ny" := by decide +kernel
  obtain ⟨shorter, goes, -, same⟩ := render_erased rfl rfl alike others rendered
  have bare : ∀ v, c.Reached root (.json .null) v → c.descents v = [] := by
    intro v reached
    induction reached with
    | outermost member =>
      simp only [visits, root, List.map_cons, List.map_nil, List.mem_cons, List.not_mem_nil,
        or_false] at member
      rcases member with rfl | rfl | rfl <;> rfl
    | inside outer member ih => simp [ih] at member
  refine ⟨by cbv, by cbv, alike, rendered, ?_⟩
  rw [goes, same fun v mid arrives node => ?_]
  cases arrives with
  | outermost split =>
    have member : v ∈ root.visits (.json .null) := split ▸ List.mem_append_right _ List.mem_cons_self
    obtain ⟨m, -, rfl⟩ := List.mem_map.mp member
    exact .inr (.inl rfl)
  | inside outer split => simp [bare _ outer.reached] at split

/-- A tag that writes nothing begins a line: a text in the middle of a line of the output and of
its own template gets the indentation of a line. It does not without the tag. -/
theorem render_not_erased :
    let n : Node := .inclusion "e" " " ⟨2, 2, 8⟩
    let root : Template := ⟨[.inclusion "q" " " ⟨1, 2, 1⟩], .html⟩
    let line : Template := ⟨[.inclusion "p" "" ⟨1, 1, 0⟩, .text "z"], .html⟩
    let page : Template := ⟨[.inclusion "a" "" ⟨1, 1, 0⟩, n], .html⟩
    let less : Template := ⟨[.inclusion "a" "" ⟨1, 1, 0⟩], .html⟩
    let stored (t : Template) : Collaborators :=
      { templates := fun name =>
          if name = "q" then some line
          else if name = "p" then some t
          else if name = "a" then some ⟨[.text "y"], .html⟩
          else if name = "e" then some ⟨[], .html⟩
          else none }
    compile {} " \x7b\x7b>q\x7d\x7d" = .ok root ∧ compile {} "\x7b\x7b>p\x7d\x7dz" = .ok line ∧
      compile {} "\x7b\x7b>a\x7d\x7d\n \x7b\x7b>e\x7d\x7d\n" = .ok page ∧
      compile {} "\x7b\x7b>a\x7d\x7d\n" = .ok less ∧
      compile {} "y" = .ok ⟨[.text "y"], .html⟩ ∧ compile {} "" = .ok ⟨[], .html⟩ ∧
      (stored page).Erased n (stored less) ∧
      root.render (.json .null) (stored page) = .ok " y z" ∧
      root.render (.json .null) (stored less) = .ok " yz" := by
  intro n root line page less stored
  have refl := Comparison.erasing_reflexive n
  have nodes : (erasing n).Nodes .html false page.nodes less.nodes :=
    .inclusion "a" rfl rfl (Comparison.erasing_first .nil)
  have others : (stored page).Erased n (stored less) := by
    refine ⟨fun name => ?_, rfl, rfl⟩
    simp only [stored]
    split
    · exact .some (refl.template _)
    · split
      · exact .some ⟨rfl, nodes⟩
      · split
        · exact .some (refl.template _)
        · split
          · exact .some (refl.template _)
          · exact .none
  exact ⟨by cbv, by cbv, by cbv, by cbv, by cbv, by cbv, others, by decide +kernel,
    by decide +kernel⟩

end Template

end Mustache
