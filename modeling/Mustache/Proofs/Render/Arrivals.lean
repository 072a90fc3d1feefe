import Mustache.Proofs.Render.Visits
import Mustache.Proofs.Render.Writing

/-!
The output at each visit. A rendering arrives at a visit with all that was written before it,
enters the region of an included template, and goes on behind a visit with what that wrote. Main
statements: the output at a visit has the indentation of all nodes around it, what is written
there is never taken back, and what each text, each region's begin and each region's end keep is
kept by a whole rendering.
-/

namespace Mustache

namespace Output

@[simp] theorem enter_empty (out : Output) : out.enter "" = out := by
  simp [enter, show "".isEmpty = true from rfl]

@[simp] theorem leave_writeAll (out : Output) (pieces : List Piece) :
    (out.writeAll pieces).leave out.indent = out.writeAll pieces := by
  rw [leave, ← indent_writeAll out pieces]

/-- Writing what a node makes of its body is writing the body in a region of its own. -/
theorem writeAll_around (out : Output) (n : Node) (body : Run RenderError) :
    out.writeAll (n.around body).pieces =
      ((out.enter n.indent).writeAll body.pieces).leave out.indent := by
  cases n with
  | inclusion => rfl
  | parent => rfl
  | _ => simp [Node.around, Node.indent]

theorem prefix_writeText (out : Output) (s : String) :
    out.buffer.toList <+: (out.writeText s).buffer.toList := by
  simp [writeText]

private theorem prefix_writeValue (out : Output) (s : String) :
    out.buffer.toList <+: (out.writeValue s).buffer.toList := by
  unfold writeValue
  split
  · exact List.prefix_rfl
  · simp [List.append_assoc]

mutual

theorem prefix_write (out : Output) (piece : Piece) :
    out.buffer.toList <+: (out.write piece).buffer.toList := by
  cases piece with
  | text s => exact out.prefix_writeText s
  | value s => exact out.prefix_writeValue s
  | region indent pieces => exact prefix_writeAll (out.enter indent) pieces
  | lookup name => exact List.prefix_rfl
termination_by structural piece

private theorem prefix_writeAll (out : Output) (pieces : List Piece) :
    out.buffer.toList <+: (out.writeAll pieces).buffer.toList := by
  cases pieces with
  | nil => exact List.prefix_rfl
  | cons piece rest => exact (prefix_write out piece).trans (prefix_writeAll (out.write piece) rest)
termination_by structural pieces

end

end Output

/-- A property of outputs that a text, the begin of a region and its end keep. -/
structure Output.KeptByText (P : Output → Prop) : Prop where
  text : ∀ out s, P out → P (out.writeText s)
  enter : ∀ out indent, P out → P (out.enter indent)
  leave : ∀ out indent, P out → P (out.leave indent)

/-- The indentation of a visit: that of all nodes around it, of which the outermost comes first. -/
def Visit.indentation (v : Visit) : String :=
  v.enclosing.foldr (fun n outer => outer ++ n.indent) ""

namespace Collaborators

/-- The output when visits were rendered one after the other. -/
def outputAfter (c : Collaborators) (out : Output) (visits : List Visit) : Output :=
  out.writeAll (Run.each c.visit visits).pieces

/-- A rendering arrives at a visit with an output: at the first one with what was written
before it, and at one inside another with what was written there since that was entered. -/
inductive Arrives (c : Collaborators) (t : Template) (data : Data) : Visit → Output → Prop where
  | outermost {before behind : List Visit} {v : Visit}
      (split : t.visits data = before ++ v :: behind) :
      Arrives c t data v (c.outputAfter {} before)
  | inside {before behind : List Visit} {v w : Visit} {out : Output}
      (outer : Arrives c t data v out) (split : c.descents v = before ++ w :: behind) :
      Arrives c t data w (c.outputAfter (out.enter v.node.indent) before)

variable {c : Collaborators} {t : Template} {data : Data} {v w : Visit} {out : Output}
  {visits before behind : List Visit}

theorem outputAfter_append (fine : ∀ v ∈ before, (c.visit v).error = none) (out : Output) :
    c.outputAfter out (before ++ behind) = c.outputAfter (c.outputAfter out before) behind := by
  have whole := Run.error_each_eq_none_iff.mpr fine
  simp only [outputAfter, Run.each_append, Run.pieces_andThen whole, Output.writeAll_append]

theorem outputAfter_cons (fine : (c.visit v).error = none) (behind : List Visit) (out : Output) :
    c.outputAfter out (v :: behind) = c.outputAfter (c.outputAfter out [v]) behind :=
  @outputAfter_append c [v] behind (by simpa using fine) out

@[simp] theorem indent_outputAfter (c : Collaborators) (out : Output) (visits : List Visit) :
    (c.outputAfter out visits).indent = out.indent :=
  Output.indent_writeAll out _

theorem prefix_outputAfter (c : Collaborators) (out : Output) (visits : List Visit) :
    out.buffer.toList <+: (c.outputAfter out visits).buffer.toList :=
  Output.prefix_writeAll out _

theorem Arrives.reached (arrives : c.Arrives t data v out) : c.Reached t data v := by
  induction arrives with
  | outermost split => exact .outermost (by simp [split])
  | inside outer split ih => exact .inside ih (by simp [split])

theorem Arrives.indent_eq (arrives : c.Arrives t data v out) : out.indent = v.indentation := by
  induction arrives with
  | @outermost before behind v split =>
    obtain ⟨n, -, rfl⟩ := List.mem_map.mp (split ▸ List.mem_append_right before List.mem_cons_self)
    simp [Visit.indentation]
  | @inside before behind v w out outer split ih =>
    have member : w ∈ c.descents v := by simp [split]
    obtain ⟨-, f, s, n, rfl⟩ := (descent_of_mem member).2.eq_inside
    simp only [indent_outputAfter, Output.enter, ih, Visit.inside, Visit.indentation, List.foldr_cons]

/-- A visit goes through if what it does itself does, and all visits inside it. -/
theorem fine_of_visit (bounded : v.nesting ≤ maxNesting) (fine : (c.visit v).error = none) :
    (c.own v).error = none ∧ ∀ w ∈ c.descents v, (c.visit w).error = none := by
  rw [visit_eq bounded, Run.error_andThen_eq_none_iff, Node.error_around] at fine
  exact ⟨fine.1, Run.error_each_eq_none_iff.mp fine.2⟩

/-- A visit writes what it writes itself, and then its body in the region of its node. -/
theorem outputAfter_visit (bounded : v.nesting ≤ maxNesting) (fine : (c.visit v).error = none)
    (out : Output) :
    c.outputAfter out [v] =
      (c.outputAfter ((out.writeAll (c.own v).pieces).enter v.node.indent) (c.descents v)).leave
        out.indent := by
  have own := (fine_of_visit bounded fine).1
  have indent := out.indent_writeAll (c.own v).pieces
  simp only [outputAfter, Run.each, Run.andThen_empty, visit_eq bounded, Run.pieces_andThen own,
    Output.writeAll_append, Output.writeAll_around, indent]

theorem writeAll_own (level : v.node.isLevel = true) (out : Output) :
    out.writeAll (c.own v).pieces = out := by
  have entering (p : Position) : (v.enter p).pieces = [] := by
    unfold Visit.enter
    split <;> rfl
  have looking (name : String) (p : Position) :
      out.writeAll (c.withTemplate v.frame name p fun _ => v.enter p).pieces = out := by
    unfold withTemplate
    split
    · rfl
    · rw [Run.pieces_andThen rfl, Output.writeAll_append]
      cases c.templates name with
      | none => rfl
      | some u => simp only [entering]; rfl
  cases node : v.node with
  | text s => simp [node, Node.isLevel] at level
  | interpolation e escaped p => simp [node, Node.isLevel] at level
  | sect e inverted nodes p =>
    simp only [own, node]
    cases c.evaluate v.scopes p e with
    | error cause => rfl
    | ok value => simp only [entering]; rfl
  | inclusion name indent p => simp only [own, node, looking]
  | block name nodes p => simp only [own, node, entering]; rfl
  | parent name indent overrides p => simp only [own, node, looking]

theorem outputAfter_text {s : String} (node : v.node = .text s) (out : Output) :
    c.outputAfter out [v] = out.writeText s := by
  simp only [outputAfter, Run.each, Run.andThen_empty, visit, node, renderNode]
  rfl

/-- Where a rendering goes through, so does every visit that it comes to. -/
theorem Reached.fine {text : String} (rendered : t.render data c = .ok text)
    (reached : c.Reached t data v) : (c.visit v).error = none := by
  induction reached with
  | outermost member =>
    have whole : (t.run data c).error = none := by
      rw [Template.render_eq_text, Run.text] at rendered
      split at rendered
      · cases rendered
      · assumption
    rw [run_eq_visits] at whole
    exact Run.error_each_eq_none_iff.mp whole _ member
  | inside outer member ih => exact (fine_of_visit outer.nesting_le ih).2 _ member

theorem buffer_of_render {text : String} (rendered : t.render data c = .ok text) :
    (c.outputAfter {} (t.visits data)).buffer = text := by
  rw [Template.render_eq_text, Run.text, run_eq_visits] at rendered
  split at rendered
  · cases rendered
  · exact Except.ok.inj rendered

section Kept

variable {P : Output → Prop}

private theorem keeps_outputAfter (each : ∀ v ∈ visits, ∀ out, P out → P (c.outputAfter out [v]))
    (fine : ∀ v ∈ visits, (c.visit v).error = none) (holds : P out) :
    P (c.outputAfter out visits) := by
  induction visits generalizing out with
  | nil => exact holds
  | cons v rest ih =>
    rw [outputAfter_cons (fine v List.mem_cons_self) rest]
    refine ih (fun w member => each w (List.mem_cons_of_mem v member))
      (fun w member => fine w (List.mem_cons_of_mem v member)) ?_
    exact each v List.mem_cons_self out holds

variable (kept : Output.KeptByText P)
  (valueless : ∀ v, c.Reached t data v → ∀ e escaped p, v.node ≠ .interpolation e escaped p)

include kept valueless

/-- Where no value is written, a visit keeps what texts and regions keep. -/
theorem Reached.keeps_visit (reached : c.Reached t data v) (fine : (c.visit v).error = none)
    (holds : P out) : P (c.outputAfter out [v]) := by
  induction v using (wellFounded_descents c).induction generalizing out with
  | h v ih =>
    have inner := (fine_of_visit reached.nesting_le fine).2
    have own : P (out.writeAll (c.own v).pieces) := by
      cases node : v.node with
      | text s =>
        simp only [own, node]
        exact kept.text out s holds
      | interpolation e escaped p => exact absurd node (valueless v reached e escaped p)
      | _ =>
        rw [writeAll_own (by rw [node]; rfl)]
        exact holds
    rw [outputAfter_visit reached.nesting_le fine]
    refine kept.leave _ _ (keeps_outputAfter ?_ inner (kept.enter _ _ own))
    exact fun w member out holds => ih w member (reached.inside member) (inner w member) holds

variable {text : String} (rendered : t.render data c = .ok text)

include rendered

theorem keeps_of_reached (reached : ∀ v ∈ visits, c.Reached t data v) (holds : P out) :
    P (c.outputAfter out visits) := by
  have fine : ∀ v ∈ visits, (c.visit v).error = none :=
    fun v member => (reached v member).fine rendered
  refine keeps_outputAfter (fun v member out holds => ?_) fine holds
  exact (reached v member).keeps_visit kept valueless (fine v member) holds

/-- All that comes before the rendering arrives somewhere keeps it as well. -/
theorem Arrives.keeps (arrives : c.Arrives t data v out) (start : P {}) : P out := by
  induction arrives with
  | outermost split =>
    refine keeps_of_reached kept valueless rendered (fun v member => .outermost ?_) start
    exact split ▸ List.mem_append_left _ member
  | inside outer split ih =>
    refine keeps_of_reached kept valueless rendered (fun v member => outer.reached.inside ?_)
      (kept.enter _ _ ih)
    exact split ▸ List.mem_append_left _ member

end Kept

/-- What is written at the end of a visit stands at the start of the text. -/
theorem Arrives.prefix_of_render {text : String} (rendered : t.render data c = .ok text)
    (arrives : c.Arrives t data v out) :
    (c.outputAfter out [v]).buffer.toList <+: text.toList := by
  have row {before behind : List Visit} {v : Visit} (fine : ∀ w ∈ before ++ v :: behind,
      (c.visit w).error = none) (start : Output) :
      (c.outputAfter (c.outputAfter start before) [v]).buffer.toList <+:
        (c.outputAfter start (before ++ v :: behind)).buffer.toList := by
    rw [outputAfter_append (fun w member => fine w (List.mem_append_left _ member)),
      outputAfter_cons (fine v (by simp)) behind]
    exact prefix_outputAfter c _ behind
  induction arrives with
  | outermost split =>
    rw [← buffer_of_render rendered, split]
    refine row (fun w member => ?_) {}
    exact Reached.fine rendered (.outermost (split ▸ member))
  | @inside before behind v w out outer split ih =>
    have level : v.node.isLevel = true :=
      (descent_of_mem (by simp [split] : w ∈ c.descents v)).2.eq_inside.1
    have bounded := outer.reached.nesting_le
    have fine := outer.reached.fine rendered
    rw [outputAfter_visit bounded fine, writeAll_own level, split] at ih
    refine (row (fun u member => ?_) _).trans ih
    exact (fine_of_visit bounded fine).2 u (split ▸ member)

end Collaborators

end Mustache
