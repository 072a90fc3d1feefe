import Mustache.Proofs.Render.Evaluation
import Mustache.Proofs.Render.Reach
import Mustache.Proofs.Render.Runs

/-!
The visits of a rendering. A visit is a node with all that it is rendered with, the number of
levels that were entered, and the nodes whose bodies are being rendered around it. What a node
does itself is told apart from the visits in its body, and rendering does the one and then goes
on with the other. Main statements: each visit inside another one costs a level, so there is no
end of visits inside visits; rendering is the recursion over them; and an error of a rendering is
a failure of one visit that it comes to.
-/

namespace Mustache

namespace Node

/-- Whether a node has a body, which is rendered one level deeper. -/
def isLevel : Node → Bool
  | text _ => false
  | interpolation _ _ _ => false
  | _ => true

theorem isLevel_of_included? {n : Node} {name : String} (names : n.included? = some name) :
    n.isLevel = true := by
  cases n with
  | inclusion => rfl
  | parent => rfl
  | _ => cases names

/-- The expression that a node evaluates, and the place of its tag. -/
def expression? : Node → Option (Expression × Position)
  | interpolation e _ p => some (e, p)
  | sect e _ _ p => some (e, p)
  | _ => none

/-- What a node makes of the run of its body: an included template is indented. -/
def around (n : Node) (body : Run RenderError) : Run RenderError :=
  match n with
  | inclusion _ indent _ => body.region indent
  | parent _ indent _ _ => body.region indent
  | _ => body

theorem error_around (n : Node) (body : Run RenderError) : (n.around body).error = body.error := by
  cases n <;> rfl

end Node

/-- A node while it is rendered. -/
structure Visit where
  node : Node
  frame : Frame
  scopes : Scopes
  /-- How many levels were entered. -/
  nesting : Nat
  /-- The nodes whose bodies are being rendered, the innermost first. -/
  enclosing : List Node
deriving Repr

namespace Visit

/-- A visit in the body of this one, one level deeper. -/
def inside (v : Visit) (frame : Frame) (scopes : Scopes) (node : Node) : Visit :=
  ⟨node, frame, scopes, v.nesting + 1, v.node :: v.enclosing⟩

/-- Enters the next level, unless too many were entered. -/
def enter (v : Visit) (position : Position) : Run RenderError :=
  if maxNesting ≤ v.nesting then .fail (.nestingLimitExceeded v.nesting position) else .empty

private theorem nesting_lt_of_enter {v : Visit} {position : Position}
    (entered : (v.enter position).error = none) : v.nesting < maxNesting := by
  unfold enter at entered
  split at entered
  · cases entered
  · rename_i room
    exact Nat.lt_of_not_le room

private theorem eq_of_error_enter {v : Visit} {position : Position} {e : RenderError}
    (failed : (v.enter position).error = some e) :
    maxNesting ≤ v.nesting ∧ e = .nestingLimitExceeded v.nesting position := by
  unfold enter at failed
  split at failed
  · rename_i deep
    exact ⟨deep, (Option.some.inj failed).symm⟩
  · cases failed

/-- Either no level is left, or one can be entered and leaves one less. -/
theorem enter_cases {v : Visit} (bounded : v.nesting ≤ maxNesting) :
    (maxNesting - v.nesting = 0 ∧ ∀ p, v.enter p = .fail (.nestingLimitExceeded maxNesting p)) ∨
      ∃ room, maxNesting - v.nesting = room + 1 ∧ maxNesting - (v.nesting + 1) = room ∧
        ∀ p, v.enter p = .empty := by
  unfold enter
  by_cases deep : maxNesting ≤ v.nesting
  · have full : v.nesting = maxNesting := Nat.le_antisymm bounded deep
    exact .inl ⟨by omega, fun p => by rw [if_pos deep, full]⟩
  · exact .inr ⟨maxNesting - (v.nesting + 1), by omega, rfl, fun p => if_neg deep⟩

end Visit

def Template.visits (t : Template) (data : Data) : List Visit :=
  t.nodes.map fun n => ⟨n, ⟨t.contentType, 0, []⟩, .root data, 0, []⟩

namespace Collaborators

/-- What a visit does before its body, which is all for a node that has none. -/
def own (c : Collaborators) (v : Visit) : Run RenderError :=
  match v.node with
  | .text s => .piece (.text s)
  | .interpolation expression escaped position =>
    match c.evaluate v.scopes position expression with
    | .error e => .fail e
    | .ok value => .piece (.value (c.valueText v.frame escaped value))
  | .sect expression _ _ position =>
    match c.evaluate v.scopes position expression with
    | .error e => .fail e
    | .ok _ => v.enter position
  | .inclusion name _ position => c.withTemplate v.frame name position fun _ => v.enter position
  | .block _ _ position => v.enter position
  | .parent name _ _ position => c.withTemplate v.frame name position fun _ => v.enter position

/-- The visits in the body of a node, in order. -/
def body (c : Collaborators) (v : Visit) : List Visit :=
  match v.node with
  | .text _ => []
  | .interpolation _ _ _ => []
  | .sect expression inverted nodes position =>
    match c.evaluate v.scopes position expression with
    | .error _ => []
    | .ok value =>
      (passes inverted value).flatMap fun pushed =>
        nodes.map (v.inside v.frame (v.scopes.pushAny pushed))
  | .inclusion name _ _ =>
    match c.templates name with
    | none => []
    | some t => t.nodes.map (v.inside (v.frame.entering t) v.scopes)
  | .block name nodes _ =>
    match v.frame.blocks.lookup name with
    | none => nodes.map (v.inside v.frame v.scopes)
    | some (replacement, contentType) =>
      replacement.map (v.inside { v.frame with contentType } v.scopes)
  | .parent name _ overrides _ =>
    match c.templates name with
    | none => []
    | some t => t.nodes.map (v.inside ((v.frame.withOverrides overrides).entering t) v.scopes)

/-- The visits directly inside a visit. There is none if the visit fails before its body. -/
def descents (c : Collaborators) (v : Visit) : List Visit :=
  match (c.own v).error with
  | some _ => []
  | none => c.body v

/-- The run of a visit, with the levels that may still be entered. -/
def visit (c : Collaborators) (v : Visit) : Run RenderError :=
  c.renderNode (maxNesting - v.nesting) v.frame v.scopes v.node

/-- The visits that a rendering can come to. -/
inductive Reached (c : Collaborators) (t : Template) (data : Data) : Visit → Prop where
  | outermost {v : Visit} (member : v ∈ t.visits data) : Reached c t data v
  | inside {v w : Visit} (outer : Reached c t data v) (member : w ∈ c.descents v) :
      Reached c t data w

/-- What is directly inside a visit: the nodes of a section or of a block in its frame, those of
the override of a block for the content type of its owner, or those of an included template. -/
inductive Descent (c : Collaborators) (v : Visit) : Visit → Prop where
  | sect {e : Expression} {inverted : Bool} {nodes : List Node} {p : Position} {scopes : Scopes}
      {n : Node} (node : v.node = .sect e inverted nodes p) (member : n ∈ nodes) :
      Descent c v (v.inside v.frame scopes n)
  | inclusion {name indent : String} {p : Position} {t : Template} {n : Node}
      (node : v.node = .inclusion name indent p) (room : v.frame.depth < maxInclusions)
      (found : c.templates name = some t) (member : n ∈ t.nodes) :
      Descent c v (v.inside (v.frame.entering t) v.scopes n)
  | standard {name : String} {nodes : List Node} {p : Position} {n : Node}
      (node : v.node = .block name nodes p) (member : n ∈ nodes) :
      Descent c v (v.inside v.frame v.scopes n)
  | override {name : String} {nodes replacement : List Node} {contentType : ContentType}
      {p : Position} {n : Node} (node : v.node = .block name nodes p)
      (found : v.frame.blocks.lookup name = some (replacement, contentType))
      (member : n ∈ replacement) :
      Descent c v (v.inside { v.frame with contentType } v.scopes n)
  | parent {name indent : String} {overrides : List Node} {p : Position} {t : Template} {n : Node}
      (node : v.node = .parent name indent overrides p) (room : v.frame.depth < maxInclusions)
      (found : c.templates name = some t) (member : n ∈ t.nodes) :
      Descent c v (v.inside ((v.frame.withOverrides overrides).entering t) v.scopes n)

/-- The errors that a visit can end with by itself. -/
inductive Failure (c : Collaborators) (v : Visit) : RenderError → Prop where
  | unknownFilter {e : Expression} {p : Position} {call : FilterCall}
      (tag : v.node.expression? = some (e, p)) (member : call ∈ e.filters) :
      Failure c v (.unknownFilter call.name p)
  | filterFailed {e : Expression} {p : Position} {call : FilterCall} {message : String}
      (tag : v.node.expression? = some (e, p)) (member : call ∈ e.filters) :
      Failure c v (.filterFailed call.name message p)
  | missing {name : String} {p : Position} (names : v.node.included? = some name)
      (none : c.templates name = none) : Failure c v (.partialNotFound name p)
  | recursion {name : String} {p : Position} (names : v.node.included? = some name)
      (deep : maxInclusions ≤ v.frame.depth) :
      Failure c v (.recursionLimitExceeded name v.frame.depth p)
  | nesting {p : Position} (level : v.node.isLevel = true) (deep : maxNesting ≤ v.nesting) :
      Failure c v (.nestingLimitExceeded v.nesting p)

variable {c : Collaborators} {v w : Visit}

theorem withTemplate_congr {f : Frame} {name : String} {p : Position}
    {next other : Template → Run RenderError}
    (same : ∀ t, c.templates name = some t → next t = other t) :
    c.withTemplate f name p next = c.withTemplate f name p other := by
  unfold withTemplate
  cases found : c.templates name with
  | none => rfl
  | some t => simp only [same t found]

private theorem withTemplate_andThen (c : Collaborators) (f : Frame) (name : String) (p : Position)
    (first : Template → Run RenderError) (next : Unit → Run RenderError) :
    (c.withTemplate f name p first).andThen next =
      c.withTemplate f name p fun t => (first t).andThen next := by
  unfold withTemplate
  split
  · rfl
  · rw [Run.andThen_assoc]
    cases c.templates name <;> rfl

private theorem found_of_withTemplate {f : Frame} {name : String} {p : Position}
    {next : Template → Run RenderError}
    (fine : (c.withTemplate f name p next).error = none) :
    f.depth < maxInclusions ∧ ∃ t, c.templates name = some t ∧ (next t).error = none := by
  unfold withTemplate at fine
  split at fine
  · cases fine
  · rename_i room
    refine ⟨Nat.lt_of_not_le room, ?_⟩
    cases found : c.templates name with
    | none =>
      rw [found] at fine
      cases fine
    | some t =>
      rw [found] at fine
      exact ⟨t, rfl, fine⟩

/-- A visit inside another one is a descent, and there was a level left for it. -/
theorem descent_of_mem (member : w ∈ c.descents v) : v.nesting < maxNesting ∧ c.Descent v w := by
  unfold descents at member
  split at member
  · cases member
  rename_i fine
  cases node : v.node with
  | text s =>
    simp only [body, node] at member
    cases member
  | interpolation e escaped p =>
    simp only [body, node] at member
    cases member
  | sect e inverted nodes p =>
    simp only [own, body, node] at fine member
    cases value : c.evaluate v.scopes p e with
    | error cause =>
      rw [value] at fine
      cases fine
    | ok value =>
      simp only [value] at fine member
      obtain ⟨pushed, -, inside⟩ := List.mem_flatMap.mp member
      obtain ⟨n, present, rfl⟩ := List.mem_map.mp inside
      exact ⟨Visit.nesting_lt_of_enter fine, .sect node present⟩
  | inclusion name indent p =>
    simp only [own, body, node] at fine member
    obtain ⟨room, t, found, entered⟩ := found_of_withTemplate fine
    simp only [found] at member
    obtain ⟨n, present, rfl⟩ := List.mem_map.mp member
    exact ⟨Visit.nesting_lt_of_enter entered, .inclusion node room found present⟩
  | block name nodes p =>
    simp only [own, body, node] at fine member
    refine ⟨Visit.nesting_lt_of_enter fine, ?_⟩
    cases found : v.frame.blocks.lookup name with
    | none =>
      simp only [found] at member
      obtain ⟨n, present, rfl⟩ := List.mem_map.mp member
      exact .standard node present
    | some replacement =>
      obtain ⟨replacement, contentType⟩ := replacement
      simp only [found] at member
      obtain ⟨n, present, rfl⟩ := List.mem_map.mp member
      exact .override node found present
  | parent name indent overrides p =>
    simp only [own, body, node] at fine member
    obtain ⟨room, t, found, entered⟩ := found_of_withTemplate fine
    simp only [found] at member
    obtain ⟨n, present, rfl⟩ := List.mem_map.mp member
    exact ⟨Visit.nesting_lt_of_enter entered, .parent node room found present⟩

/-- Inside a partial tag that goes through are the nodes of the template it names. -/
theorem exists_descents_of_inclusion {name indent : String} {p : Position}
    (node : v.node = .inclusion name indent p) (fine : (c.own v).error = none) :
    ∃ u, c.templates name = some u ∧
      c.descents v = u.nodes.map (v.inside (v.frame.entering u) v.scopes) := by
  have looked := fine
  simp only [own, node] at looked
  obtain ⟨-, u, found, -⟩ := found_of_withTemplate looked
  exact ⟨u, found, by simp only [descents, fine, body, node, found]⟩

/-- A descent is to a body: one level deeper, with one more node around. -/
theorem Descent.eq_inside (step : c.Descent v w) :
    v.node.isLevel = true ∧ ∃ f s n, w = v.inside f s n := by
  cases step with
  | sect node => exact ⟨by simp [node, Node.isLevel], _, _, _, rfl⟩
  | inclusion node => exact ⟨by simp [node, Node.isLevel], _, _, _, rfl⟩
  | standard node => exact ⟨by simp [node, Node.isLevel], _, _, _, rfl⟩
  | override node => exact ⟨by simp [node, Node.isLevel], _, _, _, rfl⟩
  | parent node => exact ⟨by simp [node, Node.isLevel], _, _, _, rfl⟩

/-- Every descent takes one of the levels that are left, so none goes on for ever. -/
theorem wellFounded_descents (c : Collaborators) :
    WellFounded fun w v => w ∈ c.descents v := by
  refine Subrelation.wf ?_ (measure fun v : Visit => maxNesting - v.nesting).wf
  intro w v member
  obtain ⟨room, step⟩ := descent_of_mem member
  obtain ⟨-, f, s, n, rfl⟩ := step.eq_inside
  simp only [InvImage, WellFoundedRelation.rel, Visit.inside]
  exact Nat.sub_lt_sub_left room (Nat.lt_succ_self v.nesting)

theorem Reached.nesting_le {t : Template} {data : Data} (reached : c.Reached t data v) :
    v.nesting ≤ maxNesting := by
  cases reached with
  | outermost member =>
    obtain ⟨n, -, rfl⟩ := List.mem_map.mp member
    exact Nat.zero_le _
  | inside outer member =>
    obtain ⟨room, step⟩ := descent_of_mem member
    obtain ⟨-, f, s, n, rfl⟩ := step.eq_inside
    exact room

private theorem each_visit_inside {room : Nat} (level : maxNesting - (v.nesting + 1) = room)
    (f : Frame) (scopes : Scopes) (nodes : List Node) :
    Run.each c.visit (nodes.map (v.inside f scopes)) = Run.each (c.renderNode room f scopes) nodes := by
  subst level
  exact Run.each_map c.visit (v.inside f scopes) nodes

private theorem visit_eq_body (bounded : v.nesting ≤ maxNesting) :
    c.visit v = (c.own v).andThen fun _ => v.node.around (Run.each c.visit (c.body v)) := by
  rw [show c.visit v = c.renderNode (maxNesting - v.nesting) v.frame v.scopes v.node from rfl]
  cases node : v.node with
  | text s => simp [renderNode, own, body, node, Node.around, Run.each]
  | interpolation e escaped p =>
    rw [renderNode]
    simp only [own, body, node]
    cases c.evaluate v.scopes p e <;> simp [Node.around, Run.each]
  | sect e inverted nodes p =>
    rw [renderNode]
    simp only [own, body, node]
    cases c.evaluate v.scopes p e with
    | error cause => rfl
    | ok value =>
      rcases Visit.enter_cases bounded with ⟨level, full⟩ | ⟨room, level, left, entered⟩
      · simp only [level, levelsOpen_zero, full, Run.fail_andThen]
      · simp only [level, entered, Run.empty_andThen, Node.around, Run.each_flatMap,
          each_visit_inside left]
  | inclusion name indent p =>
    rw [renderNode]
    simp only [own, body, node, withTemplate_andThen]
    refine withTemplate_congr fun t found => ?_
    rcases Visit.enter_cases bounded with ⟨level, full⟩ | ⟨room, level, left, entered⟩
    · simp only [level, levelsOpen_zero, full, Run.fail_andThen]
    · simp only [level, entered, Run.empty_andThen, found, Node.around, each_visit_inside left]
  | block name nodes p =>
    simp only [own, body, node]
    rcases Visit.enter_cases bounded with ⟨level, full⟩ | ⟨room, level, left, entered⟩
    · rw [level, full, renderNode, levelsOpen_zero, Run.fail_andThen]
    · rw [level, entered, renderNode, Run.empty_andThen]
      cases v.frame.blocks.lookup name <;> exact (each_visit_inside left _ _ _).symm
  | parent name indent overrides p =>
    rw [renderNode]
    simp only [own, body, node, withTemplate_andThen]
    refine withTemplate_congr fun t found => ?_
    rcases Visit.enter_cases bounded with ⟨level, full⟩ | ⟨room, level, left, entered⟩
    · simp only [level, levelsOpen_zero, full, Run.fail_andThen]
    · simp only [level, entered, Run.empty_andThen, found, Node.around, each_visit_inside left]

/-- Rendering a visit is what it does itself and then the visits directly inside it. -/
theorem visit_eq (bounded : v.nesting ≤ maxNesting) :
    c.visit v = (c.own v).andThen fun _ => v.node.around (Run.each c.visit (c.descents v)) := by
  rw [visit_eq_body bounded]
  unfold descents
  cases failed : (c.own v).error with
  | none => rfl
  | some e => simp only [Run.andThen, failed]

private theorem failure_of_withTemplate {name : String} {p : Position}
    {next : Template → Run RenderError} {e : RenderError} (names : v.node.included? = some name)
    (entering : ∀ t, (next t).error = some e → c.Failure v e)
    (failed : (c.withTemplate v.frame name p next).error = some e) : c.Failure v e := by
  unfold withTemplate at failed
  split at failed
  · rename_i deep
    cases failed
    exact .recursion names deep
  · rcases Run.error_andThen_eq_some_iff.mp failed with impossible | ⟨-, later⟩
    · cases impossible
    · cases found : c.templates name with
      | none =>
        rw [found] at later
        cases later
        exact .missing names found
      | some t =>
        rw [found] at later
        exact entering t later

private theorem failure_of_evaluate {expression : Expression} {p : Position} {e : RenderError}
    (tag : v.node.expression? = some (expression, p))
    (failed : c.evaluate v.scopes p expression = .error e) : c.Failure v e := by
  obtain ⟨call, member, rfl | ⟨message, rfl⟩⟩ := exists_call_of_evaluate failed
  · exact .unknownFilter tag member
  · exact .filterFailed tag member

/-- What a visit does itself ends with no other errors than its failures. -/
theorem failure_of_own {e : RenderError} (failed : (c.own v).error = some e) : c.Failure v e := by
  have entering (p : Position) (level : v.node.isLevel = true)
      (failed : (v.enter p).error = some e) : c.Failure v e := by
    obtain ⟨deep, rfl⟩ := Visit.eq_of_error_enter failed
    exact .nesting level deep
  cases node : v.node with
  | text s =>
    simp only [own, node] at failed
    cases failed
  | interpolation expression escaped p =>
    simp only [own, node] at failed
    cases value : c.evaluate v.scopes p expression with
    | error cause =>
      rw [value] at failed
      cases failed
      exact failure_of_evaluate (by rw [node]; rfl) value
    | ok value =>
      simp only [value] at failed
      cases failed
  | sect expression inverted nodes p =>
    simp only [own, node] at failed
    cases value : c.evaluate v.scopes p expression with
    | error cause =>
      rw [value] at failed
      cases failed
      exact failure_of_evaluate (by rw [node]; rfl) value
    | ok value =>
      rw [value] at failed
      exact entering p (by rw [node]; rfl) failed
  | inclusion name indent p =>
    simp only [own, node] at failed
    exact failure_of_withTemplate (by rw [node]; rfl) (fun _ => entering p (by rw [node]; rfl)) failed
  | block name nodes p =>
    simp only [own, node] at failed
    exact entering p (by rw [node]; rfl) failed
  | parent name indent overrides p =>
    simp only [own, node] at failed
    exact failure_of_withTemplate (by rw [node]; rfl) (fun _ => entering p (by rw [node]; rfl)) failed

variable {t : Template} {data : Data}

/-- A rendering is the runs of its outermost visits. -/
theorem run_eq_visits (t : Template) (data : Data) (c : Collaborators) :
    t.run data c = Run.each c.visit (t.visits data) := by
  rw [Template.visits, Run.each_map]
  rfl

private theorem exists_failure_of_visit {e : RenderError} (reached : c.Reached t data v)
    (failed : (c.visit v).error = some e) : ∃ w, c.Reached t data w ∧ c.Failure w e := by
  induction v using (wellFounded_descents c).induction with
  | h v ih =>
    rw [visit_eq reached.nesting_le] at failed
    rcases Run.error_andThen_eq_some_iff.mp failed with itself | ⟨-, body⟩
    · exact ⟨v, reached, failure_of_own itself⟩
    · rw [Node.error_around] at body
      obtain ⟨w, member, inner⟩ := Run.exists_error_of_each body
      exact ih w member (reached.inside member) inner

/-- An error of a rendering is a failure of a visit that it comes to. -/
theorem exists_failure {e : RenderError} (failed : t.render data c = .error e) :
    ∃ v, c.Reached t data v ∧ c.Failure v e := by
  have run := Template.render_eq_error_iff.mp failed
  rw [run_eq_visits] at run
  obtain ⟨v, member, inner⟩ := Run.exists_error_of_each run
  exact exists_failure_of_visit (.outermost member) inner

end Collaborators

end Mustache
