import Mathlib.Data.List.Forall2
import Mustache.Proofs.Render.Evaluation
import Mustache.Proofs.Render.Runs
import Mustache.Proofs.Template.Relocation

/-!
A reference renderer. Before anything is rendered, every tag of the rendered template and of
each stored one is labelled with the template that it is written in. The reference renderer
carries no content type along: a variable is escaped for the one in its label, and an error
keeps the label of its tag. Main statement: both renderers agree.
-/

namespace Mustache

/-- What a tag is labelled with: the name of the stored template that it is written in, or
none in the template that is rendered; that template's content type; and the tag's place. -/
structure Origin where
  template : Option String
  contentType : ContentType
  position : Position
deriving DecidableEq, Repr

inductive LabelledNode where
  | text (s : String)
  | interpolation (expression : Expression) (escaped : Bool) (origin : Origin)
  | sect (expression : Expression) (inverted : Bool) (nodes : List LabelledNode) (origin : Origin)
  | inclusion (name : String) (indent : String) (origin : Origin)
  | block (name : String) (nodes : List LabelledNode) (origin : Origin)
  | parent (name : String) (indent : String) (overrides : List LabelledNode) (origin : Origin)
deriving Repr, Inhabited

namespace Node

mutual

def label (template : Option String) (contentType : ContentType) : Node → LabelledNode
  | text s => .text s
  | interpolation e escaped p => .interpolation e escaped ⟨template, contentType, p⟩
  | sect e inverted nodes p =>
    .sect e inverted (labelAll template contentType nodes) ⟨template, contentType, p⟩
  | inclusion name indent p => .inclusion name indent ⟨template, contentType, p⟩
  | block name nodes p =>
    .block name (labelAll template contentType nodes) ⟨template, contentType, p⟩
  | parent name indent overrides p =>
    .parent name indent (labelAll template contentType overrides) ⟨template, contentType, p⟩
termination_by structural n => n

def labelAll (template : Option String) (contentType : ContentType) :
    List Node → List LabelledNode
  | [] => []
  | n :: rest => label template contentType n :: labelAll template contentType rest
termination_by structural nodes => nodes

end

private theorem labelAll_eq_map (template : Option String) (contentType : ContentType)
    (nodes : List Node) : labelAll template contentType nodes = nodes.map (label template contentType) := by
  induction nodes with
  | nil => rfl
  | cons n rest ih => simp only [labelAll, List.map_cons, ih]

end Node

/-- The place of a tag of the given template when only the rendered template was moved. -/
def placeIn (move : Position → Position) : Option String → Position → Position
  | none => move
  | some _ => fun p => p

/-- An error and the tag that it comes from. -/
structure Fault where
  cause : RenderError
  origin : Origin
deriving DecidableEq, Repr

namespace Fault

def error (x : Fault) : RenderError :=
  x.cause.relocate x.origin.position

/-- The error when the tags of the rendered template stand at other places. -/
def errorAfter (move : Position → Position) (x : Fault) : RenderError :=
  x.cause.relocate (placeIn move x.origin.template x.origin.position)

end Fault

/-- What the reference renderer calls for. -/
structure LabelledCollaborators where
  templates : String → Option (List LabelledNode)
  filters : String → Option Filter
  escaper : Escaper

/-- The same collaborators, with the tags of each stored template labelled. -/
def Collaborators.labelled (c : Collaborators) : LabelledCollaborators where
  templates name := (c.templates name).map fun t => Node.labelAll (some name) t.contentType t.nodes
  filters := c.filters
  escaper := c.escaper

/-- What labelled nodes have in common while they are rendered; no content type is needed. -/
structure LabelledFrame where
  depth : Nat
  blocks : List (String × List LabelledNode)

/-- The frame with more blocks, which count less than those it has. -/
def LabelledFrame.withOverrides (f : LabelledFrame) (nodes : List LabelledNode) : LabelledFrame :=
  { f with
    blocks := f.blocks ++ (nodes.filterMap fun
      | .block name nodes _ => some (name, nodes)
      | _ => none).reverse }

namespace LabelledCollaborators

def evaluate (c : LabelledCollaborators) (scopes : Scopes) (origin : Origin) (e : Expression) :
    Except Fault (Option Data) :=
  match ({ filters := c.filters } : Collaborators).evaluate scopes origin.position e with
  | .error cause => .error ⟨cause, origin⟩
  | .ok value => .ok value

/-- The labelled nodes of the template that a partial or parent includes. -/
def withTemplate (c : LabelledCollaborators) (f : LabelledFrame) (name : String) (origin : Origin)
    (next : List LabelledNode → Run Fault) : Run Fault :=
  if maxInclusions ≤ f.depth then
    .fail ⟨.recursionLimitExceeded name f.depth origin.position, origin⟩
  else
    (Run.piece (.lookup name)).andThen fun _ =>
      match c.templates name with
      | none => .fail ⟨.partialNotFound name origin.position, origin⟩
      | some nodes => next nodes

def renderNode (c : LabelledCollaborators) (room : Nat) (f : LabelledFrame) (scopes : Scopes)
    (node : LabelledNode) : Run Fault :=
  match node with
  | .text s => .piece (.text s)
  | .interpolation expression escaped origin =>
    match c.evaluate scopes origin expression with
    | .error e => .fail e
    | .ok value =>
      let text := (value.map Data.text).getD ""
      .piece (.value (if escaped then c.escaper text origin.contentType else text))
  | .sect expression inverted nodes origin =>
    match c.evaluate scopes origin expression with
    | .error e => .fail e
    | .ok value =>
      match room with
      | 0 => .fail ⟨.nestingLimitExceeded maxNesting origin.position, origin⟩
      | room + 1 =>
        Run.each
          (fun pushed => Run.each (renderNode c room f (scopes.pushAny pushed)) nodes)
          (passes inverted value)
  | .inclusion name indent origin =>
    c.withTemplate f name origin fun included =>
      match room with
      | 0 => .fail ⟨.nestingLimitExceeded maxNesting origin.position, origin⟩
      | room + 1 =>
        (Run.each (renderNode c room { f with depth := f.depth + 1 } scopes) included).region indent
  | .block name nodes origin =>
    match room with
    | 0 => .fail ⟨.nestingLimitExceeded maxNesting origin.position, origin⟩
    | room + 1 =>
      Run.each (renderNode c room f scopes) ((f.blocks.lookup name).getD nodes)
  | .parent name indent overrides origin =>
    c.withTemplate f name origin fun included =>
      match room with
      | 0 => .fail ⟨.nestingLimitExceeded maxNesting origin.position, origin⟩
      | room + 1 =>
        let f := f.withOverrides overrides
        (Run.each (renderNode c room { f with depth := f.depth + 1 } scopes) included).region indent
termination_by structural room

def run (c : LabelledCollaborators) (nodes : List LabelledNode) (data : Data) : Run Fault :=
  Run.each (c.renderNode maxNesting ⟨0, []⟩ (.root data)) nodes

/-- Renders labelled nodes. There is a text only if all of it could be written. -/
def render (c : LabelledCollaborators) (nodes : List LabelledNode) (data : Data) :
    Except Fault String :=
  let run := c.run nodes data
  match run.error with
  | some e => .error e
  | none => .ok (({} : Output).writeAll run.pieces).buffer

end LabelledCollaborators

/-- A block that replaces others, and its labelled form, when only the rendered template was
moved. -/
inductive BlockLabelled (move : Position → Position) :
    String × List Node × ContentType → String × List LabelledNode → Prop where
  | intro (name : String) (template : Option String) (contentType : ContentType)
      (nodes : List Node) :
      BlockLabelled move (name, Node.relocateAll (placeIn move template) nodes, contentType)
        (name, Node.labelAll template contentType nodes)

structure FrameLabelled (move : Position → Position) (f : Frame) (g : LabelledFrame) : Prop where
  depth : g.depth = f.depth
  blocks : List.Forall₂ (BlockLabelled move) f.blocks g.blocks

section

variable {move : Position → Position}

private theorem lookup_labelled {blocks : List (String × List Node × ContentType)}
    {labelled : List (String × List LabelledNode)}
    (both : List.Forall₂ (BlockLabelled move) blocks labelled) (name : String) :
    blocks.lookup name = none ∧ labelled.lookup name = none ∨
      ∃ template contentType nodes,
        blocks.lookup name =
          some (Node.relocateAll (placeIn move template) nodes, contentType) ∧
        labelled.lookup name = some (Node.labelAll template contentType nodes) := by
  induction both with
  | nil => exact .inl ⟨rfl, rfl⟩
  | cons first rest ih =>
    obtain ⟨other, template, contentType, nodes⟩ := first
    by_cases same : name = other
    · subst same
      exact .inr ⟨template, contentType, nodes, by simp, by simp⟩
    · simpa [List.lookup_cons, beq_false_of_ne same] using ih

private theorem overrides_labelled (template : Option String) (f : Frame) (nodes : List Node) :
    List.Forall₂ (BlockLabelled move) (f.overrides (Node.relocateAll (placeIn move template) nodes))
      ((Node.labelAll template f.contentType nodes).filterMap fun
        | .block name nodes _ => some (name, nodes)
        | _ => none).reverse := by
  unfold Frame.overrides
  rw [List.forall₂_reverse_iff]
  induction nodes with
  | nil => exact .nil
  | cons n rest ih =>
    cases n with
    | block name inner p => exact .cons (.intro name template f.contentType inner) ih
    | _ => exact ih

theorem FrameLabelled.withOverrides {f : Frame} {g : LabelledFrame} (both : FrameLabelled move f g)
    (template : Option String) (nodes : List Node) :
    FrameLabelled move (f.withOverrides (Node.relocateAll (placeIn move template) nodes))
      (g.withOverrides (Node.labelAll template f.contentType nodes)) where
  depth := both.depth
  blocks := List.rel_append both.blocks (overrides_labelled template f nodes)

theorem FrameLabelled.entering {f : Frame} {g : LabelledFrame} (both : FrameLabelled move f g)
    (t : Template) : FrameLabelled move (f.entering t) { g with depth := g.depth + 1 } where
  depth := by simp [Frame.entering, both.depth]
  blocks := both.blocks

private theorem evaluate_labelled (move : Position → Position) (c : Collaborators) (scopes : Scopes)
    (origin : Origin) (e : Expression) :
    (c.labelled.evaluate scopes origin e).mapError (·.errorAfter move) =
      c.evaluate scopes (placeIn move origin.template origin.position) e := by
  have filters : ({ filters := c.filters } : Collaborators).evaluate scopes origin.position e =
      c.evaluate scopes origin.position e :=
    Collaborators.evaluate_congr scopes origin.position fun _ _ => rfl
  rw [c.evaluate_relocate scopes origin.position]
  simp only [LabelledCollaborators.evaluate, Collaborators.labelled, filters]
  cases c.evaluate scopes origin.position e <;> rfl

private theorem withTemplate_labelled (c : Collaborators) {f : Frame} {g : LabelledFrame}
    (both : FrameLabelled move f g) (name : String) (origin : Origin)
    {labelledNext : List LabelledNode → Run Fault} {next : Template → Run RenderError}
    (included : ∀ t, (labelledNext (Node.labelAll (some name) t.contentType t.nodes)).mapError
      (·.errorAfter move) = next t) :
    (c.labelled.withTemplate g name origin labelledNext).mapError (·.errorAfter move) =
      c.withTemplate f name (placeIn move origin.template origin.position) next := by
  unfold LabelledCollaborators.withTemplate Collaborators.withTemplate
  rw [both.depth]
  split
  · rfl
  · rw [Run.mapError_andThen]
    simp only [Collaborators.labelled]
    cases c.templates name with
    | none => rfl
    | some t => simp only [Option.map_some, included t, Run.mapError_piece]

private theorem each_labelled {template : Option String} {contentType : ContentType}
    {labelled : LabelledNode → Run Fault} {plain : Node → Run RenderError}
    (same : ∀ n : Node, (labelled (n.label template contentType)).mapError (·.errorAfter move) =
      plain (n.relocate (placeIn move template))) (nodes : List Node) :
    (Run.each labelled (Node.labelAll template contentType nodes)).mapError (·.errorAfter move) =
      Run.each plain (Node.relocateAll (placeIn move template) nodes) := by
  rw [Node.labelAll_eq_map, Node.relocateAll_eq_map, Run.mapError_each, Run.each_map, Run.each_map]
  exact Run.each_congr fun n _ => same n

/-- The reference renderer does with a labelled node what the renderer does with the node,
wherever the rendered template's tags were moved. -/
theorem renderNode_labelled (c : Collaborators) (room : Nat) {f : Frame} {g : LabelledFrame}
    (both : FrameLabelled move f g) (scopes : Scopes) (template : Option String) (n : Node) :
    (c.labelled.renderNode room g scopes (n.label template f.contentType)).mapError
        (·.errorAfter move) =
      c.renderNode room f scopes (n.relocate (placeIn move template)) := by
  induction room using Nat.strongRecOn generalizing f g scopes template n with
  | ind room ih =>
    cases n with
    | text s =>
      rw [Node.label, Node.relocate, LabelledCollaborators.renderNode, Collaborators.renderNode]
      rfl
    | interpolation e escaped p =>
      have value := evaluate_labelled move c scopes ⟨template, f.contentType, p⟩ e
      rw [Node.label, Node.relocate, LabelledCollaborators.renderNode, Collaborators.renderNode]
      simp only [← value]
      cases c.labelled.evaluate scopes ⟨template, f.contentType, p⟩ e with
      | error x => rfl
      | ok value => cases value <;> rfl
    | sect e inverted nodes p =>
      have value := evaluate_labelled move c scopes ⟨template, f.contentType, p⟩ e
      rw [Node.label, Node.relocate, LabelledCollaborators.renderNode, Collaborators.renderNode]
      simp only [← value]
      cases c.labelled.evaluate scopes ⟨template, f.contentType, p⟩ e with
      | error x => rfl
      | ok value =>
        cases room with
        | zero => rfl
        | succ room =>
          simp only [Except.mapError]
          rw [Run.mapError_each]
          apply Run.each_congr
          intro pushed _
          exact each_labelled (ih room (Nat.lt_succ_self room) both _ template) nodes
    | inclusion name indent p =>
      rw [Node.label, Node.relocate, LabelledCollaborators.renderNode, Collaborators.renderNode]
      apply withTemplate_labelled c both name ⟨template, f.contentType, p⟩
      intro t
      cases room with
      | zero => rfl
      | succ room =>
        have nodes := each_labelled
          (ih room (Nat.lt_succ_self room) (both.entering t) scopes (some name)) t.nodes
        rw [placeIn, Node.relocateAll_id] at nodes
        exact congrArg (fun run => run.region indent) nodes
    | block name nodes p =>
      cases room with
      | zero => rfl
      | succ room =>
        rw [Node.label, Node.relocate, LabelledCollaborators.renderNode, Collaborators.renderNode]
        rcases lookup_labelled both.blocks name with
          ⟨plain, labelled⟩ | ⟨owner, contentType, replacement, plain, labelled⟩
        · simp only [plain, labelled, Option.getD_none]
          exact each_labelled (ih room (Nat.lt_succ_self room) both scopes template) nodes
        · simp only [plain, labelled, Option.getD_some]
          have switched : FrameLabelled move { f with contentType } g := ⟨both.depth, both.blocks⟩
          exact each_labelled (ih room (Nat.lt_succ_self room) switched scopes owner) replacement
    | parent name indent overrides p =>
      rw [Node.label, Node.relocate, LabelledCollaborators.renderNode, Collaborators.renderNode]
      apply withTemplate_labelled c both name ⟨template, f.contentType, p⟩
      intro t
      cases room with
      | zero => rfl
      | succ room =>
        have extended := (both.withOverrides template overrides).entering t
        have nodes := each_labelled
          (ih room (Nat.lt_succ_self room) extended scopes (some name)) t.nodes
        rw [placeIn, Node.relocateAll_id] at nodes
        exact congrArg (fun run => run.region indent) nodes

end

namespace Template

/-- The template with all its tags labelled, as the one that is rendered. -/
def labelled (t : Template) : List LabelledNode :=
  Node.labelAll none t.contentType t.nodes

/-- The run of a template whose tags were moved is that of the reference renderer, up to the
places in errors at the template's own tags. -/
theorem run_relocate (move : Position → Position) (t : Template) (data : Data)
    (c : Collaborators) :
    run { t with nodes := Node.relocateAll move t.nodes } data c =
      (c.labelled.run t.labelled data).mapError (·.errorAfter move) := by
  have initial : FrameLabelled move ⟨t.contentType, 0, []⟩ ⟨0, []⟩ := ⟨rfl, .nil⟩
  exact (each_labelled (renderNode_labelled c maxNesting initial (.root data) none) t.nodes).symm

theorem run_labelled (t : Template) (data : Data) (c : Collaborators) :
    t.run data c = (c.labelled.run t.labelled data).mapError Fault.error := by
  have stays (x : Fault) : x.errorAfter (fun p => p) = x.error := by
    obtain ⟨cause, template, contentType, position⟩ := x
    cases template <;> rfl
  have same := run_relocate (fun p => p) t data c
  rw [Node.relocateAll_id] at same
  simpa only [stays] using same

/-- Every escaped variable is escaped for the content type of the template that it is
written in: rendering is what the reference renderer does with the labels. -/
theorem render_eq_labelled (t : Template) (data : Data) (c : Collaborators) :
    t.render data c = (c.labelled.render t.labelled data).mapError Fault.error := by
  unfold render LabelledCollaborators.render
  rw [run_labelled]
  cases failed : (c.labelled.run t.labelled data).error <;>
    simp [Run.mapError, failed, Except.mapError]

end Template

end Mustache
