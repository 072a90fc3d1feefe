import Mustache.Proofs.Render.Runs

/-!
A reference renderer for inheritance. It carries the parent tags whose templates are being
rendered, the outermost first, and looks for the override of a block from the outside in; the
blocks of different tags are never put together. Main statement: the renderer agrees with it,
so along every chain of inclusions the outermost override wins.
-/

namespace Mustache

/-- The nodes of a block of the given name. -/
def Node.bodyNamed? (name : String) : Node → Option (List Node)
  | .block other nodes _ => if name = other then some nodes else none
  | _ => none

/-- A parent tag whose template is being rendered: what stands between it and its closing tag,
and the content type of the template that it is written in. -/
structure OpenParent where
  overrides : List Node
  contentType : ContentType
deriving Repr

namespace OpenParent

/-- The body of the last block of a name directly inside the tag. -/
def body? (p : OpenParent) (name : String) : Option (List Node) :=
  (p.overrides.filterMap (Node.bodyNamed? name)).getLast?

/-- What replaces the blocks of a name: the body that the first parent with one has for it, and
that parent's content type. -/
def override? (parents : List OpenParent) (name : String) : Option (List Node × ContentType) :=
  parents.findSome? fun p => (p.body? name).map (·, p.contentType)

end OpenParent

/-- What nodes have in common while they are rendered by the reference renderer. -/
structure Lineage where
  contentType : ContentType
  depth : Nat
  /-- The parent tags that are being rendered, the outermost first. -/
  parents : List OpenParent
deriving Repr

namespace Lineage

/-- Inside the template that a partial tag includes. -/
def entering (l : Lineage) (t : Template) : Lineage :=
  { l with contentType := t.contentType, depth := l.depth + 1 }

/-- With one more parent tag, which comes last. -/
def within (l : Lineage) (overrides : List Node) : Lineage :=
  { l with parents := l.parents ++ [⟨overrides, l.contentType⟩] }

end Lineage

namespace Collaborators

/-- The template that a partial or parent includes at a depth. -/
def includedAt (c : Collaborators) (depth : Nat) (name : String) (position : Position)
    (next : Template → Run RenderError) : Run RenderError :=
  if 64 ≤ depth then .fail (.recursionLimitExceeded name depth position)
  else
    (Run.piece (.lookup name)).andThen fun _ =>
      match c.templates name with
      | none => .fail (.partialNotFound name position)
      | some t => next t

/-- Renders a node inside parent tags. Partials, sections and blocks leave the list of parents
as it is; a parent tag stands in it while its own template is rendered. -/
def renderInherited (c : Collaborators) (room : Nat) (l : Lineage) (scopes : Scopes)
    (node : Node) : Run RenderError :=
  match node with
  | .text s => .piece (.text s)
  | .interpolation expression escaped position =>
    match c.evaluate scopes position expression with
    | .error e => .fail e
    | .ok value =>
      let text := (value.map Data.text).getD ""
      .piece (.value (if escaped then c.escaper text l.contentType else text))
  | .sect expression inverted nodes position =>
    match c.evaluate scopes position expression with
    | .error e => .fail e
    | .ok value =>
      match room with
      | 0 => .fail (.nestingLimitExceeded 128 position)
      | room + 1 =>
        Run.each
          (fun pushed => Run.each (renderInherited c room l (scopes.pushAny pushed)) nodes)
          (passes inverted value)
  | .inclusion name indent position =>
    c.includedAt l.depth name position fun t =>
      match room with
      | 0 => .fail (.nestingLimitExceeded 128 position)
      | room + 1 =>
        (Run.each (renderInherited c room (l.entering t) scopes) t.nodes).region indent
  | .block name nodes position =>
    match room with
    | 0 => .fail (.nestingLimitExceeded 128 position)
    | room + 1 =>
      match OpenParent.override? l.parents name with
      | none => Run.each (renderInherited c room l scopes) nodes
      | some (body, contentType) =>
        Run.each (renderInherited c room { l with contentType } scopes) body
  | .parent name indent overrides position =>
    c.includedAt l.depth name position fun t =>
      match room with
      | 0 => .fail (.nestingLimitExceeded 128 position)
      | room + 1 =>
        (Run.each (renderInherited c room ((l.within overrides).entering t) scopes)
          t.nodes).region indent
termination_by structural room

end Collaborators

/-- Renders a template with the reference renderer, inside no parent tag at first. -/
def Template.renderInherited (t : Template) (data : Data) (c : Collaborators) :
    Except RenderError String :=
  (Run.each (c.renderInherited 128 ⟨t.contentType, 0, []⟩ (.root data)) t.nodes).text

/-- A frame whose blocks are those that a lineage finds. -/
structure Frame.Flattens (f : Frame) (l : Lineage) : Prop where
  contentType : f.contentType = l.contentType
  depth : f.depth = l.depth
  blocks : ∀ name, f.blocks.lookup name = OpenParent.override? l.parents name

namespace Frame

/-- Of the blocks in a parent tag that have one name, the last one counts. -/
theorem lookup_overrides (f : Frame) (nodes : List Node) (name : String) :
    (f.overrides nodes).lookup name =
      ((⟨nodes, f.contentType⟩ : OpenParent).body? name).map (·, f.contentType) := by
  unfold overrides OpenParent.body?
  induction nodes with
  | nil => rfl
  | cons n rest ih =>
    cases n with
    | block other nodes p =>
      simp only [List.filterMap_cons, List.reverse_cons, List.lookup_append, ih, Node.bodyNamed?]
      by_cases same : name = other
      · subst same
        rw [if_pos rfl, List.getLast?_cons]
        cases (rest.filterMap (Node.bodyNamed? name)).getLast? <;> simp
      · rw [if_neg same]
        simp [List.lookup_cons, beq_false_of_ne same]
    | _ => exact ih

variable {f : Frame} {l : Lineage}

theorem Flattens.entering (both : f.Flattens l) (t : Template) :
    (f.entering t).Flattens (l.entering t) where
  contentType := rfl
  depth := congrArg (· + 1) both.depth
  blocks := both.blocks

/-- A block that an enclosing parent overrides stays as it was; the others are looked for in
the new parent, which is the innermost one. -/
theorem Flattens.withOverrides (both : f.Flattens l) (nodes : List Node) :
    (f.withOverrides nodes).Flattens (l.within nodes) where
  contentType := both.contentType
  depth := both.depth
  blocks := by
    intro name
    have outer := both.blocks name
    have inner := f.lookup_overrides nodes name
    simp only [Frame.withOverrides, Lineage.within, List.lookup_append, outer, inner,
      OpenParent.override?, List.findSome?_append, both.contentType]
    simp

end Frame

namespace Collaborators

variable {f : Frame} {l : Lineage}

private theorem withTemplate_eq_includedAt (c : Collaborators) (f : Frame) (name : String)
    (position : Position) (next : Template → Run RenderError) :
    c.withTemplate f name position next = c.includedAt f.depth name position next := rfl

theorem valueText_eq (c : Collaborators) (f : Frame) (escaped : Bool) (value : Option Data) :
    c.valueText f escaped value =
      if escaped then c.escaper ((value.map Data.text).getD "") f.contentType
      else (value.map Data.text).getD "" := by
  cases value <;> rfl

/-- The renderer does in a frame what the reference renderer does in a lineage with the same
blocks. -/
theorem renderNode_eq_renderInherited (c : Collaborators) (room : Nat) (both : f.Flattens l)
    (scopes : Scopes) (n : Node) :
    c.renderNode room f scopes n = c.renderInherited room l scopes n := by
  induction room using Nat.strongRecOn generalizing f l scopes n with
  | ind room ih =>
    cases n with
    | text s => rw [renderNode, renderInherited]
    | interpolation e escaped p =>
      rw [renderNode, renderInherited]
      cases c.evaluate scopes p e with
      | error cause => rfl
      | ok value =>
        rw [← both.contentType]
        exact congrArg (fun text => Run.piece (.value text)) (valueText_eq c f escaped value)
    | sect e inverted nodes p =>
      rw [renderNode, renderInherited]
      cases c.evaluate scopes p e with
      | error cause => rfl
      | ok value =>
        cases room with
        | zero => rfl
        | succ room =>
          refine Run.each_congr fun pushed _ => Run.each_congr fun child _ => ?_
          exact ih room (Nat.lt_succ_self room) both _ child
    | inclusion name indent p =>
      rw [renderNode, renderInherited, withTemplate_eq_includedAt, both.depth]
      congr 1
      funext t
      cases room with
      | zero => rfl
      | succ room =>
        refine congrArg (fun run => run.region indent) (Run.each_congr fun child _ => ?_)
        exact ih room (Nat.lt_succ_self room) (both.entering t) scopes child
    | block name nodes p =>
      cases room with
      | zero => rfl
      | succ room =>
        rw [renderNode, renderInherited]
        simp only [both.blocks name]
        cases OpenParent.override? l.parents name with
        | none =>
          exact Run.each_congr fun child _ => ih room (Nat.lt_succ_self room) both scopes child
        | some replacement =>
          obtain ⟨body, contentType⟩ := replacement
          have switched : Frame.Flattens { f with contentType } { l with contentType } :=
            ⟨rfl, both.depth, both.blocks⟩
          exact Run.each_congr fun child _ =>
            ih room (Nat.lt_succ_self room) switched scopes child
    | parent name indent overrides p =>
      rw [renderNode, renderInherited, withTemplate_eq_includedAt, both.depth]
      congr 1
      funext t
      cases room with
      | zero => rfl
      | succ room =>
        have extended := (both.withOverrides overrides).entering t
        refine congrArg (fun run => run.region indent) (Run.each_congr fun child _ => ?_)
        exact ih room (Nat.lt_succ_self room) extended scopes child

end Collaborators

/-- At every block the outermost override wins: rendering is what the reference renderer does
with the list of open parent tags. -/
theorem Template.render_eq_renderInherited (t : Template) (data : Data) (c : Collaborators) :
    t.render data c = t.renderInherited data c := by
  have initial : Frame.Flattens ⟨t.contentType, 0, []⟩ ⟨t.contentType, 0, []⟩ :=
    ⟨rfl, rfl, fun _ => rfl⟩
  rw [render_eq_text, run, Collaborators.renderNodes, renderInherited]
  exact congrArg Run.text
    (Run.each_congr fun n _ => c.renderNode_eq_renderInherited maxNesting initial _ n)

end Mustache
