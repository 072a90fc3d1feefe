import Mustache.Event
import Mustache.Output
import Mustache.Render.Evaluate

/-!
Rendering. The nodes of a template give a `Run`: the pieces that are written, in
order, and the error that ended it, if one did. A run that ended stays as it is;
whatever would come after it is not looked at.
-/

namespace Mustache

/-- Pieces that were written, and the error that came after them. -/
structure Run (ε : Type) where
  pieces : List Piece
  error : Option ε
deriving Repr, Inhabited

namespace Run

variable {ε : Type}

def empty : Run ε :=
  ⟨[], none⟩

def piece (p : Piece) : Run ε :=
  ⟨[p], none⟩

def fail (e : ε) : Run ε :=
  ⟨[], some e⟩

/-- Goes on with another run, unless an error ended this one. -/
def andThen (r : Run ε) (next : Unit → Run ε) : Run ε :=
  match r.error with
  | some _ => r
  | none =>
    let after := next ()
    ⟨r.pieces ++ after.pieces, after.error⟩

/-- A run for each element, in order, up to the first error. -/
def each {α : Type} (f : α → Run ε) : List α → Run ε
  | [] => empty
  | a :: rest => (f a).andThen fun _ => each f rest

/-- The run with all that it writes in a region. -/
def region (r : Run ε) (indent : String) : Run ε :=
  ⟨[.region indent r.pieces], r.error⟩

end Run

/-- What the nodes of one template have in common while they are rendered. -/
structure Frame where
  /-- The content type of the template that the nodes belong to. -/
  contentType : ContentType
  /-- How many partials and parents are open. -/
  depth : Nat
  /-- The blocks that replace blocks of their names, with the content type of the
  template they belong to. The first one of a name counts. -/
  blocks : List (String × List Node × ContentType)
deriving Repr, Inhabited

namespace Frame

def entering (f : Frame) (t : Template) : Frame :=
  { f with contentType := t.contentType, depth := f.depth + 1 }

/-- The blocks among a parent's nodes, the last of a name first. -/
def overrides (f : Frame) (nodes : List Node) : List (String × List Node × ContentType) :=
  (nodes.filterMap fun
    | .block name nodes _ => some (name, nodes, f.contentType)
    | _ => none).reverse

/-- The frame with more blocks, which count less than those it has. -/
def withOverrides (f : Frame) (nodes : List Node) : Frame :=
  { f with blocks := f.blocks ++ f.overrides nodes }

end Frame

/-- The scopes that a section's body is rendered with, one after the other: none
pushes nothing. What is undefined, null or false has no pass, a sequence one for each
element, and anything else one; an inverted section has one pass where a section has
none. -/
def sectionPasses (value : Option Data) : List (Option Data) :=
  match value with
  | none => []
  | some v =>
    match v.kind with
    | .null => []
    | .bool false => []
    | .bool true => [none]
    | .sequence => (v.children?.getD []).map some
    | .number => [some v]
    | .string => [some v]
    | .mapping => [some v]

/-- The passes of a section or of an inverted one. -/
def passes (inverted : Bool) (value : Option Data) : List (Option Data) :=
  if inverted then
    if (sectionPasses value).isEmpty then [none] else []
  else sectionPasses value

namespace Collaborators

/-- The text of a value as a variable writes it. -/
def valueText (c : Collaborators) (f : Frame) (escaped : Bool) (value : Option Data) : String :=
  let text := match value with
    | none => ""
    | some v => v.text
  if escaped then c.escaper text f.contentType else text

/-- The template that a partial or parent includes. The limit comes before the
look-up. -/
def withTemplate (c : Collaborators) (f : Frame) (name : String) (position : Position)
    (next : Template → Run RenderError) : Run RenderError :=
  if maxInclusions ≤ f.depth then .fail (.recursionLimitExceeded name f.depth position)
  else
    (Run.piece (.lookup name)).andThen fun _ =>
      match c.templates name with
      | none => .fail (.partialNotFound name position)
      | some t => next t

/-- How many levels are open when so many may still be entered. -/
def levelsOpen (room : Nat) : Nat :=
  maxNesting - room

@[simp] theorem levelsOpen_zero : levelsOpen 0 = maxNesting := rfl

/-- Renders a node. The first argument is the number of levels that may still be
entered; sections, partials, blocks and parents enter one. -/
def renderNode (c : Collaborators) (room : Nat) (f : Frame) (scopes : Scopes) (node : Node) :
    Run RenderError :=
  match node with
  | .text s => .piece (.text s)
  | .interpolation expression escaped position =>
    match c.evaluate scopes position expression with
    | .error e => .fail e
    | .ok value => .piece (.value (c.valueText f escaped value))
  | .sect expression inverted nodes position =>
    match c.evaluate scopes position expression with
    | .error e => .fail e
    | .ok value =>
      match room with
      | 0 => .fail (.nestingLimitExceeded (levelsOpen room) position)
      | room + 1 =>
        Run.each
          (fun pushed => Run.each (renderNode c room f (scopes.pushAny pushed)) nodes)
          (passes inverted value)
  | .inclusion name indent position =>
    c.withTemplate f name position fun t =>
      match room with
      | 0 => .fail (.nestingLimitExceeded (levelsOpen room) position)
      | room + 1 => (Run.each (renderNode c room (f.entering t) scopes) t.nodes).region indent
  | .block name nodes position =>
    match room with
    | 0 => .fail (.nestingLimitExceeded (levelsOpen room) position)
    | room + 1 =>
      match f.blocks.lookup name with
      | none => Run.each (renderNode c room f scopes) nodes
      | some (replacement, contentType) =>
        Run.each (renderNode c room { f with contentType } scopes) replacement
  | .parent name indent overrides position =>
    c.withTemplate f name position fun t =>
      match room with
      | 0 => .fail (.nestingLimitExceeded (levelsOpen room) position)
      | room + 1 =>
        (Run.each (renderNode c room ((f.withOverrides overrides).entering t) scopes)
          t.nodes).region indent
termination_by structural room

def renderNodes (c : Collaborators) (room : Nat) (f : Frame) (scopes : Scopes)
    (nodes : List Node) : Run RenderError :=
  Run.each (c.renderNode room f scopes) nodes

end Collaborators

namespace Template

def run (t : Template) (data : Data) (c : Collaborators) : Run RenderError :=
  c.renderNodes maxNesting ⟨t.contentType, 0, []⟩ (.root data) t.nodes

/-- Renders a template. There is a text only if all of it could be written. -/
def render (t : Template) (data : Data) (c : Collaborators) : Except RenderError String :=
  let run := t.run data c
  match run.error with
  | some e => .error e
  | none => .ok (({} : Output).writeAll run.pieces).buffer

def renderEvents (t : Template) (data : Data) (c : Collaborators) : List Event :=
  .rendering t.contentType :: (Piece.allLookups (t.run data c).pieces).map .lookup

end Template

end Mustache
