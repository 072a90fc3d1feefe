import Mathlib
import Mustache.Proofs.Render.Visits
import Mustache.Proofs.Template.Height

namespace Mustache

namespace Template

/-- Whether a template includes no other one. -/
def SelfContained (t : Template) : Prop :=
  ∀ n ∈ Node.subtrees t.nodes, n.included? = none

instance (t : Template) : Decidable t.SelfContained :=
  inferInstanceAs (Decidable (∀ n ∈ Node.subtrees t.nodes, n.included? = none))

/-- The errors of the filter calls in a template, at the places of their tags. -/
inductive CallFailure (t : Template) : RenderError → Prop where
  | unknown {n : Node} {e : Expression} {p : Position} {call : FilterCall}
      (inside : n ∈ Node.subtrees t.nodes) (tag : n.expression? = some (e, p))
      (member : call ∈ e.filters) : CallFailure t (.unknownFilter call.name p)
  | failed {n : Node} {e : Expression} {p : Position} {call : FilterCall} {message : String}
      (inside : n ∈ Node.subtrees t.nodes) (tag : n.expression? = some (e, p))
      (member : call ∈ e.filters) : CallFailure t (.filterFailed call.name message p)

end Template

theorem Node.height_pos {n : Node} (level : n.isLevel = true) (includes : n.included? = none) :
    0 < n.height := by
  cases n with
  | sect e inverted nodes p => exact Nat.succ_pos _
  | block name nodes p => exact Nat.succ_pos _
  | text s => cases level
  | interpolation e escaped p => cases level
  | inclusion name indent p => cases includes
  | parent name indent overrides p => cases includes

namespace Visit

variable {t : Template} {v w : Visit} {c : Collaborators}

/-- A visit that stays in a template: nothing is overridden, and there are levels left for all
that is inside the node. -/
structure StaysIn (v : Visit) (t : Template) : Prop where
  inside : v.node ∈ Node.subtrees t.nodes
  plain : v.frame.blocks = []
  room : v.nesting + v.node.height ≤ maxNesting

theorem StaysIn.child (stays : v.StaysIn t) (scopes : Scopes) {n : Node}
    (member : n ∈ v.node.children) : (v.inside v.frame scopes n).StaysIn t where
  inside := Node.mem_subtrees_trans t.nodes stays.inside member
  plain := stays.plain
  room := by
    have lower := Node.height_lt_of_mem_children member
    have room := stays.room
    simp only [Visit.inside]
    omega

/-- Without inclusions, and so without overrides, the descents are those of the tree. -/
theorem StaysIn.descent (alone : t.SelfContained) (stays : v.StaysIn t) (step : c.Descent v w) :
    w.StaysIn t := by
  have includes := alone _ stays.inside
  cases step with
  | sect node member => exact stays.child _ (by rw [node]; exact member)
  | inclusion node => simp [node, Node.included?] at includes
  | standard node member => exact stays.child _ (by rw [node]; exact member)
  | override node found => simp [stays.plain] at found
  | parent node => simp [node, Node.included?] at includes

/-- The height of a node with a body is at least one, so that there is a level for it. -/
theorem StaysIn.callFailure (alone : t.SelfContained) (stays : v.StaysIn t) {e : RenderError}
    (failure : c.Failure v e) : t.CallFailure e := by
  have includes := alone _ stays.inside
  cases failure with
  | unknownFilter tag member => exact .unknown stays.inside tag member
  | filterFailed tag member => exact .failed stays.inside tag member
  | missing names => simp [includes] at names
  | recursion names => simp [includes] at names
  | nesting level deep =>
    have room := stays.room
    have tall := Node.height_pos level includes
    omega

end Visit

/-- A rendering of a template that includes none stays in it. -/
theorem Collaborators.Reached.staysIn {c : Collaborators} {t : Template} {data : Data} {v : Visit}
    (alone : t.SelfContained) (shallow : Node.heightAll t.nodes ≤ maxNesting)
    (reached : c.Reached t data v) : v.StaysIn t := by
  induction reached with
  | outermost member =>
    obtain ⟨n, present, rfl⟩ := List.mem_map.mp member
    refine ⟨Node.mem_subtrees_of_mem present, rfl, ?_⟩
    rw [Nat.zero_add]
    exact Nat.le_trans (Node.height_le_heightAll present) shallow
  | inside outer member ih => exact ih.descent alone (descent_of_mem member).2

/-- The limits of compiling and of rendering agree: a compiled template that includes no other
one gives a text, unless one of its own filter calls fails. -/
theorem Template.render_of_selfContained {config : Configuration} {source : String} {t : Template}
    (compiled : compile config source = .ok t) (alone : t.SelfContained) (data : Data)
    (c : Collaborators) :
    (∃ out, t.render data c = .ok out) ∨ ∃ e, t.render data c = .error e ∧ t.CallFailure e := by
  cases rendered : t.render data c with
  | ok out => exact .inl ⟨out, rfl⟩
  | error e =>
    obtain ⟨v, reached, failure⟩ := Collaborators.exists_failure rendered
    have stays := reached.staysIn alone (heightAll_le_of_compile compiled)
    exact .inr ⟨e, rfl, stays.callFailure alone failure⟩

/-- A filter inside a section and a block, once known and once not. -/
theorem Template.render_of_selfContained_filter :
    let source :=
      "\x7b\x7b#x\x7d\x7d\x7b\x7b$b\x7d\x7d\x7b\x7by|f\x7d\x7d\x7b\x7b/b\x7d\x7d\x7b\x7b/x\x7d\x7d"
    let filtered : Expression := ⟨[.identifier "y"], [⟨"f", []⟩]⟩
    let call : Node := .interpolation filtered true ⟨1, 13, 12⟩
    let nodes : List Node :=
      [.sect ⟨[.identifier "x"], []⟩ false [.block "b" [call] ⟨1, 7, 6⟩] ⟨1, 1, 0⟩]
    let t : Template := ⟨nodes, .html⟩
    let data : Data := .json (.object [("x", .bool true), ("y", .string "<")])
    let known : Collaborators := { filters := fun _ => some fun v _ => .ok v }
    compile {} source = .ok t ∧ t.SelfContained ∧ t.render data known = .ok "&lt;" ∧
      t.render data {} = .error (.unknownFilter "f" ⟨1, 13, 12⟩) ∧
      (∃ out, t.render data known = .ok out) ∧ t.CallFailure (.unknownFilter "f" ⟨1, 13, 12⟩) := by
  intro source filtered call nodes t data known
  have compiled : compile {} source = .ok t := by cbv
  have alone : t.SelfContained := by decide
  have whole : t.render data known = .ok "&lt;" := by decide +kernel
  have failed : t.render data {} = .error (.unknownFilter "f" ⟨1, 13, 12⟩) := by decide +kernel
  refine ⟨compiled, alone, whole, failed, ?_, ?_⟩
  · rcases render_of_selfContained compiled alone data known with fine | ⟨e, other, -⟩
    · exact fine
    · cases whole.symm.trans other
  · rcases render_of_selfContained compiled alone data {} with ⟨out, other⟩ | ⟨e, same, failure⟩
    · cases failed.symm.trans other
    · cases failed.symm.trans same
      exact failure

end Mustache
