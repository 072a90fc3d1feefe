import Mustache.Proofs.Template.Subtrees
import Mustache.Render.Basic

namespace Mustache

/-- The name of the template that a partial or parent includes. -/
def Node.included? : Node → Option String
  | inclusion name _ _ => some name
  | parent name _ _ _ => some name
  | _ => none

/-- The override that is found for a name is one of those that are listed. -/
theorem Frame.mem_of_lookup {blocks : List (String × List Node × ContentType)} {name : String}
    {replacement : List Node × ContentType} (found : blocks.lookup name = some replacement) :
    (name, replacement) ∈ blocks := by
  obtain ⟨before, behind, split, -⟩ := List.lookup_eq_some_iff.mp found
  simp [split]

/-- The overrides of a parent tag are the blocks directly inside it. -/
theorem Frame.mem_overrides_iff {f : Frame} {nodes : List Node}
    {b : String × List Node × ContentType} :
    b ∈ f.overrides nodes ↔ ∃ p, .block b.1 b.2.1 p ∈ nodes ∧ b.2.2 = f.contentType := by
  unfold overrides
  rw [List.mem_reverse, List.mem_filterMap]
  constructor
  · rintro ⟨n, present, same⟩
    cases n with
    | block name body p =>
      cases same
      exact ⟨p, present, rfl⟩
    | _ => cases same
  · rintro ⟨p, present, contentType⟩
    exact ⟨_, present, by rw [← contentType]⟩

namespace Collaborators

/-- The templates that can be reached from a template. -/
inductive Reaches (c : Collaborators) (root : Template) : Template → Prop where
  | root : Reaches c root root
  | included {t u : Template} {n : Node} {name : String} (earlier : Reaches c root t)
      (inside : n ∈ Node.subtrees t.nodes) (names : n.included? = some name)
      (found : c.templates name = some u) : Reaches c root u

/-- A node somewhere in a template that can be reached. -/
def Within (c : Collaborators) (root : Template) (n : Node) : Prop :=
  ∃ t, c.Reaches root t ∧ n ∈ Node.subtrees t.nodes

variable {c : Collaborators} {root : Template}

theorem Reaches.within {t : Template} (reached : c.Reaches root t) {n : Node}
    (member : n ∈ t.nodes) : c.Within root n :=
  ⟨t, reached, Node.mem_subtrees_of_mem member⟩

theorem Within.child {n child : Node} (within : c.Within root n) (member : child ∈ n.children) :
    c.Within root child := by
  obtain ⟨t, reached, inside⟩ := within
  exact ⟨t, reached, Node.mem_subtrees_trans t.nodes inside member⟩

theorem Within.reaches {n : Node} (within : c.Within root n) {name : String} {u : Template}
    (names : n.included? = some name) (found : c.templates name = some u) :
    c.Reaches root u := by
  obtain ⟨t, reached, inside⟩ := within
  exact .included reached inside names found

/-- Nothing outside a set of templates is reached when the set is closed under inclusion. -/
theorem Reaches.mem_of_closed {P : Template → Prop} {t : Template} (reached : c.Reaches root t)
    (start : P root)
    (closed : ∀ t, P t → ∀ n ∈ Node.subtrees t.nodes, ∀ name u, n.included? = some name →
      c.templates name = some u → P u) : P t := by
  induction reached with
  | root => exact start
  | included earlier inside names found ih => exact closed _ ih _ inside _ _ names found

end Collaborators

end Mustache
