import Mathlib.Logic.Relation
import Mustache.Proofs.Render.SelfContained

/-!
Where rendering can go from a node: into the nodes it has of its own, into a template that it
includes, and from a block into an override. The first goes down in a tree. The second goes
down when names of templates have ranks that fall along inclusions, and the third when names of
blocks have ranks that fall from an override to the blocks that its body shows. Main statement:
with both, no node is ever rendered inside itself.
-/

namespace Mustache

open Relation

/-- Nothing leads back to itself. -/
def Acyclic {α : Type} (r : α → α → Prop) : Prop :=
  ∀ a, ¬ TransGen r a a

section Acyclic

variable {α : Type} {r s : α → α → Prop} {rank : α → Nat}

private theorem acyclic_of_lt (lower : ∀ a b, r a b → rank b < rank a) : Acyclic r := by
  have falls {a b : α} (path : TransGen r a b) : rank b < rank a := by
    induction path with
    | single step => exact lower _ _ step
    | tail path step ih => exact Nat.lt_trans (lower _ _ step) ih
  intro a cycle
  exact Nat.lt_irrefl _ (falls cycle)

/-- A path after a ranked step ends with plain steps after a ranked step that is no higher. -/
theorem exists_latest (lower : ∀ a b d e, s a b → ReflTransGen r b d → s d e → rank d < rank a)
    {a b d : α} (first : s a b) (path : ReflTransGen (fun a b => r a b ∨ s a b) b d) :
    ∃ x y, s x y ∧ rank x ≤ rank a ∧ ReflTransGen r y d := by
  induction path with
  | refl => exact ⟨a, b, first, Nat.le_refl _, .refl⟩
  | tail path step ih =>
    obtain ⟨x, y, ranked, lowered, rest⟩ := ih
    rcases step with plain | again
    · exact ⟨x, y, ranked, lowered, rest.tail plain⟩
    · have falls := lower _ _ _ _ ranked rest again
      exact ⟨_, _, again, Nat.le_trans (Nat.le_of_lt falls) lowered, .refl⟩

/-- Steps of a second kind make no cycle when ranks fall from each of them to the next. -/
theorem Acyclic.or_of_rank (acyclic : Acyclic r) (rank : α → Nat)
    (lower : ∀ a b d e, s a b → ReflTransGen r b d → s d e → rank d < rank a) :
    Acyclic fun a b => r a b ∨ s a b := by
  have ranked {a b : α} (path : TransGen (fun a b => r a b ∨ s a b) a b) :
      TransGen r a b ∨ ∃ x y, ReflTransGen (fun a b => r a b ∨ s a b) a x ∧ s x y ∧
        ReflTransGen (fun a b => r a b ∨ s a b) y b := by
    induction path with
    | single step =>
      rcases step with plain | step
      · exact .inl (.single plain)
      · exact .inr ⟨_, _, .refl, step, .refl⟩
    | tail path step ih =>
      rcases step with plain | again
      · rcases ih with before | ⟨x, y, start, first, rest⟩
        · exact .inl (before.tail plain)
        · exact .inr ⟨x, y, start, first, rest.tail (.inl plain)⟩
      · exact .inr ⟨_, _, path.to_reflTransGen, again, .refl⟩
  intro a cycle
  rcases ranked cycle with plain | ⟨x, y, start, step, rest⟩
  · exact acyclic a plain
  · -- once around the cycle, from the ranked step to itself
    obtain ⟨x', y', again, lowered, plain⟩ := exists_latest lower step (rest.trans start)
    exact Nat.lt_irrefl _ (Nat.lt_of_lt_of_le (lower _ _ _ _ again plain step) lowered)

end Acyclic

namespace Node

/-- The nodes of a section, or those of a block where nothing overrides it. -/
def content : Node → List Node
  | sect _ _ nodes _ => nodes
  | block _ nodes _ => nodes
  | _ => []

def blockName? : Node → Option String
  | block name _ _ => some name
  | _ => none

theorem children_of_content {n child : Node} (member : child ∈ n.content) :
    child ∈ n.children := by
  cases n with
  | sect e inverted nodes p => exact member
  | block name nodes p => exact member
  | _ => cases member

end Node

namespace Collaborators

/-- From a partial or parent to the nodes of the template that it includes. -/
def Includes (c : Collaborators) (m n : Node) : Prop :=
  ∃ name t, m.included? = some name ∧ c.templates name = some t ∧ n ∈ t.nodes

/-- From a node to those that are rendered in its body where nothing is overridden. -/
def Opens (c : Collaborators) (m n : Node) : Prop :=
  n ∈ m.content ∨ c.Includes m n

/-- What nodes show where nothing is overridden: themselves, and what is rendered in their
bodies. The overrides in a parent are not among it. -/
def Shows (c : Collaborators) (nodes : List Node) (n : Node) : Prop :=
  ∃ m ∈ nodes, ReflTransGen c.Opens m n

/-- The body of a block directly in a parent, somewhere in a template that can be reached. -/
def Overrides (c : Collaborators) (root : Template) (name : String) (body : List Node) : Prop :=
  ∃ included indent overrides p q, c.Within root (.parent included indent overrides p) ∧
    .block name body q ∈ overrides

theorem Overrides.within {c : Collaborators} {root : Template} {name : String} {body : List Node}
    (override : c.Overrides root name body) {n : Node} (member : n ∈ body) : c.Within root n := by
  obtain ⟨included, indent, overrides, p, q, parent, block⟩ := override
  exact (parent.child block).child member

/-- From a block to the nodes of an override of its name. -/
def Replaces (c : Collaborators) (root : Template) (m n : Node) : Prop :=
  ∃ name body, m.blockName? = some name ∧ c.Overrides root name body ∧ n ∈ body

/-- From a node to those that may be rendered in its body. -/
def Leads (c : Collaborators) (root : Template) (m n : Node) : Prop :=
  c.Opens m n ∨ c.Replaces root m n

/-- Inclusions go down: what a stored template includes has a smaller rank. -/
def InclusionsDescend (c : Collaborators) (rank : String → Nat) : Prop :=
  ∀ name t, c.templates name = some t → ∀ n ∈ Node.subtrees t.nodes, ∀ other,
    n.included? = some other → rank other < rank name

/-- Overrides go down: the blocks that the body of an override shows have smaller ranks. -/
def OverridesDescend (c : Collaborators) (root : Template) (rank : String → Nat) : Prop :=
  ∀ name body, c.Overrides root name body → ∀ n, c.Shows body n → ∀ other,
    n.blockName? = some other → rank other < rank name

variable {c : Collaborators} {root : Template} {rank : String → Nat}

theorem inclusionsDescend_of_selfContained
    (alone : ∀ name t, c.templates name = some t → t.SelfContained) : c.InclusionsDescend rank := by
  intro name t found n inside other names
  simp [alone name t found n inside] at names

private theorem mem_subtrees_of_path {nodes : List Node} {m n : Node}
    (path : ReflTransGen (fun m n => n ∈ m.content) m n) (inside : m ∈ Node.subtrees nodes) :
    n ∈ Node.subtrees nodes := by
  induction path with
  | refl => exact inside
  | tail path step ih => exact Node.mem_subtrees_trans nodes ih (Node.children_of_content step)

/-- Bodies that include nothing show no more than what is in them. -/
theorem Shows.mem_subtrees {nodes : List Node} {n : Node} (shown : c.Shows nodes n)
    (alone : ∀ m ∈ Node.subtrees nodes, m.included? = none) : n ∈ Node.subtrees nodes := by
  obtain ⟨m, member, path⟩ := shown
  induction path with
  | refl => exact Node.mem_subtrees_of_mem member
  | tail path step ih =>
    rcases step with child | ⟨name, t, includes, -⟩
    · exact Node.mem_subtrees_trans nodes ih (Node.children_of_content child)
    · simp [alone _ ih] at includes

/-- In one tree nothing leads back, since the height falls. -/
theorem acyclic_content : Acyclic fun m n : Node => n ∈ m.content :=
  acyclic_of_lt fun _ _ step => Node.height_lt_of_mem_children (Node.children_of_content step)

/-- With inclusions nothing leads back either: between two of them lies a stored template. -/
theorem InclusionsDescend.acyclic_opens (descend : c.InclusionsDescend rank) :
    Acyclic c.Opens := by
  refine acyclic_content.or_of_rank (fun n => (n.included?.map rank).getD 0) ?_
  rintro a b d e ⟨name, t, names, found, member⟩ path ⟨other, u, includes, -⟩
  have inside := mem_subtrees_of_path path (Node.mem_subtrees_of_mem member)
  simpa [names, includes] using descend name t found d inside other includes

/-- With overrides nothing leads back either: between two of them is what the body of the first
shows. -/
theorem OverridesDescend.acyclic_leads (overrides : c.OverridesDescend root rank)
    (acyclic : Acyclic c.Opens) : Acyclic (c.Leads root) := by
  refine acyclic.or_of_rank (fun n => (n.blockName?.map rank).getD 0) ?_
  rintro a b d e ⟨name, body, names, override, member⟩ path ⟨other, -, shown, -⟩
  simpa [names, shown] using overrides name body override d ⟨b, member, path⟩ other shown

end Collaborators

end Mustache
