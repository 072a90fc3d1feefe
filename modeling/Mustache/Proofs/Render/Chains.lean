import Mathlib.Algebra.BigOperators.Group.Finset.Basic
import Mathlib.Algebra.Order.BigOperators.Group.Finset
import Mustache.Proofs.Render.Cycles
import Mustache.Proofs.Render.Limits

/-!
Chains of visits. The nodes around a visit lead to each other and to it, so without a cycle
they are different nodes, of which there are only so many. Main statement: templates without
cycles through inclusions or overrides, and with at most 64 nodes with a body in all, are
rendered within the limits.
-/

namespace Mustache

open Relation

/-- The nodes of a template that have a body. -/
def Template.levelNodes (t : Template) : List Node :=
  (Node.subtrees t.nodes).filter (·.isLevel)

namespace Collaborators

/-- The nodes with a body in the stored template of a name, if there is one. -/
def levelNodes (c : Collaborators) (name : String) : List Node :=
  match c.templates name with
  | none => []
  | some t => t.levelNodes

/-- The template and any stored ones have no more nodes with a body than the limit. -/
def LevelsAtMost (c : Collaborators) (root : Template) (limit : Nat) : Prop :=
  ∀ names : Finset String,
    root.levelNodes.length + names.sum (fun name => (c.levelNodes name).length) ≤ limit

variable {c : Collaborators} {root : Template} {limit : Nat}

/-- It is enough to count the templates of all names that are stored. -/
theorem levelsAtMost_of_names (known : Finset String)
    (stored : ∀ name t, c.templates name = some t → name ∈ known)
    (few : root.levelNodes.length + known.sum (fun name => (c.levelNodes name).length) ≤ limit) :
    c.LevelsAtMost root limit := by
  intro names
  refine Nat.le_trans (Nat.add_le_add_left (Finset.sum_le_sum_of_ne_zero ?_) _) few
  intro name _ present
  cases found : c.templates name with
  | none => simp [levelNodes, found] at present
  | some t => exact stored name t found

private theorem Within.mem_levelNodes {n : Node} (within : c.Within root n)
    (level : n.isLevel = true) : n ∈ root.levelNodes ∨ ∃ name, n ∈ c.levelNodes name := by
  obtain ⟨t, reached, inside⟩ := within
  have member : n ∈ t.levelNodes := List.mem_filter.mpr ⟨inside, level⟩
  cases reached with
  | root => exact .inl member
  | @included _ _ _ name earlier place names found =>
    refine .inr ⟨name, ?_⟩
    rw [levelNodes, found]
    exact member

/-- Finitely many nodes with a body lie in finitely many stored templates. -/
theorem exists_names {chain : List Node}
    (levels : ∀ n ∈ chain, c.Within root n ∧ n.isLevel = true) :
    ∃ names : Finset String, ∀ n ∈ chain,
      n ∈ root.levelNodes ∨ ∃ name ∈ names, n ∈ c.levelNodes name := by
  induction chain with
  | nil => exact ⟨∅, by simp⟩
  | cons m rest ih =>
    obtain ⟨⟨within, level⟩, others⟩ := List.forall_mem_cons.mp levels
    obtain ⟨names, placed⟩ := ih others
    rcases within.mem_levelNodes level with own | ⟨name, stored⟩
    · exact ⟨names, List.forall_mem_cons.mpr ⟨.inl own, placed⟩⟩
    · refine ⟨insert name names, List.forall_mem_cons.mpr ⟨?_, ?_⟩⟩
      · exact .inr ⟨name, Finset.mem_insert_self name names, stored⟩
      · intro n member
        rcases placed n member with own | ⟨other, known, present⟩
        · exact .inl own
        · exact .inr ⟨other, Finset.mem_insert_of_mem known, present⟩

/-- Different nodes with a body are no more than there are in all templates. -/
theorem LevelsAtMost.length_le (few : c.LevelsAtMost root limit) {chain : List Node}
    (different : chain.Nodup) (levels : ∀ n ∈ chain, c.Within root n ∧ n.isLevel = true) :
    chain.length ≤ limit := by
  obtain ⟨names, placed⟩ := exists_names levels
  have covered : chain ⊆ root.levelNodes ++ names.toList.flatMap c.levelNodes := by
    intro n member
    rcases placed n member with own | ⟨name, known, stored⟩
    · exact List.mem_append_left _ own
    · exact List.mem_append_right _
        (List.mem_flatMap.mpr ⟨name, Finset.mem_toList.mpr known, stored⟩)
  calc chain.length
    _ ≤ (root.levelNodes ++ names.toList.flatMap c.levelNodes).length :=
      different.length_le_of_subset covered
    _ = root.levelNodes.length + names.sum (fun name => (c.levelNodes name).length) := by
      rw [List.length_append, List.length_flatMap, Finset.sum_map_toList]
    _ ≤ limit := few names

end Collaborators

/-- What is known of a visit: the nodes around it have a body and lead to each other and to its
node, all of them are in templates that can be reached, and so are the overrides. -/
structure Visit.Traced (v : Visit) (c : Collaborators) (root : Template) : Prop where
  within : c.Within root v.node
  around : ∀ n ∈ v.enclosing, c.Within root n ∧ n.isLevel = true
  chain : (v.node :: v.enclosing).Pairwise fun inner outer => TransGen (c.Leads root) outer inner
  overrides : ∀ b ∈ v.frame.blocks, c.Overrides root b.1 b.2.1

namespace Visit

variable {c : Collaborators} {root : Template} {v w : Visit}

theorem Traced.inside (traced : v.Traced c root) (level : v.node.isLevel = true) {f : Frame}
    (scopes : Scopes) {n : Node} (within : c.Within root n) (leads : c.Leads root v.node n)
    (overrides : ∀ b ∈ f.blocks, c.Overrides root b.1 b.2.1) :
    (v.inside f scopes n).Traced c root where
  within := within
  around := by
    intro m member
    rcases List.mem_cons.mp member with rfl | outer
    · exact ⟨traced.within, level⟩
    · exact traced.around m outer
  chain := by
    refine List.pairwise_cons.mpr ⟨?_, traced.chain⟩
    intro m member
    rcases List.mem_cons.mp member with rfl | outer
    · exact .single leads
    · exact ((List.pairwise_cons.mp traced.chain).1 m outer).tail leads
  overrides := overrides

private theorem overrides_withOverrides {f : Frame} {nodes : List Node}
    (overrides : ∀ b ∈ f.blocks, c.Overrides root b.1 b.2.1)
    (added : ∀ name body q, .block name body q ∈ nodes → c.Overrides root name body) :
    ∀ b ∈ (f.withOverrides nodes).blocks, c.Overrides root b.1 b.2.1 := by
  intro b member
  rcases List.mem_append.mp member with before | new
  · exact overrides b before
  · obtain ⟨q, present, -⟩ := Frame.mem_overrides_iff.mp new
    exact added b.1 b.2.1 q present

theorem Traced.content (traced : v.Traced c root) (level : v.node.isLevel = true)
    (scopes : Scopes) {n : Node} (member : n ∈ v.node.content) :
    (v.inside v.frame scopes n).Traced c root :=
  traced.inside level scopes (traced.within.child (Node.children_of_content member))
    (.inl (.inl member)) traced.overrides

theorem Traced.included (traced : v.Traced c root) {name : String} {t : Template} {f : Frame}
    (names : v.node.included? = some name) (found : c.templates name = some t) {n : Node}
    (member : n ∈ t.nodes) (overrides : ∀ b ∈ f.blocks, c.Overrides root b.1 b.2.1) :
    (v.inside (f.entering t) v.scopes n).Traced c root :=
  traced.inside (Node.isLevel_of_included? names) v.scopes
    ((traced.within.reaches names found).within member)
    (.inl (.inr ⟨name, t, names, found, member⟩)) overrides

/-- A descent leads from the node of the one visit to that of the other. -/
theorem Traced.descent (traced : v.Traced c root) (step : c.Descent v w) : w.Traced c root := by
  have level := step.eq_inside.1
  cases step with
  | sect node member => exact traced.content level _ (by rw [node]; exact member)
  | inclusion node room found member =>
    exact traced.included (by rw [node]; rfl) found member traced.overrides
  | standard node member => exact traced.content level _ (by rw [node]; exact member)
  | @override name _ replacement contentType _ _ node found member =>
    have override := traced.overrides _ (Frame.mem_of_lookup found)
    have shown : v.node.blockName? = some name := by rw [node]; rfl
    exact traced.inside level _ (override.within member)
      (.inr ⟨name, replacement, shown, override, member⟩) traced.overrides
  | @parent name indent overrides p t _ node room found member =>
    have within : c.Within root (.parent name indent overrides p) := node ▸ traced.within
    refine traced.included (by rw [node]; rfl) found member ?_
    exact overrides_withOverrides traced.overrides
      fun _ _ q present => ⟨name, indent, overrides, p, q, within, present⟩

end Visit

namespace Collaborators

variable {c : Collaborators} {root : Template} {data : Data} {v : Visit} {limit : Nat}

/-- However a rendering comes to a visit, the nodes around it lead to it. -/
theorem Reached.traced (reached : c.Reached root data v) : v.Traced c root := by
  induction reached with
  | outermost member =>
    obtain ⟨n, present, rfl⟩ := List.mem_map.mp member
    exact ⟨Reaches.root.within present, by simp, by simp, by simp⟩
  | inside outer member ih => exact ih.descent (descent_of_mem member).2

end Collaborators

namespace Visit

variable {c : Collaborators} {root : Template} {v : Visit} {limit : Nat}

/-- Without a cycle there are fewer nodes around a node with a body than there are in all. -/
theorem Traced.length_lt (traced : v.Traced c root) (acyclic : Acyclic (c.Leads root))
    (few : c.LevelsAtMost root limit) (level : v.node.isLevel = true) :
    v.enclosing.length < limit := by
  have different : (v.node :: v.enclosing).Nodup := by
    refine traced.chain.imp fun leads same => ?_
    subst same
    exact acyclic _ leads
  exact few.length_le different (List.forall_mem_cons.mpr ⟨⟨traced.within, level⟩, traced.around⟩)

end Visit

/-- The limits only stop cyclic or large templates. Where inclusions go down, overrides go down,
and there are at most 64 nodes with a body, neither limit is ever met. -/
theorem Template.render_of_descend {c : Collaborators} {root : Template}
    {templateRank blockRank : String → Nat} (inclusions : c.InclusionsDescend templateRank)
    (overrides : c.OverridesDescend root blockRank) (few : c.LevelsAtMost root 64) (data : Data) :
    (∀ name depth p, root.render data c ≠ .error (.recursionLimitExceeded name depth p)) ∧
      ∀ depth p, root.render data c ≠ .error (.nestingLimitExceeded depth p) := by
  have acyclic := overrides.acyclic_leads inclusions.acyclic_opens
  have around {v : Visit} (reached : c.Reached root data v) (level : v.node.isLevel = true) :
      v.nesting < 64 := by
    rw [reached.bounded.nesting_eq]
    exact reached.traced.length_lt acyclic few level
  constructor
  · intro name depth p failed
    obtain ⟨v, reached, failure⟩ := Collaborators.exists_failure failed
    cases failure with
    | recursion names deep =>
      have shallow := around reached (Node.isLevel_of_included? names)
      have depth := reached.bounded.depth_le_nesting
      exact absurd (Nat.le_trans deep depth) (Nat.not_le.mpr shallow)
  · intro depth p failed
    obtain ⟨v, reached, failure⟩ := Collaborators.exists_failure failed
    cases failure with
    | nesting level deep =>
      have shallow := around reached level
      simp only [maxNesting] at deep
      omega

/-- What is found where only one template is stored. -/
theorem Collaborators.eq_of_only {key name : String} {page t : Template}
    (found : (if name = key then some page else none) = some t) : name = key ∧ t = page := by
  obtain ⟨same, stored⟩ := Option.ite_none_right_eq_some.mp found
  exact ⟨same, (Option.some.inj stored).symm⟩

/-- An override whose body has a block of its own name is rendered inside itself without end,
although nothing that is stored includes anything. -/
theorem Template.render_override_in_itself :
    let source :=
      "\x7b\x7b<p\x7d\x7d\x7b\x7b$b\x7d\x7d\x7b\x7b$b\x7d\x7d" ++
        "\x7b\x7b/b\x7d\x7d\x7b\x7b/b\x7d\x7d\x7b\x7b/p\x7d\x7d"
    let root : Template := ⟨[.parent "p" ""
      [.block "b" [.block "b" [] ⟨1, 13, 12⟩] ⟨1, 7, 6⟩] ⟨1, 1, 0⟩], .html⟩
    let page : Template := ⟨[.block "b" [] ⟨1, 1, 0⟩], .html⟩
    let c : Collaborators := { templates := fun name => if name = "p" then some page else none }
    compile {} source = .ok root ∧
      compile {} "\x7b\x7b$b\x7d\x7d\x7b\x7b/b\x7d\x7d" = .ok page ∧
      c.InclusionsDescend (fun _ => 0) ∧ c.LevelsAtMost root 64 ∧
      root.render (.json .null) c = .error (.nestingLimitExceeded 128 ⟨1, 13, 12⟩) := by
  intro source root page c
  have stored {name : String} {t : Template} (found : c.templates name = some t) :
      name = "p" ∧ t = page := Collaborators.eq_of_only found
  have alone : page.SelfContained := by decide
  refine ⟨by cbv, by cbv, ?_, ?_, by decide +kernel⟩
  · exact Collaborators.inclusionsDescend_of_selfContained fun _ _ found => (stored found).2 ▸ alone
  · refine Collaborators.levelsAtMost_of_names {"p"} ?_ ?_
    · intro name t found
      simp [stored found]
    · rw [Finset.sum_singleton]
      decide

/-- A block in the body of an override, under another name. -/
theorem Template.render_of_descend_inner :
    let here : Position := ⟨1, 1, 0⟩
    let body : List Node := [.text "[", .block "d" [.text "x"] here, .text "]"]
    let root : Template := ⟨[.parent "p" "" [.block "b" body here] here], .html⟩
    let page : Template := ⟨[.block "b" [] here], .html⟩
    let c : Collaborators := { templates := fun name => if name = "p" then some page else none }
    c.InclusionsDescend (fun _ => 0) ∧
      c.OverridesDescend root (fun name => if name = "b" then 1 else 0) ∧ c.LevelsAtMost root 64 ∧
      root.render (.json .null) c = .ok "[x]" ∧
      (∀ name depth p,
        root.render (.json .null) c ≠ .error (.recursionLimitExceeded name depth p)) ∧
      ∀ depth p, root.render (.json .null) c ≠ .error (.nestingLimitExceeded depth p) := by
  intro here body root page c
  have stored {name : String} {t : Template} (found : c.templates name = some t) :
      name = "p" ∧ t = page := Collaborators.eq_of_only found
  have alone : page.SelfContained := by decide
  have bodyNodes : ∀ n ∈ Node.subtrees body,
      n.included? = none ∧ (n.blockName? = none ∨ n.blockName? = some "d") := by decide
  have inclusions : c.InclusionsDescend (fun _ => 0) :=
    Collaborators.inclusionsDescend_of_selfContained fun _ _ found => (stored found).2 ▸ alone
  have overrides : c.OverridesDescend root (fun name => if name = "b" then 1 else 0) := by
    rintro name replacement ⟨included, indent, nodes, p, q, ⟨t, reached, inside⟩, member⟩
    cases reached with
    | root =>
      -- the only parent is that of the root, and "b" its only override
      simp only [root, body, Node.subtrees, Node.subtree, List.append_nil, List.cons_append,
        List.nil_append, List.mem_cons, Node.parent.injEq, reduceCtorEq, List.not_mem_nil,
        or_false] at inside
      obtain ⟨-, -, rfl, -⟩ := inside
      obtain ⟨rfl, rfl, -⟩ := Node.block.inj (List.mem_singleton.mp member)
      intro n shown other names
      have place := shown.mem_subtrees fun n inside => (bodyNodes n inside).1
      rcases (bodyNodes n place).2 with none | inner
      · cases names.symm.trans none
      · cases names.symm.trans inner
        decide
    | included earlier place names found =>
      obtain ⟨-, rfl⟩ := stored found
      cases alone _ inside
  have few : c.LevelsAtMost root 64 := by
    refine Collaborators.levelsAtMost_of_names {"p"} ?_ ?_
    · intro name t found
      simp [stored found]
    · rw [Finset.sum_singleton]
      decide
  have done := render_of_descend inclusions overrides few (.json .null)
  exact ⟨inclusions, overrides, few, by decide +kernel, done⟩

end Mustache
