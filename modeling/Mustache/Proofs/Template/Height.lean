import Mustache.Proofs.Template.Subtrees

namespace Mustache

namespace Node

mutual

/-- How many scopes are inside each other in a node, its own included. -/
def height : Node → Nat
  | text _ => 0
  | interpolation _ _ _ => 0
  | sect _ _ nodes _ => heightAll nodes + 1
  | inclusion _ _ _ => 0
  | block _ nodes _ => heightAll nodes + 1
  | parent _ _ overrides _ => heightAll overrides + 1
termination_by structural n => n

def heightAll : List Node → Nat
  | [] => 0
  | n :: rest => max (height n) (heightAll rest)
termination_by structural nodes => nodes

end

@[simp] theorem heightAll_append (first second : List Node) :
    heightAll (first ++ second) = max (heightAll first) (heightAll second) := by
  induction first with
  | nil => simp [heightAll]
  | cons n rest ih => simp [heightAll, ih, Nat.max_assoc]

theorem height_le_heightAll {n : Node} {nodes : List Node} (member : n ∈ nodes) :
    n.height ≤ heightAll nodes := by
  induction nodes with
  | nil => cases member
  | cons m rest ih =>
    rcases List.mem_cons.mp member with rfl | later
    · exact Nat.le_max_left _ _
    · exact Nat.le_trans (ih later) (Nat.le_max_right _ _)

theorem height_lt_of_mem_children {n child : Node} (member : child ∈ n.children) :
    child.height < n.height := by
  cases n with
  | sect e inverted nodes p => exact Nat.lt_succ_of_le (height_le_heightAll member)
  | block name nodes p => exact Nat.lt_succ_of_le (height_le_heightAll member)
  | parent name indent overrides p => exact Nat.lt_succ_of_le (height_le_heightAll member)
  | _ => cases member

end Node

private theorem OpenScope.height_toNode (s : OpenScope) :
    s.toNode.height = Node.heightAll s.nodes + 1 := by
  unfold toNode
  split <;> rfl

theorem OpenScope.heightAll_add_le (s : OpenScope) (n : Node) :
    Node.heightAll (s.add n).nodes ≤ max (Node.heightAll s.nodes) n.height := by
  rw [add_eq]
  split
  · simp [Node.heightAll]
  · exact Nat.le_max_left _ _

namespace Builder

/-- A builder that has used no more levels than there are: at each open scope, those around it
and those of the nodes in it. -/
structure Shallow (b : Builder) : Prop where
  nodes : Node.heightAll b.nodes ≤ maxNesting
  scopes : Everywhere (fun _ s outer => Node.heightAll s.nodes + outer.length < maxNesting) b.scopes

variable {b b' : Builder} {t : Tag}

theorem Shallow.add (shallow : b.Shallow) {n : Node}
    (fits : n.height + b.scopes.length ≤ maxNesting) : (b.add n).Shallow := by
  have outermost := shallow.nodes
  have inner := shallow.scopes
  unfold Builder.add
  split
  · rename_i none
    refine ⟨?_, none ▸ everywhere_nil _⟩
    simp only [none, List.length_nil] at fits
    simp only [Node.heightAll_append, Node.heightAll]
    omega
  · rename_i s outer scopes
    rw [scopes, everywhere_cons] at inner
    simp only [scopes, List.length_cons] at fits
    refine ⟨outermost, everywhere_cons.mpr ⟨?_, inner.2⟩⟩
    have higher := s.heightAll_add_le n
    omega

/-- A scope that is closed becomes a node one level further out. -/
theorem Shallow.leave (shallow : b.Shallow) {s : OpenScope} {outer : List OpenScope}
    (scopes : b.scopes = s :: outer) :
    (Builder.add { b with scopes := outer } s.toNode).Shallow := by
  have inner := shallow.scopes
  rw [scopes, everywhere_cons] at inner
  have outside : Shallow { b with scopes := outer } := ⟨shallow.nodes, inner.2⟩
  refine outside.add ?_
  rw [OpenScope.height_toNode, Nat.add_right_comm]
  exact inner.1

/-- There are never more open scopes than levels. -/
theorem Shallow.length_le (shallow : b.Shallow) : b.scopes.length ≤ maxNesting := by
  have inner := shallow.scopes
  cases scopes : b.scopes with
  | nil => exact Nat.zero_le _
  | cons s outer =>
    rw [scopes, everywhere_cons] at inner
    simp only [List.length_cons]
    omega

private theorem Shallow.add_leaf (shallow : b.Shallow) {n : Node} (leaf : n.height = 0) :
    (b.add n).Shallow := by
  apply shallow.add
  rw [leaf, Nat.zero_add]
  exact shallow.length_le

theorem Step.shallow (step : Step b t b') (shallow : b.Shallow) : b'.Shallow := by
  cases step with
  | interpolation kind parsed => exact shallow.add_leaf rfl
  | enter opens holds room =>
    refine ⟨shallow.nodes, everywhere_cons.mpr ⟨?_, shallow.scopes⟩⟩
    rw [Node.heightAll, Nat.zero_add]
    exact room
  | leave kind scopes closed => exact shallow.leave scopes
  | inclusion kind holds => exact shallow.add_leaf rfl
  | pragma kind => exact ⟨shallow.nodes, shallow.scopes⟩
  | skip kind => exact shallow

theorem Shallow.addToken {token : Token} (shallow : b.Shallow)
    (taken : b.addToken token = .ok b') : b'.Shallow := by
  cases token with
  | text s =>
    obtain rfl := Except.ok.inj taken
    exact shallow.add_leaf rfl
  | tag t => exact (step_of_addTag taken).shallow shallow

theorem Shallow.addTokens {tokens : List Token} (shallow : b.Shallow)
    (taken : b.addTokens tokens = .ok b') : b'.Shallow := by
  induction tokens generalizing b with
  | nil =>
    obtain rfl := Except.ok.inj taken
    exact shallow
  | cons t rest ih =>
    unfold Builder.addTokens at taken
    split at taken
    · cases taken
    · rename_i next first
      exact ih (shallow.addToken first) taken

end Builder

/-- A compiled template is no higher than the levels that may be entered. -/
theorem Template.heightAll_le_of_compile {config : Configuration} {source : String} {t : Template}
    (compiled : compile config source = .ok t) : Node.heightAll t.nodes ≤ maxNesting := by
  obtain ⟨b, taken, -, -, rfl⟩ := ofScan_eq_ok_iff.mp compiled
  have initially : (Builder.start config.contentType).Shallow :=
    ⟨Nat.zero_le _, everywhere_nil _⟩
  exact (initially.addTokens taken).nodes

end Mustache
