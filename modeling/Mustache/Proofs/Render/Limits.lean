import Mustache.Proofs.Render.Visits

namespace Mustache

/-- The counts of a visit are those of the nodes around it, and within the limits. -/
structure Visit.Bounded (v : Visit) : Prop where
  nesting_eq : v.nesting = v.enclosing.length
  nesting_le : v.nesting ≤ 128
  depth_eq : v.frame.depth = v.enclosing.countP (·.included?.isSome)
  depth_le : v.frame.depth ≤ 64

namespace Visit

variable {v w : Visit} {c : Collaborators}

/-- Each partial or parent around a visit took a level. -/
theorem Bounded.depth_le_nesting (bounded : v.Bounded) : v.frame.depth ≤ v.nesting := by
  rw [bounded.depth_eq, bounded.nesting_eq]
  exact List.countP_le_length

theorem Bounded.inside (bounded : v.Bounded) (room : v.nesting < maxNesting) {f : Frame}
    (scopes : Scopes) (n : Node) (depth : f.depth = (v.node :: v.enclosing).countP (·.included?.isSome))
    (left : f.depth ≤ 64) : (v.inside f scopes n).Bounded where
  nesting_eq := congrArg (· + 1) bounded.nesting_eq
  nesting_le := room
  depth_eq := depth
  depth_le := left

/-- A descent counts the node that it is inside of, as a partial or parent if it is one. -/
theorem Bounded.descent (bounded : v.Bounded) (room : v.nesting < maxNesting)
    (step : c.Descent v w) : w.Bounded := by
  have stays (plain : v.node.included? = none) :
      v.frame.depth = (v.node :: v.enclosing).countP (·.included?.isSome) := by
    simp [plain, bounded.depth_eq]
  have grows (includes : v.node.included?.isSome = true) :
      v.frame.depth + 1 = (v.node :: v.enclosing).countP (·.included?.isSome) := by
    simp [includes, bounded.depth_eq]
  cases step with
  | sect node => exact bounded.inside room _ _ (stays (by rw [node]; rfl)) bounded.depth_le
  | inclusion node left => exact bounded.inside room _ _ (grows (by rw [node]; rfl)) left
  | standard node => exact bounded.inside room _ _ (stays (by rw [node]; rfl)) bounded.depth_le
  | override node => exact bounded.inside room _ _ (stays (by rw [node]; rfl)) bounded.depth_le
  | parent node left => exact bounded.inside room _ _ (grows (by rw [node]; rfl)) left

end Visit

namespace Collaborators

variable {c : Collaborators} {t : Template} {data : Data} {v : Visit}

/-- However a rendering comes to a visit, its counts are right and within the limits. -/
theorem Reached.bounded (reached : c.Reached t data v) : v.Bounded := by
  induction reached with
  | outermost member =>
    obtain ⟨n, -, rfl⟩ := List.mem_map.mp member
    exact ⟨rfl, Nat.zero_le _, rfl, Nat.zero_le _⟩
  | inside outer member ih =>
    obtain ⟨room, step⟩ := descent_of_mem member
    exact ih.descent room step

/-- A visit that fails at a limit has reached it exactly. -/
theorem Failure.depth_eq {name : String} {depth : Nat} {p : Position} (bounded : v.Bounded)
    (failure : c.Failure v (.recursionLimitExceeded name depth p)) : depth = 64 := by
  cases failure with
  | recursion names deep => exact Nat.le_antisymm bounded.depth_le deep

theorem Failure.nesting_eq {depth : Nat} {p : Position} (bounded : v.Bounded)
    (failure : c.Failure v (.nestingLimitExceeded depth p)) : depth = 128 := by
  cases failure with
  | nesting level deep => exact Nat.le_antisymm bounded.nesting_le deep

end Collaborators

namespace Template

/-- Rendering comes to an end for all templates, also cyclic ones. It is a recursion over
visits, of which there is no endless chain; wherever it comes, the partials and parents that are
open are counted, are at most 64 and no more than the levels, and the levels are the nodes whose
bodies are being rendered, at most 128; and an error at a limit carries that limit. -/
theorem render_bounded (t : Template) (data : Data) (c : Collaborators) :
    (WellFounded fun w v => w ∈ c.descents v) ∧
      t.run data c = Run.each c.visit (t.visits data) ∧
      (∀ v, c.Reached t data v → v.Bounded ∧ v.frame.depth ≤ v.nesting ∧
        c.visit v =
          (c.own v).andThen fun _ => v.node.around (Run.each c.visit (c.descents v))) ∧
      (∀ name depth p, t.render data c = .error (.recursionLimitExceeded name depth p) →
        depth = 64) ∧
      ∀ depth p, t.render data c = .error (.nestingLimitExceeded depth p) → depth = 128 := by
  refine ⟨c.wellFounded_descents, Collaborators.run_eq_visits t data c, ?_, ?_, ?_⟩
  · intro v reached
    have bounded := reached.bounded
    exact ⟨bounded, bounded.depth_le_nesting, Collaborators.visit_eq reached.nesting_le⟩
  · intro name depth p failed
    obtain ⟨v, reached, failure⟩ := Collaborators.exists_failure failed
    exact failure.depth_eq reached.bounded
  · intro depth p failed
    obtain ⟨v, reached, failure⟩ := Collaborators.exists_failure failed
    exact failure.nesting_eq reached.bounded

/-- A template that includes itself, and one that does so three levels deep. -/
theorem render_bounded_cycle :
    let here : Position := ⟨1, 1, 0⟩
    let self : Node := .inclusion "a" "" here
    let deep : Node := .sect ⟨[.identifier "x"], []⟩ false
      [.sect ⟨[.identifier "x"], []⟩ false [self] here] here
    let data : Data := .json (.object [("x", .bool true)])
    let c (n : Node) : Collaborators := { templates := fun _ => some ⟨[n], .html⟩ }
    (∃ depth, render ⟨[self], .html⟩ data (c self) =
      .error (.recursionLimitExceeded "a" depth here) ∧ depth = 64) ∧
    ∃ depth, render ⟨[deep], .html⟩ data (c deep) =
      .error (.nestingLimitExceeded depth here) ∧ depth = 128 := by
  intro here self deep data c
  have recursion : render ⟨[self], .html⟩ data (c self) =
      .error (.recursionLimitExceeded "a" 64 here) := by decide +kernel
  have nesting : render ⟨[deep], .html⟩ data (c deep) =
      .error (.nestingLimitExceeded 128 here) := by decide +kernel
  exact ⟨⟨_, recursion, (render_bounded _ _ _).2.2.2.1 _ _ _ recursion⟩,
    ⟨_, nesting, (render_bounded _ _ _).2.2.2.2 _ _ nesting⟩⟩

end Template

end Mustache
