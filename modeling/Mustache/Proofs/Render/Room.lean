import Mustache.Proofs.Render.Writing

namespace Mustache

/-- Whether an error says that too many inclusions or levels are open. -/
def RenderError.isLimit : RenderError → Bool
  | recursionLimitExceeded _ _ _ => true
  | nestingLimitExceeded _ _ => true
  | _ => false

namespace Run

/-- No limit ended the run: it went through, or it ended with another error. -/
def Settled (r : Run RenderError) : Prop :=
  ∀ e, r.error = some e → e.isLimit = false

/-- The second run is the first one, unless a limit ended the first. -/
def Persists (r s : Run RenderError) : Prop :=
  r.Settled → s = r

variable {r s : Run RenderError}

theorem Persists.refl (r : Run RenderError) : r.Persists r :=
  fun _ => rfl

theorem Persists.limit {e : RenderError} (limit : e.isLimit = true) (s : Run RenderError) :
    (fail e).Persists s := by
  intro settled
  have other := settled e rfl
  rw [limit] at other
  cases other

theorem Persists.andThen {next more : Unit → Run RenderError} (first : r.Persists s)
    (second : (next ()).Persists (more ())) : (r.andThen next).Persists (s.andThen more) := by
  intro settled
  cases failed : r.error with
  | some e =>
    have ended (k : Unit → Run RenderError) : r.andThen k = r := by simp only [Run.andThen, failed]
    rw [ended] at settled ⊢
    rw [first settled, ended]
  | none =>
    have same : s = r := first fun e impossible => by rw [failed] at impossible; cases impossible
    have later : (next ()).Settled := fun e error =>
      settled e (error_andThen_eq_some_iff.mpr (.inr ⟨failed, error⟩))
    simp only [Run.andThen, same, failed, second later]

theorem Persists.region (inside : r.Persists s) (indent : String) :
    (r.region indent).Persists (s.region indent) := by
  intro settled
  rw [inside settled]

theorem Persists.each {α : Type} {f g : α → Run RenderError}
    (same : ∀ a, (f a).Persists (g a)) (items : List α) :
    (each f items).Persists (each g items) := by
  induction items with
  | nil => exact .refl empty
  | cons a rest ih => exact (same a).andThen ih

end Run

namespace Collaborators

private theorem withTemplate_persists (c : Collaborators) {f g : Frame} (depths : g.depth ≤ f.depth)
    (name : String) (p : Position) {next more : Template → Run RenderError}
    (found : ∀ t, (next t).Persists (more t)) :
    (c.withTemplate f name p next).Persists (c.withTemplate g name p more) := by
  unfold withTemplate
  by_cases limit : maxInclusions ≤ f.depth
  · rw [if_pos limit]
    exact .limit rfl _
  · rw [if_neg limit, if_neg fun reached => limit (Nat.le_trans reached depths)]
    refine (Run.Persists.refl _).andThen ?_
    cases c.templates name with
    | none => exact .refl _
    | some t => exact found t

/-- Nothing but a limit shows how many inclusions and levels are open. -/
theorem renderNode_persists (c : Collaborators) {room room' : Nat} (rooms : room ≤ room')
    (f : Frame) {depth : Nat} (depths : depth ≤ f.depth) (scopes : Scopes) (n : Node) :
    (c.renderNode room f scopes n).Persists (c.renderNode room' { f with depth } scopes n) := by
  -- Every node inside takes a level of both rooms; an inclusion counts in both depths.
  induction room using Nat.strongRecOn generalizing room' f depth scopes n with
  | ind room ih =>
    have nodes {less less' : Nat} (fewer : less < room) (rooms : less ≤ less') (f : Frame)
        {depth : Nat} (depths : depth ≤ f.depth) (scopes : Scopes) (nodes : List Node) :
        (Run.each (c.renderNode less f scopes) nodes).Persists
          (Run.each (c.renderNode less' { f with depth } scopes) nodes) :=
      .each (fun n => ih less fewer rooms f depths scopes n) nodes
    have level {less : Nat} (left : less + 1 ≤ room') :
        ∃ less', room' = less' + 1 ∧ less ≤ less' := by
      obtain ⟨less', rfl⟩ := Nat.exists_eq_add_of_le' left
      exact ⟨less' + less, by omega, by omega⟩
    cases n with
    | text s =>
      rw [renderNode, renderNode]
      exact .refl _
    | interpolation e escaped p =>
      rw [renderNode, renderNode]
      exact .refl _
    | sect e inverted body p =>
      rw [renderNode, renderNode]
      cases c.evaluate scopes p e with
      | error cause => exact .refl _
      | ok value =>
        cases room with
        | zero => exact .limit rfl _
        | succ less =>
          obtain ⟨less', rfl, fewer⟩ := level rooms
          refine .each (fun pushed => ?_) (passes inverted value)
          exact nodes less.lt_succ_self fewer f depths (scopes.pushAny pushed) body
    | inclusion name indent p =>
      rw [renderNode, renderNode]
      refine c.withTemplate_persists depths name p fun t => ?_
      cases room with
      | zero => exact .limit rfl _
      | succ less =>
        obtain ⟨less', rfl, fewer⟩ := level rooms
        have inside := nodes less.lt_succ_self fewer (f.entering t) (Nat.succ_le_succ depths) scopes
        exact (inside t.nodes).region indent
    | block name body p =>
      cases room with
      | zero =>
        rw [renderNode]
        exact .limit rfl _
      | succ less =>
        obtain ⟨less', rfl, fewer⟩ := level rooms
        rw [renderNode, renderNode]
        cases f.blocks.lookup name with
        | none => exact nodes less.lt_succ_self fewer f depths scopes body
        | some replacement =>
          obtain ⟨replacement, contentType⟩ := replacement
          exact nodes less.lt_succ_self fewer { f with contentType } depths scopes replacement
    | parent name indent overrides p =>
      rw [renderNode, renderNode]
      refine c.withTemplate_persists depths name p fun t => ?_
      cases room with
      | zero => exact .limit rfl _
      | succ less =>
        obtain ⟨less', rfl, fewer⟩ := level rooms
        have inside := nodes less.lt_succ_self fewer ((f.withOverrides overrides).entering t)
          (Nat.succ_le_succ depths) scopes
        exact (inside t.nodes).region indent

/-- Rendering with more room left gives the same answer. If with so many inclusions and levels open
it ends otherwise than at a limit, then with fewer of them open, and nothing else changed, it leaves
every output in the same state and ends with the same error, if with any. -/
theorem renderNodes_roomier (c : Collaborators) (f : Frame) {depth nesting nesting' : Nat}
    (depths : depth ≤ f.depth) (levels : nesting' ≤ nesting) (scopes : Scopes) (nodes : List Node)
    (settled : (c.renderNodes (maxNesting - nesting) f scopes nodes).Settled) :
    (c.renderNodes (maxNesting - nesting') { f with depth } scopes nodes).WritesAs
      (c.renderNodes (maxNesting - nesting) f scopes nodes) := by
  have rooms : maxNesting - nesting ≤ maxNesting - nesting' := Nat.sub_le_sub_left levels maxNesting
  have persists := Run.Persists.each (c.renderNode_persists rooms f depths scopes) nodes
  have same : c.renderNodes (maxNesting - nesting') { f with depth } scopes nodes =
      c.renderNodes (maxNesting - nesting) f scopes nodes := persists settled
  rw [same]
  exact .refl _

/-- The last inclusion and the last two levels that are left, and behind them an unknown filter. -/
theorem renderNodes_roomier_last :
    let here : Position := ⟨1, 1, 0⟩
    let there : Position := ⟨2, 1, 9⟩
    let x : Expression := ⟨[.identifier "x"], []⟩
    let nodes : List Node :=
      [.text "a", .sect x false [.inclusion "p" " " here] here,
        .interpolation { x with filters := [⟨"f", []⟩] } true there]
    let scopes : Scopes := .root (.table [("x", .list [.integer 1, .integer 2])])
    let c : Collaborators :=
      { templates := fun _ => some ⟨[.interpolation ⟨[.this], []⟩ true here], .html⟩ }
    let first := c.renderNodes (maxNesting - 126) ⟨.html, 63, []⟩ scopes nodes
    let second := c.renderNodes (maxNesting - 0) ⟨.html, 0, []⟩ scopes nodes
    first.Settled ∧ second.error = some (.unknownFilter "f" there) ∧
      ({} : Output).writeAll second.pieces = ⟨"a 1 2", "", false⟩ := by
  intro here there x nodes scopes c first second
  have failed : first.error = some (.unknownFilter "f" there) := by decide +kernel
  have settled : first.Settled := by
    intro e error
    rw [failed] at error
    cases error
    rfl
  have same := c.renderNodes_roomier ⟨.html, 63, []⟩ (Nat.zero_le 63) (Nat.zero_le 126) scopes nodes
    settled
  refine ⟨settled, same.error.trans failed, ?_⟩
  rw [same.written]
  decide +kernel

end Collaborators

end Mustache
