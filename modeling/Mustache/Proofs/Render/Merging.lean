import Mustache.Proofs.Data.Members
import Mustache.Proofs.Render.Runs

/-!
Overrides that are put together in any order. A reference renderer collects the blocks of a parent
tag one by one and then those in effect, in an order that is left open each time. Main statement: it
has one run, which is that of the renderer.
-/

namespace Mustache

/-- Runs of the elements of a list one after the other, up to the first error. Each is a run that
the element may have. -/
inductive Run.Each {α ε : Type} (may : α → Run ε → Prop) : List α → Run ε → Prop where
  | nil : Each may [] .empty
  | cons {a : α} {rest : List α} {r s : Run ε} (first : may a r) (others : Each may rest s) :
      Each may (a :: rest) (r.andThen fun _ => s)

/-- Blocks put together one by one: those in a parent tag as they stand there, then those in effect
in any order. A block replaces an earlier one of its name. -/
inductive Frame.Merges (f : Frame) (nodes : List Node) :
    List (String × List Node × ContentType) → Prop where
  | inserted {order : List (String × List Node × ContentType)} (perm : order.Perm f.blocks) :
      Merges f nodes (Keyed.ofList ((f.overrides nodes).reverse ++ order))

namespace Collaborators

/-- A run that a partial or parent tag may have, by those of the templates. -/
def MayInclude (c : Collaborators) (f : Frame) (name : String) (position : Position)
    (next : Template → Run RenderError → Prop) (r : Run RenderError) : Prop :=
  if maxInclusions ≤ f.depth then r = .fail (.recursionLimitExceeded name f.depth position)
  else
    ∃ s, r = (Run.piece (.lookup name)).andThen (fun _ => s) ∧
      match c.templates name with
      | none => s = .fail (.partialNotFound name position)
      | some t => next t s

/-- A run that a node may have. It is as the renderer has it but for parent tags: the overrides are
those in a frame whose blocks were put together in some order. -/
def MayRender (c : Collaborators) (room : Nat) (f : Frame) (scopes : Scopes) (node : Node)
    (r : Run RenderError) : Prop :=
  match node with
  | .text s => r = .piece (.text s)
  | .interpolation expression escaped position =>
    match c.evaluate scopes position expression with
    | .error e => r = .fail e
    | .ok value => r = .piece (.value (c.valueText f escaped value))
  | .sect expression inverted nodes position =>
    match c.evaluate scopes position expression with
    | .error e => r = .fail e
    | .ok value =>
      match room with
      | 0 => r = .fail (.nestingLimitExceeded maxNesting position)
      | room + 1 =>
        Run.Each (fun pushed => Run.Each (MayRender c room f (scopes.pushAny pushed)) nodes)
          (passes inverted value) r
  | .inclusion name indent position =>
    c.MayInclude f name position (fun t r =>
      match room with
      | 0 => r = .fail (.nestingLimitExceeded maxNesting position)
      | room + 1 => ∃ s, Run.Each (MayRender c room (f.entering t) scopes) t.nodes s ∧
          r = s.region indent) r
  | .block name nodes position =>
    match room with
    | 0 => r = .fail (.nestingLimitExceeded maxNesting position)
    | room + 1 =>
      match f.blocks.lookup name with
      | none => Run.Each (MayRender c room f scopes) nodes r
      | some (replacement, contentType) =>
        Run.Each (MayRender c room { f with contentType } scopes) replacement r
  | .parent name indent overrides position =>
    c.MayInclude f name position (fun t r =>
      match room with
      | 0 => r = .fail (.nestingLimitExceeded maxNesting position)
      | room + 1 => ∃ blocks s, f.Merges overrides blocks ∧
          Run.Each (MayRender c room (Frame.entering { f with blocks } t) scopes) t.nodes s ∧
            r = s.region indent) r
termination_by structural room

end Collaborators

def Template.MayRender (t : Template) (data : Data) (c : Collaborators)
    (result : Except RenderError String) : Prop :=
  ∃ r, Run.Each (c.MayRender maxNesting ⟨t.contentType, 0, []⟩ (.root data)) t.nodes r ∧
    result = r.text

theorem Run.each_iff {α ε : Type} {may : α → Run ε → Prop} {f : α → Run ε}
    (single : ∀ a r, may a r ↔ r = f a) {items : List α} {r : Run ε} :
    Run.Each may items r ↔ r = Run.each f items := by
  induction items generalizing r with
  | nil =>
    constructor
    · intro each
      cases each with
      | nil => rfl
    · rintro rfl
      exact .nil
  | cons a rest ih =>
    constructor
    · intro each
      cases each with
      | cons first others =>
        rw [(single _ _).mp first, ih.mp others]
        rfl
    · rintro rfl
      exact .cons ((single _ _).mpr rfl) (ih.mpr rfl)

/-- Frames with the same block for each name; the second one has one for each. -/
structure Frame.SameBlocks (f g : Frame) : Prop where
  contentType : g.contentType = f.contentType
  depth : g.depth = f.depth
  lookup : ∀ name, g.blocks.lookup name = f.blocks.lookup name
  distinct : Keyed.Distinct g.blocks

namespace Frame.SameBlocks

variable {f g : Frame}

theorem entering (same : f.SameBlocks g) (t : Template) :
    (f.entering t).SameBlocks (g.entering t) :=
  ⟨rfl, congrArg (· + 1) same.depth, same.lookup, same.distinct⟩

/-- Blocks in effect win over those in a parent tag, in whatever order they are put together. -/
theorem merged (same : f.SameBlocks g) {nodes : List Node}
    {blocks : List (String × List Node × ContentType)} (merges : g.Merges nodes blocks) :
    (f.withOverrides nodes).SameBlocks { g with blocks } := by
  obtain ⟨perm⟩ := merges
  refine ⟨same.contentType, same.depth, ?_, (Keyed.ordered_ofList _).distinct⟩
  intro name
  have inner : g.overrides nodes = f.overrides nodes := by
    rw [Frame.overrides, Frame.overrides, same.contentType]
  have outer := Keyed.lookup_eq_of_perm same.distinct ((List.reverse_perm _).trans perm) name
  rw [Keyed.lookup_ofList, List.reverse_append, List.reverse_reverse, List.lookup_append, outer,
    same.lookup, inner, Frame.withOverrides, List.lookup_append]

end Frame.SameBlocks

namespace Collaborators

variable {f g : Frame}

theorem mayInclude_iff (c : Collaborators) (same : f.SameBlocks g) (name : String) (p : Position)
    {may : Template → Run RenderError → Prop} {next : Template → Run RenderError}
    (single : ∀ t r, may t r ↔ r = next t) {r : Run RenderError} :
    c.MayInclude g name p may r ↔ r = c.withTemplate f name p next := by
  unfold MayInclude withTemplate
  rw [same.depth]
  split
  · rfl
  · cases c.templates name with
    | none => simp
    | some t => simp [single]

theorem mayRender_iff (c : Collaborators) (room : Nat) (same : f.SameBlocks g) (scopes : Scopes)
    (n : Node) (r : Run RenderError) :
    c.MayRender room g scopes n r ↔ r = c.renderNode room f scopes n := by
  induction room using Nat.strongRecOn generalizing f g scopes n r with
  | ind room ih =>
    have nodes {fewer : Nat} (smaller : fewer < room) {f g : Frame} (same : f.SameBlocks g)
        (scopes : Scopes) {nodes : List Node} {r : Run RenderError} :
        Run.Each (c.MayRender fewer g scopes) nodes r ↔
          r = Run.each (c.renderNode fewer f scopes) nodes :=
      Run.each_iff fun n r => ih fewer smaller same scopes n r
    cases n with
    | text s => rw [MayRender, renderNode]
    | interpolation e escaped p =>
      rw [MayRender, renderNode]
      cases c.evaluate scopes p e with
      | error cause => rfl
      | ok value =>
        simp only [valueText, same.contentType]
    | sect e inverted body p =>
      rw [MayRender, renderNode]
      cases c.evaluate scopes p e with
      | error cause => rfl
      | ok value =>
        cases room with
        | zero => rfl
        | succ room =>
          exact Run.each_iff fun pushed r => nodes room.lt_succ_self same (scopes.pushAny pushed)
    | inclusion name indent p =>
      rw [MayRender, renderNode]
      refine c.mayInclude_iff same name p fun t r => ?_
      cases room with
      | zero => rfl
      | succ room =>
        simp only [nodes room.lt_succ_self (same.entering t) scopes, exists_eq_left]
    | block name body p =>
      cases room with
      | zero => rw [MayRender, renderNode, levelsOpen_zero]
      | succ room =>
        rw [MayRender, renderNode]
        simp only [same.lookup name]
        cases f.blocks.lookup name with
        | none => exact nodes room.lt_succ_self same scopes
        | some replacement =>
          obtain ⟨body, contentType⟩ := replacement
          have switched : Frame.SameBlocks { f with contentType } { g with contentType } :=
            ⟨rfl, same.depth, same.lookup, same.distinct⟩
          exact nodes room.lt_succ_self switched scopes
    | parent name indent overrides p =>
      rw [MayRender, renderNode]
      refine c.mayInclude_iff same name p fun t r => ?_
      cases room with
      | zero => rfl
      | succ room =>
        constructor
        · rintro ⟨blocks, s, merges, each, rfl⟩
          rw [(nodes room.lt_succ_self ((same.merged merges).entering t) scopes).mp each]
        · rintro rfl
          have merges : g.Merges overrides _ := .inserted (.refl _)
          exact ⟨_, _, merges,
            (nodes room.lt_succ_self ((same.merged merges).entering t) scopes).mpr rfl, rfl⟩

end Collaborators

/-- Whatever the order in which overrides are put together, a template has one result. -/
theorem Template.mayRender_iff (t : Template) (data : Data) (c : Collaborators)
    {result : Except RenderError String} : t.MayRender data c result ↔ result = t.render data c := by
  have initial : Frame.SameBlocks ⟨t.contentType, 0, []⟩ ⟨t.contentType, 0, []⟩ :=
    ⟨rfl, rfl, fun _ => rfl, .nil⟩
  have runs (r : Run RenderError) :
      Run.Each (c.MayRender maxNesting ⟨t.contentType, 0, []⟩ (.root data)) t.nodes r ↔
        r = t.run data c :=
    Run.each_iff fun n r => c.mayRender_iff maxNesting initial (.root data) n r
  rw [render_eq_text]
  constructor
  · rintro ⟨r, each, rfl⟩
    rw [(runs r).mp each]
  · rintro rfl
    exact ⟨_, (runs _).mpr rfl, rfl⟩

end Mustache
