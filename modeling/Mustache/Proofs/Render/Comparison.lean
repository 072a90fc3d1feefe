import Mustache.Proofs.Render.Agreement
import Mustache.Proofs.Render.Evaluation

/-!
Templates that are compared node by node. A comparison says which texts, expressions, places
and values count as alike, which rows of nodes may stand for each other, and how runs are
compared. Main statement: when the laws of a comparison hold, alike templates have runs that
compare, whatever sections, partials, blocks and parents they go through.
-/

namespace Mustache

/-- What counts as alike in two renderings. -/
structure Comparison where
  texts : String → String → Prop
  indents : String → String → Prop
  expressions : Expression → Expression → Prop
  places : Position → Position → Prop
  /-- Rows of nodes that stand for each other in a template of the content type. -/
  parts : ContentType → List Node → List Node → Prop
  values : Data → Data → Prop
  runs : Run RenderError → Run RenderError → Prop

/-- What a tag writes that includes the template, with so many levels left. -/
def Collaborators.included (c : Collaborators) (room : Nat) (f : Frame) (scopes : Scopes)
    (indent : String) (p : Position) (t : Template) : Run RenderError :=
  match room with
  | 0 => .fail (.nestingLimitExceeded (levelsOpen room) p)
  | room + 1 => (Run.each (c.renderNode room (f.entering t) scopes) t.nodes).region indent

namespace Comparison

/-- Nodes that are alike. Directly inside a parent, where only blocks count, no other rows of
nodes stand for each other. -/
inductive Nodes (k : Comparison) (contentType : ContentType) :
    (inParent : Bool) → List Node → List Node → Prop where
  | nil {inParent : Bool} : Nodes k contentType inParent [] []
  | part {ns ms rest others : List Node} (exchanged : k.parts contentType ns ms)
      (behind : Nodes k contentType false rest others) :
      Nodes k contentType false (ns ++ rest) (ms ++ others)
  | text {inParent : Bool} {s t : String} {rest others : List Node} (texts : k.texts s t)
      (behind : Nodes k contentType inParent rest others) :
      Nodes k contentType inParent (.text s :: rest) (.text t :: others)
  | interpolation {inParent : Bool} {e e' : Expression} {p q : Position}
      {rest others : List Node} (expressions : k.expressions e e') (escaped : Bool)
      (places : k.places p q) (behind : Nodes k contentType inParent rest others) :
      Nodes k contentType inParent (.interpolation e escaped p :: rest)
        (.interpolation e' escaped q :: others)
  | sect {inParent : Bool} {e e' : Expression} {p q : Position} {ns ms rest others : List Node}
      (expressions : k.expressions e e') (inverted : Bool) (places : k.places p q)
      (inside : Nodes k contentType false ns ms)
      (behind : Nodes k contentType inParent rest others) :
      Nodes k contentType inParent (.sect e inverted ns p :: rest) (.sect e' inverted ms q :: others)
  | inclusion {inParent : Bool} {i j : String} {p q : Position} {rest others : List Node}
      (name : String) (indents : k.indents i j) (places : k.places p q)
      (behind : Nodes k contentType inParent rest others) :
      Nodes k contentType inParent (.inclusion name i p :: rest) (.inclusion name j q :: others)
  | block {inParent : Bool} {p q : Position} {ns ms rest others : List Node} (name : String)
      (places : k.places p q) (inside : Nodes k contentType false ns ms)
      (behind : Nodes k contentType inParent rest others) :
      Nodes k contentType inParent (.block name ns p :: rest) (.block name ms q :: others)
  | parent {inParent : Bool} {i j : String} {p q : Position} {ns ms rest others : List Node}
      (name : String) (indents : k.indents i j) (places : k.places p q)
      (overrides : Nodes k contentType true ns ms)
      (behind : Nodes k contentType inParent rest others) :
      Nodes k contentType inParent (.parent name i ns p :: rest) (.parent name j ms q :: others)

structure Templates (k : Comparison) (t u : Template) : Prop where
  contentType : u.contentType = t.contentType
  nodes : k.Nodes t.contentType false t.nodes u.nodes

/-- Values of expressions that are alike. What is not defined counts as null. -/
inductive Values (k : Comparison) : Option Data → Option Data → Prop where
  | none : Values k none none
  | some {v w : Data} (values : k.values v w) : Values k (some v) (some w)
  | null {w : Data} (kind : w.kind = .null) (text : w.text = "") : Values k none (some w)

/-- Expressions at two places end with the same error there, or have alike values. -/
inductive Outcomes (k : Comparison) (p q : Position) :
    Except RenderError (Option Data) → Except RenderError (Option Data) → Prop where
  | error (e : RenderError) : Outcomes k p q (.error (e.relocate p)) (.error (e.relocate q))
  | ok {v w : Option Data} (values : k.Values v w) : Outcomes k p q (.ok v) (.ok w)

/-- Blocks with alike nodes that replace the blocks of one name. -/
structure Blocks (k : Comparison) (a b : String × List Node × ContentType) : Prop where
  name : b.1 = a.1
  contentType : b.2.2 = a.2.2
  nodes : k.Nodes a.2.2 false a.2.1 b.2.1

structure Frames (k : Comparison) (f g : Frame) : Prop where
  contentType : g.contentType = f.contentType
  blocks : List.Forall₂ k.Blocks f.blocks g.blocks

/-- The levels and the depth of two renderings are the same, or the second has some of them to
spare and compares with every failure of the first. -/
inductive Levels (k : Comparison) (room depth : Nat) : Nat → Nat → Prop where
  | same : Levels k room depth room depth
  | spare {room' depth' : Nat} (rooms : room ≤ room') (depths : depth' ≤ depth)
      (failures : ∀ e r, k.runs (.fail e) r) : Levels k room depth room' depth'

/-- Alike nodes have runs that compare, with so many levels left. -/
def Renders (k : Comparison) (c d : Collaborators) (room : Nat) : Prop :=
  ∀ {room' : Nat} {f g : Frame} {s t : Scopes} {inParent : Bool} {ns ms : List Node},
    k.Frames f g → s.Related k.values t → k.Levels room f.depth room' g.depth →
    k.Nodes f.contentType inParent ns ms →
    k.runs (Run.each (c.renderNode room f s) ns) (Run.each (d.renderNode room' g t) ms)

/-- What has to be shown for a comparison: that runs compare when what they are put together
from does, that the values of alike expressions are alike, and that the rows of nodes which
stand for each other are rendered alike if this is so with fewer levels. -/
structure Lawful (k : Comparison) (c d : Collaborators) : Prop where
  empty : k.runs .empty .empty
  andThen : ∀ {r s : Run RenderError} {next more : Unit → Run RenderError},
    k.runs r s → k.runs (next ()) (more ()) → k.runs (r.andThen next) (s.andThen more)
  region : ∀ {i j : String} {r s : Run RenderError}, k.indents i j → k.runs r s →
    k.runs (r.region i) (s.region j)
  text : ∀ {s t : String}, k.texts s t → k.runs (.piece (.text s)) (.piece (.text t))
  value : ∀ s : String, k.runs (.piece (.value s)) (.piece (.value s))
  lookup : ∀ name : String, k.runs (.piece (.lookup name)) (.piece (.lookup name))
  fail : ∀ (e : RenderError) {p q : Position}, k.places p q →
    k.runs (.fail (e.relocate p)) (.fail (e.relocate q))
  agreement : Data.Agreement k.values
  evaluate : ∀ {s t : Scopes} {e e' : Expression} {p q : Position}, s.Related k.values t →
    k.expressions e e' → k.places p q → k.Outcomes p q (c.evaluate s p e) (d.evaluate t q e')
  parts : ∀ {room room' : Nat} {f g : Frame} {s t : Scopes} {ns ms : List Node},
    (∀ fewer < room, k.Renders c d fewer) → k.Frames f g → s.Related k.values t →
    k.Levels room f.depth room' g.depth → k.parts f.contentType ns ms →
    k.runs (Run.each (c.renderNode room f s) ns) (Run.each (d.renderNode room' g t) ms)
  templates : ∀ name, Option.Rel k.Templates (c.templates name) (d.templates name)
  escaper : d.escaper = c.escaper

variable {k : Comparison} {c d : Collaborators}

theorem Nodes.append {contentType : ContentType} {inParent : Bool} {ns ms rest others : List Node}
    (before : k.Nodes contentType inParent ns ms)
    (behind : k.Nodes contentType inParent rest others) :
    k.Nodes contentType inParent (ns ++ rest) (ms ++ others) := by
  induction before with
  | nil => exact behind
  | part exchanged _ ih =>
    rw [List.append_assoc, List.append_assoc]
    exact .part exchanged (ih behind)
  | text texts _ ih => exact .text texts (ih behind)
  | interpolation expressions escaped places _ ih =>
    exact .interpolation expressions escaped places (ih behind)
  | sect expressions inverted places inside _ _ ih =>
    exact .sect expressions inverted places inside (ih behind)
  | inclusion name indents places _ ih => exact .inclusion name indents places (ih behind)
  | block name places inside _ _ ih => exact .block name places inside (ih behind)
  | parent name indents places overrides _ _ ih =>
    exact .parent name indents places overrides (ih behind)

/-- Everything in a node is alike with itself. -/
structure Reflexive (k : Comparison) : Prop where
  texts : ∀ s, k.texts s s
  indents : ∀ i, k.indents i i
  expressions : ∀ e, k.expressions e e
  places : ∀ p, k.places p p

mutual

theorem Reflexive.node (refl : k.Reflexive) (contentType : ContentType) (inParent : Bool) (n : Node)
    {rest : List Node} (behind : k.Nodes contentType inParent rest rest) :
    k.Nodes contentType inParent (n :: rest) (n :: rest) := by
  cases n with
  | text s => exact .text (refl.texts s) behind
  | interpolation e escaped p =>
    exact .interpolation (refl.expressions e) escaped (refl.places p) behind
  | sect e inverted nodes p =>
    exact .sect (refl.expressions e) inverted (refl.places p)
      (refl.nodes contentType false nodes) behind
  | inclusion name indent p => exact .inclusion name (refl.indents indent) (refl.places p) behind
  | block name nodes p =>
    exact .block name (refl.places p) (refl.nodes contentType false nodes) behind
  | parent name indent overrides p =>
    exact .parent name (refl.indents indent) (refl.places p)
      (refl.nodes contentType true overrides) behind
termination_by structural n

theorem Reflexive.nodes (refl : k.Reflexive) (contentType : ContentType) (inParent : Bool)
    (nodes : List Node) : k.Nodes contentType inParent nodes nodes := by
  cases nodes with
  | nil => exact .nil
  | cons n rest => exact refl.node contentType inParent n (refl.nodes contentType inParent rest)
termination_by structural nodes

end

theorem Reflexive.template (refl : k.Reflexive) (t : Template) : k.Templates t t :=
  ⟨rfl, refl.nodes t.contentType false t.nodes⟩

/-! Frames of alike templates. -/

theorem lookup_blocks {blocks others : List (String × List Node × ContentType)}
    (alike : List.Forall₂ k.Blocks blocks others) (name : String) :
    Option.Rel (fun a b => b.2 = a.2 ∧ k.Nodes a.2 false a.1 b.1)
      (blocks.lookup name) (others.lookup name) := by
  induction alike with
  | nil => exact .none
  | @cons a b blocks others first rest ih =>
    rw [List.lookup_cons, List.lookup_cons, first.name]
    cases name == a.1 with
    | true => exact .some ⟨first.contentType, first.nodes⟩
    | false => exact ih

theorem Frames.overrides {f g : Frame} (frames : k.Frames f g) {inParent : Bool}
    {ns ms : List Node} (alike : k.Nodes f.contentType inParent ns ms) (within : inParent = true) :
    List.Forall₂ k.Blocks (f.overrides ns) (g.overrides ms) := by
  unfold Frame.overrides
  rw [List.forall₂_reverse_iff]
  induction alike with
  | nil => exact .nil
  | part => cases within
  | block name places inside behind _ ih =>
    exact .cons ⟨rfl, frames.contentType, inside⟩ (ih within)
  | sect _ _ _ _ _ _ ih => exact ih within
  | parent _ _ _ _ _ _ ih => exact ih within
  | text _ _ ih => exact ih within
  | interpolation _ _ _ _ ih => exact ih within
  | inclusion _ _ _ _ ih => exact ih within

theorem Frames.withOverrides {f g : Frame} (frames : k.Frames f g) {ns ms : List Node}
    (alike : k.Nodes f.contentType true ns ms) :
    k.Frames (f.withOverrides ns) (g.withOverrides ms) where
  contentType := frames.contentType
  blocks := List.rel_append frames.blocks (frames.overrides alike rfl)

theorem Frames.entering {f g : Frame} (frames : k.Frames f g) {t u : Template}
    (alike : k.Templates t u) : k.Frames (f.entering t) (g.entering u) :=
  ⟨alike.contentType, frames.blocks⟩

theorem Levels.deeper {room depth room' depth' : Nat} (levels : k.Levels room depth room' depth') :
    k.Levels room (depth + 1) room' (depth' + 1) := by
  cases levels with
  | same => exact .same
  | spare rooms depths failures => exact .spare rooms (Nat.succ_le_succ depths) failures

/-- Where a level is left for the first rendering, one is left for the second. -/
theorem Levels.exists_of_succ {room depth room' depth' : Nat}
    (levels : k.Levels (room + 1) depth room' depth') :
    ∃ left, room' = left + 1 ∧ k.Levels room depth left depth' := by
  cases levels with
  | same => exact ⟨room, rfl, .same⟩
  | spare rooms depths failures =>
    cases room' with
    | zero => exact absurd rooms (Nat.not_succ_le_zero room)
    | succ left => exact ⟨left, rfl, .spare (Nat.le_of_succ_le_succ rooms) depths failures⟩

/-- Where only the second rendering has a level left, it compares with every failure. -/
theorem Levels.failures {left depth depth' : Nat} (levels : k.Levels 0 depth (left + 1) depth')
    (e : RenderError) (r : Run RenderError) : k.runs (.fail e) r := by
  cases levels with
  | spare rooms depths failures => exact failures e r

private theorem Levels.same_or_failures {room depth room' depth' : Nat}
    (levels : k.Levels room depth room' depth') :
    (room' = room ∧ depth' = depth) ∨ ∀ e r, k.runs (.fail e) r := by
  cases levels with
  | same => exact .inl ⟨rfl, rfl⟩
  | spare rooms depths failures => exact .inr failures

theorem Levels.room_le {room depth room' depth' : Nat} (levels : k.Levels room depth room' depth') :
    room ≤ room' := by
  cases levels with
  | same => exact Nat.le_refl room
  | spare rooms depths failures => exact rooms

theorem Levels.depth_le {room depth room' depth' : Nat} (levels : k.Levels room depth room' depth') :
    depth' ≤ depth := by
  cases levels with
  | same => exact Nat.le_refl depth
  | spare rooms depths failures => exact depths

/-! What the values of alike expressions show of themselves. -/

theorem Values.sectionPasses (agree : Data.Agreement k.values) {v w : Option Data}
    (values : k.Values v w) :
    List.Forall₂ (Option.Rel k.values) (Mustache.sectionPasses v) (Mustache.sectionPasses w) := by
  cases values with
  | none => exact .nil
  | some related => exact sectionPasses_related agree.toLikeness (.some related)
  | null kind text =>
    simp only [Mustache.sectionPasses, kind]
    exact .nil

theorem Values.passes (agree : Data.Agreement k.values) (inverted : Bool) {v w : Option Data}
    (values : k.Values v w) :
    List.Forall₂ (Option.Rel k.values) (Mustache.passes inverted v) (Mustache.passes inverted w) := by
  have sections := values.sectionPasses agree
  unfold Mustache.passes
  generalize Mustache.sectionPasses v = left at sections ⊢
  generalize Mustache.sectionPasses w = right at sections ⊢
  cases inverted with
  | false => exact sections
  | true =>
    cases sections with
    | nil => exact .cons .none .nil
    | cons first rest => exact .nil

theorem Values.valueText_eq (agree : Data.Agreement k.values) (escaper : d.escaper = c.escaper)
    {f g : Frame} (contentType : g.contentType = f.contentType) (escaped : Bool)
    {v w : Option Data} (values : k.Values v w) :
    d.valueText g escaped w = c.valueText f escaped v := by
  cases values with
  | none => simp only [Collaborators.valueText, escaper, contentType]
  | some related => simp only [Collaborators.valueText, escaper, contentType, agree.text related]
  | null kind text => simp only [Collaborators.valueText, escaper, contentType, text]

/-- An expression at two places and against scopes that agree fails alike, or has values that
agree. -/
theorem evaluate_displaced {R : Data → Data → Prop} (agree : Data.Agreement R)
    (filters : d.filters = c.filters) {s t : Scopes} (scopes : s.Related R t) (p q : Position)
    (e : Expression) :
    (∃ cause : RenderError, c.evaluate s p e = .error (cause.relocate p) ∧
      d.evaluate t q e = .error (cause.relocate q)) ∨
    ∃ v w, c.evaluate s p e = .ok v ∧ d.evaluate t q e = .ok w ∧ Option.Rel R v w := by
  have related := c.evaluate_related agree.toLikeness agree.convertsUpTo scopes p e
  have stays := c.evaluate_relocate s p p e
  have moved := c.evaluate_relocate t p q e
  rw [c.evaluate_congr t q (d := d) fun call _ => (congrFun filters call.name).symm] at moved
  rw [moved]
  generalize c.evaluate s p e = left at related stays ⊢
  generalize c.evaluate t p e = right at related ⊢
  cases related with
  | error errors =>
    obtain rfl := errors.eq fun a b same => congrArg NoCounterpart.message same
    exact .inl ⟨_, stays, rfl⟩
  | ok values => exact .inr ⟨_, _, rfl, rfl, values⟩

/-- Where alike expressions are the same ones, their values are alike. -/
theorem outcomes_of_agreement (agree : Data.Agreement k.values) (filters : d.filters = c.filters)
    {s t : Scopes} (scopes : s.Related k.values t) (p q : Position) (e : Expression) :
    k.Outcomes p q (c.evaluate s p e) (d.evaluate t q e) := by
  obtain ⟨cause, left, right⟩ | ⟨v, w, left, right, values⟩ :=
    evaluate_displaced agree filters scopes p q e
  · rw [left, right]
    exact .error cause
  · rw [left, right]
    cases values with
    | none => exact .ok .none
    | some related => exact .ok (.some related)

/-! Runs of alike nodes. -/

namespace Lawful

theorem each {α β : Type} (laws : k.Lawful c d) {S : α → β → Prop} {left : α → Run RenderError}
    {right : β → Run RenderError} (same : ∀ {a b}, S a b → k.runs (left a) (right b))
    {xs : List α} {ys : List β} (related : List.Forall₂ S xs ys) :
    k.runs (Run.each left xs) (Run.each right ys) := by
  induction related with
  | nil => exact laws.empty
  | cons first rest ih => exact laws.andThen (same first) ih

theorem withTemplate (laws : k.Lawful c d) {f g : Frame} {room room' : Nat}
    (levels : k.Levels room f.depth room' g.depth) (name : String) {p q : Position}
    (places : k.places p q) {left right : Template → Run RenderError}
    (found : ∀ {t u}, k.Templates t u → k.runs (left t) (right u)) :
    k.runs (c.withTemplate f name p left) (d.withTemplate g name q right) := by
  have missing := laws.fail (.partialNotFound name p) places
  have beyond := laws.fail (.recursionLimitExceeded name f.depth p) places
  have stored := laws.templates name
  unfold Collaborators.withTemplate
  by_cases limit : maxInclusions ≤ f.depth
  · rw [if_pos limit]
    rcases levels.same_or_failures with ⟨-, same⟩ | failures
    · rw [same, if_pos limit]
      exact beyond
    · exact failures _ _
  · rw [if_neg limit, if_neg fun reached => limit (Nat.le_trans reached levels.depth_le)]
    refine laws.andThen (laws.lookup name) ?_
    generalize c.templates name = mine at stored ⊢
    generalize d.templates name = other at stored ⊢
    cases stored with
    | none => exact missing
    | some alike => exact found alike

variable {room room' : Nat} {f g : Frame} {s t : Scopes}

theorem interpolation (laws : k.Lawful c d) (frames : k.Frames f g) (scopes : s.Related k.values t)
    {e e' : Expression} {p q : Position} (expressions : k.expressions e e') (escaped : Bool)
    (places : k.places p q) :
    k.runs (c.renderNode room f s (.interpolation e escaped p))
      (d.renderNode room' g t (.interpolation e' escaped q)) := by
  have outcome := laws.evaluate scopes expressions places
  rw [Collaborators.renderNode, Collaborators.renderNode]
  generalize c.evaluate s p e = left at outcome ⊢
  generalize d.evaluate t q e' = right at outcome ⊢
  cases outcome with
  | error cause => exact laws.fail cause places
  | ok values =>
    simp only
    rw [values.valueText_eq laws.agreement laws.escaper frames.contentType escaped]
    exact laws.value _

theorem sect (laws : k.Lawful c d) (inner : ∀ fewer < room, k.Renders c d fewer)
    (frames : k.Frames f g) (scopes : s.Related k.values t)
    (levels : k.Levels room f.depth room' g.depth) {e e' : Expression} {p q : Position}
    {ns ms : List Node} (expressions : k.expressions e e') (inverted : Bool)
    (places : k.places p q) (inside : k.Nodes f.contentType false ns ms) :
    k.runs (c.renderNode room f s (.sect e inverted ns p))
      (d.renderNode room' g t (.sect e' inverted ms q)) := by
  have outcome := laws.evaluate scopes expressions places
  rw [Collaborators.renderNode, Collaborators.renderNode]
  generalize c.evaluate s p e = left at outcome ⊢
  generalize d.evaluate t q e' = right at outcome ⊢
  cases outcome with
  | error cause => exact laws.fail cause places
  | ok values =>
    cases room with
    | zero =>
      cases room' with
      | zero => exact laws.fail (.nestingLimitExceeded maxNesting p) places
      | succ left => exact levels.failures _ _
    | succ room =>
      obtain ⟨left, rfl, fewer⟩ := levels.exists_of_succ
      refine laws.each ?_ (values.passes laws.agreement inverted)
      intro v w pushed
      exact inner room room.lt_succ_self frames (scopes.pushAny pushed) fewer inside

theorem block (laws : k.Lawful c d) (inner : ∀ fewer < room, k.Renders c d fewer)
    (frames : k.Frames f g) (scopes : s.Related k.values t)
    (levels : k.Levels room f.depth room' g.depth) (name : String) {p q : Position}
    {ns ms : List Node} (places : k.places p q) (inside : k.Nodes f.contentType false ns ms) :
    k.runs (c.renderNode room f s (.block name ns p)) (d.renderNode room' g t (.block name ms q)) := by
  cases room with
  | zero =>
    rw [Collaborators.renderNode]
    cases room' with
    | zero =>
      rw [Collaborators.renderNode]
      exact laws.fail (.nestingLimitExceeded maxNesting p) places
    | succ left => exact levels.failures _ _
  | succ room =>
    obtain ⟨left, rfl, fewer⟩ := levels.exists_of_succ
    have replaced := lookup_blocks frames.blocks name
    rw [Collaborators.renderNode, Collaborators.renderNode]
    generalize f.blocks.lookup name = mine at replaced ⊢
    generalize g.blocks.lookup name = other at replaced ⊢
    cases replaced with
    | none => exact inner room room.lt_succ_self frames scopes fewer inside
    | @some a b alike =>
      obtain ⟨types, nodes⟩ := alike
      have switched : k.Frames { f with contentType := a.2 } { g with contentType := b.2 } :=
        ⟨types, frames.blocks⟩
      exact inner room room.lt_succ_self switched scopes fewer nodes

theorem included (laws : k.Lawful c d) (inner : ∀ fewer < room, k.Renders c d fewer)
    (frames : k.Frames f g) (scopes : s.Related k.values t)
    (levels : k.Levels room f.depth room' g.depth) {i j : String} {p q : Position}
    (indents : k.indents i j) (places : k.places p q) {u v : Template} (alike : k.Templates u v) :
    k.runs (c.included room f s i p u) (d.included room' g t j q v) := by
  cases room with
  | zero =>
    cases room' with
    | zero => exact laws.fail (.nestingLimitExceeded maxNesting p) places
    | succ left => exact levels.failures _ _
  | succ room =>
    obtain ⟨left, rfl, fewer⟩ := levels.exists_of_succ
    exact laws.region indents
      (inner room room.lt_succ_self (frames.entering alike) scopes fewer.deeper alike.nodes)

theorem renders (laws : k.Lawful c d) (room : Nat) : k.Renders c d room := by
  -- Whatever is inside a node has a level less; the nodes of a row come one after the other.
  induction room using Nat.strongRecOn with
  | ind room inner =>
    intro room' f g s t inParent ns ms frames scopes levels alike
    induction alike with
    | nil => exact laws.empty
    | part exchanged _ ih =>
      rw [Run.each_append, Run.each_append]
      exact laws.andThen (laws.parts inner frames scopes levels exchanged) ih
    | text texts _ ih =>
      refine laws.andThen ?_ ih
      rw [Collaborators.renderNode, Collaborators.renderNode]
      exact laws.text texts
    | interpolation expressions escaped places _ ih =>
      exact laws.andThen (laws.interpolation frames scopes expressions escaped places) ih
    | sect expressions inverted places inside _ _ ih =>
      exact laws.andThen
        (laws.sect inner frames scopes levels expressions inverted places inside) ih
    | inclusion name indents places _ ih =>
      refine laws.andThen ?_ ih
      rw [Collaborators.renderNode, Collaborators.renderNode]
      exact laws.withTemplate levels name places
        (laws.included inner frames scopes levels indents places)
    | block name places inside _ _ ih =>
      exact laws.andThen (laws.block inner frames scopes levels name places inside) ih
    | parent name indents places overrides _ _ ih =>
      refine laws.andThen ?_ ih
      rw [Collaborators.renderNode, Collaborators.renderNode]
      exact laws.withTemplate levels name places
        (laws.included inner (frames.withOverrides overrides) scopes levels indents places)

/-- Alike templates have runs that compare, against values that are alike. -/
theorem run (laws : k.Lawful c d) {t u : Template} (alike : k.Templates t u) {v w : Data}
    (values : k.values v w) : k.runs (t.run v c) (u.run w d) := by
  have frames : k.Frames ⟨t.contentType, 0, []⟩ ⟨u.contentType, 0, []⟩ := ⟨alike.contentType, .nil⟩
  exact laws.renders maxNesting frames ⟨values, .nil⟩ .same alike.nodes

end Lawful

end Comparison

/-! Runs that write alike and end alike, up to the places in errors. -/

/-- The same error at places that are alike. -/
inductive Displaced (places : Position → Position → Prop) : RenderError → RenderError → Prop where
  | error (e : RenderError) {p q : Position} (alike : places p q) :
      Displaced places (e.relocate p) (e.relocate q)

/-- Results with texts that are alike, or with the same error at places that are alike. -/
inductive Results (texts : String → String → Prop) (places : Position → Position → Prop) :
    Except RenderError String → Except RenderError String → Prop where
  | ok {s t : String} (alike : texts s t) : Results texts places (.ok s) (.ok t)
  | error {e e' : RenderError} (displaced : Displaced places e e') :
      Results texts places (.error e) (.error e')

theorem Results.eq {places : Position → Position → Prop} (same : ∀ {p q}, places p q → p = q)
    {x y : Except RenderError String} (results : Results Eq places x y) : x = y := by
  cases results with
  | ok alike => rw [alike]
  | error displaced =>
    obtain ⟨e, alike⟩ := displaced
    rw [same alike]

theorem Results.eq_ok {places : Position → Position → Prop} {s : String}
    {y : Except RenderError String} (results : Results Eq places (.ok s) y) : y = .ok s := by
  cases results with
  | ok alike => rw [alike]

/-- Runs whose pieces are alike, up to the places in errors. -/
structure Run.Compares (pieces : List Piece → List Piece → Prop)
    (places : Position → Position → Prop) (r s : Run RenderError) : Prop where
  pieces : pieces r.pieces s.pieces
  error : Option.Rel (Displaced places) r.error s.error

namespace Run.Compares

variable {pieces : List Piece → List Piece → Prop} {places : Position → Position → Prop}

theorem fail (nil : pieces [] []) (e : RenderError) {p q : Position} (alike : places p q) :
    (Run.fail (e.relocate p)).Compares pieces places (Run.fail (e.relocate q)) :=
  ⟨nil, .some (.error e alike)⟩

theorem andThen (append : ∀ {a b c d}, pieces a b → pieces c d → pieces (a ++ c) (b ++ d))
    {r s : Run RenderError} {next more : Unit → Run RenderError}
    (first : r.Compares pieces places s) (second : (next ()).Compares pieces places (more ())) :
    (r.andThen next).Compares pieces places (s.andThen more) := by
  obtain ⟨written, error⟩ := r
  obtain ⟨others, failed⟩ := s
  obtain ⟨before, errors⟩ := first
  cases errors with
  | some displaced => exact ⟨before, .some displaced⟩
  | none => exact ⟨append before second.pieces, second.error⟩

theorem text {texts : String → String → Prop} {r s : Run RenderError}
    (compared : r.Compares pieces places s) (written : pieces r.pieces s.pieces →
      texts (({} : Output).writeAll r.pieces).buffer (({} : Output).writeAll s.pieces).buffer) :
    Results texts places r.text s.text := by
  obtain ⟨ps, error⟩ := r
  obtain ⟨qs, failed⟩ := s
  obtain ⟨alike, errors⟩ := compared
  cases errors with
  | some displaced => exact .error displaced
  | none => exact .ok (written alike)

end Run.Compares

end Mustache
