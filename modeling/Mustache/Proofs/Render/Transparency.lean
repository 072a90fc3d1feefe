import Mustache.Proofs.Render.Visits

namespace Mustache

/-- A path that asks a value for nothing when the value is a scope: it begins with a name, and the
value has no member of that name. -/
structure Data.Misses (v : Data) (path : List Component) : Prop where
  named : path.head? ≠ some .this
  absent : ∀ name, path.head? = some (.identifier name) → v.child? name = none

theorem Data.misses_identifier_iff {v : Data} {name : String} {rest : List Component} :
    v.Misses (.identifier name :: rest) ↔ v.child? name = none := by
  constructor
  · intro misses
    exact misses.absent name rfl
  · intro absent
    refine ⟨by simp, ?_⟩
    rintro other ⟨⟩
    exact absent

namespace Scopes

/-- The second scopes are the first ones and a value somewhere among them. -/
inductive Inserted (v : Data) : Scopes → Scopes → Prop where
  | innermost (s : Scopes) : Inserted v s (s.push v)
  | under {s t : Scopes} (outer : Inserted v s t) (w : Data) : Inserted v (s.push w) (t.push w)

/-- The innermost scope is asked first, then those around it. -/
theorem find?_push (s : Scopes) (v : Data) (name : String) :
    (s.push v).find? name = (v.child? name).or (s.find? name) := by
  simp only [find?, push, List.findSome?_cons]
  cases v.child? name <;> rfl

/-- Only the first name of a path is looked up scope by scope; the rest is not. -/
theorem resolve_push (s : Scopes) (v : Data) (name : String) (rest : List Component) :
    (s.push v).resolve (.identifier name :: rest) =
      match v.child? name with
      | none => s.resolve (.identifier name :: rest)
      | some found => descend found rest := by
  rw [resolve, find?_push]
  cases v.child? name <;> rfl

namespace Inserted

variable {v : Data} {s t : Scopes}

theorem pushAny (inserted : Inserted v s t) (pushed : Option Data) :
    Inserted v (s.pushAny pushed) (t.pushAny pushed) := by
  cases pushed with
  | none => exact inserted
  | some w => exact inserted.under w

private theorem find?_eq (inserted : Inserted v s t) {name : String}
    (absent : v.child? name = none) : t.find? name = s.find? name := by
  induction inserted with
  | innermost s => rw [find?_push, absent, Option.none_or]
  | under outer w ih => rw [find?_push, find?_push, ih]

private theorem resolve_eq (inserted : Inserted v s t) {path : List Component}
    (misses : v.Misses path) : t.resolve path = s.resolve path := by
  cases path with
  | nil => rfl
  | cons component rest =>
    cases component with
    | this => exact absurd rfl misses.named
    | identifier name =>
      rw [resolve, resolve, inserted.find?_eq (Data.misses_identifier_iff.mp misses)]

end Inserted

end Scopes

namespace Collaborators

/-- The nodes that rendering nodes in a frame can come to: those in their trees, in the overrides in
effect, and in what partial and parent tags among them include. -/
inductive Meets (c : Collaborators) (f : Frame) (nodes : List Node) : Node → Prop where
  | own {n : Node} (inside : n ∈ Node.subtrees nodes) : Meets c f nodes n
  | override {n : Node} {name : String} {body : List Node} {contentType : ContentType}
      (found : f.blocks.lookup name = some (body, contentType))
      (inside : n ∈ Node.subtrees body) : Meets c f nodes n
  | included {m n : Node} {name : String} {t : Template} (earlier : Meets c f nodes m)
      (names : m.included? = some name) (found : c.templates name = some t)
      (inside : n ∈ Node.subtrees t.nodes) : Meets c f nodes n

/-- The overrides of a frame are among the nodes that can be come to. -/
def MeetsOverrides (c : Collaborators) (f : Frame) (nodes : List Node) (g : Frame) : Prop :=
  ∀ name body contentType, g.blocks.lookup name = some (body, contentType) →
    ∀ n ∈ body, c.Meets f nodes n

variable {c : Collaborators} {f g : Frame} {nodes : List Node}

theorem Meets.child {n child : Node} (met : c.Meets f nodes n) (member : child ∈ n.children) :
    c.Meets f nodes child := by
  cases met with
  | own inside => exact .own (Node.mem_subtrees_trans nodes inside member)
  | override found inside => exact .override found (Node.mem_subtrees_trans _ inside member)
  | included earlier names found inside =>
    exact .included earlier names found (Node.mem_subtrees_trans _ inside member)

theorem Meets.member {m n : Node} (met : c.Meets f nodes m) {name : String} {t : Template}
    (names : m.included? = some name) (found : c.templates name = some t) (member : n ∈ t.nodes) :
    c.Meets f nodes n :=
  .included met names found (Node.mem_subtrees_of_mem member)

private theorem meetsOverrides_self (c : Collaborators) (f : Frame) (nodes : List Node) :
    c.MeetsOverrides f nodes f :=
  fun _ _ _ found _ member => .override found (Node.mem_subtrees_of_mem member)

/-- A parent tag that can be come to adds overrides that can be come to. -/
theorem MeetsOverrides.withOverrides (overrides : c.MeetsOverrides f nodes g) {added : List Node}
    (met : ∀ n ∈ added, c.Meets f nodes n) : c.MeetsOverrides f nodes (g.withOverrides added) := by
  intro name body contentType found n member
  rw [Frame.withOverrides, List.lookup_append, Option.or_eq_some_iff] at found
  rcases found with outer | ⟨-, inner⟩
  · exact overrides name body contentType outer n member
  · obtain ⟨p, present, -⟩ := Frame.mem_overrides_iff.mp (Frame.mem_of_lookup inner)
    exact (met _ present).child member

section

variable {v : Data} (misses : ∀ n, c.Meets f nodes n → ∀ e p, n.expression? = some (e, p) →
  ∀ path ∈ e.paths, v.Misses path)

include misses

/-- A node is rendered as without the value, wherever among the scopes the value lies. -/
theorem renderNode_inserted (room : Nat) (overrides : c.MeetsOverrides f nodes g) {s t : Scopes}
    (inserted : Scopes.Inserted v s t) {n : Node} (met : c.Meets f nodes n) :
    c.renderNode room g t n = c.renderNode room g s n := by
  -- Every node inside is met again and rendered with less room, under the same pushed scopes.
  induction room using Nat.strongRecOn generalizing g s t n with
  | ind room ih =>
    have each {room' : Nat} (smaller : room' < room) {g : Frame}
        (overrides : c.MeetsOverrides f nodes g) {s t : Scopes} (inserted : Scopes.Inserted v s t)
        {inside : List Node} (met : ∀ n ∈ inside, c.Meets f nodes n) :
        Run.each (c.renderNode room' g t) inside = Run.each (c.renderNode room' g s) inside :=
      Run.each_congr fun n member => ih room' smaller overrides inserted (met n member)
    have value {e : Expression} {p : Position} (tag : n.expression? = some (e, p)) :
        c.evaluate t p e = c.evaluate s p e :=
      evaluate_congr_of_paths c p fun path member =>
        inserted.resolve_eq (misses n met e p tag path member)
    cases n with
    | text text => rw [renderNode, renderNode]
    | interpolation e escaped p => rw [renderNode, renderNode, value rfl]
    | sect e inverted body p =>
      rw [renderNode, renderNode, value rfl]
      cases c.evaluate s p e with
      | error cause => rfl
      | ok found =>
        cases room with
        | zero => rfl
        | succ room =>
          refine Run.each_congr fun pushed _ => ?_
          exact each room.lt_succ_self overrides (inserted.pushAny pushed)
            fun n member => met.child member
    | inclusion name indent p =>
      rw [renderNode, renderNode]
      refine withTemplate_congr fun included found => ?_
      cases room with
      | zero => rfl
      | succ room =>
        have same := each room.lt_succ_self (g := g.entering included) overrides inserted
          fun n member => met.member rfl found member
        simp only [same]
    | block name body p =>
      cases room with
      | zero => rw [renderNode, renderNode]
      | succ room =>
        rw [renderNode, renderNode]
        cases replaced : g.blocks.lookup name with
        | none => exact each room.lt_succ_self overrides inserted fun n member => met.child member
        | some replacement =>
          exact each room.lt_succ_self (g := { g with contentType := replacement.2 }) overrides
            inserted (overrides name replacement.1 replacement.2 replaced)
    | parent name indent added p =>
      rw [renderNode, renderNode]
      refine withTemplate_congr fun included found => ?_
      cases room with
      | zero => rfl
      | succ room =>
        have more := overrides.withOverrides fun _ member => met.child member
        have same := each room.lt_succ_self (g := (g.withOverrides added).entering included) more
          inserted fun n member => met.member rfl found member
        simp only [same]

/-- Nodes are rendered in scopes with one more as in those without it, if all that rendering can
come to asks that one for nothing. Only the first name of a path is looked up scope by scope. -/
theorem renderNodes_transparent (room : Nat) (scopes : Scopes) :
    c.renderNodes room f (scopes.push v) nodes = c.renderNodes room f scopes nodes ∧
      ∀ (s : Scopes) (w : Data) (name : String) (rest : List Component),
        (s.push w).resolve (.identifier name :: rest) =
          match w.child? name with
          | none => s.resolve (.identifier name :: rest)
          | some found => Scopes.descend found rest := by
  refine ⟨?_, fun s w name rest => s.resolve_push w name rest⟩
  exact Run.each_congr fun n member =>
    renderNode_inserted misses room (meetsOverrides_self c f nodes) (.innermost scopes)
      (.own (Node.mem_subtrees_of_mem member))

end

/-- Under a section, in a template that is included there, and in an override for it. -/
theorem renderNodes_transparent_section :
    let p : Position := ⟨1, 1, 0⟩
    let x : Expression := ⟨[.identifier "x"], []⟩
    let xs : Expression := ⟨[.identifier "xs"], []⟩
    let nodes : List Node := [.sect xs false [.inclusion "p" "" p] p]
    let body : List Node := [.interpolation x true p]
    let page : Template := ⟨[.block "b" [] p, .text ";"], .html⟩
    let f : Frame := ⟨.html, 0, [("b", body, .text)]⟩
    let c : Collaborators := { templates := fun name => if name = "p" then some page else none }
    let v : Data := .json (.object [("y", .string "!")])
    let scopes : Scopes :=
      .root (.json (.object
        [("x", .string "1"), ("xs", .array [.null, .object [("x", .string "2")]])]))
    (∀ n, c.Meets f nodes n → ∀ e q, n.expression? = some (e, q) →
        ∀ path ∈ e.paths, v.Misses path) ∧
      c.renderNodes 3 f (scopes.push v) nodes =
        ⟨[.lookup "p", .region "" [.value "1", .text ";"],
          .lookup "p", .region "" [.value "2", .text ";"]], none⟩ := by
  intro p x xs nodes body page f c v scopes
  have listed : ∀ n ∈ Node.subtrees nodes ++ (Node.subtrees body ++ Node.subtrees page.nodes),
      ∀ e q, n.expression? = some (e, q) → e = xs ∨ e = x := by
    simp [nodes, body, page, Node.subtrees, Node.subtree, Node.expression?]
  have misses : ∀ n, c.Meets f nodes n → ∀ e q, n.expression? = some (e, q) →
      ∀ path ∈ e.paths, v.Misses path := by
    intro n met e q tag path member
    have known : n ∈ Node.subtrees nodes ++ (Node.subtrees body ++ Node.subtrees page.nodes) := by
      simp only [List.mem_append]
      cases met with
      | own inside => exact .inl inside
      | @override _ name replacement contentType found inside =>
        obtain ⟨-, rfl, -⟩ : name = "b" ∧ replacement = body ∧ contentType = .text := by
          simpa [f] using Frame.mem_of_lookup found
        exact .inr (.inl inside)
      | @included _ _ name t earlier names found inside =>
        obtain ⟨-, rfl⟩ : name = "p" ∧ page = t := by simpa [c] using found
        exact .inr (.inr inside)
    rcases listed n known e q tag with rfl | rfl
    · obtain rfl : path = [.identifier "xs"] := by simpa [Expression.paths, xs] using member
      exact Data.misses_identifier_iff.mpr rfl
    · obtain rfl : path = [.identifier "x"] := by simpa [Expression.paths, x] using member
      exact Data.misses_identifier_iff.mpr rfl
  refine ⟨misses, ?_⟩
  rw [(renderNodes_transparent misses 3 scopes).1]
  rfl

end Collaborators

end Mustache
