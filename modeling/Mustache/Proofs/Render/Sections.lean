import Mustache.Proofs.Data.Elements
import Mustache.Proofs.Render.Evaluation
import Mustache.Proofs.Render.Runs

namespace Mustache

/-- The ways in which a value drives a section and its inverse. -/
inductive Truth where
  /-- The inverted section has its body rendered. -/
  | falsy
  /-- The section has its body rendered as it is. -/
  | plain
  /-- The section has its body rendered for each element. -/
  | elements (items : List Data)
  /-- The section has its body rendered for the value itself. -/
  | scope (v : Data)

/-- The way in which a value drives a section and its inverse. -/
inductive Drives : Option Data → Truth → Prop where
  | undefined : Drives none .falsy
  | null {v : Data} (kind : v.kind = .null) : Drives (some v) .falsy
  | no {v : Data} (kind : v.kind = .bool false) : Drives (some v) .falsy
  | empty {v : Data} (kind : v.kind = .sequence) (none : v.children? = some []) :
      Drives (some v) .falsy
  | yes {v : Data} (kind : v.kind = .bool true) : Drives (some v) .plain
  | elements {v : Data} {items : List Data} (kind : v.kind = .sequence)
      (inside : v.children? = some items) (nonempty : items ≠ []) :
      Drives (some v) (.elements items)
  | scope {v : Data} (kind : v.kind = .number ∨ v.kind = .string ∨ v.kind = .mapping) :
      Drives (some v) (.scope v)

/-- The scopes that the body of a section is rendered with, one after the other. -/
def Truth.passes : Truth → List (Option Data)
  | falsy => []
  | plain => [none]
  | elements items => items.map some
  | scope v => [some v]

namespace Drives

variable {value : Option Data} {truth other : Truth}

theorem exists_truth (value : Option Data) : ∃ truth, Drives value truth := by
  cases value with
  | none => exact ⟨_, .undefined⟩
  | some v =>
    cases kind : v.kind with
    | null => exact ⟨_, .null kind⟩
    | bool b =>
      cases b with
      | false => exact ⟨_, .no kind⟩
      | true => exact ⟨_, .yes kind⟩
    | number => exact ⟨_, .scope (.inl kind)⟩
    | string => exact ⟨_, .scope (.inr (.inl kind))⟩
    | mapping => exact ⟨_, .scope (.inr (.inr kind))⟩
    | sequence =>
      obtain ⟨items, inside⟩ := Data.exists_children? kind
      by_cases nonempty : items = []
      · exact ⟨_, .empty kind (nonempty ▸ inside)⟩
      · exact ⟨_, .elements kind inside nonempty⟩

theorem unique (first : Drives value truth) (second : Drives value other) : other = truth := by
  cases first <;> cases second <;> simp_all

theorem sectionPasses_eq (drives : Drives value truth) : sectionPasses value = truth.passes := by
  cases drives with
  | undefined => rfl
  | null kind => simp only [sectionPasses, kind, Truth.passes]
  | no kind => simp only [sectionPasses, kind, Truth.passes]
  | yes kind => simp only [sectionPasses, kind, Truth.passes]
  | empty kind none => simp [sectionPasses, kind, none, Truth.passes]
  | elements kind inside => simp [sectionPasses, kind, inside, Truth.passes]
  | scope kind =>
    rcases kind with kind | kind | kind <;> simp only [sectionPasses, kind, Truth.passes]

end Drives

namespace Collaborators

/-- What is rendered of a body and of the inverse one, whose nodes may enter that many levels. -/
def renderEither (c : Collaborators) (room : Nat) (f : Frame) (scopes : Scopes)
    (body inverse : List Node) : Truth → Run RenderError
  | .falsy => c.renderNodes room f scopes inverse
  | .plain => c.renderNodes room f scopes body
  | .elements items => Run.each (fun v => c.renderNodes room f (scopes.push v) body) items
  | .scope v => c.renderNodes room f (scopes.push v) body

variable {c : Collaborators} {scopes : Scopes} {p : Position} {e : Expression}
  {value : Option Data}

/-- The place of a tag does not count where its expression has a value. -/
theorem evaluate_of_ok (evaluated : c.evaluate scopes p e = .ok value) (q : Position) :
    c.evaluate scopes q e = .ok value := by
  rw [evaluate_relocate c scopes p q e, evaluated]
  rfl

/-- A section whose expression has a value renders its body in each of the passes. -/
theorem renderNode_sect (evaluated : c.evaluate scopes p e = .ok value) (room : Nat) (f : Frame)
    (inverted : Bool) (body : List Node) :
    c.renderNode (room + 1) f scopes (.sect e inverted body p) =
      Run.each (fun pushed => c.renderNodes room f (scopes.pushAny pushed) body)
        (passes inverted value) := by
  rw [renderNode, evaluated]
  rfl

/-- Of a section and its inverse, one renders its body and the other nothing. -/
theorem renderNode_sect_inverse (evaluated : c.evaluate scopes p e = .ok value) {truth : Truth}
    (drives : Drives value truth) (room : Nat) (f : Frame) (q : Position)
    (body inverse : List Node) :
    ((c.renderNode (room + 1) f scopes (.sect e false body p)).andThen fun _ =>
        c.renderNode (room + 1) f scopes (.sect e true inverse q)) =
      c.renderEither room f scopes body inverse truth := by
  rw [renderNode_sect evaluated, renderNode_sect (evaluate_of_ok evaluated q), passes, passes,
    drives.sectionPasses_eq]
  cases truth with
  | falsy => simp [Truth.passes, Run.each, renderEither, Scopes.pushAny]
  | plain => simp [Truth.passes, Run.each, renderEither, Scopes.pushAny]
  | scope v => simp [Truth.passes, Run.each, renderEither, Scopes.pushAny]
  | elements items =>
    have nonempty : items ≠ [] := by
      cases drives with
      | elements kind inside nonempty => exact nonempty
    simp [Truth.passes, Run.each, Run.each_map, renderEither, Scopes.pushAny, nonempty]

/-- A section and its inverse, one behind the other: the value of their expression drives them in
one way and no other, and what is behind them is rendered in the scopes from before. -/
theorem renderNodes_complementary (evaluated : c.evaluate scopes p e = .ok value) (room : Nat)
    (f : Frame) (q : Position) (body inverse rest : List Node) :
    ∃ truth, Drives value truth ∧ (∀ other, Drives value other → other = truth) ∧
      c.renderNodes (room + 1) f scopes (.sect e false body p :: .sect e true inverse q :: rest) =
        (c.renderEither room f scopes body inverse truth).andThen fun _ =>
          c.renderNodes (room + 1) f scopes rest := by
  obtain ⟨truth, drives⟩ := Drives.exists_truth value
  refine ⟨truth, drives, fun other second => drives.unique second, ?_⟩
  rw [← renderNode_sect_inverse evaluated drives room f q, Run.andThen_assoc]
  rfl

/-- A sequence, with an inverted section and a variable behind the section. -/
theorem renderNodes_complementary_elements :
    let item : Expression := ⟨[.this], []⟩
    let xs : Expression := ⟨[.identifier "xs"], []⟩
    let y : Expression := ⟨[.identifier "y"], []⟩
    let a : Json := .object [("y", .string "a")]
    let b : Json := .string "b"
    let scopes : Scopes := .root (.json (.object [("xs", .array [a, b]), ("y", .string "c")]))
    let body : List Node := [.interpolation y true ⟨1, 8, 7⟩, .interpolation item true ⟨1, 13, 12⟩]
    let inverse : List Node := [.text "none"]
    let behind : List Node := [.interpolation y true ⟨1, 43, 42⟩]
    let c : Collaborators := {}
    let f : Frame := ⟨.text, 0, []⟩
    c.evaluate scopes ⟨1, 1, 0⟩ xs = .ok (some (.json (.array [a, b]))) ∧
      Drives (some (.json (.array [a, b]))) (.elements [.json a, .json b]) ∧
      c.renderNodes 1 f scopes
          (.sect xs false body ⟨1, 1, 0⟩ :: .sect xs true inverse ⟨1, 25, 24⟩ :: behind) =
        ⟨[.value "a", .value "", .value "c", .value "b", .value "c"], none⟩ := by
  intro item xs y a b scopes body inverse behind c f
  have evaluated : c.evaluate scopes ⟨1, 1, 0⟩ xs = .ok (some (.json (.array [a, b]))) := rfl
  have drives : Drives (some (.json (.array [a, b]))) (.elements [.json a, .json b]) :=
    .elements rfl rfl (by simp)
  obtain ⟨truth, -, unique, rendered⟩ :=
    renderNodes_complementary evaluated 0 f ⟨1, 25, 24⟩ body inverse behind
  obtain rfl := unique _ drives
  refine ⟨evaluated, drives, ?_⟩
  rw [rendered]
  rfl

end Collaborators

end Mustache
