import Mustache.Proofs.Escape
import Mustache.Proofs.Render.Regions
import Mustache.Proofs.Render.Sections

namespace Mustache

def Expression.itself : Expression :=
  ⟨[.this], []⟩

namespace Escape

theorem standard_join (texts : List String) (contentType : ContentType) :
    standard (String.join texts) contentType =
      String.join (texts.map (standard · contentType)) := by
  cases contentType with
  | text => simp [standard]
  | html =>
    induction texts with
    | nil => rfl
    | cons s rest ih =>
      rw [List.map_cons, String.join_cons, String.join_cons, ← ih]
      exact html_append s (String.join rest)

end Escape

namespace Output

@[simp] theorem writeValue_empty (out : Output) : out.writeValue "" = out := rfl

theorem writeAll_values (out : Output) (texts : List String) :
    out.writeAll (texts.map .value) = out.writeValue (String.join texts) := by
  induction texts generalizing out with
  | nil => rfl
  | cons s rest ih => rw [List.map_cons, writeAll, write, ih, String.join_cons, writeValue_append]

end Output

/-- Unless a value is true or false, the passes of its section push values that have its text in
all: the elements of a sequence, any other value itself, and none where it has no text. -/
theorem exists_pushed {value : Option Data} (unlike : ∀ v ∈ value, ∀ b, v.kind ≠ .bool b) :
    ∃ pushed : List Data, sectionPasses value = pushed.map some ∧
      (value.map Data.text).getD "" = String.join (pushed.map Data.text) := by
  obtain ⟨truth, drives⟩ := Drives.exists_truth value
  rw [drives.sectionPasses_eq]
  cases drives with
  | undefined => exact ⟨[], rfl, rfl⟩
  | null kind => exact ⟨[], rfl, Data.text_of_kind (.inl kind)⟩
  | no kind => exact absurd kind (unlike _ rfl false)
  | yes kind => exact absurd kind (unlike _ rfl true)
  | empty kind none => exact ⟨[], rfl, Data.text_of_children? none⟩
  | @elements v items kind inside => exact ⟨items, rfl, Data.text_of_children? inside⟩
  | @scope v kind => exact ⟨[v], rfl, by simp⟩

namespace Collaborators

variable {c : Collaborators} {scopes : Scopes} {p : Position} {e : Expression}
  {value : Option Data}

/-- Values that have the text of a value in all are written as that value is. -/
theorem valueText_join (standard : c.escaper = Escape.standard) (f : Frame) (escaped : Bool)
    {parts : List Data} (same : (value.map Data.text).getD "" = String.join (parts.map Data.text)) :
    c.valueText f escaped value =
      String.join (parts.map fun v => c.valueText f escaped (some v)) := by
  have text : c.valueText f escaped value =
      if escaped then c.escaper (String.join (parts.map Data.text)) f.contentType
      else String.join (parts.map Data.text) := by
    rw [← same]
    cases value <;> rfl
  rw [text]
  cases escaped with
  | false => rfl
  | true =>
    rw [if_pos rfl, standard, Escape.standard_join, List.map_map]
    simp only [valueText, standard]
    rfl

/-- A pass of the section around the scope itself writes the scope of the pass. -/
theorem renderNodes_itself (c : Collaborators) (room : Nat) (f : Frame) (scopes : Scopes)
    (escaped : Bool) (p : Position) (v : Data) :
    c.renderNodes room f (scopes.push v) [.interpolation .itself escaped p] =
      .piece (.value (c.valueText f escaped (some v))) := by
  rw [renderNodes, Run.each, Run.each, renderNode, Run.andThen_empty]
  rfl

/-- A variable whose value is not true or false writes what the section around the scope itself
does, at any place of the output. -/
theorem renderNode_iterated (standard : c.escaper = Escape.standard)
    (evaluated : c.evaluate scopes p e = .ok value) (unlike : ∀ v ∈ value, ∀ b, v.kind ≠ .bool b)
    (room : Nat) (f : Frame) (escaped : Bool) (q r : Position) :
    let once := c.renderNode (room + 1) f scopes (.interpolation e escaped p)
    let iterated :=
      c.renderNode (room + 1) f scopes (.sect e false [.interpolation .itself escaped r] q)
    once.error = none ∧ once.WritesAs iterated := by
  intro once iterated
  obtain ⟨pushed, passed, text⟩ := exists_pushed unlike
  have written : once = .piece (.value (c.valueText f escaped value)) := by
    simp only [once, renderNode, evaluated]
  have parts : iterated =
      ⟨(pushed.map fun v => c.valueText f escaped (some v)).map .value, none⟩ := by
    simp only [iterated, renderNode_sect (evaluate_of_ok evaluated q), passes, passed]
    rw [if_neg Bool.false_ne_true, Run.each_map]
    simp only [Scopes.pushAny, renderNodes_itself, Run.each_piece, List.map_map]
    rfl
  rw [written, parts, valueText_join standard f escaped text]
  refine ⟨rfl, fun out => ?_, rfl⟩
  rw [Output.writeAll_values]
  rfl

/-- Elements that need escaping, that are sequences themselves and that have no text, on a line
that begins with an indentation. -/
theorem renderNode_iterated_nested :
    let xs : Expression := ⟨[.identifier "xs"], []⟩
    let items : List Data :=
      [.string "<", .present (.list [.integer 1, .bool true]), .yaml (.mapping []), .string "\n"]
    let scopes : Scopes := .root (.table [("xs", .list items)])
    let c : Collaborators := {}
    let f : Frame := ⟨.html, 0, []⟩
    let out : Output := ⟨"a\n", " ", true⟩
    let once := c.renderNode 1 f scopes (.interpolation xs true ⟨1, 1, 0⟩)
    let iterated := c.renderNode 1 f scopes
      (.sect xs false [.interpolation .itself true ⟨1, 8, 7⟩] ⟨1, 1, 0⟩)
    c.evaluate scopes ⟨1, 1, 0⟩ xs = .ok (some (.list items)) ∧
      out.writeAll once.pieces = ⟨"a\n &lt;1true\n", " ", false⟩ ∧
      out.writeAll iterated.pieces = ⟨"a\n &lt;1true\n", " ", false⟩ := by
  intro xs items scopes c f out once iterated
  have evaluated : c.evaluate scopes ⟨1, 1, 0⟩ xs = .ok (some (.list items)) := rfl
  have unlike : ∀ v ∈ some (Data.list items), ∀ b, v.kind ≠ .bool b := by
    rintro v ⟨⟩ b
    simp [Data.kind]
  obtain ⟨-, same⟩ := renderNode_iterated rfl evaluated unlike 0 f true ⟨1, 1, 0⟩ ⟨1, 8, 7⟩
  have written := same.written out
  have shown : out.writeAll once.pieces = ⟨"a\n &lt;1true\n", " ", false⟩ := by decide +kernel
  exact ⟨evaluated, shown, written.symm.trans shown⟩

end Collaborators

end Mustache
