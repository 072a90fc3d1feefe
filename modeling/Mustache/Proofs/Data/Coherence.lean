import Mustache.Proofs.Data.Elements
import Mustache.Proofs.Render.Identity

namespace Mustache

namespace Data

/-- The kind of a value says what else it shows: whether it has elements, where members are to be
found, and what its text is made of. -/
structure Coherent (v : Data) : Prop where
  elements : v.children?.isSome = true ↔ v.kind = .sequence
  members : ∀ name, (v.child? name).isSome = true → v.kind = .mapping
  joined : v.kind = .sequence →
    ∃ items, v.children? = some items ∧ v.text = String.join (items.map text)
  blank : v.kind = .null ∨ v.kind = .mapping → v.text = ""

private theorem coherent (v : Data) : v.Coherent where
  elements := v.isSome_children?_iff
  members := by
    intro name found
    obtain ⟨w, member⟩ := Option.isSome_iff_exists.mp found
    exact kind_of_child? member
  joined := by
    intro sequence
    obtain ⟨items, elements⟩ := exists_children? sequence
    exact ⟨items, elements, text_of_children? elements⟩
  blank := text_of_kind

/-- The families of data are coherent, and where JSON comes from does not show: JSON that a filter
owns has the kind, the text, the elements and the members of the same JSON in the data, and these
are the same JSON again. -/
theorem coherent_families :
    (∀ v : Data, v.Coherent) ∧
      Likeness SameJson ∧ ∀ j : Json, SameJson (.json j) (.produced j) :=
  ⟨coherent, SameJson.agreement.toLikeness, fun j => ⟨j, .given, .produced⟩⟩

end Data

end Mustache
