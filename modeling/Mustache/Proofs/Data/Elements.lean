import Mustache.Data.Basic

namespace Mustache

namespace Json

theorem isSome_children?_iff (v : Json) : v.children?.isSome = true ↔ v.kind = .sequence := by
  cases v <;> simp [children?, kind]

/-- Items of JSON have the texts that they have as data of either kind. -/
theorem itemsText_eq (inject : Json → Data) (same : ∀ v, (inject v).text = v.text)
    (items : List Json) : itemsText items = Data.itemsText (items.map inject) := by
  induction items with
  | nil => rfl
  | cons v rest ih => rw [itemsText, List.map_cons, Data.itemsText, same, ih]

theorem text_of_children? {v : Json} {items : List Json} (elements : v.children? = some items) :
    v.text = itemsText items := by
  cases v with
  | array inside =>
    obtain rfl : inside = items := Option.some.inj elements
    rfl
  | _ => cases elements

theorem text_of_kind {v : Json} (blank : v.kind = .null ∨ v.kind = .mapping) : v.text = "" := by
  cases v with
  | null => rfl
  | object members => rfl
  | _ => simp [kind] at blank

private theorem kind_of_get? {v w : Json} {name : String} (member : v.get? name = some w) :
    v.kind = .mapping := by
  cases v with
  | object members => rfl
  | _ => cases member

end Json

namespace Yaml

theorem isSome_children?_iff (v : Yaml) : v.children?.isSome = true ↔ v.kind = .sequence := by
  fun_induction children? v with
  | case1 items => simp [kind]
  | case2 tag v ih => exact ih
  | case3 v untagged => cases v <;> simp_all [kind]

theorem itemsText_eq (items : List Yaml) : itemsText items = Data.itemsText (items.map .yaml) := by
  induction items with
  | nil => rfl
  | cons v rest ih => rw [itemsText, List.map_cons, Data.itemsText, Data.text, ih]

theorem text_of_children? {v : Yaml} {items : List Yaml} (elements : v.children? = some items) :
    v.text = itemsText items := by
  fun_induction children? v with
  | case1 inside =>
    obtain rfl : inside = items := Option.some.inj elements
    rfl
  | case2 tag v ih => exact ih elements
  | case3 => cases elements

theorem text_of_kind {v : Yaml} (blank : v.kind = .null ∨ v.kind = .mapping) : v.text = "" := by
  fun_induction kind v with
  | case1 => rfl
  | case6 => rfl
  | case7 tag v ih => exact ih blank
  | _ => simp at blank

private theorem kind_of_get? {v w : Yaml} {name : String} (member : v.get? name = some w) :
    v.kind = .mapping := by
  fun_induction get? name v with
  | case1 entries => rfl
  | case2 tag v ih => exact ih member
  | case3 => cases member

end Yaml

namespace Data

/-- A value has elements exactly if it is a sequence. -/
theorem isSome_children?_iff (v : Data) : v.children?.isSome = true ↔ v.kind = .sequence := by
  fun_induction children? v with
  | case1 v => simpa [kind] using v.isSome_children?_iff
  | case2 v => simpa [kind] using v.isSome_children?_iff
  | case3 v ih => exact ih
  | case4 items => simp [kind]
  | case5 items => simp [kind, Json.kind]
  | case6 v =>
    cases v with
    | produced j => cases j <;> simp_all [kind, Json.kind]
    | _ => simp_all [kind]

theorem exists_children? {v : Data} (sequence : v.kind = .sequence) :
    ∃ items, v.children? = some items :=
  Option.isSome_iff_exists.mp (v.isSome_children?_iff.mpr sequence)

theorem itemsText_eq_join (items : List Data) : itemsText items = String.join (items.map text) := by
  induction items with
  | nil => rfl
  | cons v rest ih => rw [itemsText, List.map_cons, String.join_cons, ih]

/-- The text of a sequence is that of its elements. -/
theorem text_of_children? {v : Data} {items : List Data} (elements : v.children? = some items) :
    v.text = String.join (items.map text) := by
  rw [← itemsText_eq_join]
  fun_induction children? v with
  | case1 v =>
    obtain ⟨inside, found, rfl⟩ := Option.map_eq_some_iff.mp elements
    rw [text, Json.text_of_children? found, Json.itemsText_eq json fun _ => rfl]
  | case2 v =>
    obtain ⟨inside, found, rfl⟩ := Option.map_eq_some_iff.mp elements
    rw [text, Yaml.text_of_children? found, Yaml.itemsText_eq]
  | case3 v ih => exact ih elements
  | case4 inside =>
    obtain rfl : inside = items := Option.some.inj elements
    rfl
  | case5 inside =>
    obtain rfl : inside.map produced = items := Option.some.inj elements
    exact Json.itemsText_eq produced (fun _ => rfl) inside
  | case6 => cases elements

theorem text_of_kind {v : Data} (blank : v.kind = .null ∨ v.kind = .mapping) : v.text = "" := by
  fun_induction kind v with
  | case1 v => exact Json.text_of_kind blank
  | case2 v => exact Yaml.text_of_kind blank
  | case3 => rfl
  | case4 v ih => exact ih blank
  | case10 => rfl
  | case11 v => exact Json.text_of_kind blank
  | _ => simp at blank

theorem kind_of_child? {v w : Data} {name : String} (member : v.child? name = some w) :
    v.kind = .mapping := by
  fun_induction child? name v with
  | case1 v =>
    obtain ⟨inner, found, -⟩ := Option.map_eq_some_iff.mp member
    exact Json.kind_of_get? found
  | case2 v =>
    obtain ⟨inner, found, -⟩ := Option.map_eq_some_iff.mp member
    exact Yaml.kind_of_get? found
  | case3 v ih => exact ih member
  | case4 entries => rfl
  | case5 members => rfl
  | case6 => cases member

end Data

end Mustache
