import Mustache.Proofs.Data.Elements
import Mustache.Proofs.Data.Order
import Mustache.Proofs.Render.Agreement

/-!
One JSON value in all families of data. Its images have the same scalars, and their elements
and members are images again, members in any order. Main statement: rendering against an
image gives what rendering against the JSON value gives.
-/

namespace Mustache

namespace Json

/-- Numbers are integers. -/
def Integral : Json → Prop :=
  All fun
    | number (.float _) => False
    | _ => True

mutual

/-- The YAML value with the same scalars, its mappings keyed by strings. -/
def yamlImage : Json → Yaml
  | null => .null
  | bool b => .bool b
  | number n => .number n
  | string s => .string s
  | array items => .sequence (itemsYamlImage items)
  | object members => .mapping (membersYamlImage members)
termination_by structural v => v

def itemsYamlImage : List Json → List Yaml
  | [] => []
  | v :: rest => yamlImage v :: itemsYamlImage rest
termination_by structural items => items

def membersYamlImage : List (String × Json) → List (Yaml × Yaml)
  | [] => []
  | (name, v) :: rest => (.string name, yamlImage v) :: membersYamlImage rest
termination_by structural members => members

end

mutual

/-- The plain value with the same scalars; null is an absent optional value. -/
def plainImage : Json → Data
  | null => .absent
  | bool b => .bool b
  | number (.integer n) => .integer n
  | number (.float x) => .float x
  | string s => .string s
  | array items => .list (itemsPlainImage items)
  | object members => .table (membersPlainImage members)
termination_by structural v => v

def itemsPlainImage : List Json → List Data
  | [] => []
  | v :: rest => plainImage v :: itemsPlainImage rest
termination_by structural items => items

def membersPlainImage : List (String × Json) → List (String × Data)
  | [] => []
  | (name, v) :: rest => (name, plainImage v) :: membersPlainImage rest
termination_by structural members => members

end

/-- Data that stands for a JSON value. A sequence and a mapping are given by rows, which pair
the elements or members of the JSON value with those of the image; the image of an object may
have the rows in any order. -/
inductive Image : Json → Data → Prop where
  | json (v : Json) : Image v (.json v)
  | yamlNull : Image .null (.yaml .null)
  | yamlBool (b : Bool) : Image (.bool b) (.yaml (.bool b))
  | yamlInteger (n : Int) : Image (.number (.integer n)) (.yaml (.number (.integer n)))
  | yamlString (s : String) : Image (.string s) (.yaml (.string s))
  | sequence {rows : List (Json × Yaml)} (items : ∀ row ∈ rows, Image row.1 (.yaml row.2)) :
      Image (.array (rows.map Prod.fst)) (.yaml (.sequence (rows.map Prod.snd)))
  | mapping {rows order : List (String × Json × Yaml)} (ordered : Keyed.Ordered rows)
      (perm : order.Perm rows) (members : ∀ row ∈ rows, Image row.2.1 (.yaml row.2.2)) :
      Image (.object (rows.map fun row => (row.1, row.2.1)))
        (.yaml (.mapping (order.map fun row => (.string row.1, row.2.2))))
  | absent : Image .null .absent
  | present {v : Json} {image : Data} (inner : Image v image) : Image v (.present image)
  | bool (b : Bool) : Image (.bool b) (.bool b)
  | integer (n : Int) : Image (.number (.integer n)) (.integer n)
  | string (s : String) : Image (.string s) (.string s)
  | list {rows : List (Json × Data)} (items : ∀ row ∈ rows, Image row.1 row.2) :
      Image (.array (rows.map Prod.fst)) (.list (rows.map Prod.snd))
  | table {rows order : List (String × Json × Data)} (ordered : Keyed.Ordered rows)
      (perm : order.Perm rows) (members : ∀ row ∈ rows, Image row.2.1 row.2.2) :
      Image (.object (rows.map fun row => (row.1, row.2.1)))
        (.table (order.map fun row => (row.1, row.2.2)))

end Json

/-! YAML values are read as the data they are. -/

namespace Yaml

theorem itemsToJson_eq (items : List Yaml) :
    itemsToJson items = Data.itemsToJson (items.map .yaml) := by
  induction items with
  | nil => rfl
  | cons v rest ih => rw [itemsToJson, List.map_cons, Data.itemsToJson, Data.toJson, ih]

private theorem entriesToJson_eq (entries : List (String × Yaml)) :
    entriesToJson (entries.map fun e => (.string e.1, e.2)) =
      Data.entriesToJson (entries.map fun e => (e.1, .yaml e.2)) := by
  induction entries with
  | nil => rfl
  | cons e rest ih =>
    rw [List.map_cons, List.map_cons, entriesToJson, Data.entriesToJson, Data.toJson, ih]
    rfl

end Yaml

/-! Rows that agree make lists that agree. -/

namespace Json.Image

variable {α : Type}

private theorem itemsText_rows {rows : List (Json × α)} (inject : α → Data)
    (same : ∀ row ∈ rows, (inject row.2).text = row.1.text) :
    Data.itemsText (rows.map fun row => inject row.2) = Json.itemsText (rows.map Prod.fst) := by
  induction rows with
  | nil => rfl
  | cons row rest ih =>
    have others := ih fun r member => same r (List.mem_cons_of_mem row member)
    simp only [List.map_cons, Data.itemsText, Json.itemsText, same row List.mem_cons_self, others]

private theorem itemsToJson_rows {rows : List (Json × α)} (inject : α → Data)
    (same : ∀ row ∈ rows, (inject row.2).toJson = .ok row.1) :
    Data.itemsToJson (rows.map fun row => inject row.2) = .ok (rows.map Prod.fst) := by
  induction rows with
  | nil => rfl
  | cons row rest ih =>
    have others := ih fun r member => same r (List.mem_cons_of_mem row member)
    simp only [List.map_cons, Data.itemsToJson, same row List.mem_cons_self, others]
    rfl

private theorem entriesToJson_rows {rows : List (String × Json × α)} (inject : α → Data)
    (same : ∀ row ∈ rows, (inject row.2.2).toJson = .ok row.2.1) :
    Data.entriesToJson (rows.map fun row => (row.1, inject row.2.2)) =
      .ok (rows.map fun row => (row.1, row.2.1)) := by
  induction rows with
  | nil => rfl
  | cons row rest ih =>
    have others := ih fun r member => same r (List.mem_cons_of_mem row member)
    simp only [List.map_cons, Data.entriesToJson, same row List.mem_cons_self, others]
    rfl

/-- The object with the members of the rows, whatever order they come in. -/
theorem ofMembers_rows {rows order : List (String × Json × α)}
    (ordered : Keyed.Ordered rows) (perm : order.Perm rows) :
    Json.ofMembers (order.map fun row => (row.1, row.2.1)) =
      .object (rows.map fun row => (row.1, row.2.1)) := by
  exact congrArg Json.object
    (Keyed.ofList_eq_of_perm (ordered.map fun row => row.2.1) (perm.map _))

theorem rel_of_find? {R : Data → Data → Prop} {rows : List (String × Json × α)}
    (inject : α → Data) (name : String)
    (related : ∀ row ∈ rows, R (inject row.2.2) (.json row.2.1)) :
    Option.Rel R ((rows.find? (·.1 == name)).map fun row => inject row.2.2)
      ((rows.find? (·.1 == name)).map fun row => .json row.2.1) := by
  cases found : rows.find? (·.1 == name) with
  | none => exact .none
  | some row => exact .some (related row (List.mem_of_find?_eq_some found))

theorem kind {v : Json} {image : Data} (is : v.Image image) : image.kind = v.kind := by
  induction is with
  | present inner ih => exact ih
  | _ => rfl

theorem text {v : Json} {image : Data} (is : v.Image image) : image.text = v.text := by
  induction is with
  | present inner ih => exact ih
  | @sequence rows items ih =>
    rw [Data.text, Yaml.text, Yaml.itemsText_eq, List.map_map, Json.text]
    exact itemsText_rows .yaml ih
  | @list rows items ih => exact itemsText_rows id ih
  | _ => rfl

theorem toJson {v : Json} {image : Data} (is : v.Image image) : image.toJson = .ok v := by
  induction is with
  | present inner ih => exact ih
  | @sequence rows items ih =>
    have converted := itemsToJson_rows .yaml ih
    rw [Data.toJson, Yaml.toJson, Yaml.itemsToJson_eq, List.map_map]
    exact congrArg (Except.map Json.array) converted
  | @mapping rows order ordered perm members ih =>
    have converted := entriesToJson_rows .yaml fun row member => ih row (perm.mem_iff.mp member)
    have named := Yaml.entriesToJson_eq (order.map fun row => (row.1, row.2.2))
    rw [List.map_map, List.map_map] at named
    rw [Data.toJson, Yaml.toJson]
    refine (congrArg (Except.map Json.ofMembers) (named.trans converted)).trans ?_
    exact congrArg Except.ok (ofMembers_rows ordered perm)
  | @list rows items ih =>
    rw [Data.toJson]
    exact congrArg (Except.map Json.array) (itemsToJson_rows id ih)
  | @table rows order ordered perm members ih =>
    have converted := entriesToJson_rows id fun row member => ih row (perm.mem_iff.mp member)
    rw [Data.toJson]
    refine (congrArg (Except.map Json.ofMembers) converted).trans ?_
    exact congrArg Except.ok (ofMembers_rows ordered perm)
  | _ => rfl

theorem forall₂_rows {α β : Type} {R : Data → Data → Prop} {rows : List (α × β)}
    (left : β → Data) (right : α → Data) (related : ∀ row ∈ rows, R (left row.2) (right row.1)) :
    List.Forall₂ R ((rows.map Prod.snd).map left) ((rows.map Prod.fst).map right) := by
  induction rows with
  | nil => exact .nil
  | cons row rest ih =>
    have others := ih fun r member => related r (List.mem_cons_of_mem row member)
    exact .cons (related row List.mem_cons_self) others

theorem children {v : Json} {image : Data} (is : v.Image image) :
    Option.Rel (List.Forall₂ fun image d => ∃ v, v.Image image ∧ d = .json v)
      image.children? (Data.json v).children? := by
  induction is with
  | present inner ih => exact ih
  | json v =>
    cases children : v.children? with
    | none => simp [Data.children?, children]
    | some items =>
      simp only [Data.children?, children]
      refine .some (List.forall₂_same.mpr ?_)
      intro d member
      obtain ⟨w, -, rfl⟩ := List.mem_map.mp member
      exact ⟨w, .json w, rfl⟩
  | @sequence rows items ih =>
    exact .some (forall₂_rows .yaml .json fun row member => ⟨row.1, items row member, rfl⟩)
  | @list rows items ih =>
    have elements := forall₂_rows id .json (R := fun image d => ∃ v, v.Image image ∧ d = .json v)
      fun row member => ⟨row.1, items row member, rfl⟩
    rw [List.map_id] at elements
    exact .some elements
  | _ => exact .none

theorem child (name : String) {v : Json} {image : Data} (is : v.Image image) :
    Option.Rel (fun image d => ∃ v, v.Image image ∧ d = .json v)
      (image.child? name) ((Data.json v).child? name) := by
  induction is with
  | present inner ih => exact ih
  | json v =>
    cases member : v.get? name with
    | none => simp [Data.child?, member]
    | some w =>
      simp only [Data.child?, member, Option.map_some]
      exact .some ⟨w, .json w, rfl⟩
  | @mapping rows order ordered perm members ih =>
    have found := Keyed.find?_eq_of_perm ordered.distinct perm name
    have key : ((fun e : Yaml × Yaml => e.1.isName name) ∘
        fun row : String × Json × Yaml => (.string row.1, row.2.2)) = fun row => row.1 == name := rfl
    simp only [Data.child?, Yaml.get?, Json.get?, List.find?_map, key, found, Keyed.lookup_map,
      Option.map_map]
    exact rel_of_find? .yaml name fun row member => ⟨row.2.1, members row member, rfl⟩
  | @table rows order ordered perm members ih =>
    have found := Keyed.find?_eq_of_perm ordered.distinct perm name
    simp only [Data.child?, Json.get?, Keyed.lookup_map, found, Option.map_map]
    exact rel_of_find? id name fun row member => ⟨row.2.1, members row member, rfl⟩
  | _ => exact .none

/-- An image and the value it stands for agree, and so does every value with itself. -/
theorem agreement :
    Data.Agreement fun image d => (∃ v : Json, v.Image image ∧ d = .json v) ∨ image = d where
  kind := by
    rintro image d (⟨v, is, rfl⟩ | rfl)
    · exact is.kind
    · rfl
  text := by
    rintro image d (⟨v, is, rfl⟩ | rfl)
    · exact is.text
    · rfl
  toJson := by
    rintro image d (⟨v, is, rfl⟩ | rfl)
    · exact is.toJson
    · rfl
  children := by
    rintro image d (⟨v, is, rfl⟩ | rfl)
    · exact rel_option_imp (fun _ _ items => items.imp fun _ _ => .inl) is.children
    · exact rel_option_refl (fun items => List.forall₂_same.mpr fun _ _ => .inr rfl) image.children?
  child := by
    rintro image d name (⟨v, is, rfl⟩ | rfl)
    · exact rel_option_imp (fun _ _ => .inl) (is.child name)
    · exact rel_option_refl (fun _ => .inr rfl) (image.child? name)
  produced v := .inr rfl

end Json.Image

namespace Json

private theorem itemsYamlImage_eq_map (items : List Json) :
    itemsYamlImage items = items.map yamlImage := by
  induction items with
  | nil => rfl
  | cons v rest ih => rw [itemsYamlImage, ih, List.map_cons]

private theorem membersYamlImage_eq_map (members : List (String × Json)) :
    membersYamlImage members = members.map fun m => (.string m.1, m.2.yamlImage) := by
  induction members with
  | nil => rfl
  | cons member rest ih => rw [membersYamlImage, ih, List.map_cons]

private theorem itemsPlainImage_eq_map (items : List Json) :
    itemsPlainImage items = items.map plainImage := by
  induction items with
  | nil => rfl
  | cons v rest ih => rw [itemsPlainImage, ih, List.map_cons]

private theorem membersPlainImage_eq_map (members : List (String × Json)) :
    membersPlainImage members = members.map fun m => (m.1, m.2.plainImage) := by
  induction members with
  | nil => rfl
  | cons member rest ih => rw [membersPlainImage, ih, List.map_cons]

private theorem image_yamlImage {v : Json} (ordered : v.InOrder) (integral : v.Integral) :
    v.Image (.yaml v.yamlImage) := by
  induction ordered with
  | @intro v here inside ih =>
    have images : ∀ w ∈ v.parts, w.Image (.yaml w.yamlImage) :=
      fun w member => ih w member (integral.inside member)
    cases v with
    | null => exact .yamlNull
    | bool b => exact .yamlBool b
    | string s => exact .yamlString s
    | number n =>
      cases n with
      | integer n => exact .yamlInteger n
      | float x => exact absurd integral.here id
    | array items =>
      have rows : ∀ row ∈ items.map fun w => (w, w.yamlImage), row.1.Image (.yaml row.2) := by
        intro row member
        obtain ⟨w, item, rfl⟩ := List.mem_map.mp member
        exact images w item
      simpa [yamlImage, itemsYamlImage_eq_map, Function.comp_def] using Image.sequence rows
    | object members =>
      have sorted : Keyed.Ordered members := here
      have rows : ∀ row ∈ members.map fun m => (m.1, m.2, m.2.yamlImage),
          row.2.1.Image (.yaml row.2.2) := by
        intro row member
        obtain ⟨m, inside, rfl⟩ := List.mem_map.mp member
        exact images m.2 (List.mem_map_of_mem inside)
      have image := Image.mapping (sorted.map fun m => (m.2, m.2.yamlImage)) (.refl _) rows
      simpa [yamlImage, membersYamlImage_eq_map, Function.comp_def] using image

private theorem image_plainImage {v : Json} (ordered : v.InOrder) (integral : v.Integral) :
    v.Image v.plainImage := by
  induction ordered with
  | @intro v here inside ih =>
    have images : ∀ w ∈ v.parts, w.Image w.plainImage :=
      fun w member => ih w member (integral.inside member)
    cases v with
    | null => exact .absent
    | bool b => exact .bool b
    | string s => exact .string s
    | number n =>
      cases n with
      | integer n => exact .integer n
      | float x => exact absurd integral.here id
    | array items =>
      have rows : ∀ row ∈ items.map fun w => (w, w.plainImage), row.1.Image row.2 := by
        intro row member
        obtain ⟨w, item, rfl⟩ := List.mem_map.mp member
        exact images w item
      simpa [plainImage, itemsPlainImage_eq_map, Function.comp_def] using Image.list rows
    | object members =>
      have sorted : Keyed.Ordered members := here
      have rows : ∀ row ∈ members.map fun m => (m.1, m.2, m.2.plainImage),
          row.2.1.Image row.2.2 := by
        intro row member
        obtain ⟨m, inside, rfl⟩ := List.mem_map.mp member
        exact images m.2 (List.mem_map_of_mem inside)
      have image := Image.table (sorted.map fun m => (m.2, m.2.plainImage)) (.refl _) rows
      simpa [plainImage, membersPlainImage_eq_map, Function.comp_def] using image

end Json

namespace Template

/-- A template cannot tell an image from the JSON value it stands for. -/
theorem render_of_image {v : Json} {image : Data} (is : v.Image image) (t : Template)
    (c : Collaborators) : t.render image c = t.render (.json v) c :=
  t.render_related Json.Image.agreement (.inl ⟨v, is, rfl⟩) c

/-- The images of a value, one in the YAML family, one in plain data and those with tables in any
other order, are rendered as the value is. -/
structure RendersImages (t : Template) (c : Collaborators) (v : Json) : Prop where
  yaml : t.render (.yaml v.yamlImage) c = t.render (.json v) c
  plain : t.render v.plainImage c = t.render (.json v) c
  images : ∀ image, v.Image image → t.render image c = t.render (.json v) c

/-- Every template renders the images of JSON values as the values, with all collaborators. The
members of objects are in order, as they are in all that is read from a text; numbers are to be
integers, since a float has a different text in each family. -/
theorem render_images (t : Template) (c : Collaborators) :
    (∀ v : OrderedJson, v.json.Integral → t.RendersImages c v.json) ∧
      ∀ text v, Json.parse? text = some v → v.Integral → t.RendersImages c v := by
  have ordered (v : OrderedJson) (integral : v.json.Integral) : t.RendersImages c v.json :=
    { yaml := t.render_of_image (Json.image_yamlImage v.inOrder integral) c
      plain := t.render_of_image (Json.image_plainImage v.inOrder integral) c
      images := fun image is => t.render_of_image is c }
  exact ⟨ordered, fun text v read integral => ordered ⟨v, Json.inOrder_of_parse? read⟩ integral⟩

/-- A section over an array, in JSON, in YAML and in a table with its entries reversed, and over an
array that is read. -/
theorem render_images_reversed :
    let t : Template := ⟨[.sect ⟨[.identifier "items"], []⟩ false
      [.interpolation ⟨[.identifier "name"], []⟩ true ⟨1, 11, 10⟩,
        .interpolation ⟨[.this], []⟩ true ⟨1, 19, 18⟩] ⟨1, 1, 0⟩], .html⟩
    let v : Json := .object [("items", .array [.number (.integer 1), .null]), ("name", .string "<")]
    let reversed : Data := .table [("name", .present (.string "<")),
      ("items", .list [.integer 1, .absent])]
    let row : Json := .array [.null]
    v.InOrder ∧ v.Integral ∧ v.Image reversed ∧ t.render (.json v) {} = .ok "&lt;1&lt;" ∧
      t.render (.yaml v.yamlImage) {} = .ok "&lt;1&lt;" ∧
      t.render reversed {} = .ok "&lt;1&lt;" ∧ Json.parse? "[null]" = some row ∧
      t.render (.yaml row.yamlImage) {} = t.render (.json row) {} := by
  intro t v reversed row
  have scalar {P : Json → Prop} {w : Json} (here : P w) (none : w.parts = []) : w.All P :=
    .intro here (by simp [none])
  -- The value is an object of two members, of which the first is an array of two scalars.
  have all {P : Json → Prop} (here : P v) (array : P (.array [.number (.integer 1), .null]))
      (one : P (.number (.integer 1))) (null : P .null) (name : P (.string "<")) : v.All P := by
    have items : (Json.array [.number (.integer 1), .null]).All P := by
      refine .intro array ?_
      simpa [Json.parts] using ⟨scalar one rfl, scalar null rfl⟩
    refine .intro here ?_
    simpa [v, Json.parts] using ⟨items, scalar name rfl⟩
  have ordered : v.InOrder :=
    all (List.pairwise_pair.mpr (by decide)) trivial trivial trivial trivial
  have integral : v.Integral := all trivial trivial trivial trivial trivial
  have whole : row.Integral := .intro trivial (List.forall_mem_singleton.mpr (scalar trivial rfl))
  have items : (Json.array [.number (.integer 1), .null]).Image (.list [.integer 1, .absent]) := by
    refine @Json.Image.list [(.number (.integer 1), .integer 1), (.null, .absent)] ?_
    simp only [List.forall_mem_cons]
    exact ⟨.integer 1, .absent, by simp⟩
  have image : v.Image reversed := by
    refine @Json.Image.table [("items", _, _), ("name", .string "<", .present (.string "<"))] _
      (List.pairwise_pair.mpr (by decide)) (.swap _ _ []) ?_
    simp only [List.forall_mem_cons]
    exact ⟨items, .present (.string "<"), by simp⟩
  have rendered : t.render (.json v) {} = .ok "&lt;1&lt;" := by decide +kernel
  have read : Json.parse? "[null]" = some row := by cbv
  obtain ⟨values, texts⟩ := render_images t {}
  have same := values ⟨v, ordered⟩ integral
  exact ⟨ordered, integral, image, rendered, same.yaml.trans rendered,
    (same.images reversed image).trans rendered, read, (texts "[null]" row read whole).yaml⟩

end Template

end Mustache
