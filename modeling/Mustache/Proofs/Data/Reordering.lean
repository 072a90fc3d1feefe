import Mustache.Proofs.Data.Counterparts

/-!
Data whose tables are visited in another order. Main statement: it looks the same from everywhere
inside, and has the same JSON counterpart or none. Which of several entries without a counterpart is
met first depends on the order, and so does the reason.
-/

namespace Mustache

namespace Data

/-- The same data, with the entries of tables at any depth in any order. Rows pair the elements or
the entries of both; no two entries of a table have one key. -/
inductive Reordered : Data → Data → Prop where
  | same (v : Data) : Reordered v v
  | present {v w : Data} (inner : Reordered v w) : Reordered (.present v) (.present w)
  | list {rows : List (Data × Data)} (items : ∀ row ∈ rows, Reordered row.1 row.2) :
      Reordered (.list (rows.map Prod.fst)) (.list (rows.map Prod.snd))
  | table {rows order : List (String × Data × Data)} (distinct : Keyed.Distinct rows)
      (perm : order.Perm rows) (members : ∀ row ∈ rows, Reordered row.2.1 row.2.2) :
      Reordered (.table (rows.map fun row => (row.1, row.2.1)))
        (.table (order.map fun row => (row.1, row.2.2)))

/-- A reason why a value has no counterpart when its tables are visited in some order. -/
def MayFail (v : Data) (reason : NoCounterpart) : Prop :=
  ∃ w, v.Reordered w ∧ w.toJson = .error reason

/-- The value itself, and elements and members of what it contains. -/
inductive Contains (v : Data) : Data → Prop where
  | self : Contains v v
  | element {w u : Data} {items : List Data} (outer : Contains v w)
      (elements : w.children? = some items) (member : u ∈ items) : Contains v u
  | child {w u : Data} {name : String} (outer : Contains v w) (found : w.child? name = some u) :
      Contains v u

/-- Whatever a rendering against the value can look at: what it contains and what filters give. -/
def Shows (v w : Data) : Prop :=
  v.Contains w ∨ ∃ j, w = .produced j

/-- The counterpart; null if there is none. -/
def counterpart (v : Data) : Json :=
  v.toJson.toOption.getD .null

private theorem eq_of_entriesToJson {entries : List (String × Data)}
    {members : List (String × Json)} (converts : entriesToJson entries = .ok members) :
    members = entries.map fun e => (e.1, e.2.counterpart) := by
  induction entries generalizing members with
  | nil => exact (Except.ok.inj converts).symm
  | cons e rest ih =>
    obtain ⟨name, v⟩ := e
    rw [entriesToJson] at converts
    obtain ⟨j, first, converts⟩ := bind_eq_ok_iff.mp converts
    obtain ⟨others, later, converts⟩ := bind_eq_ok_iff.mp converts
    obtain rfl := Except.ok.inj converts
    have here : v.counterpart = j := by simp [counterpart, first, Except.toOption]
    rw [List.map_cons, here, ih later]

namespace Reordered

variable {v w : Data}

theorem kind (reordered : v.Reordered w) : v.kind = w.kind := by
  induction reordered with
  | present inner ih => exact ih
  | _ => rfl

theorem text (reordered : v.Reordered w) : v.text = w.text := by
  induction reordered with
  | same v => rfl
  | present inner ih => exact ih
  | @list rows items ih =>
    rw [Data.text, Data.text, itemsText_eq_join, itemsText_eq_join, List.map_map, List.map_map]
    exact congrArg String.join (List.map_congr_left ih)
  | table distinct perm members ih => rfl

theorem forall₂_map_fst_snd {α β : Type} {R : α → β → Prop} {rows : List (α × β)}
    (related : ∀ row ∈ rows, R row.1 row.2) :
    List.Forall₂ R (rows.map Prod.fst) (rows.map Prod.snd) := by
  rw [List.forall₂_map_left_iff, List.forall₂_map_right_iff, List.forall₂_same]
  exact related

theorem children (reordered : v.Reordered w) :
    Option.Rel (List.Forall₂ Reordered) v.children? w.children? := by
  induction reordered with
  | same v => exact rel_option_refl (fun _ => List.forall₂_same.mpr fun u _ => .same u) _
  | present inner ih => exact ih
  | @list rows items ih =>
    exact .some (forall₂_map_fst_snd items)
  | table distinct perm members ih => exact .none

theorem child (reordered : v.Reordered w) (name : String) :
    Option.Rel Reordered (v.child? name) (w.child? name) := by
  induction reordered with
  | same v => exact rel_option_refl .same _
  | present inner ih => exact ih
  | list items ih => exact .none
  | @table rows order distinct perm members ih =>
    have found := Keyed.find?_eq_of_perm distinct perm name
    rw [child?, child?, Keyed.lookup_map, Keyed.lookup_map, found]
    cases row : rows.find? (·.1 == name) with
    | none => exact .none
    | some row => exact .some (members _ (List.mem_of_find?_eq_some row))

private theorem itemsToJson_upTo {items others : List Data}
    {B : NoCounterpart → NoCounterpart → Prop}
    (alike : List.Forall₂ (fun v w => UpToError B v.toJson w.toJson) items others) :
    UpToError B (itemsToJson items) (itemsToJson others) := by
  induction alike with
  | nil => exact .ok []
  | cons first rest ih =>
    rw [itemsToJson, itemsToJson]
    exact first.bind fun j => ih.bind fun js => .ok (j :: js)

theorem entriesToJson_error_iff_of_perm {rows order : List (String × Data × Data)}
    (perm : order.Perm rows)
    (alike : ∀ row ∈ rows, UpToError (fun _ _ => True) row.2.1.toJson row.2.2.toJson) :
    (∃ e, entriesToJson (order.map fun row => (row.1, row.2.2)) = .error e) ↔
      ∃ e, entriesToJson (rows.map fun row => (row.1, row.2.1)) = .error e := by
  have each : ∀ row ∈ rows, row.2.2.Unconvertible ↔ row.2.1.Unconvertible := by
    intro row member
    rw [← toJson_error_iff, ← toJson_error_iff]
    exact (alike row member).exists_error_iff.symm
  rw [entriesToJson_error_iff, entriesToJson_error_iff]
  simp only [List.mem_map, exists_exists_and_eq_and, perm.mem_iff]
  constructor
  · rintro ⟨row, member, inner⟩
    exact ⟨row, member, (each row member).mp inner⟩
  · rintro ⟨row, member, inner⟩
    exact ⟨row, member, (each row member).mpr inner⟩

theorem ofMembers_eq_of_perm {rows order : List (String × Data × Data)}
    (distinct : Keyed.Distinct rows) (perm : order.Perm rows)
    (alike : ∀ row ∈ rows, UpToError (fun _ _ => True) row.2.1.toJson row.2.2.toJson)
    {members others : List (String × Json)}
    (left : entriesToJson (rows.map fun row => (row.1, row.2.1)) = .ok members)
    (right : entriesToJson (order.map fun row => (row.1, row.2.2)) = .ok others) :
    Json.ofMembers others = Json.ofMembers members := by
  have each : ∀ row ∈ rows, row.2.2.counterpart = row.2.1.counterpart := by
    intro row member
    rw [counterpart, counterpart, (alike row member).toOption]
  have same : members = rows.map fun row => (row.1, row.2.2.counterpart) := by
    rw [eq_of_entriesToJson left, List.map_map]
    exact List.map_congr_left fun row member => by simp [each row member]
  have permuted : others.Perm members := by
    rw [same, eq_of_entriesToJson right, List.map_map]
    exact perm.map _
  have single : Keyed.Distinct members := by
    rw [same]
    exact List.pairwise_map.mpr distinct
  exact congrArg Json.object (Keyed.ofList_perm single permuted)

/-- The order of entries decides at most about the reason why there is no counterpart. -/
theorem toJson_upTo (reordered : v.Reordered w) :
    UpToError (fun _ _ => True) v.toJson w.toJson := by
  induction reordered with
  | same v =>
    cases v.toJson with
    | ok j => exact .ok j
    | error reason => exact .error trivial
  | present inner ih => exact ih
  | @list rows items ih =>
    rw [toJson, toJson]
    exact (itemsToJson_upTo (forall₂_map_fst_snd ih)).map Json.array
  | @table rows order distinct perm members ih =>
    have failing := entriesToJson_error_iff_of_perm perm ih
    rw [toJson, toJson]
    cases left : entriesToJson (rows.map fun row => (row.1, row.2.1)) with
    | error reason =>
      obtain ⟨other, right⟩ := failing.mpr ⟨reason, left⟩
      rw [right]
      exact .error trivial
    | ok members =>
      cases right : entriesToJson (order.map fun row => (row.1, row.2.2)) with
      | error reason =>
        obtain ⟨other, failed⟩ := failing.mp ⟨reason, right⟩
        rw [left] at failed
        cases failed
      | ok others =>
        have same := ofMembers_eq_of_perm distinct perm ih left right
        rw [Except.map, Except.map, same]
        exact .ok _

/-- Both reasons are ones for which the value may fail to have a counterpart. -/
theorem toJson_mayFail (reordered : v.Reordered w) :
    UpToError (fun a b => v.MayFail a ∧ v.MayFail b) v.toJson w.toJson := by
  have alike := reordered.toJson_upTo
  generalize left : v.toJson = x at alike ⊢
  generalize right : w.toJson = y at alike ⊢
  cases alike with
  | ok j => exact .ok j
  | error errors => exact .error ⟨⟨v, .same v, left⟩, ⟨w, reordered, right⟩⟩

end Reordered

/-- What a value contains lacks a counterpart only if the value does. -/
theorem Contains.unconvertible {v w : Data} (contains : v.Contains w) (inner : w.Unconvertible) :
    v.Unconvertible := by
  induction contains with
  | self => exact inner
  | element outer elements member ih => exact ih (.of_element elements member inner)
  | child outer found ih => exact ih (.of_child found inner)

theorem MayFail.unconvertible {v : Data} {reason : NoCounterpart} (fails : v.MayFail reason) :
    v.Unconvertible := by
  obtain ⟨w, reordered, failed⟩ := fails
  exact v.toJson_error_iff.mp (reordered.toJson_upTo.exists_error_iff.mpr ⟨reason, failed⟩)

theorem exists_of_entriesToJson_eq_error {entries : List (String × Data)} {reason : NoCounterpart}
    (failed : entriesToJson entries = .error reason) :
    ∃ e ∈ entries, e.2.toJson = .error reason := by
  induction entries with
  | nil => cases failed
  | cons e rest ih =>
    obtain ⟨name, v⟩ := e
    rw [entriesToJson] at failed
    cases first : v.toJson with
    | error other =>
      rw [first] at failed
      obtain rfl := Except.error.inj failed
      exact ⟨_, List.mem_cons_self, first⟩
    | ok j =>
      cases others : entriesToJson rest with
      | error other =>
        rw [first, others] at failed
        obtain rfl := Except.error.inj failed
        obtain ⟨e, member, inner⟩ := ih others
        exact ⟨e, List.mem_cons_of_mem _ member, inner⟩
      | ok members =>
        rw [first, others] at failed
        cases failed

theorem mayFail_table_iff {entries : List (String × Data)} (distinct : Keyed.Distinct entries)
    {reason : NoCounterpart} :
    (table entries).MayFail reason ↔ ∃ e ∈ entries, e.2.MayFail reason := by
  constructor
  · rintro ⟨w, reordered, failed⟩
    cases reordered with
    | same =>
      obtain ⟨e, member, inner⟩ := exists_of_entriesToJson_eq_error (map_eq_error_iff.mp failed)
      exact ⟨e, member, e.2, .same _, inner⟩
    | @table rows order single perm members =>
      obtain ⟨e, member, inner⟩ := exists_of_entriesToJson_eq_error (map_eq_error_iff.mp failed)
      obtain ⟨row, present, rfl⟩ := List.mem_map.mp member
      have here := perm.mem_iff.mp present
      exact ⟨_, List.mem_map_of_mem here, row.2.2, members row here, inner⟩
  · rintro ⟨e, member, w, reordered, failed⟩
    obtain ⟨before, behind, rfl⟩ := List.append_of_mem member
    -- the other entries stay as they are
    let still (f : String × Data) : String × Data × Data := (f.1, f.2, f.2)
    let rows := before.map still ++ (e.1, e.2, w) :: behind.map still
    have left : rows.map (fun row => (row.1, row.2.1)) = before ++ e :: behind := by
      simp [rows, still, Function.comp_def]
    have single : Keyed.Distinct rows := by
      rw [← left] at distinct
      exact (List.pairwise_map (f := fun row : String × Data × Data => (row.1, row.2.1))).mp distinct
    have perm : ((e.1, e.2, w) :: (before.map still ++ behind.map still)).Perm rows :=
      List.perm_middle.symm
    have each : ∀ row ∈ rows, Reordered row.2.1 row.2.2 := by
      intro row present
      rcases List.mem_append.mp present with early | later
      · obtain ⟨f, -, rfl⟩ := List.mem_map.mp early
        exact .same _
      · rcases List.mem_cons.mp later with rfl | late
        · exact reordered
        · obtain ⟨f, -, rfl⟩ := List.mem_map.mp late
          exact .same _
    have whole := Reordered.table single perm each
    rw [left] at whole
    refine ⟨_, whole, ?_⟩
    rw [toJson, List.map_cons, entriesToJson, failed]
    rfl

theorem Shows.element {root v : Data} (shows : root.Shows v) {items : List Data}
    (elements : v.children? = some items) : ∀ u ∈ items, root.Shows u := by
  intro u member
  rcases shows with inside | ⟨j, rfl⟩
  · exact .inl (inside.element elements member)
  · cases j with
    | array others =>
      obtain rfl := Option.some.inj elements
      obtain ⟨i, -, rfl⟩ := List.mem_map.mp member
      exact .inr ⟨i, rfl⟩
    | _ => cases elements

theorem Shows.child {root v u : Data} (shows : root.Shows v) {name : String}
    (found : v.child? name = some u) : root.Shows u := by
  rcases shows with inside | ⟨j, rfl⟩
  · exact .inl (inside.child found)
  · cases j with
    | object members =>
      obtain ⟨i, -, rfl⟩ := Option.map_eq_some_iff.mp found
      exact .inr ⟨i, rfl⟩
    | _ => cases found

/-- Reordered data looks the same from everywhere inside. -/
theorem Reordered.likeness (root : Data) : Likeness fun v w => root.Shows v ∧ v.Reordered w where
  kind related := related.2.kind
  text related := related.2.text
  children := by
    rintro v w ⟨shows, reordered⟩
    have items := reordered.children
    generalize elements : v.children? = left at items ⊢
    generalize w.children? = right at items ⊢
    cases items with
    | none => exact .none
    | some both => exact .some ((List.forall₂_and_left _ _).mpr ⟨shows.element elements, both⟩)
  child := by
    rintro v w name ⟨shows, reordered⟩
    have members := reordered.child name
    generalize found : v.child? name = left at members ⊢
    generalize w.child? name = right at members ⊢
    cases members with
    | none => exact .none
    | some both => exact .some ⟨shows.child found, both⟩
  produced j := ⟨.inr ⟨j, rfl⟩, .same _⟩

theorem Reordered.convertsUpTo (root : Data) :
    ConvertsUpTo (fun v w => root.Shows v ∧ v.Reordered w)
      fun a b => ∃ u, root.Contains u ∧ u.MayFail a ∧ u.MayFail b := by
  rintro v w ⟨inside | ⟨j, rfl⟩, reordered⟩
  · have alike := reordered.toJson_mayFail
    generalize v.toJson = left at alike ⊢
    generalize w.toJson = right at alike ⊢
    cases alike with
    | ok j => exact .ok j
    | error reasons => exact .error ⟨v, inside, reasons⟩
  · cases reordered
    exact .ok j

end Data

end Mustache
