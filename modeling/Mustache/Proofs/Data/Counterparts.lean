import Mustache.Proofs.Data.Images

/-!
What values and their JSON counterparts have in common. Main statement: wherever indices lead to an
element of a value, they lead to one of the counterpart, which drives a section in the same way
unless it stands for a float of the plain family that is not finite. A value has no counterpart
exactly if it holds a YAML number that is not finite or a mapping key without a name.
-/

namespace Mustache

/-- What is done step by step fails if a step does, when no step depends on the values before. -/
theorem exists_error_bind_iff {ε α β : Type} {x : Except ε α} {f : α → Except ε β} {P : Prop}
    (same : ∀ a, (∃ e, f a = .error e) ↔ P) :
    (∃ e, (x >>= f) = .error e) ↔ (∃ e, x = .error e) ∨ P := by
  cases x with
  | error e => simp [bind, Except.bind]
  | ok a => simpa [bind, Except.bind] using same a

theorem exists_error_bind_pure_iff {ε α β : Type} {x : Except ε α} {f : α → β} :
    (∃ e, (x >>= fun a => pure (f a)) = .error e) ↔ ∃ e, x = .error e := by
  rw [exists_error_bind_iff (P := False) (by simp [pure, Except.pure]), or_false]

theorem bind_eq_ok_iff {ε α β : Type} {x : Except ε α} {f : α → Except ε β} {b : β} :
    (x >>= f) = .ok b ↔ ∃ a, x = .ok a ∧ f a = .ok b := by
  cases x <;> simp [bind, Except.bind]

theorem map_eq_ok_iff {ε α β : Type} {x : Except ε α} {f : α → β} {b : β} :
    x.map f = .ok b ↔ ∃ a, x = .ok a ∧ f a = b := by
  cases x <;> simp [Except.map]

theorem map_eq_error_iff {ε α β : Type} {x : Except ε α} {f : α → β} {e : ε} :
    x.map f = .error e ↔ x = .error e := by
  cases x <;> simp [Except.map]

namespace Yaml

/-- A mapping key that is no scalar with a text. -/
def Nameless (key : Yaml) : Prop :=
  key.kind = .null ∨ key.kind = .sequence ∨ key.kind = .mapping

/-- A value that holds something without a JSON counterpart. -/
inductive Unconvertible : Yaml → Prop where
  | number {x : Float} (infinite : x.isFinite = false) : Unconvertible (.number (.float x))
  | tagged (tag : String) {v : Yaml} (inner : Unconvertible v) : Unconvertible (.tagged tag v)
  | item {v : Yaml} {items : List Yaml} (member : v ∈ items) (inner : Unconvertible v) :
      Unconvertible (.sequence items)
  | key {e : Yaml × Yaml} {entries : List (Yaml × Yaml)} (member : e ∈ entries)
      (nameless : e.1.Nameless) : Unconvertible (.mapping entries)
  | value {e : Yaml × Yaml} {entries : List (Yaml × Yaml)} (member : e ∈ entries)
      (inner : Unconvertible e.2) : Unconvertible (.mapping entries)

theorem keyName_error_iff (key : Yaml) : (∃ e, key.keyName = .error e) ↔ key.Nameless := by
  unfold Nameless
  fun_induction keyName key with
  | case4 tag v ih => exact ih
  | case5 v => cases v <;> simp_all [kind]
  | _ => simp [kind]

mutual

theorem toJson_error_iff (v : Yaml) : (∃ e, v.toJson = .error e) ↔ v.Unconvertible := by
  cases v with
  | number n =>
    cases n with
    | integer n =>
      constructor
      · rintro ⟨e, failed⟩
        cases failed
      · rintro ⟨⟩
    | float x =>
      simp only [toJson, Number.toJson]
      constructor
      · rintro ⟨e, failed⟩
        split at failed
        · cases failed
        · rename_i infinite
          exact .number (by simpa using infinite)
      · rintro ⟨infinite⟩
        exact ⟨_, if_neg (by simpa using infinite)⟩
  | sequence items =>
    simp only [toJson, map_eq_error_iff, itemsToJson_error_iff items]
    constructor
    · rintro ⟨v, member, inner⟩
      exact .item member inner
    · rintro (_ | _ | ⟨member, inner⟩)
      exact ⟨_, member, inner⟩
  | mapping entries =>
    simp only [toJson, map_eq_error_iff, entriesToJson_error_iff entries]
    constructor
    · rintro ⟨e, member, nameless | inner⟩
      · exact .key member nameless
      · exact .value member inner
    · rintro (_ | _ | _ | ⟨member, nameless⟩ | ⟨member, inner⟩)
      · exact ⟨_, member, .inl nameless⟩
      · exact ⟨_, member, .inr inner⟩
  | tagged tag v =>
    rw [toJson, toJson_error_iff v]
    constructor
    · exact .tagged tag
    · rintro (_ | ⟨_, inner⟩)
      exact inner
  | _ =>
    constructor
    · rintro ⟨e, failed⟩
      cases failed
    · rintro ⟨⟩
termination_by structural v

theorem itemsToJson_error_iff (items : List Yaml) :
    (∃ e, itemsToJson items = .error e) ↔ ∃ v ∈ items, v.Unconvertible := by
  cases items with
  | nil => simp [itemsToJson]
  | cons v rest =>
    rw [itemsToJson, exists_error_bind_iff fun _ => exists_error_bind_pure_iff, toJson_error_iff v,
      itemsToJson_error_iff rest, List.exists_mem_cons_iff]
termination_by structural items

theorem entriesToJson_error_iff (entries : List (Yaml × Yaml)) :
    (∃ e, entriesToJson entries = .error e) ↔
      ∃ e ∈ entries, e.1.Nameless ∨ e.2.Unconvertible := by
  cases entries with
  | nil => simp [entriesToJson]
  | cons entry rest =>
    obtain ⟨k, v⟩ := entry
    rw [entriesToJson, exists_error_bind_iff fun _ => exists_error_bind_iff fun _ =>
        exists_error_bind_pure_iff, keyName_error_iff, toJson_error_iff v,
      entriesToJson_error_iff rest, List.exists_mem_cons_iff, or_assoc]
termination_by structural entries

end

private theorem kind_of_toJson {v : Yaml} {j : Json} (converts : v.toJson = .ok j) :
    j.kind = v.kind := by
  fun_induction kind v with
  | case3 n =>
    cases n with
    | integer n =>
      obtain rfl := Except.ok.inj converts
      rfl
    | float x =>
      rw [toJson, Number.toJson] at converts
      split at converts
      · obtain rfl := Except.ok.inj converts
        rfl
      · cases converts
  | case5 items =>
    obtain ⟨js, -, rfl⟩ := map_eq_ok_iff.mp converts
    rfl
  | case6 entries =>
    obtain ⟨members, -, rfl⟩ := map_eq_ok_iff.mp converts
    rfl
  | case7 tag v ih => exact ih converts
  | _ =>
    obtain rfl := Except.ok.inj converts
    rfl

/-! A value lacks a counterpart if anything inside it does. -/

theorem Unconvertible.of_child {v w : Yaml} {items : List Yaml}
    (elements : v.children? = some items) (member : w ∈ items) (inner : w.Unconvertible) :
    v.Unconvertible := by
  fun_induction children? v with
  | case1 others =>
    obtain rfl := Option.some.inj elements
    exact .item member inner
  | case2 tag v ih => exact .tagged tag (ih elements)
  | case3 => cases elements

private theorem Unconvertible.of_member {v w : Yaml} {name : String}
    (found : v.get? name = some w) (inner : w.Unconvertible) : v.Unconvertible := by
  fun_induction get? name v with
  | case1 entries =>
    obtain ⟨e, here, rfl⟩ := Option.map_eq_some_iff.mp found
    exact .value (List.mem_of_find?_eq_some here) inner
  | case2 tag v ih => exact .tagged tag (ih found)
  | case3 => cases found

end Yaml

namespace Data

/-- A value that holds something without a JSON counterpart. Floats of the plain family do not
count: they are converted whether they are finite or not. -/
inductive Unconvertible : Data → Prop where
  | yaml {v : Yaml} (inner : v.Unconvertible) : Unconvertible (.yaml v)
  | present {v : Data} (inner : Unconvertible v) : Unconvertible (.present v)
  | item {v : Data} {items : List Data} (member : v ∈ items) (inner : Unconvertible v) :
      Unconvertible (.list items)
  | value {e : String × Data} {entries : List (String × Data)} (member : e ∈ entries)
      (inner : Unconvertible e.2) : Unconvertible (.table entries)

mutual

theorem toJson_error_iff (v : Data) : (∃ e, v.toJson = .error e) ↔ v.Unconvertible := by
  cases v with
  | yaml v =>
    rw [toJson, Yaml.toJson_error_iff v]
    constructor
    · exact .yaml
    · rintro ⟨inner⟩
      exact inner
  | present v =>
    rw [toJson, toJson_error_iff v]
    constructor
    · exact .present
    · rintro (_ | inner)
      exact inner
  | list items =>
    simp only [toJson, map_eq_error_iff, itemsToJson_error_iff items]
    constructor
    · rintro ⟨v, member, inner⟩
      exact .item member inner
    · rintro (_ | _ | ⟨member, inner⟩)
      exact ⟨_, member, inner⟩
  | table entries =>
    simp only [toJson, map_eq_error_iff, entriesToJson_error_iff entries]
    constructor
    · rintro ⟨e, member, inner⟩
      exact .value member inner
    · rintro (_ | _ | _ | ⟨member, inner⟩)
      exact ⟨_, member, inner⟩
  | _ =>
    constructor
    · rintro ⟨e, failed⟩
      cases failed
    · rintro ⟨⟩
termination_by structural v

theorem itemsToJson_error_iff (items : List Data) :
    (∃ e, itemsToJson items = .error e) ↔ ∃ v ∈ items, v.Unconvertible := by
  cases items with
  | nil => simp [itemsToJson]
  | cons v rest =>
    rw [itemsToJson, exists_error_bind_iff fun _ => exists_error_bind_pure_iff, toJson_error_iff v,
      itemsToJson_error_iff rest, List.exists_mem_cons_iff]
termination_by structural items

theorem entriesToJson_error_iff (entries : List (String × Data)) :
    (∃ e, entriesToJson entries = .error e) ↔ ∃ e ∈ entries, e.2.Unconvertible := by
  cases entries with
  | nil => simp [entriesToJson]
  | cons entry rest =>
    obtain ⟨name, v⟩ := entry
    rw [entriesToJson, exists_error_bind_iff fun _ => exists_error_bind_pure_iff,
      toJson_error_iff v, entriesToJson_error_iff rest, List.exists_mem_cons_iff]
termination_by structural entries

end

/-- Whether a value is a float of the plain family that is not finite. -/
def isNotFinite : Data → Bool
  | float x => !x.isFinite
  | present v => isNotFinite v
  | _ => false

/-- The counterpart is of the value's kind, but for a float that is not finite. -/
theorem kind_of_toJson {v : Data} {j : Json} (converts : v.toJson = .ok j) :
    if v.isNotFinite then j = .null else j.kind = v.kind := by
  fun_induction isNotFinite v with
  | case1 x =>
    obtain rfl := Except.ok.inj converts
    cases x.isFinite <;> rfl
  | case2 v ih => exact ih converts
  | case3 v notFloat notPresent =>
    show j.kind = v.kind
    cases v with
    | float x => exact absurd rfl (notFloat x)
    | present v => exact absurd rfl (notPresent v)
    | yaml v => exact Yaml.kind_of_toJson converts
    | list items =>
      obtain ⟨js, -, rfl⟩ := map_eq_ok_iff.mp converts
      rfl
    | table entries =>
      obtain ⟨members, -, rfl⟩ := map_eq_ok_iff.mp converts
      rfl
    | _ =>
      obtain rfl := Except.ok.inj converts
      rfl

theorem Unconvertible.of_element {v w : Data} {items : List Data}
    (elements : v.children? = some items) (member : w ∈ items) (inner : w.Unconvertible) :
    v.Unconvertible := by
  fun_induction children? v with
  | case1 v =>
    obtain ⟨js, -, rfl⟩ := Option.map_eq_some_iff.mp elements
    obtain ⟨j, -, rfl⟩ := List.mem_map.mp member
    cases inner
  | case2 v =>
    obtain ⟨others, inside, rfl⟩ := Option.map_eq_some_iff.mp elements
    obtain ⟨u, part, rfl⟩ := List.mem_map.mp member
    obtain ⟨inner⟩ := inner
    exact .yaml (.of_child inside part inner)
  | case3 v ih => exact .present (ih elements)
  | case4 others =>
    obtain rfl := Option.some.inj elements
    exact .item member inner
  | case5 others =>
    obtain rfl := Option.some.inj elements
    obtain ⟨j, -, rfl⟩ := List.mem_map.mp member
    cases inner
  | case6 => cases elements

theorem Unconvertible.of_child {v w : Data} {name : String} (found : v.child? name = some w)
    (inner : w.Unconvertible) : v.Unconvertible := by
  fun_induction child? name v with
  | case1 v =>
    obtain ⟨j, -, rfl⟩ := Option.map_eq_some_iff.mp found
    cases inner
  | case2 v =>
    obtain ⟨u, inside, rfl⟩ := Option.map_eq_some_iff.mp found
    obtain ⟨inner⟩ := inner
    exact .yaml (.of_member inside inner)
  | case3 v ih => exact .present (ih found)
  | case4 entries =>
    obtain ⟨before, behind, rfl, -⟩ := List.lookup_eq_some_iff.mp found
    exact .value (List.mem_append_right _ List.mem_cons_self) inner
  | case5 members =>
    obtain ⟨j, -, rfl⟩ := Option.map_eq_some_iff.mp found
    cases inner
  | case6 => cases found

/-- An element of a value and that of the counterpart. -/
def ConvertsTo (v w : Data) : Prop :=
  ∃ j, v.toJson = .ok j ∧ w = .json j

private theorem forall₂_of_itemsToJson {items : List Data} {js : List Json}
    (converts : itemsToJson items = .ok js) : List.Forall₂ ConvertsTo items (js.map json) := by
  induction items generalizing js with
  | nil =>
    obtain rfl := Except.ok.inj converts
    exact .nil
  | cons v rest ih =>
    rw [itemsToJson] at converts
    obtain ⟨j, first, converts⟩ := bind_eq_ok_iff.mp converts
    obtain ⟨ks, others, converts⟩ := bind_eq_ok_iff.mp converts
    obtain rfl := Except.ok.inj converts
    exact .cons ⟨j, first, rfl⟩ (ih others)

theorem forall₂_convertsTo_self (inject : Json → Data) (same : ∀ j, (inject j).toJson = .ok j)
    (js : List Json) : List.Forall₂ ConvertsTo (js.map inject) (js.map json) := by
  induction js with
  | nil => exact .nil
  | cons j rest ih => exact .cons ⟨j, same j, rfl⟩ ih

private theorem exists_array_of_yaml {v : Yaml} {j : Json} {items : List Yaml}
    (converts : v.toJson = .ok j) (inside : v.children? = some items) :
    ∃ js, j = .array js ∧ List.Forall₂ ConvertsTo (items.map yaml) (js.map json) := by
  fun_induction Yaml.children? v with
  | case1 others =>
    obtain rfl := Option.some.inj inside
    rw [Yaml.toJson, Yaml.itemsToJson_eq] at converts
    obtain ⟨js, converted, rfl⟩ := map_eq_ok_iff.mp converts
    exact ⟨js, rfl, forall₂_of_itemsToJson converted⟩
  | case2 tag v ih => exact ih converts inside
  | case3 => cases inside

/-- The counterpart of a sequence is an array of the elements' counterparts. -/
theorem exists_array_of_toJson {v : Data} {j : Json} {items : List Data}
    (converts : v.toJson = .ok j) (inside : v.children? = some items) :
    ∃ js, j = .array js ∧ List.Forall₂ ConvertsTo items (js.map json) := by
  fun_induction children? v with
  | case1 v =>
    obtain rfl := Except.ok.inj converts
    obtain ⟨js, elements, rfl⟩ := Option.map_eq_some_iff.mp inside
    cases v with
    | array others =>
      obtain rfl := Option.some.inj elements
      exact ⟨others, rfl, forall₂_convertsTo_self json (fun _ => rfl) others⟩
    | _ => cases elements
  | case2 v =>
    obtain ⟨others, elements, rfl⟩ := Option.map_eq_some_iff.mp inside
    exact exists_array_of_yaml converts elements
  | case3 v ih => exact ih converts inside
  | case4 others =>
    obtain rfl := Option.some.inj inside
    obtain ⟨js, converted, rfl⟩ := map_eq_ok_iff.mp converts
    exact ⟨js, rfl, forall₂_of_itemsToJson converted⟩
  | case5 others =>
    obtain rfl := Option.some.inj inside
    obtain rfl := Except.ok.inj converts
    exact ⟨others, rfl, forall₂_convertsTo_self produced (fun _ => rfl) others⟩
  | case6 => cases inside

private theorem children?_eq_none {v : Data} (other : v.kind ≠ .sequence) : v.children? = none := by
  rw [← Option.not_isSome_iff_eq_none, isSome_children?_iff]
  exact other

/-- The elements of the counterpart are the counterparts of the elements. -/
theorem children_of_toJson {v : Data} {j : Json} (converts : v.toJson = .ok j) :
    Option.Rel (List.Forall₂ ConvertsTo) v.children? (json j).children? := by
  by_cases sequence : v.kind = .sequence
  · obtain ⟨items, inside⟩ := exists_children? sequence
    obtain ⟨js, rfl, elements⟩ := exists_array_of_toJson converts inside
    rw [inside]
    exact .some elements
  · have kinds := kind_of_toJson converts
    have other : (json j).kind ≠ .sequence := by
      split at kinds
      · rw [kinds]
        simp [kind, Json.kind]
      · rw [kind, kinds]
        exact sequence
    rw [children?_eq_none sequence, children?_eq_none other]
    exact .none

/-- Two values that drive a section alike: of one kind, and with as many elements. -/
structure DrivesAs (v w : Data) : Prop where
  kind : w.kind = v.kind
  count : w.children?.map List.length = v.children?.map List.length

/-- A value and what is in its place in a counterpart: a float of the plain family that is not
finite becomes null, and any other value stays what it is for a section. -/
def Stays (v w : Data) : Prop :=
  if v.isNotFinite then w = json .null else v.DrivesAs w

theorem ConvertsTo.stays {v w : Data} (converts : v.ConvertsTo w) : v.Stays w := by
  obtain ⟨j, converted, rfl⟩ := converts
  have kinds := kind_of_toJson converted
  have elements := children_of_toJson converted
  unfold Stays
  split
  · rename_i infinite
    rw [if_pos infinite] at kinds
    rw [kinds]
  · rename_i finite
    rw [if_neg finite] at kinds
    refine ⟨kinds, ?_⟩
    generalize v.children? = left at elements ⊢
    generalize (json j).children? = right at elements ⊢
    cases elements with
    | none => rfl
    | some alike => exact congrArg some alike.length_eq.symm

private theorem rel_getElem?_of_forall₂ {R : Data → Data → Prop} {items others : List Data}
    (alike : List.Forall₂ R items others) (i : Nat) : Option.Rel R items[i]? others[i]? := by
  induction alike generalizing i with
  | nil => exact .none
  | cons first rest ih =>
    cases i with
    | zero => exact .some first
    | succ i => simpa using ih i

/-- What indices lead to, each into the elements of what the ones before it lead to. -/
def elementAt? (v : Data) : List Nat → Option Data
  | [] => some v
  | i :: rest => (v.children?.bind fun items => items[i]?).bind fun w => w.elementAt? rest

private theorem ConvertsTo.elementAt? {v w : Data} (converts : v.ConvertsTo w)
    (indices : List Nat) :
    Option.Rel ConvertsTo (v.elementAt? indices) (w.elementAt? indices) := by
  induction indices generalizing v w with
  | nil => exact .some converts
  | cons i rest ih =>
    obtain ⟨j, converted, rfl⟩ := converts
    have elements := children_of_toJson converted
    rw [Data.elementAt?, Data.elementAt?]
    generalize v.children? = left at elements ⊢
    generalize (json j).children? = right at elements ⊢
    cases elements with
    | none => exact .none
    | @some items others alike =>
      have here := rel_getElem?_of_forall₂ alike i
      simp only [Option.bind_some]
      generalize items[i]? = element at here ⊢
      generalize others[i]? = counterpart at here ⊢
      cases here with
      | none => exact .none
      | some alike => exact ih alike

/-- Conversion to JSON succeeds exactly if a value holds nothing without a counterpart. Wherever
indices lead then, the value and its counterpart have elements there or neither has one, and the
one in the counterpart is what the value has there for a section, unless that is a float of the
plain family that is not finite, which becomes null. -/
theorem toJson_drives (v : Data) :
    ((∃ e, v.toJson = .error e) ↔ v.Unconvertible) ∧
      ∀ j indices, v.toJson = .ok j →
        Option.Rel Stays (v.elementAt? indices) ((json j).elementAt? indices) := by
  refine ⟨toJson_error_iff v, fun j indices converts => ?_⟩
  have found : v.ConvertsTo (json j) := ⟨j, converts, rfl⟩
  exact rel_option_imp (fun _ _ => ConvertsTo.stays) (found.elementAt? indices)

/-- A tagged sequence in an option in a list: its elements stay, and what is behind it becomes
null. With an infinite YAML number in its place there is no counterpart. -/
theorem toJson_drives_nested :
    let sequence := Yaml.tagged "!t" (.sequence [.null, .mapping []])
    let v := list [.present (.yaml sequence), .float (0.0 / 0.0)]
    let w := list [.present (.yaml sequence), .yaml (.number (.float (1.0 / 0.0)))]
    let j := Json.array [.array [.null, .object []], .null]
    v.toJson = .ok j ∧
      Option.Rel Stays (v.elementAt? [0]) (some (.json (.array [.null, .object []]))) ∧
      Option.Rel Stays (v.elementAt? [0, 1]) (some (.json (.object []))) ∧
      Option.Rel Stays (v.elementAt? [1]) (some (.json .null)) ∧ ∃ e, w.toJson = .error e := by
  intro sequence v w j
  have converts : v.toJson = .ok j := rfl
  have found := fun indices => (toJson_drives v).2 j indices converts
  have infinite : w.Unconvertible :=
    .item (List.mem_cons_of_mem _ List.mem_cons_self) (.yaml (.number (by decide +kernel)))
  exact ⟨converts, found [0], found [0, 1], found [1], (toJson_drives w).1.mpr infinite⟩

/-- A float that is not finite drives a section as a number does, and its counterpart does not;
the YAML number has no counterpart. -/
theorem toJson_nullifies :
    let x : Float := 0.0 / 0.0
    (float x).toJson = .ok .null ∧ (float x).kind = .number ∧ (json .null).kind = .null ∧
      ∃ e, (yaml (.number (.float x))).toJson = .error e :=
  ⟨rfl, rfl, rfl, _, rfl⟩

end Data

end Mustache
