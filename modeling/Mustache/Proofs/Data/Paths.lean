import Mustache.Proofs.Data.Members
import Mustache.Scopes
import Mustache.Data.Conversion

namespace Mustache.Yaml

/-- The entries of a mapping, tagged or not. -/
def entries : Yaml → List (Yaml × Yaml)
  | mapping es => es
  | tagged _ v => entries v
  | _ => []

private theorem get?_eq (v : Yaml) (name : String) :
    v.get? name = (v.entries.find? fun e => isName name e.1).map Prod.snd := by
  induction v using entries.induct with
  | case1 es => rfl
  | case2 tag v ih => exact ih
  | case3 v noMapping noTag =>
    cases v with
    | mapping es => exact absurd rfl (noMapping es)
    | tagged tag v => exact absurd rfl (noTag tag v)
    | _ => rfl

/-- Whether a key has the given name in JSON. -/
def isNamed (name : String) (key : Yaml) : Bool :=
  match key.keyName with
  | .ok n => n == name
  | .error _ => false

/-- The value of the last entry of a mapping whose key has the given name in JSON. -/
def last? (name : String) (v : Yaml) : Option Yaml :=
  (v.entries.reverse.find? fun e => isNamed name e.1).map Prod.snd

/-- What a path finds where the last entry of each name counts. -/
def lastAt? (v : Yaml) : List String → Option Yaml
  | [] => some v
  | name :: rest => (v.last? name).bind fun w => w.lastAt? rest

/-- The counterpart of a value that has one. -/
def json? (v : Yaml) : Option Json :=
  v.toJson.toOption

/-- An entry and the member that it becomes. -/
def Converts (e : Yaml × Yaml) (m : String × Json) : Prop :=
  e.1.keyName = .ok m.1 ∧ e.2.toJson = .ok m.2

private theorem forall₂_of_entriesToJson {es : List (Yaml × Yaml)} {members : List (String × Json)}
    (converts : entriesToJson es = .ok members) : List.Forall₂ Converts es members := by
  induction es generalizing members with
  | nil =>
    obtain rfl := Except.ok.inj converts
    exact .nil
  | cons e rest ih =>
    obtain ⟨k, v⟩ := e
    rw [entriesToJson] at converts
    cases name : keyName k with
    | error reason => simp [name, bind, Except.bind] at converts
    | ok n =>
      cases first : toJson v with
      | error reason => simp [name, first, bind, Except.bind] at converts
      | ok j =>
        cases others : entriesToJson rest with
        | error reason => simp [name, first, others, bind, Except.bind] at converts
        | ok ms =>
          simp only [name, first, others, bind, Except.bind, pure, Except.pure,
            Except.ok.injEq] at converts
          obtain rfl := converts
          exact .cons ⟨name, first⟩ (ih others)

/-- The members of a counterpart are those that the entries become, inserted in turn. -/
theorem exists_members {v : Yaml} {j : Json} (converts : v.toJson = .ok j) :
    ∃ members, List.Forall₂ Converts v.entries members ∧
      ∀ name, j.get? name = (Keyed.ofList members).lookup name := by
  induction v using entries.induct with
  | case1 es =>
    rw [toJson] at converts
    cases each : entriesToJson es with
    | error reason =>
      rw [each] at converts
      cases converts
    | ok members =>
      rw [each] at converts
      obtain rfl := Except.ok.inj converts
      exact ⟨members, forall₂_of_entriesToJson each, fun _ => rfl⟩
  | case2 tag v ih =>
    rw [toJson] at converts
    exact ih converts
  | case3 v noMapping noTag =>
    have memberless : v.entries = [] ∧ ∀ name, j.get? name = none := by
      cases v with
      | mapping es => exact absurd rfl (noMapping es)
      | tagged tag v => exact absurd rfl (noTag tag v)
      | number n =>
        cases n with
        | integer n =>
          obtain rfl := Except.ok.inj converts
          exact ⟨rfl, fun _ => rfl⟩
        | float x =>
          rw [toJson, Number.toJson] at converts
          split at converts
          · obtain rfl := Except.ok.inj converts
            exact ⟨rfl, fun _ => rfl⟩
          · cases converts
      | sequence items =>
        rw [toJson] at converts
        cases each : itemsToJson items with
        | error reason =>
          rw [each] at converts
          cases converts
        | ok js =>
          rw [each] at converts
          obtain rfl := Except.ok.inj converts
          exact ⟨rfl, fun _ => rfl⟩
      | _ =>
        obtain rfl := Except.ok.inj converts
        exact ⟨rfl, fun _ => rfl⟩
    exact ⟨[], memberless.1 ▸ .nil, memberless.2⟩

theorem lookup_of_converts {es : List (Yaml × Yaml)} {members : List (String × Json)}
    (converts : List.Forall₂ Converts es members) (name : String) :
    members.lookup name = (es.find? fun e => isNamed name e.1).bind fun e => e.2.json? := by
  induction converts with
  | nil => rfl
  | @cons e m es members first rest ih =>
    obtain ⟨key, value⟩ := first
    obtain ⟨n, j⟩ := m
    have named : isNamed name e.1 = (n == name) := by simp [isNamed, key]
    rw [List.lookup_cons, List.find?_cons, named, ih, BEq.comm]
    cases n == name with
    | true => simp [json?, value, Except.toOption]
    | false => rfl

/-- The member of a counterpart is the counterpart of the last entry of its name. -/
theorem get?_of_toJson {v : Yaml} {j : Json} (converts : v.toJson = .ok j) (name : String) :
    j.get? name = (v.last? name).bind json? := by
  obtain ⟨members, each, members_eq⟩ := exists_members converts
  rw [members_eq, Keyed.lookup_ofList, lookup_of_converts (List.rel_reverse each), last?,
    Option.bind_map]
  rfl

theorem exists_toJson_of_mem {v : Yaml} {j : Json} (converts : v.toJson = .ok j)
    {e : Yaml × Yaml} (member : e ∈ v.entries) : ∃ k, e.2.toJson = .ok k := by
  obtain ⟨members, each, -⟩ := exists_members converts
  generalize v.entries = es at each member
  induction each with
  | nil => cases member
  | cons first rest ih =>
    rcases List.mem_cons.mp member with rfl | later
    · exact ⟨_, first.2⟩
    · exact ih later

private theorem exists_toJson_of_last? {v w : Yaml} {j : Json} {name : String}
    (converts : v.toJson = .ok j) (found : v.last? name = some w) : ∃ k, w.toJson = .ok k := by
  obtain ⟨e, here, rfl⟩ := Option.map_eq_some_iff.mp found
  exact exists_toJson_of_mem converts (List.mem_reverse.mp (List.mem_of_find?_eq_some here))

theorem exists_toJson_of_descend {v : Yaml} {j : Json} {names : List String} {w : Data}
    (converts : v.toJson = .ok j)
    (found : Scopes.descend (.yaml v) (names.map .identifier) = some w) :
    ∃ k, w.toJson = .ok k := by
  induction names generalizing v j with
  | nil =>
    obtain rfl := Option.some.inj found
    exact ⟨j, converts⟩
  | cons name rest ih =>
    rw [List.map_cons, Scopes.descend, Data.child?, get?_eq, Option.map_map] at found
    cases here : v.entries.find? fun e => isName name e.1 with
    | none => simp [here] at found
    | some e =>
      obtain ⟨k, inner⟩ := exists_toJson_of_mem converts (List.mem_of_find?_eq_some here)
      rw [here] at found
      exact ih inner found

/-- A path in a counterpart finds the counterpart of what is last at each of its names. -/
theorem descend_toJson {v : Yaml} {j : Json} (converts : v.toJson = .ok j) (names : List String) :
    Scopes.descend (.json j) (names.map .identifier) =
      ((v.lastAt? names).bind json?).map .json := by
  induction names generalizing v j with
  | nil => simp [Scopes.descend, lastAt?, json?, converts, Except.toOption]
  | cons name rest ih =>
    rw [List.map_cons, Scopes.descend, Data.child?, get?_of_toJson converts, lastAt?]
    cases last : v.last? name with
    | none => rfl
    | some w =>
      obtain ⟨k, inner⟩ := exists_toJson_of_last? converts last
      have counterpart : w.json? = some k := by simp [json?, inner, Except.toOption]
      simp only [Option.bind_some, counterpart, Option.map_some]
      exact ih inner

/-- What a path finds in a YAML value with a counterpart has a counterpart, and the path finds that
in the counterpart of the whole, if the path finds at each of its names the value that is last
there. What the path finds in the counterpart is always made of the values that are last. -/
theorem descend_found_toJson {v : Yaml} {j : Json} {names : List String} {w : Data}
    (converts : v.toJson = .ok j)
    (found : Scopes.descend (.yaml v) (names.map .identifier) = some w) :
    ∃ k, w.toJson = .ok k ∧
      ((v.lastAt? names).map .yaml = some w →
        Scopes.descend (.json j) (names.map .identifier) = some (.json k)) ∧
      Scopes.descend (.json j) (names.map .identifier) =
        ((v.lastAt? names).bind json?).map .json := by
  obtain ⟨k, inner⟩ := exists_toJson_of_descend converts found
  refine ⟨k, inner, fun last => ?_, descend_toJson converts names⟩
  obtain ⟨u, here, rfl⟩ := Option.map_eq_some_iff.mp last
  have counterpart : u.json? = some k := by
    rw [json?, show u.toJson = .ok k from inner]
    rfl
  rw [descend_toJson converts, here, Option.bind_some, counterpart, Option.map_some]

/-- A number before the string of its digits: the string is last. -/
theorem descend_found_toJson_string :
    let v := mapping [(.string "v", mapping [(.number (.integer 1), .string "b"),
      (.tagged "!t" (.bool true), .string "c"), (.string "1", .string "a")])]
    let j := Json.object [("v", .object [("1", .string "a"), ("true", .string "c")])]
    let path := ["v", "1"].map Component.identifier
    v.toJson = .ok j ∧ Scopes.descend (.yaml v) path = some (.yaml (.string "a")) ∧
      Scopes.descend (.json j) path = some (.json (.string "a")) := by
  intro v j path
  have converts : v.toJson = .ok j := rfl
  have found : Scopes.descend (.yaml v) path = some (.yaml (.string "a")) := rfl
  obtain ⟨k, inner, last, -⟩ := descend_found_toJson converts found
  obtain rfl := Except.ok.inj inner
  exact ⟨converts, found, last rfl⟩

/-- A number behind the string of its digits: the path finds the string's value, and in the
counterpart it finds the number's. -/
theorem descend_replaced :
    let v := ofEntries [(.string "1", .string "a"), (.number (.integer 1), .string "b")]
    let j := Json.object [("1", .string "b")]
    let path := [Component.identifier "1"]
    v.toJson = .ok j ∧ Scopes.descend (.yaml v) path = some (.yaml (.string "a")) ∧
      (string "a").toJson = .ok (.string "a") ∧
      Scopes.descend (.json j) path = some (.json (.string "b")) ∧
      (Json.string "b" == Json.string "a") = false := by
  refine ⟨rfl, rfl, rfl, rfl, by decide⟩

end Mustache.Yaml
