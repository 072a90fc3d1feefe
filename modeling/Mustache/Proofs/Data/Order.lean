import Mustache.Json.Parser
import Mustache.Proofs.Data.Members

namespace Mustache

namespace Json

def parts : Json → List Json
  | array items => items
  | object members => members.map Prod.snd
  | _ => []

/-- What holds of a value and of every value inside it. -/
inductive All (P : Json → Prop) : Json → Prop where
  | intro {v : Json} (here : P v) (inside : ∀ w ∈ v.parts, All P w) : All P v

/-- Objects have their members in the order of their keys. -/
def InOrder : Json → Prop :=
  All fun
    | object members => Keyed.Ordered members
    | _ => True

theorem All.here {P : Json → Prop} {v : Json} (all : All P v) : P v := by
  cases all with
  | intro here inside => exact here

theorem All.inside {P : Json → Prop} {v w : Json} (all : All P v) (member : w ∈ v.parts) :
    All P w := by
  cases all with
  | intro here inside => exact inside w member

private theorem inOrder_of_leaf {v : Json} (leaf : v.parts = []) : v.InOrder := by
  refine .intro ?_ (by simp [leaf])
  cases v with
  | object members =>
    obtain rfl := List.map_eq_nil_iff.mp leaf
    exact .nil
  | _ => trivial

private theorem inOrder_array {items : List Json} (inside : ∀ w ∈ items, w.InOrder) :
    (array items).InOrder :=
  .intro trivial inside

private theorem inOrder_ofMembers {members : List (String × Json)}
    (inside : ∀ m ∈ members, m.2.InOrder) : (ofMembers members).InOrder := by
  refine .intro (Keyed.ordered_ofList members) ?_
  intro w member
  obtain ⟨m, kept, rfl⟩ := List.mem_map.mp member
  exact inside m (Keyed.mem_of_mem_ofList kept)

namespace Parser

/-- What is read in so many steps has the members of its objects in order. -/
structure InOrder (fuel : Nat) : Prop where
  value {depth : Nat} {s rest : List Char} {v : Json}
    (read : value fuel depth s = some (v, rest)) : v.InOrder
  items {depth : Nat} {s rest : List Char} {found : List Json}
    (read : items fuel depth s = some (found, rest)) : ∀ w ∈ found, w.InOrder
  members {depth : Nat} {s rest : List Char} {found : List (String × Json)}
    (read : members fuel depth s = some (found, rest)) : ∀ m ∈ found, m.2.InOrder

private theorem InOrder.value_succ {fuel depth : Nat} {s rest : List Char} {v : Json}
    (inner : InOrder fuel) (read : Parser.value (fuel + 1) depth s = some (v, rest)) :
    v.InOrder := by
  have mapped {α : Type} {f : α → Json} {found : Option (α × List Char)}
      (read : found.map (fun (a, rest) => (f a, rest)) = some (v, rest)) :
      ∃ a, found = some (a, rest) ∧ f a = v := by
    obtain ⟨⟨a, behind⟩, here, same⟩ := Option.map_eq_some_iff.mp read
    obtain ⟨rfl, rfl⟩ := Prod.mk.inj same
    exact ⟨a, here, rfl⟩
  rw [Parser.value] at read
  split at read
  case h_1 =>
    obtain ⟨text, -, rfl⟩ := mapped read
    exact inOrder_of_leaf rfl
  case h_2 =>
    split at read
    · cases read
    · split at read
      · obtain ⟨rfl, -⟩ := Prod.mk.inj (Option.some.inj read)
        exact inOrder_of_leaf rfl
      · obtain ⟨found, here, rfl⟩ := mapped read
        exact inOrder_array (inner.items here)
  case h_3 =>
    split at read
    · cases read
    · split at read
      · obtain ⟨rfl, -⟩ := Prod.mk.inj (Option.some.inj read)
        exact inOrder_of_leaf rfl
      · obtain ⟨found, here, rfl⟩ := mapped read
        exact inOrder_ofMembers (inner.members here)
  case h_7 =>
    obtain ⟨⟨literal, behind⟩, -, read⟩ := Option.bind_eq_some_iff.mp read
    obtain ⟨number, -, read⟩ := Option.bind_eq_some_iff.mp read
    obtain ⟨rfl, -⟩ := Prod.mk.inj (Option.some.inj read)
    exact inOrder_of_leaf rfl
  all_goals
    obtain ⟨rfl, -⟩ := Prod.mk.inj (Option.some.inj read)
    exact inOrder_of_leaf rfl

private theorem InOrder.items_succ {fuel depth : Nat} {s rest : List Char} {found : List Json}
    (inner : InOrder fuel) (read : Parser.items (fuel + 1) depth s = some (found, rest)) :
    ∀ w ∈ found, w.InOrder := by
  rw [Parser.items] at read
  obtain ⟨⟨item, behind⟩, first, read⟩ := Option.bind_eq_some_iff.mp read
  dsimp only at read
  split at read
  · obtain ⟨⟨more, last⟩, others, read⟩ := Option.bind_eq_some_iff.mp read
    obtain ⟨rfl, -⟩ := Prod.mk.inj (Option.some.inj read)
    exact List.forall_mem_cons.mpr ⟨inner.value first, inner.items others⟩
  · obtain ⟨rfl, -⟩ := Prod.mk.inj (Option.some.inj read)
    simpa using inner.value first
  · cases read

private theorem InOrder.members_succ {fuel depth : Nat} {s rest : List Char}
    {found : List (String × Json)} (inner : InOrder fuel)
    (read : Parser.members (fuel + 1) depth s = some (found, rest)) :
    ∀ m ∈ found, m.2.InOrder := by
  rw [Parser.members] at read
  split at read
  · obtain ⟨⟨key, behind⟩, -, read⟩ := Option.bind_eq_some_iff.mp read
    dsimp only at read
    split at read
    · obtain ⟨⟨item, behind⟩, first, read⟩ := Option.bind_eq_some_iff.mp read
      dsimp only at read
      split at read
      · obtain ⟨⟨more, last⟩, others, read⟩ := Option.bind_eq_some_iff.mp read
        obtain ⟨rfl, -⟩ := Prod.mk.inj (Option.some.inj read)
        exact List.forall_mem_cons.mpr ⟨inner.value first, inner.members others⟩
      · obtain ⟨rfl, -⟩ := Prod.mk.inj (Option.some.inj read)
        simpa using inner.value first
      · cases read
    · cases read
  · cases read

theorem inOrder (fuel : Nat) : InOrder fuel := by
  induction fuel with
  | zero => exact ⟨nofun, nofun, nofun⟩
  | succ fuel ih => exact ⟨ih.value_succ, ih.items_succ, ih.members_succ⟩

end Parser

/-- What is read has the members of its objects in order. -/
theorem inOrder_of_parse? {text : String} {v : Json} (read : parse? text = some v) : v.InOrder := by
  simp only [parse?] at read
  split at read
  · rename_i found
    split at read
    · obtain rfl := Option.some.inj read
      exact (Parser.inOrder _).value found
    · cases read
  · cases read

end Json

/-- A JSON value that carries the order of its members. -/
structure OrderedJson where
  json : Json
  inOrder : json.InOrder

end Mustache
