import Mathlib.Data.List.Induction
import Mathlib.Data.List.Perm.Basic
import Mustache.Keyed

namespace Mustache.Keyed

variable {α β : Type}

/-- Entries in the order of their keys, one for each key. -/
def Ordered (entries : List (String × α)) : Prop :=
  entries.Pairwise fun a b => a.1 < b.1

/-- Entries of which no two have one key. -/
def Distinct (entries : List (String × α)) : Prop :=
  entries.Pairwise fun a b => a.1 ≠ b.1

theorem Ordered.distinct {entries : List (String × α)} (ordered : Ordered entries) :
    Distinct entries := by
  refine List.Pairwise.imp ?_ ordered
  intro a b less same
  rw [same] at less
  exact String.lt_irrefl b.1 less

theorem Ordered.map (f : String × α → β) {entries : List (String × α)}
    (ordered : Ordered entries) : Ordered (entries.map fun e => (e.1, f e)) :=
  List.pairwise_map.mpr ordered

theorem Distinct.perm {first second : List (String × α)} (distinct : Distinct first)
    (perm : first.Perm second) : Distinct second :=
  (perm.pairwise_iff Ne.symm).mp distinct

private theorem mem_of_mem_insert {key : String} {value : α} {entries : List (String × α)}
    {e : String × α} (member : e ∈ insert key value entries) : e = (key, value) ∨ e ∈ entries := by
  induction entries with
  | nil => simpa [insert] using member
  | cons entry rest ih =>
    obtain ⟨k, v⟩ := entry
    unfold insert at member
    split at member
    · simpa using member
    · split at member
      · rcases List.mem_cons.mp member with here | later
        · exact .inl here
        · exact .inr (List.mem_cons_of_mem _ later)
      · rcases List.mem_cons.mp member with here | later
        · exact .inr (here ▸ List.mem_cons_self)
        · exact (ih later).imp_right (List.mem_cons_of_mem _)

theorem Ordered.insert {entries : List (String × α)} (ordered : Ordered entries) (key : String)
    (value : α) : Ordered (Keyed.insert key value entries) := by
  induction entries with
  | nil => simp [Keyed.insert, Ordered]
  | cons entry rest ih =>
    obtain ⟨k, v⟩ := entry
    obtain ⟨first, others⟩ := List.pairwise_cons.mp ordered
    unfold Keyed.insert
    split
    · rename_i less
      refine List.pairwise_cons.mpr ⟨?_, ordered⟩
      intro e member
      rcases List.mem_cons.mp member with rfl | later
      · exact less
      · exact String.lt_trans less (first e later)
    · split
      · rename_i same
        subst same
        exact List.pairwise_cons.mpr ⟨first, others⟩
      · rename_i notLess different
        refine List.pairwise_cons.mpr ⟨?_, ih others⟩
        intro e member
        rcases mem_of_mem_insert member with rfl | later
        · exact Std.lt_of_le_of_ne (String.not_lt.mp notLess) (Ne.symm different)
        · exact first e later

private theorem perm_insert {key : String} {value : α} {entries : List (String × α)}
    (fresh : ∀ e ∈ entries, key ≠ e.1) :
    (insert key value entries).Perm ((key, value) :: entries) := by
  induction entries with
  | nil => exact .refl _
  | cons entry rest ih =>
    obtain ⟨k, v⟩ := entry
    have others := ih fun e member => fresh e (List.mem_cons_of_mem _ member)
    unfold insert
    split
    · exact .refl _
    · split
      · rename_i same
        exact absurd same (fresh (k, v) List.mem_cons_self)
      · exact (others.cons (k, v)).trans (.swap _ _ _)

theorem ordered_ofList (entries : List (String × α)) : Ordered (ofList entries) := by
  have fold (done : List (String × α)) (ordered : Ordered done) :
      Ordered (entries.foldl (fun done e => insert e.1 e.2 done) done) := by
    induction entries generalizing done with
    | nil => exact ordered
    | cons e rest ih => exact ih _ (ordered.insert e.1 e.2)
  exact fold [] .nil

theorem mem_of_mem_ofList {entries : List (String × α)} {e : String × α} :
    e ∈ ofList entries → e ∈ entries := by
  have fold (done : List (String × α)) :
      e ∈ entries.foldl (fun done e => insert e.1 e.2 done) done → e ∈ done ∨ e ∈ entries := by
    induction entries generalizing done with
    | nil => exact .inl
    | cons first rest ih =>
      intro member
      rcases ih _ member with earlier | later
      · rcases mem_of_mem_insert earlier with rfl | before
        · exact .inr List.mem_cons_self
        · exact .inl before
      · exact .inr (List.mem_cons_of_mem _ later)
  intro member
  exact (fold [] member).resolve_left List.not_mem_nil

private theorem perm_ofList {entries : List (String × α)} (distinct : Distinct entries) :
    (ofList entries).Perm entries := by
  have fold (done : List (String × α)) (all : Distinct (done ++ entries)) :
      (entries.foldl (fun done e => insert e.1 e.2 done) done).Perm (done ++ entries) := by
    induction entries generalizing done with
    | nil => simp
    | cons e rest ih =>
      have middle : (done ++ e :: rest).Perm (e :: done ++ rest) := List.perm_middle
      have fresh : ∀ d ∈ done, e.1 ≠ d.1 := by
        intro d member
        exact (List.pairwise_cons.mp (all.perm middle)).1 d (List.mem_append_left rest member)
      have inserted : (insert e.1 e.2 done ++ rest).Perm (e :: done ++ rest) :=
        (perm_insert fresh).append_right rest
      have grown := ih (List.pairwise_cons.mp distinct).2 (insert e.1 e.2 done)
        ((all.perm middle).perm inserted.symm)
      exact (grown.trans inserted).trans middle.symm
  exact fold [] distinct

/-- Inserting the members of an object in any order gives the members. -/
theorem ofList_eq_of_perm {entries members : List (String × α)} (ordered : Ordered members)
    (perm : entries.Perm members) : ofList entries = members := by
  have distinct := ordered.distinct.perm perm.symm
  refine List.Perm.eq_of_pairwise ?_ (ordered_ofList entries) ordered
    ((perm_ofList distinct).trans perm)
  intro a b _ _ less greater
  exact absurd greater (String.lt_asymm less)

/-- Inserting entries with different keys gives the same in any order. -/
theorem ofList_perm {first second : List (String × α)} (distinct : Distinct second)
    (perm : first.Perm second) : ofList first = ofList second :=
  ofList_eq_of_perm (ordered_ofList second) (perm.trans (perm_ofList distinct).symm)

/-- Which entry has a key does not depend on the order of entries with different keys. -/
theorem find?_eq_of_perm {rows order : List (String × α)} (distinct : Distinct rows)
    (perm : order.Perm rows) (name : String) :
    order.find? (·.1 == name) = rows.find? (·.1 == name) := by
  induction perm with
  | nil => rfl
  | cons e perm ih =>
    simp only [List.find?_cons, ih (List.pairwise_cons.mp distinct).2]
  | swap a b rest =>
    have different : a.1 ≠ b.1 := (List.pairwise_cons.mp distinct).1 b List.mem_cons_self
    by_cases first : a.1 = name
    · have second : b.1 ≠ name := fun same => different (first.trans same.symm)
      simp [first, beq_false_of_ne second]
    · simp [List.find?_cons, beq_false_of_ne first]
  | trans first second ih₁ ih₂ =>
    rw [ih₁ (distinct.perm second.symm), ih₂ distinct]

theorem lookup_map (f : String × α → β) (rows : List (String × α)) (name : String) :
    (rows.map fun row => (row.1, f row)).lookup name = (rows.find? (·.1 == name)).map f := by
  induction rows with
  | nil => rfl
  | cons row rest ih =>
    rw [List.map_cons, List.lookup_cons, List.find?_cons, ih]
    by_cases same : row.1 = name
    · simp [same]
    · simp [beq_false_of_ne same, beq_false_of_ne (Ne.symm same)]

/-- A look-up does not depend on the order of entries with different keys. -/
theorem lookup_eq_of_perm {rows order : List (String × α)} (distinct : Distinct rows)
    (perm : order.Perm rows) (name : String) : order.lookup name = rows.lookup name := by
  have same := congrArg (Option.map Prod.snd) (find?_eq_of_perm distinct perm name)
  rw [← lookup_map Prod.snd, ← lookup_map Prod.snd] at same
  simpa using same

/-- Of entries with one key the last one stays. -/
theorem lookup_ofList (entries : List (String × α)) (name : String) :
    (ofList entries).lookup name = entries.reverse.lookup name := by
  induction entries using List.reverseRecOn with
  | nil => rfl
  | append_singleton entries e ih =>
    obtain ⟨k, v⟩ := e
    have last : ofList (entries ++ [(k, v)]) = insert k v (ofList entries) := by
      simp [ofList, List.foldl_append]
    rw [last, List.reverse_append, List.reverse_singleton, List.singleton_append,
      List.lookup_cons, ← ih]
    by_cases same : name = k
    · rw [same, lookup_insert_self, beq_self_eq_true]
    · rw [lookup_insert_of_ne same, beq_false_of_ne same]

end Mustache.Keyed
