import Mustache.Proofs.Text.Occurrence

/-!
Offsets into a text. An offset counts bytes of UTF-8 and is one of the text only where a character
begins or the text ends. Main statement: a part can be taken out of a text exactly if its two
offsets are offsets of the text, in order.
-/

namespace Mustache.Text

def size (s : List Char) : Nat :=
  (String.ofList s).utf8ByteSize

@[simp] theorem size_nil : size [] = 0 := rfl

@[simp] theorem size_cons (c : Char) (s : List Char) : size (c :: s) = c.utf8Size + size s := by
  simp [size, String.ofList_cons]

@[simp] theorem size_append (s t : List Char) : size (s ++ t) = size s + size t := by
  simp [size]

@[simp] theorem size_reverse (s : List Char) : size s.reverse = size s := by
  induction s with
  | nil => rfl
  | cons c s ih =>
    rw [List.reverse_cons, size_append, ih, size_cons, size_cons, size_nil]
    omega

theorem size_le_append (s t : List Char) : size s ≤ size (s ++ t) := by
  rw [size_append]
  exact Nat.le_add_right _ _

theorem eq_nil_of_size {s : List Char} (empty : size s = 0) : s = [] := by
  cases s with
  | nil => rfl
  | cons c s =>
    have positive := c.utf8Size_pos
    rw [size_cons] at empty
    omega

/-- The offset is within the text, and no character stands across it. -/
def Boundary (s : List Char) (offset : Nat) : Prop :=
  (String.Pos.Raw.mk offset).IsValid (String.ofList s)

theorem boundary_iff {s : List Char} {offset : Nat} :
    Boundary s offset ↔ ∃ before behind, s = before ++ behind ∧ offset = size before := by
  rw [Boundary, String.Pos.Raw.isValid_iff_exists_append]
  constructor
  · rintro ⟨before, behind, whole, place⟩
    refine ⟨before.toList, behind.toList, ?_, ?_⟩
    · rw [← String.toList_append, ← whole, String.toList_ofList]
    · rw [size, String.ofList_toList]
      exact congrArg String.Pos.Raw.byteIdx place
  · rintro ⟨before, behind, rfl, rfl⟩
    exact ⟨String.ofList before, String.ofList behind, String.ofList_append, rfl⟩

theorem boundary_size (before behind : List Char) : Boundary (before ++ behind) (size before) :=
  boundary_iff.mpr ⟨before, behind, rfl, rfl⟩

def splitAt? : Nat → List Char → Option (List Char × List Char)
  | 0, s => some ([], s)
  | _ + 1, [] => none
  | n + 1, c :: s =>
    if c.utf8Size ≤ n + 1 then
      (splitAt? (n + 1 - c.utf8Size) s).map fun (before, behind) => (c :: before, behind)
    else none

private theorem splitAt?_size (before behind : List Char) :
    splitAt? (size before) (before ++ behind) = some (before, behind) := by
  induction before with
  | nil => simp [splitAt?]
  | cons c before ih =>
    have positive := c.utf8Size_pos
    obtain ⟨n, whole⟩ : ∃ n, c.utf8Size + size before = n + 1 :=
      Nat.exists_eq_add_one.mpr (Nat.add_pos_left positive _)
    have left : n + 1 - c.utf8Size = size before := by omega
    rw [size_cons, whole, List.cons_append, splitAt?, if_pos (by omega), left, ih, Option.map_some]

private theorem eq_append_of_splitAt? {offset : Nat} {s before behind : List Char}
    (split : splitAt? offset s = some (before, behind)) :
    s = before ++ behind ∧ offset = size before := by
  fun_induction splitAt? offset s generalizing before with
  | case1 s =>
    obtain ⟨rfl, rfl⟩ := Prod.mk.inj (Option.some.inj split)
    exact ⟨rfl, rfl⟩
  | case2 n => cases split
  | case3 n c s within ih =>
    obtain ⟨⟨first, rest⟩, found, same⟩ := Option.map_eq_some_iff.mp split
    obtain ⟨rfl, rfl⟩ := Prod.mk.inj same
    obtain ⟨rfl, left⟩ := ih found
    refine ⟨rfl, ?_⟩
    rw [size_cons]
    omega
  | case4 n c s across => cases split

/-- The part of a text between two offsets of it that are in order. -/
def slice? (s : List Char) (first last : Nat) : Option (List Char) :=
  if first ≤ last then
    (splitAt? first s).bind fun (_, rest) => (splitAt? (last - first) rest).map Prod.fst
  else none

theorem slice?_append (before part behind : List Char) :
    slice? (before ++ part ++ behind) (size before) (size before + size part) = some part := by
  rw [slice?, if_pos (Nat.le_add_right _ _), List.append_assoc, splitAt?_size, Option.bind_some,
    Nat.add_sub_cancel_left]
  simp only [splitAt?_size, Option.map_some]

theorem slice?_between {s before part : List Char} (behind : List Char)
    (whole : s = before ++ part ++ behind) :
    slice? s (size before) (size (before ++ part)) = some part := by
  rw [whole, size_append]
  exact slice?_append before part behind

theorem slice?_behind (before behind : List Char) :
    slice? (before ++ behind) (size before) (size (before ++ behind)) = some behind := by
  have taken := slice?_append before behind []
  rwa [List.append_nil, ← size_append] at taken

theorem slice?_upTo (before behind : List Char) :
    slice? (before ++ behind) 0 (size before) = some before := by
  simpa using slice?_append [] before behind

private theorem exists_of_slice? {s part : List Char} {first last : Nat}
    (taken : slice? s first last = some part) :
    ∃ before behind, s = before ++ part ++ behind ∧ first = size before ∧
      last = size before + size part := by
  unfold slice? at taken
  split at taken
  · rename_i order
    obtain ⟨⟨before, rest⟩, found, inside⟩ := Option.bind_eq_some_iff.mp taken
    obtain ⟨⟨part, behind⟩, later, rfl⟩ := Option.map_eq_some_iff.mp inside
    obtain ⟨rfl, here⟩ := eq_append_of_splitAt? found
    obtain ⟨rfl, there⟩ := eq_append_of_splitAt? later
    refine ⟨before, behind, by simp, here, ?_⟩
    rw [← there, ← here]
    exact (Nat.add_sub_cancel' order).symm
  · cases taken

/-- A part can be taken out of a text exactly if its offsets are offsets of the text, in order. -/
theorem isSome_slice?_iff {s : List Char} {first last : Nat} :
    (slice? s first last).isSome = true ↔
      first ≤ last ∧ Boundary s first ∧ Boundary s last := by
  constructor
  · intro taken
    obtain ⟨part, found⟩ := Option.isSome_iff_exists.mp taken
    obtain ⟨before, behind, rfl, rfl, rfl⟩ := exists_of_slice? found
    refine ⟨Nat.le_add_right _ _, ?_, ?_⟩
    · simpa using boundary_size before (part ++ behind)
    · simpa using boundary_size (before ++ part) behind
  · rintro ⟨order, here, there⟩
    obtain ⟨before, behind, whole, rfl⟩ := boundary_iff.mp here
    obtain ⟨upTo, rest, same, rfl⟩ := boundary_iff.mp there
    have inside : before <+: upTo := by
      rcases List.prefix_or_prefix_of_prefix ⟨behind, whole.symm⟩ ⟨rest, same.symm⟩ with
        inside | ⟨more, rfl⟩
      · exact inside
      · -- the offsets are in order, so there is nothing between them
        rw [size_append] at order
        have same : more = [] := eq_nil_of_size (by omega)
        exact ⟨[], by simp [same]⟩
    obtain ⟨part, rfl⟩ := inside
    rw [same, size_append, slice?_append]
    rfl

/-- The offset of the first occurrence of a needle. -/
def find? (needle s : List Char) : Option Nat :=
  (cut needle s).map fun (before, _) => size before

/-- The offset of the last occurrence of a character. -/
def findLast? (c : Char) (s : List Char) : Option Nat :=
  match s.reverse.dropWhile (· != c) with
  | [] => none
  | _ :: before => some (size before.reverse)

/-- The offset at which the last line of a text starts. -/
def lineStart (s : List Char) : Nat :=
  match findLast? '\n' s with
  | none => 0
  | some feed => feed + 1

end Mustache.Text
