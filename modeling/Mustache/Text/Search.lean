namespace Mustache.Text

/-- What follows the needle, when the text starts with it. -/
def after? : (needle text : List Char) → Option (List Char)
  | [], text => some text
  | _ :: _, [] => none
  | c :: needle, d :: text => if c = d then after? needle text else none

theorem after?_eq_some_iff {needle text rest : List Char} :
    after? needle text = some rest ↔ text = needle ++ rest := by
  induction needle generalizing text with
  | nil => simp [after?]
  | cons c needle ih =>
    cases text with
    | nil => simp [after?]
    | cons d text =>
      by_cases same : c = d
      · subst same; simp [after?, ih]
      · simp [after?, same, Ne.symm same]

/-- The text before the first occurrence of the needle, and the text after it. -/
def cut (needle : List Char) : List Char → Option (List Char × List Char)
  | [] => if needle.isEmpty then some ([], []) else none
  | c :: text =>
    match after? needle (c :: text) with
    | some rest => some ([], rest)
    | none => (cut needle text).map fun (before, rest) => (c :: before, rest)

/-- A cut loses nothing but the needle. -/
theorem eq_append_of_cut {needle text before rest : List Char}
    (found : cut needle text = some (before, rest)) : text = before ++ needle ++ rest := by
  induction text generalizing before rest with
  | nil =>
    cases needle <;> simp_all [cut]
  | cons c text ih =>
    unfold cut at found
    split at found
    · rename_i rest hit
      have := after?_eq_some_iff.mp hit
      simp_all
    · obtain ⟨⟨b, a⟩, tail, same⟩ := Option.map_eq_some_iff.mp found
      simp only [Prod.mk.injEq] at same
      obtain ⟨rfl, rfl⟩ := same
      simp [ih tail]

theorem length_lt_of_cut {needle text before rest : List Char} (nonempty : needle ≠ [])
    (found : cut needle text = some (before, rest)) : rest.length < text.length := by
  have positive : 0 < needle.length := List.length_pos_iff.mpr nonempty
  rw [eq_append_of_cut found]
  simp
  omega

end Mustache.Text
