import Mustache.Text.Search

namespace Mustache.Text

/-- The needle stands in the text right after `before`, and nowhere earlier. -/
structure FirstAfter (before needle text : List Char) : Prop where
  stands : before ++ needle <+: text
  first : ∀ earlier, earlier ++ needle <+: text → before.length ≤ earlier.length

/-- No occurrence of the needle starts inside a text, whatever it runs into behind it. -/
def NoneStarts (needle inside behind : List Char) : Prop :=
  ∀ u v, inside = u ++ v → v ≠ [] → ¬ needle <+: v ++ behind

theorem after?_eq_none_iff {needle text : List Char} :
    after? needle text = none ↔ ¬ needle <+: text := by
  rw [Option.eq_none_iff_forall_ne_some]
  constructor
  · rintro none ⟨rest, same⟩
    exact none rest (after?_eq_some_iff.mpr same.symm)
  · intro none rest found
    exact none ⟨rest, (after?_eq_some_iff.mp found).symm⟩

private theorem cons_prefix_of_after? {needle text earlier : List Char} {c : Char}
    (miss : after? needle (c :: text) = none) (stands : earlier ++ needle <+: c :: text) :
    ∃ shorter, earlier = c :: shorter ∧ shorter ++ needle <+: text := by
  cases earlier with
  | nil => exact absurd stands (after?_eq_none_iff.mp miss)
  | cons d shorter =>
    obtain ⟨rfl, later⟩ := List.cons_prefix_cons.mp stands
    exact ⟨shorter, rfl, later⟩

theorem firstAfter_of_cut {needle text before rest : List Char}
    (found : cut needle text = some (before, rest)) : FirstAfter before needle text := by
  refine ⟨⟨rest, (eq_append_of_cut found).symm⟩, ?_⟩
  induction text generalizing before rest with
  | nil =>
    have empty : before = [] := by
      have same := eq_append_of_cut found
      simp at same
      exact same.1
    simp [empty]
  | cons c text ih =>
    unfold cut at found
    split at found
    · simp only [Option.some.injEq, Prod.mk.injEq] at found
      simp [← found.1]
    · rename_i miss
      obtain ⟨⟨b, r⟩, tail, same⟩ := Option.map_eq_some_iff.mp found
      obtain ⟨rfl, rfl⟩ := Prod.mk.inj same
      intro earlier stands
      obtain ⟨shorter, rfl, later⟩ := cons_prefix_of_after? miss stands
      simpa using ih tail shorter later

/-- A character that the needle does not start with may be put in front. -/
theorem FirstAfter.cons {before needle text : List Char} {c d : Char} (different : d ≠ c)
    (found : FirstAfter before (d :: needle) text) :
    FirstAfter (c :: before) (d :: needle) (c :: text) := by
  refine ⟨List.cons_prefix_cons.mpr ⟨rfl, found.stands⟩, ?_⟩
  intro earlier stands
  cases earlier with
  | nil => exact absurd (List.cons_prefix_cons.mp stands).1 different
  | cons e earlier =>
    have bound := found.first earlier (List.cons_prefix_cons.mp stands).2
    simpa using bound

private theorem not_stands_of_cut_eq_none {needle text : List Char} (miss : cut needle text = none)
    (before : List Char) : ¬ before ++ needle <+: text := by
  induction text generalizing before with
  | nil =>
    intro stands
    have empty := List.append_eq_nil_iff.mp (List.prefix_nil.mp stands)
    simp [cut, empty.2] at miss
  | cons c text ih =>
    unfold cut at miss
    split at miss
    · simp at miss
    · rename_i none
      intro stands
      obtain ⟨shorter, rfl, later⟩ := cons_prefix_of_after? none stands
      exact ih (Option.map_eq_none_iff.mp miss) shorter later

theorem FirstAfter.noneStarts {before needle behind : List Char}
    (found : FirstAfter before needle (before ++ behind)) : NoneStarts needle before behind := by
  rintro u v rfl nonempty starts
  have stands : u ++ needle <+: (u ++ v) ++ behind := by
    rw [List.append_assoc]
    exact (List.prefix_append_right_inj u).mpr starts
  have bound := found.first u stands
  have positive := List.length_pos_iff.mpr nonempty
  rw [List.length_append] at bound
  omega

theorem NoneStarts.left {needle first second behind : List Char}
    (none : NoneStarts needle (first ++ second) behind) :
    NoneStarts needle first (second ++ behind) := by
  rintro u v rfl nonempty starts
  refine none u (v ++ second) (by simp) (by simp [nonempty]) ?_
  simpa using starts

theorem NoneStarts.right {needle first second behind : List Char}
    (none : NoneStarts needle (first ++ second) behind) : NoneStarts needle second behind := by
  rintro u v rfl nonempty starts
  exact none (first ++ u) v (by simp) nonempty starts

@[simp] theorem noneStarts_nil (needle behind : List Char) : NoneStarts needle [] behind := by
  intro u v empty nonempty
  exact absurd (List.append_eq_nil_iff.mp empty.symm).2 nonempty

theorem noneStarts_of_cut_eq_none {needle text : List Char} (miss : cut needle text = none) :
    NoneStarts needle text [] := by
  rintro u v rfl - starts
  refine not_stands_of_cut_eq_none miss u ?_
  rw [List.append_nil] at starts
  exact (List.prefix_append_right_inj u).mpr starts

/-- A text that ends with a character the needle does not hold is not run over. -/
theorem NoneStarts.extend {needle inside behind : List Char} (none : NoneStarts needle inside [])
    (ends : ∀ c ∈ inside.getLast?, c ∉ needle) : NoneStarts needle inside behind := by
  rintro u v rfl nonempty starts
  rcases List.prefix_or_prefix_of_prefix starts (List.prefix_append v behind) with within | longer
  · exact none u v rfl nonempty (within.trans (List.prefix_append v []))
  · have last : v.getLast nonempty ∈ (u ++ v).getLast? := by
      simp [List.getLast?_append, List.getLast?_eq_some_getLast nonempty]
    exact ends _ last (longer.subset (List.getLast_mem nonempty))

theorem cut_append {needle text before rest : List Char} (more : List Char)
    (found : cut needle text = some (before, rest)) :
    cut needle (text ++ more) = some (before, rest ++ more) := by
  induction text generalizing before rest with
  | nil => cases needle <;> cases more <;> simp_all [cut, after?]
  | cons c text ih =>
    unfold cut at found
    split at found
    · rename_i behind hit
      obtain ⟨rfl, rfl⟩ := Prod.mk.inj (Option.some.inj found)
      have longer : after? needle (c :: (text ++ more)) = some (behind ++ more) :=
        after?_eq_some_iff.mpr (by simp [← List.cons_append, after?_eq_some_iff.mp hit])
      simp only [List.cons_append, cut, longer]
    · rename_i miss
      obtain ⟨⟨b, r⟩, tail, same⟩ := Option.map_eq_some_iff.mp found
      obtain ⟨rfl, rfl⟩ := Prod.mk.inj same
      have longer : after? needle (c :: (text ++ more)) = none := by
        refine after?_eq_none_iff.mpr fun starts => after?_eq_none_iff.mp miss ?_
        have whole := congrArg List.length (eq_append_of_cut tail)
        refine List.prefix_of_prefix_length_le starts (List.prefix_append (c :: text) more) ?_
        simp only [List.length_append, List.length_cons] at whole ⊢
        omega
      simp only [List.cons_append, cut, longer, ih tail, Option.map_some]

theorem cut_append_of_noneStarts {needle inside text : List Char}
    (none : NoneStarts needle inside text) :
    cut needle (inside ++ text) = (cut needle text).map fun (b, r) => (inside ++ b, r) := by
  induction inside with
  | nil => simp
  | cons c inside ih =>
    have miss : after? needle (c :: (inside ++ text)) = Option.none :=
      after?_eq_none_iff.mpr (none [] (c :: inside) rfl (by simp))
    have others := ih (@NoneStarts.right needle [c] inside text none)
    simp only [List.cons_append, cut, miss, others, Option.map_map]
    rfl

theorem cut_needle {needle : List Char} (nonempty : needle ≠ []) (rest : List Char) :
    cut needle (needle ++ rest) = some ([], rest) := by
  cases needle with
  | nil => exact absurd rfl nonempty
  | cons c needle =>
    have hit : after? (c :: needle) (c :: (needle ++ rest)) = some rest :=
      after?_eq_some_iff.mpr rfl
    simp only [List.cons_append, cut, hit]

theorem FirstAfter.within {before needle rest : List Char}
    (found : FirstAfter before needle (before ++ needle ++ rest)) :
    FirstAfter before needle (before ++ needle) :=
  ⟨List.prefix_refl _, fun earlier stands =>
    found.first earlier (stands.trans (List.prefix_append _ rest))⟩

/-- The cut is made where the needle first stands, whatever comes behind it. -/
theorem cut_of_firstAfter {before needle : List Char} (nonempty : needle ≠ [])
    (found : FirstAfter before needle (before ++ needle)) (rest : List Char) :
    cut needle (before ++ needle ++ rest) = some (before, rest) := by
  have here := cut_needle nonempty []
  rw [List.append_nil] at here
  have moved := cut_append_of_noneStarts found.noneStarts
  rw [here, Option.map_some] at moved
  simpa using cut_append rest moved

theorem noneStarts_of_forall {c : Char} {needle inside behind : List Char}
    (other : ∀ d ∈ inside, d ≠ c) : NoneStarts (c :: needle) inside behind := by
  rintro u v rfl nonempty starts
  cases v with
  | nil => exact nonempty rfl
  | cons d v =>
    have same := (List.cons_prefix_cons.mp starts).1
    exact other d (by simp) same.symm

theorem not_mem_of_cut_eq_none {c : Char} {s : List Char} (miss : cut [c] s = none) : c ∉ s := by
  intro member
  obtain ⟨before, behind, rfl⟩ := List.append_of_mem member
  exact not_stands_of_cut_eq_none miss before ⟨behind, by simp⟩

/-- Before the first occurrence of a character the text does not hold it. -/
theorem not_mem_of_cut {c : Char} {s before rest : List Char}
    (found : cut [c] s = some (before, rest)) : c ∉ before := by
  intro member
  obtain ⟨earlier, between, rfl⟩ := List.append_of_mem member
  have stands : earlier ++ [c] <+: s := ⟨between ++ [c] ++ rest, by simp [eq_append_of_cut found]⟩
  have bound := (firstAfter_of_cut found).first earlier stands
  rw [List.length_append, List.length_cons] at bound
  omega

theorem cut_of_not_mem {c : Char} {before : List Char} (new : c ∉ before) (rest : List Char) :
    cut [c] (before ++ c :: rest) = some (before, rest) := by
  have none : NoneStarts [c] before (c :: rest) :=
    noneStarts_of_forall fun d member same => new (same ▸ member)
  have here : cut [c] (c :: rest) = some ([], rest) := cut_needle (List.cons_ne_nil c []) rest
  rw [cut_append_of_noneStarts none, here]
  simp

end Mustache.Text
