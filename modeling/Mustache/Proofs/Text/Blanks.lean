import Mustache.Proofs.Text.Runs
import Mustache.Text.Blank

namespace Mustache.Text

/-- A text of white space alone, which may be empty. -/
def Blanks (s : List Char) : Prop :=
  ∀ c ∈ s, isBlank c = true

@[simp] theorem blanks_nil : Blanks [] := by
  simp [Blanks]

@[simp] theorem blanks_append {s t : List Char} : Blanks (s ++ t) ↔ Blanks s ∧ Blanks t := by
  simp only [Blanks, List.mem_append, or_imp, forall_and]

theorem exists_trimStart (s : List Char) : ∃ w, Blanks w ∧ s = w ++ trimStart s :=
  ⟨s.takeWhile isBlank, fun _ => List.mem_takeWhile_imp, List.takeWhile_append_dropWhile.symm⟩

private theorem exists_trimEnd (s : List Char) : ∃ w, Blanks w ∧ s = trimEnd s ++ w := by
  obtain ⟨w, blanks, split⟩ := exists_trimStart s.reverse
  refine ⟨w.reverse, fun c member => blanks c (List.mem_reverse.mp member), ?_⟩
  rw [trimEnd, ← List.reverse_append]
  exact List.reverse_eq_iff.mp split

theorem exists_trim (s : List Char) : ∃ w y, Blanks w ∧ Blanks y ∧ s = w ++ trim s ++ y := by
  obtain ⟨w, before, first⟩ := exists_trimStart s
  obtain ⟨y, behind, last⟩ := exists_trimEnd (trimStart s)
  refine ⟨w, y, before, behind, ?_⟩
  rw [List.append_assoc, trim, ← last, ← first]

@[simp] theorem trimStart_append_of_blanks {w s : List Char} (blanks : Blanks w) :
    trimStart (w ++ s) = trimStart s :=
  List.dropWhile_append_of_pos blanks

theorem trimStart_of_stops {s : List Char} (visible : Stops isBlank s) : trimStart s = s :=
  dropWhile_of_stops visible

theorem exists_trim_cons {c : Char} (visible : isBlank c = false) (s : List Char) :
    ∃ rest, trim (c :: s) = c :: rest := by
  obtain ⟨w, blanks, split⟩ := exists_trimEnd (c :: s)
  rw [trim, trimStart_of_stops (stops_cons.mpr visible)]
  cases kept : trimEnd (c :: s) with
  | nil =>
    rw [kept, List.nil_append] at split
    have blank := blanks c (split ▸ List.mem_cons_self)
    rw [visible] at blank
    cases blank
  | cons d rest =>
    rw [kept] at split
    exact ⟨rest, by rw [(List.cons.inj split).1]⟩

theorem trim_of_stops {s : List Char} (first : Stops isBlank s) (last : Stops isBlank s.reverse) :
    trim s = s := by
  rw [trim, trimStart_of_stops first, trimEnd, dropWhile_of_stops last, List.reverse_reverse]

end Mustache.Text
