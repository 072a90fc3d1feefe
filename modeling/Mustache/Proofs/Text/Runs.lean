import Mathlib.Data.List.TakeWhile

namespace Mustache.Text

variable {p : Char → Bool}

/-- A text that does not go on with a character of the class. -/
def Stops (p : Char → Bool) (s : List Char) : Prop :=
  ∀ c ∈ s.head?, p c = false

@[simp] theorem stops_nil : Stops p [] := by
  simp [Stops]

@[simp] theorem stops_cons {c : Char} {s : List Char} : Stops p (c :: s) ↔ p c = false := by
  simp [Stops]

theorem stops_append {s t : List Char} (first : Stops p s) (second : Stops p t) :
    Stops p (s ++ t) := by
  cases s with
  | nil => exact second
  | cons c s => simpa using first

theorem stops_of_forall {s : List Char} (none : ∀ c ∈ s, p c = false) : Stops p s :=
  fun c head => none c (List.mem_of_mem_head? head)

theorem dropWhile_of_stops {s : List Char} (stops : Stops p s) : s.dropWhile p = s := by
  cases s with
  | nil => rfl
  | cons c s => exact List.dropWhile_cons_of_neg (by simpa using stops)

theorem stops_dropWhile (p : Char → Bool) (s : List Char) : Stops p (s.dropWhile p) := by
  intro c head
  have stopped := List.head?_dropWhile_not p s
  rw [Option.mem_def.mp head] at stopped
  simpa using stopped

theorem takeWhile_of_stops {s : List Char} (stops : Stops p s) : s.takeWhile p = [] := by
  cases s with
  | nil => rfl
  | cons c s => exact List.takeWhile_cons_of_neg (by simpa using stops)

theorem takeWhile_run {s rest : List Char} (run : ∀ c ∈ s, p c = true) (stops : Stops p rest) :
    (s ++ rest).takeWhile p = s := by
  rw [List.takeWhile_append_of_pos run, takeWhile_of_stops stops, List.append_nil]

theorem dropWhile_run {s rest : List Char} (run : ∀ c ∈ s, p c = true) (stops : Stops p rest) :
    (s ++ rest).dropWhile p = rest := by
  rw [List.dropWhile_append_of_pos run, dropWhile_of_stops stops]

end Mustache.Text
