import Mustache.Proofs.Text.Occurrence

namespace Mustache

namespace Text

/-- The text with a carriage return before each line feed. -/
def withReturns (s : List Char) : List Char :=
  s.flatMap fun c => if c = '\n' then ['\r', '\n'] else [c]

@[simp] theorem withReturns_nil : withReturns [] = [] := rfl

@[simp] theorem withReturns_feed (s : List Char) :
    withReturns ('\n' :: s) = '\r' :: '\n' :: withReturns s := rfl

theorem withReturns_cons {c : Char} (other : c ≠ '\n') (s : List Char) :
    withReturns (c :: s) = c :: withReturns s := by
  simp [withReturns, other]

@[simp] theorem withReturns_append (s t : List Char) :
    withReturns (s ++ t) = withReturns s ++ withReturns t :=
  List.flatMap_append

theorem withReturns_of_not_mem {s : List Char} (line : '\n' ∉ s) : withReturns s = s := by
  induction s with
  | nil => rfl
  | cons c s ih =>
    have other : c ≠ '\n' := (List.ne_of_not_mem_cons line).symm
    rw [withReturns_cons other, ih (List.not_mem_of_not_mem_cons line)]

@[simp] theorem withReturns_eq_nil_iff {s : List Char} : withReturns s = [] ↔ s = [] := by
  cases s with
  | nil => simp
  | cons c s =>
    by_cases feed : c = '\n'
    · subst feed
      simp
    · simp [withReturns_cons feed]

theorem getLast?_withReturns (s : List Char) : (withReturns s).getLast? = s.getLast? := by
  rcases s.eq_nil_or_concat with rfl | ⟨before, c, rfl⟩
  · rfl
  · rw [List.concat_eq_append, withReturns_append]
    by_cases feed : c = '\n'
    · subst feed
      simp
    · simp [withReturns_cons feed]

/-- A text that holds no part of a line end. -/
def OnLine (s : List Char) : Prop :=
  ∀ c ∈ s, c ≠ '\n' ∧ c ≠ '\r'

theorem OnLine.tail {c : Char} {s : List Char} (line : OnLine (c :: s)) : OnLine s :=
  fun d member => line d (List.mem_cons_of_mem c member)

private theorem after?_withReturns {needle : List Char} (line : OnLine needle) (s : List Char) :
    after? needle (withReturns s) = (after? needle s).map withReturns := by
  induction needle generalizing s with
  | nil => rfl
  | cons c needle ih =>
    obtain ⟨feed, carriage⟩ := line c List.mem_cons_self
    cases s with
    | nil => rfl
    | cons d s =>
      by_cases ends : d = '\n'
      · subst ends
        simp [after?, feed, carriage]
      · rw [withReturns_cons ends]
        by_cases same : c = d
        · simpa [after?, same] using ih line.tail s
        · simp [after?, same]

theorem cut_withReturns {needle : List Char} (nonempty : needle ≠ []) (line : OnLine needle)
    (s : List Char) :
    cut needle (withReturns s) = (cut needle s).map fun (b, r) => (withReturns b, withReturns r) := by
  induction s with
  | nil => simp [cut, nonempty]
  | cons c s ih =>
    have found := after?_withReturns line (c :: s)
    by_cases feed : c = '\n'
    · subst feed
      obtain ⟨d, others, rfl⟩ := List.exists_cons_of_ne_nil nonempty
      obtain ⟨feed, carriage⟩ := line d List.mem_cons_self
      simp only [withReturns_feed, cut, after?, feed, carriage, if_false, ih, Option.map_map]
      rfl
    · rw [withReturns_cons feed] at found ⊢
      rw [cut, cut, found]
      cases after? needle (c :: s) with
      | some rest => rfl
      | none =>
        simp only [Option.map_none, ih, Option.map_map]
        congr 1
        funext parts
        simp [withReturns_cons feed]

end Text

/-- The text with each line ended by a carriage return and a line feed. -/
def crlf (s : String) : String :=
  String.ofList (Text.withReturns s.toList)

@[simp] theorem toList_crlf (s : String) : (crlf s).toList = Text.withReturns s.toList :=
  String.toList_ofList

@[simp] theorem crlf_append (s t : String) : crlf (s ++ t) = crlf s ++ crlf t := by
  simp [crlf]

theorem crlf_of_not_mem {s : String} (line : '\n' ∉ s.toList) : crlf s = s := by
  rw [crlf, Text.withReturns_of_not_mem line, String.ofList_toList]

end Mustache
