import Mustache.Escape
import Mustache.Proofs.Places

namespace Mustache

/-- The characters that open and close tags and attribute values. -/
def isMarkup (c : Char) : Bool :=
  c == '<' || c == '>' || c == '"' || c == '\x27'

/-- What escaping writes for the characters that HTML gives a meaning. -/
def entities : List String :=
  ["&amp;", "&lt;", "&gt;", "&quot;", "&#39;"]

/-- Every ampersand of a text begins an entity. -/
def EntitiesOnly (s : List Char) : Prop :=
  Everywhere (fun _ c behind => c = '&' → ∃ e ∈ entities, e.toList <+: c :: behind) s

theorem entitiesOnly_cons {c : Char} {s : List Char} :
    EntitiesOnly (c :: s) ↔
      (c = '&' → ∃ e ∈ entities, e.toList <+: c :: s) ∧ EntitiesOnly s :=
  everywhere_cons

theorem EntitiesOnly.append {s t : List Char} (first : EntitiesOnly s) (second : EntitiesOnly t) :
    EntitiesOnly (s ++ t) := by
  induction s with
  | nil => exact second
  | cons c s ih =>
    obtain ⟨here, rest⟩ := entitiesOnly_cons.mp first
    refine entitiesOnly_cons.mpr ⟨?_, ih rest⟩
    intro ampersand
    obtain ⟨e, listed, begins⟩ := here ampersand
    exact ⟨e, listed, begins.trans (List.prefix_append (c :: s) t)⟩

theorem entitiesOnly_of_not_mem {s : List Char} (none : '&' ∉ s) : EntitiesOnly s := by
  rintro before c behind rfl rfl
  simp at none

namespace Escape

private theorem entitiesOnly_entity {e : String} (listed : e ∈ entities) :
    EntitiesOnly e.toList := by
  have shape : ∃ s, e.toList = '&' :: s ∧ '&' ∉ s := by
    simp only [entities, List.mem_cons, List.not_mem_nil, or_false] at listed
    rcases listed with rfl | rfl | rfl | rfl | rfl
    · exact ⟨"amp;".toList, rfl, by decide⟩
    · exact ⟨"lt;".toList, rfl, by decide⟩
    · exact ⟨"gt;".toList, rfl, by decide⟩
    · exact ⟨"quot;".toList, rfl, by decide⟩
    · exact ⟨"#39;".toList, rfl, by decide⟩
  obtain ⟨s, same, none⟩ := shape
  rw [same]
  refine entitiesOnly_cons.mpr ⟨?_, entitiesOnly_of_not_mem none⟩
  intro _
  exact ⟨e, listed, same ▸ List.prefix_refl ('&' :: s)⟩

/-- A character is written as an entity, or it is none of those that need one. -/
theorem htmlChar_cases (c : Char) :
    (∃ e ∈ entities, htmlChar c = e.toList) ∨
      htmlChar c = [c] ∧ c ≠ '&' ∧ isMarkup c = false := by
  unfold htmlChar
  split
  · exact .inl ⟨"&amp;", by decide, rfl⟩
  · exact .inl ⟨"&lt;", by decide, rfl⟩
  · exact .inl ⟨"&gt;", by decide, rfl⟩
  · exact .inl ⟨"&quot;", by decide, rfl⟩
  · exact .inl ⟨"&#39;", by decide, rfl⟩
  · exact .inr ⟨rfl, by assumption, by simp_all [isMarkup]⟩

theorem filter_isMarkup_html (s : String) : (html s).toList.filter isMarkup = [] := by
  rw [html, String.toList_ofList]
  induction s.toList with
  | nil => rfl
  | cons c rest ih =>
    rw [List.flatMap_cons, List.filter_append, ih, List.append_nil]
    rcases htmlChar_cases c with ⟨e, listed, same⟩ | ⟨same, -, plain⟩
    · have harmless : ∀ e ∈ entities, e.toList.filter isMarkup = [] := by decide
      rw [same, harmless e listed]
    · simp [same, plain]

theorem entitiesOnly_html (s : String) : EntitiesOnly (html s).toList := by
  rw [html, String.toList_ofList]
  induction s.toList with
  | nil => exact entitiesOnly_of_not_mem (by simp)
  | cons c rest ih =>
    rw [List.flatMap_cons]
    refine EntitiesOnly.append ?_ ih
    rcases htmlChar_cases c with ⟨e, listed, same⟩ | ⟨same, other, -⟩
    · rw [same]
      exact entitiesOnly_entity listed
    · rw [same]
      exact entitiesOnly_of_not_mem (by simp [Ne.symm other])

theorem html_append (s t : String) : html (s ++ t) = html s ++ html t := by
  simp [html, List.flatMap_append, String.ofList_append]

/-- The text with its entities replaced by the characters they stand for, in one pass from left to
right. -/
def unescape : List Char → List Char
  | '&' :: 'a' :: 'm' :: 'p' :: ';' :: rest => '&' :: unescape rest
  | '&' :: 'l' :: 't' :: ';' :: rest => '<' :: unescape rest
  | '&' :: 'g' :: 't' :: ';' :: rest => '>' :: unescape rest
  | '&' :: 'q' :: 'u' :: 'o' :: 't' :: ';' :: rest => '"' :: unescape rest
  | '&' :: '#' :: '3' :: '9' :: ';' :: rest => '\x27' :: unescape rest
  | c :: rest => c :: unescape rest
  | [] => []

theorem unescape_cons {c : Char} (other : c ≠ '&') (rest : List Char) :
    unescape (c :: rest) = c :: unescape rest := by
  rw [unescape]
  all_goals exact fun _ same => absurd same other

/-- What is written for a character is read as the character, whatever comes behind it: only the
ampersand begins an entity, and it is written as one itself. -/
theorem unescape_htmlChar_append (c : Char) (rest : List Char) :
    unescape (htmlChar c ++ rest) = c :: unescape rest := by
  unfold htmlChar
  split
  · rfl
  · rfl
  · rfl
  · rfl
  · rfl
  · rename_i other _ _ _ _
    exact unescape_cons other rest

private theorem unescape_html (s : String) : unescape (html s).toList = s.toList := by
  rw [html, String.toList_ofList]
  induction s.toList with
  | nil => rfl
  | cons c rest ih => rw [List.flatMap_cons, unescape_htmlChar_append, ih]

/-- An escaped text holds no markup, and of its ampersands each begins an entity. Reading the
entities gives the text back, so different texts stay different, and texts that are escaped one
after the other are escaped as one. -/
theorem html_encodes (s t : String) :
    (∀ c ∈ (html s).toList, isMarkup c = false) ∧ EntitiesOnly (html s).toList ∧
      unescape (html s).toList = s.toList ∧ (html s = html t ↔ s = t) ∧
      html (s ++ t) = html s ++ html t := by
  refine ⟨?_, entitiesOnly_html s, unescape_html s, ?_, html_append s t⟩
  · intro c member
    have none := List.filter_eq_nil_iff.mp (filter_isMarkup_html s) c member
    simpa using none
  · refine ⟨fun same => ?_, congrArg html⟩
    have texts := unescape_html s
    rw [same, unescape_html t] at texts
    exact String.toList_inj.mp texts.symm

end Escape

end Mustache
