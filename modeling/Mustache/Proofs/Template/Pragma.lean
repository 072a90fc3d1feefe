import Mustache.Proofs.Text.Blanks
import Mustache.Proofs.Text.Occurrence
import Mustache.Template.Pragma
import Mustache.Token.Basic

namespace Mustache

namespace Text

/-- A text that is a word, but for white space around it. -/
def Wraps (word s : List Char) : Prop :=
  ∃ before behind, Blanks before ∧ Blanks behind ∧ s = before ++ word ++ behind

/-- Trimming leaves a word exactly if the word stands in the text alone. -/
theorem trim_eq_iff {word s : List Char} (nonempty : word ≠ [])
    (visible : ∀ c ∈ word, isBlank c = false) : trim s = word ↔ Wraps word s := by
  constructor
  · rintro rfl
    exact exists_trim s
  · rintro ⟨before, behind, leading, trailing, rfl⟩
    have front : Stops isBlank (word ++ behind) := by
      obtain ⟨c, rest, rfl⟩ := List.exists_cons_of_ne_nil nonempty
      simpa using visible c List.mem_cons_self
    have back : Stops isBlank word.reverse :=
      stops_of_forall fun c member => visible c (List.mem_reverse.mp member)
    have blanks : ∀ c ∈ behind.reverse, isBlank c = true :=
      fun c member => trailing c (List.mem_reverse.mp member)
    rw [List.append_assoc, trim, trimStart_append_of_blanks leading, trimStart_of_stops front,
      trimEnd, List.reverse_append, dropWhile_run blanks back, List.reverse_reverse]

private theorem ofList_trim_eq_iff {word : String} {s : List Char} (nonempty : word.toList ≠ [])
    (visible : ∀ c ∈ word.toList, isBlank c = false) :
    String.ofList (trim s) = word ↔ Wraps word.toList s := by
  rw [← String.toList_inj, String.toList_ofList]
  exact trim_eq_iff nonempty visible

end Text

/-- What names a content type in a pragma. -/
def ContentType.keyword : ContentType → String
  | text => "TEXT"
  | html => "HTML"

namespace Pragma

/-- A content that sets a content type: the known key before its first colon, and the name
of the type behind it. -/
def Sets (c : ContentType) (content : String) : Prop :=
  ∃ key value, content.toList = key ++ ':' :: value ∧ ':' ∉ key ∧
    Text.Wraps "CONTENT_TYPE".toList key ∧ Text.Wraps c.keyword.toList value

private theorem trim_eq_keyword_iff {c : ContentType} {value : List Char} :
    String.ofList (Text.trim value) = c.keyword ↔ Text.Wraps c.keyword.toList value := by
  cases c <;>
    exact Text.ofList_trim_eq_iff (by decide) (by simp [ContentType.keyword, Text.isBlank])

private theorem trim_eq_key_iff {key : List Char} :
    String.ofList (Text.trim key) = "CONTENT_TYPE" ↔ Text.Wraps "CONTENT_TYPE".toList key :=
  Text.ofList_trim_eq_iff (by decide) (by simp [Text.isBlank])

/-- Exactly the contents that set a content type are read so. -/
theorem read_eq_contentType_iff {content : String} {c : ContentType} :
    read content = .contentType c ↔ Sets c content := by
  constructor
  · intro taken
    unfold read at taken
    split at taken
    · cases taken
    · rename_i key value found
      split at taken
      · rename_i known
        refine ⟨key, value, by simpa using Text.eq_append_of_cut found,
          Text.not_mem_of_cut found, trim_eq_key_iff.mp known, ?_⟩
        split at taken <;> cases taken
        · exact trim_eq_keyword_iff.mp ‹_›
        · exact trim_eq_keyword_iff.mp ‹_›
      · cases taken
  · rintro ⟨key, value, whole, first, known, named⟩
    have type := trim_eq_keyword_iff.mpr named
    rw [read, whole, Text.cut_of_not_mem first]
    simp only [trim_eq_key_iff.mpr known, type, if_true]
    cases c <;> rfl

end Pragma

namespace Token

/-- A token that sets a content type: a pragma whose content does. -/
def Sets (c : ContentType) : Token → Prop
  | text _ => False
  | tag t => t.kind = .pragma ∧ Pragma.Sets c t.content

/-- The content type of a row of tokens is the one that is set last, and the standard one if
none is set. -/
inductive LastType (standard : ContentType) (tokens : List Token) : ContentType → Prop where
  | unset (none : ∀ t ∈ tokens, ∀ c, ¬ t.Sets c) : LastType standard tokens standard
  | set {t : Token} {c : ContentType} (before behind : List Token)
      (row : tokens = before ++ t :: behind) (sets : t.Sets c)
      (last : ∀ later ∈ behind, ∀ d, ¬ later.Sets d) : LastType standard tokens c

def contentType? : Token → Option ContentType
  | text _ => none
  | tag t =>
    match t.kind, Pragma.read t.content with
    | .pragma, .contentType c => some c
    | _, _ => none

theorem contentType?_eq_some_iff {t : Token} {c : ContentType} :
    t.contentType? = some c ↔ t.Sets c := by
  cases t with
  | text s => simp [contentType?, Sets]
  | tag t =>
    simp only [contentType?, Sets, ← Pragma.read_eq_contentType_iff]
    split <;> simp_all

theorem contentType?_eq_none_iff {t : Token} : t.contentType? = none ↔ ∀ c, ¬ t.Sets c := by
  simp only [Option.eq_none_iff_forall_ne_some, ne_eq, contentType?_eq_some_iff]

theorem lastType_iff {standard c : ContentType} {tokens : List Token} :
    LastType standard tokens c ↔ (tokens.filterMap contentType?).getLast?.getD standard = c := by
  constructor
  · intro last
    cases last with
    | unset none =>
      have nothing : tokens.filterMap contentType? = [] :=
        List.filterMap_eq_nil_iff.mpr fun t member =>
          contentType?_eq_none_iff.mpr (none t member)
      rw [nothing]
      rfl
    | set before behind row sets later =>
      have nothing : behind.filterMap contentType? = [] :=
        List.filterMap_eq_nil_iff.mpr fun t member =>
          contentType?_eq_none_iff.mpr (later t member)
      rw [row, List.filterMap_append,
        List.filterMap_cons_some (contentType?_eq_some_iff.mpr sets), nothing]
      simp
  · rintro rfl
    cases found : (tokens.filterMap contentType?).getLast? with
    | none =>
      have nothing := List.getLast?_eq_none_iff.mp found
      exact .unset fun t member =>
        contentType?_eq_none_iff.mp (List.filterMap_eq_nil_iff.mp nothing t member)
    | some c =>
      obtain ⟨earlier, split⟩ := List.getLast?_eq_some_iff.mp found
      obtain ⟨front, back, rfl, -, split⟩ := List.filterMap_eq_append_iff.mp split
      obtain ⟨skipped, t, behind, rfl, -, sets, rest⟩ := List.filterMap_eq_cons_iff.mp split
      refine .set (front ++ skipped) behind (by simp) (contentType?_eq_some_iff.mp sets) ?_
      intro later member
      exact contentType?_eq_none_iff.mp (List.filterMap_eq_nil_iff.mp rest later member)

end Token

end Mustache
