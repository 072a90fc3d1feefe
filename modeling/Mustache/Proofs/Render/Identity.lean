import Mathlib
import Mustache.Proofs.Expression.Reading
import Mustache.Proofs.Render.Comparison
import Mustache.Template.Compile

namespace Mustache

/-- The value is the JSON, from the data or from a filter. -/
inductive Data.Holds (j : Json) : Data → Prop where
  | given : Holds j (.json j)
  | produced : Holds j (.produced j)

/-- Both values are the same JSON. -/
def Data.SameJson (v w : Data) : Prop :=
  ∃ j, v.Holds j ∧ w.Holds j

namespace Data

theorem Holds.kind {j : Json} {v : Data} (holds : v.Holds j) : v.kind = j.kind := by
  cases holds <;> rfl

theorem Holds.text {j : Json} {v : Data} (holds : v.Holds j) : v.text = j.text := by
  cases holds <;> rfl

theorem Holds.toJson {j : Json} {v : Data} (holds : v.Holds j) : v.toJson = .ok j := by
  cases holds <;> rfl

theorem Holds.exists_parts {j : Json} {v : Data} (holds : v.Holds j) :
    ∃ part : Json → Data, (∀ i, (part i).Holds i) ∧
      v.children? = j.children?.map (·.map part) ∧
      ∀ name, v.child? name = (j.get? name).map part := by
  cases holds with
  | given => exact ⟨.json, fun i => .given, rfl, fun name => rfl⟩
  | produced =>
    refine ⟨.produced, fun i => .produced, ?_, ?_⟩
    · cases j <;> rfl
    · intro name
      cases j <;> rfl

/-- A template cannot tell where JSON comes from. -/
theorem SameJson.agreement : Agreement SameJson where
  kind := by
    rintro v w ⟨j, left, right⟩
    rw [left.kind, right.kind]
  text := by
    rintro v w ⟨j, left, right⟩
    rw [left.text, right.text]
  toJson := by
    rintro v w ⟨j, left, right⟩
    rw [left.toJson, right.toJson]
  children := by
    rintro v w ⟨j, left, right⟩
    obtain ⟨f, fromLeft, items, -⟩ := left.exists_parts
    obtain ⟨g, fromRight, others, -⟩ := right.exists_parts
    rw [items, others]
    cases j.children? with
    | none => exact .none
    | some inside =>
      refine .some ?_
      simp only [List.forall₂_map_left_iff, List.forall₂_map_right_iff]
      exact List.forall₂_same.mpr fun i _ => ⟨i, fromLeft i, fromRight i⟩
  child := by
    rintro v w name ⟨j, left, right⟩
    obtain ⟨f, fromLeft, -, member⟩ := left.exists_parts
    obtain ⟨g, fromRight, -, other⟩ := right.exists_parts
    rw [member, other]
    cases j.get? name with
    | none => exact .none
    | some i => exact .some ⟨i, fromLeft i, fromRight i⟩
  produced j := ⟨j, .produced, .produced⟩

end Data

theorem Collaborators.pipe_append (c : Collaborators) (scopes : Scopes) (p : Position)
    (value : Option Data) (first second : List FilterCall) :
    c.pipe scopes p value (first ++ second) =
      (c.pipe scopes p value first).bind fun result => c.pipe scopes p result second := by
  induction first generalizing value with
  | nil => rfl
  | cons call rest ih =>
    rw [List.cons_append, pipe, pipe]
    cases c.call scopes p value call with
    | error e => rfl
    | ok result => exact ih (some result)

/-- The expression with one more filter at its end, which is called without arguments. -/
def Expression.through (e : Expression) (name : String) : Expression :=
  { e with filters := e.filters ++ [⟨name, []⟩] }

/-- The filter is appended by a bar and its name at the end of the tag's content. -/
theorem Expression.parse_through {content name : String} {e : Expression}
    (identifier : IsIdentifier name.toList) (read : parse content = .ok e) :
    parse (content ++ " | " ++ name) = .ok (e.through name) := by
  obtain ⟨_, composed, spaced⟩ := parse_eq_ok_iff.mp read
  cases composed with
  | @mk text path pieces filters first pipeline =>
    have call : SpellsFilters [['|'], name.toList] [⟨name, []⟩] := by
      simpa using SpellsFilters.cons (.bare identifier) .nil
    have space : Text.Blanks [' '] := by
      simp [Text.Blanks, Text.isBlank]
    have none : Text.Blanks [] := by
      simp [Text.Blanks]
    have named : Spaced [['|'], name.toList] (" | " ++ name).toList := by
      have spelled : Spaced [['|'], name.toList] ([' '] ++ (['|'] ++ ([' '] ++ (name.toList ++ [])))) :=
        .cons space (.cons space (.nil none))
      simpa using spelled
    refine parse_eq_ok_iff.mpr ⟨text :: (pieces ++ _), .mk first (pipeline.append call), ?_⟩
    rw [String.append_assoc, String.toList_append]
    exact spaced.append named

namespace Comparison

/-- Nothing differs but the places of tags, and that some expressions also go through a filter. -/
def identity (name : String) (places : Position → Position → Prop) : Comparison where
  texts := Eq
  indents := Eq
  expressions e e' := e' = e ∨ e' = e.through name
  places := places
  parts _ _ _ := False
  values := Data.SameJson
  runs := Run.Compares Eq places

variable {name : String} {places : Position → Position → Prop} {c d : Collaborators}

/-- What is not defined becomes null when it goes through a filter; everything else is still
the same JSON. -/
theorem identity_outcomes {filter : Filter} (registered : c.filters name = some filter)
    (returns : ∀ v, filter v [] = .ok v) (filters : d.filters = c.filters) {s t : Scopes}
    (scopes : s.Related Data.SameJson t) (p q : Position) (e : Expression) :
    (identity name places).Outcomes p q (c.evaluate s p e) (d.evaluate t q (e.through name)) := by
  have through : d.evaluate t q (e.through name) =
      (d.evaluate t q e).bind fun value => d.pipe t q value [⟨name, []⟩] :=
    d.pipe_append t q (t.resolve e.path) e.filters [⟨name, []⟩]
  have returned {value : Option Data} {j : Json} (input : Collaborators.filterInput value = .ok j) :
      d.pipe t q value [⟨name, []⟩] = .ok (some (.produced j)) := by
    simp [Collaborators.pipe, Collaborators.call, filters, registered, input,
      Collaborators.argumentInputs, returns]
  obtain ⟨cause, left, right⟩ | ⟨v, w, left, right, values⟩ :=
    evaluate_displaced Data.SameJson.agreement filters scopes p q e
  · rw [left, through, right]
    exact .error cause
  · rw [left, through, right, Except.bind]
    cases values with
    | none =>
      rw [returned (j := .null) rfl]
      exact .ok (.null rfl rfl)
    | some both =>
      obtain ⟨j, holds, other⟩ := both
      have input : Collaborators.filterInput (some _) = .ok j := other.toJson
      rw [returned input]
      exact .ok (.some ⟨j, holds, .produced⟩)

theorem identity_lawful {filter : Filter} (registered : c.filters name = some filter)
    (returns : ∀ v, filter v [] = .ok v) (filters : d.filters = c.filters)
    (escaper : d.escaper = c.escaper)
    (templates : ∀ n, Option.Rel (identity name places).Templates (c.templates n) (d.templates n)) :
    (identity name places).Lawful c d where
  empty := ⟨rfl, .none⟩
  andThen := by
    intro r s next more first second
    refine first.andThen ?_ second
    rintro a _ b _ rfl rfl
    rfl
  region := by
    rintro indent _ r s rfl inside
    exact ⟨by rw [Run.region, Run.region, inside.pieces], inside.error⟩
  text := by
    rintro s _ rfl
    exact ⟨rfl, .none⟩
  value s := ⟨rfl, .none⟩
  lookup name := ⟨rfl, .none⟩
  fail e p q alike := .fail rfl e alike
  agreement := Data.SameJson.agreement
  evaluate := by
    intro s t e e' p q scopes alike _
    rcases alike with rfl | rfl
    · exact outcomes_of_agreement Data.SameJson.agreement filters scopes p q e'
    · exact identity_outcomes registered returns filters scopes p q e
  parts _ _ _ _ impossible := impossible.elim
  templates := templates
  escaper := escaper

end Comparison

end Mustache
