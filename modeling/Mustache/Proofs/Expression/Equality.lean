import Mustache.Proofs.Expression.Reading
import Mustache.Proofs.Number.Reflexive
import Mustache.Template.Builder

/-!
Equality of expressions, argument by argument. Equality of numbers is that of floats, so an
expression need not equal itself; one that was read does.
-/

namespace Mustache

private theorem map_beq_iff {α : Type} [BEq α] (f : α → α) (l : List α) :
    (l.map f == l) = true ↔ ∀ x ∈ l, (f x == x) = true := by
  induction l with
  | nil => simp
  | cons x l ih => simp [ih]

namespace Expression

def mapArguments (f : Argument → Argument) (e : Expression) : Expression :=
  { e with filters := e.filters.map fun call => { call with args := call.args.map f } }

/-- Expressions that differ in arguments alone are equal if these are. -/
theorem mapArguments_beq_iff (f : Argument → Argument) (e : Expression) :
    (e.mapArguments f == e) = true ↔
      ∀ call ∈ e.filters, ∀ a ∈ call.args, (f a == a) = true := by
  have parts : (e.mapArguments f == e) = (e.path == e.path && (e.mapArguments f).filters == e.filters) :=
    rfl
  have callParts (call : FilterCall) :
      (({ call with args := call.args.map f } : FilterCall) == call) =
        (call.name == call.name && call.args.map f == call.args) := rfl
  rw [parts]
  simp [mapArguments, map_beq_iff, callParts]

private theorem mapArguments_id (e : Expression) : e.mapArguments id = e := by
  simp [mapArguments]

theorem SpellsArguments.exists_text {pieces : List (List Char)} {args : List Argument}
    (spelled : SpellsArguments pieces args) : ∀ a ∈ args, ∃ text, SpellsArgument text a := by
  induction spelled with
  | last argument =>
    intro a member
    obtain rfl := List.mem_singleton.mp member
    exact ⟨_, argument⟩
  | more argument _ ih =>
    intro a member
    rcases List.mem_cons.mp member with rfl | later
    · exact ⟨_, argument⟩
    · exact ih a later

theorem SpellsFilters.exists_text {pieces : List (List Char)} {calls : List FilterCall}
    (spelled : SpellsFilters pieces calls) :
    ∀ call ∈ calls, ∀ a ∈ call.args, ∃ text, SpellsArgument text a := by
  induction spelled with
  | nil => simp
  | cons first _ ih =>
    intro call member
    rcases List.mem_cons.mp member with rfl | later
    · cases first with
      | bare _ => simp
      | applied _ arguments => exact arguments.exists_text
    · exact ih call later

private theorem SpellsArgument.beq_self {text : List Char} {a : Argument}
    (spelled : SpellsArgument text a) : (a == a) = true := by
  cases spelled with
  | @string _ value _ => exact beq_self_eq_true (String.ofList value)
  | number _ value => exact Number.beq_self_of_number? value
  | truth => rfl
  | falsehood => rfl
  | @path _ components _ _ _ _ => exact beq_self_eq_true components

theorem Composes.exists_text {pieces : List (List Char)} {e : Expression}
    (composed : Composes pieces e) :
    ∀ call ∈ e.filters, ∀ a ∈ call.args, ∃ text, SpellsArgument text a := by
  cases composed with
  | mk _ pipeline => exact pipeline.exists_text

private theorem Composes.beq_self {pieces : List (List Char)} {e : Expression}
    (composed : Composes pieces e) : (e == e) = true := by
  have same := mapArguments_beq_iff id e
  rw [mapArguments_id] at same
  rw [same]
  intro call member a argument
  obtain ⟨text, spelled⟩ := composed.exists_text call member a argument
  exact spelled.beq_self

/-- Reading accepts the grammar and nothing else. White space around the pieces of an
expression counts for nothing: contents with the same pieces are one expression, and either
closes a section that the other opened. -/
theorem parse_spells :
    (∀ (content : String) (e : Expression), parse content = .ok e ↔ Spells content.toList e) ∧
      ∀ (pieces : List (List Char)) (e : Expression), Composes pieces e →
        ∀ content respaced : String, Spaced pieces content.toList →
          Spaced pieces respaced.toList →
            parse content = .ok e ∧ parse respaced = .ok e ∧
              ∀ (s : OpenScope) (inverted : Bool), s.opening = .sect e inverted →
                s.isClosedBy respaced = true := by
  refine ⟨fun _ _ => parse_eq_ok_iff, ?_⟩
  intro pieces e composed content respaced spaced again
  have read := parse_eq_ok_iff.mpr ⟨pieces, composed, again⟩
  refine ⟨parse_eq_ok_iff.mpr ⟨pieces, composed, spaced⟩, read, ?_⟩
  intro s inverted opened
  unfold OpenScope.isClosedBy
  rw [opened]
  dsimp only
  rw [read]
  exact composed.beq_self

end Expression

end Mustache
