import Mustache.Render.Basic

namespace Mustache

namespace Run

variable {α ε δ : Type}

def mapError (g : ε → δ) (r : Run ε) : Run δ :=
  ⟨r.pieces, r.error.map g⟩

@[simp] theorem mapError_empty (g : ε → δ) : (empty : Run ε).mapError g = empty := rfl

@[simp] theorem mapError_piece (g : ε → δ) (p : Piece) :
    (piece p : Run ε).mapError g = piece p := rfl

@[simp] theorem mapError_fail (g : ε → δ) (e : ε) : (fail e).mapError g = fail (g e) := rfl

@[simp] theorem mapError_region (g : ε → δ) (r : Run ε) (indent : String) :
    (r.region indent).mapError g = (r.mapError g).region indent := rfl

@[simp] theorem mapError_andThen (g : ε → δ) (r : Run ε) (next : Unit → Run ε) :
    (r.andThen next).mapError g = (r.mapError g).andThen fun u => (next u).mapError g := by
  obtain ⟨pieces, error⟩ := r
  cases error <;> rfl

theorem mapError_each (g : ε → δ) (f : α → Run ε) (items : List α) :
    (each f items).mapError g = each (fun a => (f a).mapError g) items := by
  induction items with
  | nil => rfl
  | cons a rest ih => simp only [each, mapError_andThen, ih]

@[simp] theorem empty_andThen (next : Unit → Run ε) : empty.andThen next = next () := rfl

@[simp] theorem fail_andThen (e : ε) (next : Unit → Run ε) : (fail e).andThen next = fail e := rfl

@[simp] theorem andThen_empty (r : Run ε) : (r.andThen fun _ => empty) = r := by
  obtain ⟨pieces, error⟩ := r
  cases error <;> simp [andThen, empty]

theorem andThen_assoc (r : Run ε) (second third : Unit → Run ε) :
    (r.andThen second).andThen third = r.andThen fun u => (second u).andThen third := by
  obtain ⟨pieces, error⟩ := r
  cases error with
  | some e => rfl
  | none =>
    simp only [andThen]
    cases failed : (second ()).error <;> simp [failed]

theorem each_append (f : α → Run ε) (first second : List α) :
    each f (first ++ second) = (each f first).andThen fun _ => each f second := by
  induction first with
  | nil => rfl
  | cons a rest ih => simp only [List.cons_append, each, ih, andThen_assoc]

/-- Only the runs of the elements that are there count. -/
theorem each_congr {f g : α → Run ε} {items : List α} (same : ∀ a ∈ items, f a = g a) :
    each f items = each g items := by
  induction items with
  | nil => rfl
  | cons a rest ih =>
    have others := ih fun b member => same b (List.mem_cons_of_mem a member)
    simp only [each, same a List.mem_cons_self, others]

theorem each_map {β : Type} (f : β → Run ε) (g : α → β) (items : List α) :
    each f (items.map g) = each (fun a => f (g a)) items := by
  induction items with
  | nil => rfl
  | cons a rest ih => simp only [List.map_cons, each, ih]

theorem each_flatMap {β : Type} (f : β → Run ε) (g : α → List β) (items : List α) :
    each f (items.flatMap g) = each (fun a => each f (g a)) items := by
  induction items with
  | nil => rfl
  | cons a rest ih => simp only [List.flatMap_cons, each_append, each, ih]

theorem each_piece (g : α → Piece) (items : List α) :
    (each (fun a => piece (g a)) items : Run ε) = ⟨items.map g, none⟩ := by
  induction items with
  | nil => rfl
  | cons a rest ih =>
    rw [each, ih]
    rfl

theorem error_andThen_eq_some_iff {r : Run ε} {next : Unit → Run ε} {e : ε} :
    (r.andThen next).error = some e ↔ r.error = some e ∨ r.error = none ∧ (next ()).error = some e := by
  obtain ⟨pieces, error⟩ := r
  cases error <;> simp [andThen]

theorem error_andThen_eq_none_iff {r : Run ε} {next : Unit → Run ε} :
    (r.andThen next).error = none ↔ r.error = none ∧ (next ()).error = none := by
  obtain ⟨pieces, error⟩ := r
  cases error <;> simp [andThen]

theorem pieces_andThen {r : Run ε} (fine : r.error = none) (next : Unit → Run ε) :
    (r.andThen next).pieces = r.pieces ++ (next ()).pieces := by
  simp only [andThen, fine]

theorem error_each_eq_none_iff {f : α → Run ε} {items : List α} :
    (each f items).error = none ↔ ∀ a ∈ items, (f a).error = none := by
  induction items with
  | nil => simp [each, empty]
  | cons a rest ih => simp [each, error_andThen_eq_none_iff, ih]

theorem exists_error_of_each {f : α → Run ε} {items : List α} {e : ε}
    (failed : (each f items).error = some e) : ∃ a ∈ items, (f a).error = some e := by
  induction items with
  | nil => cases failed
  | cons a rest ih =>
    rcases error_andThen_eq_some_iff.mp failed with first | ⟨-, later⟩
    · exact ⟨a, List.mem_cons_self, first⟩
    · obtain ⟨b, member, inner⟩ := ih later
      exact ⟨b, List.mem_cons_of_mem a member, inner⟩

theorem forall_fail {P : Piece → Prop} (e : ε) : ∀ p ∈ (fail e).pieces, P p := by
  intro p member
  cases member

/-- What holds of the pieces of two runs holds of those of one after the other. -/
theorem forall_andThen {P : Piece → Prop} {r : Run ε} {next : Unit → Run ε}
    (first : ∀ p ∈ r.pieces, P p) (second : ∀ p ∈ (next ()).pieces, P p) :
    ∀ p ∈ (r.andThen next).pieces, P p := by
  obtain ⟨pieces, error⟩ := r
  cases error with
  | some e => exact first
  | none =>
    intro p member
    rcases List.mem_append.mp member with before | after
    · exact first p before
    · exact second p after

theorem forall_each {P : Piece → Prop} {f : α → Run ε} {items : List α}
    (all : ∀ a ∈ items, ∀ p ∈ (f a).pieces, P p) : ∀ p ∈ (each f items).pieces, P p := by
  induction items with
  | nil => simp [each, empty]
  | cons a rest ih =>
    have others := ih fun b member => all b (List.mem_cons_of_mem a member)
    exact forall_andThen (all a List.mem_cons_self) others

/-- The text that a run writes from the start, unless an error ended it. -/
def text (r : Run ε) : Except ε String :=
  match r.error with
  | some e => .error e
  | none => .ok (({} : Output).writeAll r.pieces).buffer

theorem text_mapError (g : ε → δ) (r : Run ε) : (r.mapError g).text = r.text.mapError g := by
  obtain ⟨pieces, error⟩ := r
  cases error <;> rfl

end Run

theorem Template.render_eq_text (t : Template) (data : Data) (c : Collaborators) :
    t.render data c = (t.run data c).text := by
  simp only [render, Run.text]
  cases (t.run data c).error <;> rfl

theorem Template.render_eq_error_iff {t : Template} {data : Data} {c : Collaborators}
    {e : RenderError} : t.render data c = .error e ↔ (t.run data c).error = some e := by
  rw [render_eq_text, Run.text]
  cases (t.run data c).error <;> simp

end Mustache
