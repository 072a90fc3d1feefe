namespace Mustache

/-- A property that holds of every place in a list. -/
def Everywhere {α : Type} (P : List α → α → List α → Prop) (items : List α) : Prop :=
  ∀ before x behind, items = before ++ x :: behind → P before x behind

@[simp] theorem everywhere_nil {α : Type} (P : List α → α → List α → Prop) :
    Everywhere P [] := by
  intro before x behind split
  simp at split

/-- The places of a list are its first one and those of the rest. -/
theorem everywhere_cons {α : Type} {P : List α → α → List α → Prop} {x : α} {rest : List α} :
    Everywhere P (x :: rest) ↔
      P [] x rest ∧ Everywhere (fun before => P (x :: before)) rest := by
  constructor
  · intro all
    refine ⟨all [] x rest rfl, ?_⟩
    intro before y behind split
    exact all (x :: before) y behind (by rw [split]; rfl)
  · rintro ⟨first, others⟩ before y behind split
    cases before with
    | nil =>
      obtain ⟨rfl, rfl⟩ := List.cons.inj split
      exact first
    | cons z before =>
      obtain ⟨same, splitRest⟩ := List.cons.inj split
      subst same
      exact others before y behind splitRest

theorem everywhere_append {α : Type} {P : List α → α → List α → Prop} {first second : List α} :
    Everywhere P (first ++ second) ↔
      Everywhere (fun before x behind => P before x (behind ++ second)) first ∧
        Everywhere (fun before => P (first ++ before)) second := by
  induction first generalizing P with
  | nil => simp
  | cons x rest ih =>
    rw [List.cons_append, everywhere_cons, everywhere_cons, ih, and_assoc]
    rfl

theorem Everywhere.imp {α : Type} {P Q : List α → α → List α → Prop} {items : List α}
    (holds : Everywhere P items)
    (implies : ∀ before x behind, P before x behind → Q before x behind) : Everywhere Q items :=
  fun before x behind split => implies before x behind (holds before x behind split)

end Mustache
