import Mathlib.Data.List.Forall2
import Mustache.Proofs.Render.Runs

/-!
Data that a template cannot tell apart. A likeness relates values that show the same kind and text
and whose elements and members are related again; in an agreement they also have the same JSON
counterpart. Main statements: rendering against values that agree gives the same result, and against
values that are alike and fail to have a counterpart together it does so but for the reasons.
-/

namespace Mustache

theorem rel_option_imp {α β : Type} {R S : α → β → Prop} (implies : ∀ a b, R a b → S a b)
    {x : Option α} {y : Option β} (related : Option.Rel R x y) : Option.Rel S x y := by
  cases related with
  | none => exact .none
  | some both => exact .some (implies _ _ both)

theorem rel_option_refl {α : Type} {R : α → α → Prop} (refl : ∀ a, R a a) (x : Option α) :
    Option.Rel R x x := by
  cases x with
  | none => exact .none
  | some a => exact .some (refl a)

/-- The same value, or errors that are related. -/
inductive UpToError {ε α : Type} (E : ε → ε → Prop) : Except ε α → Except ε α → Prop where
  | ok (a : α) : UpToError E (.ok a) (.ok a)
  | error {x y : ε} (errors : E x y) : UpToError E (.error x) (.error y)

theorem UpToError.eq {ε α : Type} {E : ε → ε → Prop} (same : ∀ x y, E x y → x = y)
    {x y : Except ε α} (alike : UpToError E x y) : x = y := by
  cases alike with
  | ok a => rfl
  | error errors => rw [same _ _ errors]

private theorem UpToError.of_eq {ε α : Type} {x y : Except ε α} (same : x = y) :
    UpToError Eq x y := by
  subst same
  cases x with
  | ok a => exact .ok a
  | error e => exact .error rfl

theorem UpToError.bind {ε α β : Type} {E : ε → ε → Prop} {x y : Except ε α} {f g : α → Except ε β}
    (first : UpToError E x y) (next : ∀ a, UpToError E (f a) (g a)) :
    UpToError E (x >>= f) (y >>= g) := by
  cases first with
  | ok a => exact next a
  | error errors => exact .error errors

theorem UpToError.map {ε α β : Type} {E : ε → ε → Prop} {x y : Except ε α} (f : α → β)
    (alike : UpToError E x y) : UpToError E (x.map f) (y.map f) := by
  cases alike with
  | ok a => exact .ok (f a)
  | error errors => exact .error errors

theorem UpToError.toOption {ε α : Type} {E : ε → ε → Prop} {x y : Except ε α}
    (alike : UpToError E x y) : x.toOption = y.toOption := by
  cases alike with
  | ok a => rfl
  | error errors => rfl

theorem UpToError.exists_error_iff {ε α : Type} {E : ε → ε → Prop} {x y : Except ε α}
    (alike : UpToError E x y) : (∃ e, x = .error e) ↔ ∃ e, y = .error e := by
  cases alike with
  | ok a => simp
  | error errors => simp

/-- Related values show the same of themselves, and related values inside them. What filters
give is related to itself. -/
structure Data.Likeness (R : Data → Data → Prop) : Prop where
  kind : ∀ {v w}, R v w → v.kind = w.kind
  text : ∀ {v w}, R v w → v.text = w.text
  children : ∀ {v w}, R v w → Option.Rel (List.Forall₂ R) v.children? w.children?
  child : ∀ {v w} name, R v w → Option.Rel R (v.child? name) (w.child? name)
  produced : ∀ v, R (.produced v) (.produced v)

/-- Related values are alike and have the same JSON counterpart. -/
structure Data.Agreement (R : Data → Data → Prop) : Prop extends Data.Likeness R where
  toJson : ∀ {v w}, R v w → v.toJson = w.toJson

/-- Related values have the same JSON counterpart, or none for related reasons. -/
def Data.ConvertsUpTo (R : Data → Data → Prop) (B : NoCounterpart → NoCounterpart → Prop) : Prop :=
  ∀ v w, R v w → UpToError B v.toJson w.toJson

theorem Data.Agreement.convertsUpTo {R : Data → Data → Prop} (agree : Agreement R) :
    ConvertsUpTo R Eq :=
  fun _ _ related => .of_eq (agree.toJson related)

theorem Data.Agreement.eq : Data.Agreement (· = ·) where
  kind := congrArg Data.kind
  text := congrArg Data.text
  toJson := congrArg Data.toJson
  children := by
    rintro v _ rfl
    exact rel_option_refl (fun items => List.forall₂_same.mpr fun _ _ => rfl) v.children?
  child := by
    rintro v _ name rfl
    exact rel_option_refl (fun _ => rfl) (v.child? name)
  produced _ := rfl

structure Scopes.Related (R : Data → Data → Prop) (s t : Scopes) : Prop where
  top : R s.top t.top
  outer : List.Forall₂ R s.outer t.outer

/-- The same error, or values without a counterpart made one filter fail, for related reasons. -/
inductive RenderError.Alike (B : NoCounterpart → NoCounterpart → Prop) :
    RenderError → RenderError → Prop where
  | same (e : RenderError) : Alike B e e
  | reasons {a b : NoCounterpart} (name : String) (p : Position) (related : B a b) :
      Alike B (.filterFailed name a.message p) (.filterFailed name b.message p)

/-- Errors are the same if all related reasons have the same message. -/
theorem RenderError.Alike.eq {B : NoCounterpart → NoCounterpart → Prop}
    (same : ∀ a b, B a b → a.message = b.message) {e e' : RenderError} (alike : Alike B e e') :
    e = e' := by
  cases alike with
  | same => rfl
  | reasons name p related => rw [same _ _ related]

/-- Alike errors, or related values. -/
inductive Outcome (R : Data → Data → Prop) (B : NoCounterpart → NoCounterpart → Prop) :
    Except RenderError (Option Data) → Except RenderError (Option Data) → Prop where
  | error {e e' : RenderError} (errors : RenderError.Alike B e e') : Outcome R B (.error e) (.error e')
  | ok {v w : Option Data} (related : Option.Rel R v w) : Outcome R B (.ok v) (.ok w)

variable {R : Data → Data → Prop} {B : NoCounterpart → NoCounterpart → Prop}

namespace Scopes

theorem Related.pushAny {s t : Scopes} (scopes : s.Related R t) {v w : Option Data}
    (pushed : Option.Rel R v w) : (s.pushAny v).Related R (t.pushAny w) := by
  cases pushed with
  | none => exact scopes
  | some related => exact ⟨related, .cons scopes.top scopes.outer⟩

private theorem findSome?_related {f g : Data → Option Data}
    (same : ∀ {v w}, R v w → Option.Rel R (f v) (g w)) {vs ws : List Data}
    (values : List.Forall₂ R vs ws) : Option.Rel R (vs.findSome? f) (ws.findSome? g) := by
  induction values with
  | nil => exact .none
  | @cons v w vs ws first rest ih =>
    have found := same first
    rw [List.findSome?_cons, List.findSome?_cons]
    generalize f v = left at found ⊢
    generalize g w = right at found ⊢
    cases found with
    | none => exact ih
    | some related => exact .some related

theorem Related.find? (like : Data.Likeness R) {s t : Scopes} (scopes : s.Related R t)
    (name : String) : Option.Rel R (s.find? name) (t.find? name) :=
  findSome?_related (like.child name) (.cons scopes.top scopes.outer)

private theorem descend_related (like : Data.Likeness R) (path : List Component) {v w : Data}
    (related : R v w) : Option.Rel R (descend v path) (descend w path) := by
  induction path generalizing v w with
  | nil => exact .some related
  | cons component rest ih =>
    cases component with
    | this => exact ih related
    | identifier name =>
      have inner := like.child name related
      unfold descend
      generalize v.child? name = left at inner ⊢
      generalize w.child? name = right at inner ⊢
      cases inner with
      | none => exact .none
      | some related => exact ih related

theorem Related.resolve (like : Data.Likeness R) {s t : Scopes} (scopes : s.Related R t)
    (path : List Component) : Option.Rel R (s.resolve path) (t.resolve path) := by
  cases path with
  | nil => exact .none
  | cons component rest =>
    cases component with
    | this => exact descend_related like rest scopes.top
    | identifier name =>
      have first := scopes.find? like name
      rw [Scopes.resolve, Scopes.resolve]
      generalize s.find? name = left at first ⊢
      generalize t.find? name = right at first ⊢
      cases first with
      | none => exact .none
      | some related => exact descend_related like rest related

end Scopes

namespace Collaborators

private theorem filterInput_related (converts : Data.ConvertsUpTo R B) {v w : Option Data}
    (related : Option.Rel R v w) : UpToError B (filterInput v) (filterInput w) := by
  cases related with
  | none => exact .ok Json.null
  | some related => exact converts _ _ related

private theorem argumentInputs_related (like : Data.Likeness R) (converts : Data.ConvertsUpTo R B)
    {s t : Scopes} (scopes : s.Related R t) (args : List Argument) :
    UpToError B (argumentInputs s args) (argumentInputs t args) := by
  induction args with
  | nil => exact .ok []
  | cons argument rest ih =>
    have first : UpToError B (argumentInput s argument) (argumentInput t argument) := by
      cases argument with
      | literal v => exact .ok v
      | path path => exact filterInput_related converts (scopes.resolve like path)
    rw [argumentInputs, argumentInputs]
    exact first.bind fun input => ih.bind fun inputs => .ok (input :: inputs)

private theorem call_related (like : Data.Likeness R) (converts : Data.ConvertsUpTo R B)
    (c : Collaborators) {s t : Scopes} (scopes : s.Related R t) (p : Position) {v w : Option Data}
    (related : Option.Rel R v w) (call : FilterCall) :
    UpToError (RenderError.Alike B) (c.call s p v call) (c.call t p w call) := by
  have arguments := argumentInputs_related like converts scopes call.args
  have inputs := filterInput_related converts related
  unfold Collaborators.call
  cases c.filters call.name with
  | none => exact .error (.same _)
  | some filter =>
    simp only
    generalize argumentInputs s call.args = left at arguments ⊢
    generalize argumentInputs t call.args = right at arguments ⊢
    cases arguments with
    | error reasons => exact .error (.reasons call.name p reasons)
    | ok args =>
      simp only
      generalize filterInput v = input at inputs ⊢
      generalize filterInput w = other at inputs ⊢
      cases inputs with
      | error reasons => exact .error (.reasons call.name p reasons)
      | ok input =>
        simp only
        cases filter input args with
        | error message => exact .error (.same _)
        | ok result => exact .ok _

/-- What a filter gives is JSON. -/
theorem exists_produced_of_call {c : Collaborators} {s : Scopes} {p : Position} {v : Option Data}
    {call : FilterCall} {result : Data} (called : c.call s p v call = .ok result) :
    ∃ j, result = .produced j := by
  unfold Collaborators.call at called
  repeat' split at called
  all_goals first
    | cases called
  exact ⟨_, rfl⟩

theorem evaluate_related (like : Data.Likeness R) (converts : Data.ConvertsUpTo R B)
    (c : Collaborators) {s t : Scopes} (scopes : s.Related R t) (p : Position) (e : Expression) :
    Outcome R B (c.evaluate s p e) (c.evaluate t p e) := by
  have related := scopes.resolve like e.path
  unfold evaluate
  generalize s.resolve e.path = v at related ⊢
  generalize t.resolve e.path = w at related ⊢
  induction e.filters generalizing v w with
  | nil => exact .ok related
  | cons first rest ih =>
    have called := call_related like converts c scopes p related first
    rw [pipe, pipe]
    cases here : c.call s p v first with
    | error cause =>
      rw [here] at called
      generalize c.call t p w first = other at called ⊢
      cases called with
      | error errors => exact .error errors
    | ok result =>
      obtain ⟨j, rfl⟩ := exists_produced_of_call here
      rw [here] at called
      generalize c.call t p w first = other at called ⊢
      cases called with
      | ok => exact ih (some (.produced j)) (some (.produced j)) (.some (like.produced j))

end Collaborators

theorem sectionPasses_related (like : Data.Likeness R) {v w : Option Data}
    (related : Option.Rel R v w) :
    List.Forall₂ (Option.Rel R) (sectionPasses v) (sectionPasses w) := by
  cases related with
  | none => exact .nil
  | @some v w related =>
    have elements := like.children related
    simp only [sectionPasses, like.kind related]
    cases w.kind with
    | null => exact .nil
    | bool b =>
      cases b with
      | false => exact .nil
      | true => exact .cons .none .nil
    | sequence =>
      simp only
      generalize v.children? = left at elements ⊢
      generalize w.children? = right at elements ⊢
      cases elements with
      | none => exact .nil
      | some items => simpa [List.forall₂_map_left_iff, List.forall₂_map_right_iff] using items
    | _ => exact .cons (.some related) .nil

private theorem passes_related (like : Data.Likeness R) (inverted : Bool) {v w : Option Data}
    (related : Option.Rel R v w) :
    List.Forall₂ (Option.Rel R) (passes inverted v) (passes inverted w) := by
  have sections := sectionPasses_related like related
  unfold passes
  generalize sectionPasses v = left at sections ⊢
  generalize sectionPasses w = right at sections ⊢
  cases inverted with
  | false => exact sections
  | true =>
    cases sections with
    | nil => exact .cons .none .nil
    | cons first rest => exact .nil

structure Run.Alike {ε : Type} (E : ε → ε → Prop) (r s : Run ε) : Prop where
  pieces : r.pieces = s.pieces
  error : Option.Rel E r.error s.error

namespace Run

variable {ε : Type} {E : ε → ε → Prop} {r s : Run ε}

theorem Alike.refl (refl : ∀ e, E e e) (r : Run ε) : r.Alike E r :=
  ⟨rfl, rel_option_refl refl r.error⟩

theorem Alike.fail {e e' : ε} (errors : E e e') : (Run.fail e).Alike E (.fail e') :=
  ⟨rfl, .some errors⟩

theorem Alike.andThen {next more : Unit → Run ε} (first : r.Alike E s)
    (second : (next ()).Alike E (more ())) : (r.andThen next).Alike E (s.andThen more) := by
  obtain ⟨written, error⟩ := r
  obtain ⟨others, failed⟩ := s
  obtain ⟨same, errors⟩ := first
  obtain rfl : written = others := same
  cases errors with
  | some errors => exact ⟨rfl, .some errors⟩
  | none => exact ⟨congrArg (written ++ ·) second.pieces, second.error⟩

theorem Alike.region (inside : r.Alike E s) (indent : String) :
    (r.region indent).Alike E (s.region indent) :=
  ⟨congrArg (fun pieces => [Piece.region indent pieces]) inside.pieces, inside.error⟩

theorem Alike.each {α β : Type} {S : α → β → Prop} {f : α → Run ε} {g : β → Run ε}
    (same : ∀ {a b}, S a b → (f a).Alike E (g b)) {xs : List α} {ys : List β}
    (related : List.Forall₂ S xs ys) : (Run.each f xs).Alike E (Run.each g ys) := by
  induction related with
  | nil => exact ⟨rfl, .none⟩
  | cons first rest ih => exact (same first).andThen ih

theorem Alike.text (alike : r.Alike E s) : UpToError E r.text s.text := by
  obtain ⟨written, error⟩ := r
  obtain ⟨others, failed⟩ := s
  obtain ⟨same, errors⟩ := alike
  obtain rfl : written = others := same
  cases errors with
  | some errors => exact .error errors
  | none => exact .ok _

end Run

namespace Collaborators

private theorem valueText_related (like : Data.Likeness R) (c : Collaborators) (f : Frame)
    (escaped : Bool) {v w : Option Data} (related : Option.Rel R v w) :
    c.valueText f escaped v = c.valueText f escaped w := by
  cases related with
  | none => rfl
  | some related => simp only [valueText, like.text related]

private theorem withTemplate_alike (c : Collaborators) (f : Frame) (name : String) (p : Position)
    {left right : Template → Run RenderError}
    (found : ∀ t, (left t).Alike (RenderError.Alike B) (right t)) :
    (c.withTemplate f name p left).Alike (RenderError.Alike B) (c.withTemplate f name p right) := by
  unfold withTemplate
  split
  · exact .refl .same _
  · refine (Run.Alike.refl .same _).andThen ?_
    cases c.templates name with
    | none => exact .refl .same _
    | some t => exact found t

private theorem renderNode_related (like : Data.Likeness R) (converts : Data.ConvertsUpTo R B)
    (c : Collaborators) (room : Nat) (f : Frame) {s t : Scopes} (scopes : s.Related R t) (n : Node) :
    (c.renderNode room f s n).Alike (RenderError.Alike B) (c.renderNode room f t n) := by
  -- Every node inside is rendered with less room, against scopes that are related again.
  induction room using Nat.strongRecOn generalizing f s t n with
  | ind room ih =>
    have nodes {room' : Nat} (smaller : room' < room) (f : Frame) {s t : Scopes}
        (scopes : s.Related R t) (nodes : List Node) :
        (Run.each (c.renderNode room' f s) nodes).Alike (RenderError.Alike B)
          (Run.each (c.renderNode room' f t) nodes) := by
      refine .each ?_ (List.forall₂_same.mpr fun n _ => (rfl : n = n))
      rintro n _ rfl
      exact ih room' smaller f scopes n
    cases n with
    | text text =>
      rw [renderNode, renderNode]
      exact .refl .same _
    | interpolation e escaped p =>
      have result := evaluate_related like converts c scopes p e
      rw [renderNode, renderNode]
      generalize c.evaluate s p e = left at result ⊢
      generalize c.evaluate t p e = right at result ⊢
      cases result with
      | error errors => exact .fail errors
      | ok related =>
        simp only
        rw [valueText_related like c f escaped related]
        exact .refl .same _
    | sect e inverted body p =>
      have result := evaluate_related like converts c scopes p e
      rw [renderNode, renderNode]
      generalize c.evaluate s p e = left at result ⊢
      generalize c.evaluate t p e = right at result ⊢
      cases result with
      | error errors => exact .fail errors
      | ok related =>
        cases room with
        | zero => exact .refl .same _
        | succ room =>
          refine .each ?_ (passes_related like inverted related)
          intro v w pushed
          exact nodes room.lt_succ_self f (scopes.pushAny pushed) body
    | inclusion name indent p =>
      rw [renderNode, renderNode]
      refine c.withTemplate_alike f name p fun included => ?_
      cases room with
      | zero => exact .refl .same _
      | succ room => exact (nodes room.lt_succ_self _ scopes included.nodes).region indent
    | block name body p =>
      cases room with
      | zero =>
        rw [renderNode, renderNode]
        exact .refl .same _
      | succ room =>
        rw [renderNode, renderNode]
        cases f.blocks.lookup name with
        | none => exact nodes room.lt_succ_self f scopes body
        | some replacement => exact nodes room.lt_succ_self _ scopes replacement.1
    | parent name indent body p =>
      rw [renderNode, renderNode]
      refine c.withTemplate_alike f name p fun included => ?_
      cases room with
      | zero => exact .refl .same _
      | succ room => exact (nodes room.lt_succ_self _ scopes included.nodes).region indent

end Collaborators

/-- Rendering tells values that are alike apart by the reasons of its filters' failures at most. -/
theorem Template.render_alike (like : Data.Likeness R) (converts : Data.ConvertsUpTo R B)
    (t : Template) {v w : Data} (related : R v w) (c : Collaborators) :
    UpToError (RenderError.Alike B) (t.render v c) (t.render w c) := by
  rw [render_eq_text, render_eq_text]
  refine Run.Alike.text (.each ?_ (List.forall₂_same.mpr fun n _ => (rfl : n = n)))
  rintro n _ rfl
  exact c.renderNode_related like converts maxNesting _ ⟨related, .nil⟩ n

theorem Template.render_related (agree : Data.Agreement R) (t : Template) {v w : Data}
    (related : R v w) (c : Collaborators) : t.render v c = t.render w c := by
  refine (t.render_alike agree.toLikeness agree.convertsUpTo related c).eq fun e e' errors => errors.eq ?_
  rintro a _ rfl
  rfl

end Mustache
