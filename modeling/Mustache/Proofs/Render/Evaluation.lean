import Mustache.Render.Evaluate

namespace Mustache

def RenderError.relocate (p : Position) : RenderError → RenderError
  | unknownFilter name _ => unknownFilter name p
  | filterFailed name message _ => filterFailed name message p
  | partialNotFound name _ => partialNotFound name p
  | recursionLimitExceeded name depth _ => recursionLimitExceeded name depth p
  | nestingLimitExceeded depth _ => nestingLimitExceeded depth p

@[simp] theorem RenderError.relocate_relocate (e : RenderError) (p q : Position) :
    (e.relocate p).relocate q = e.relocate q := by
  cases e <;> rfl

/-- The path of an argument, if it is one. -/
def Argument.path? : Argument → Option (List Component)
  | literal _ => none
  | path components => some components

/-- The paths that an expression resolves: its own and those among the arguments of its filters. -/
def Expression.paths (e : Expression) : List (List Component) :=
  e.path :: e.filters.flatMap fun call => call.args.filterMap Argument.path?

namespace Collaborators

private theorem pipe_congr {c d : Collaborators} (scopes : Scopes) (p : Position)
    {calls : List FilterCall} (same : ∀ call ∈ calls, c.filters call.name = d.filters call.name)
    (value : Option Data) :
    c.pipe scopes p value calls = d.pipe scopes p value calls := by
  induction calls generalizing value with
  | nil => rfl
  | cons first rest ih =>
    have head : c.call scopes p value first = d.call scopes p value first := by
      simp only [call, same first List.mem_cons_self]
    have others := ih fun call member => same call (List.mem_cons_of_mem first member)
    simp only [pipe, head, others]

/-- Of the collaborators, an expression needs the filters that it names. -/
theorem evaluate_congr {c d : Collaborators} (scopes : Scopes) (p : Position) {e : Expression}
    (same : ∀ call ∈ e.filters, c.filters call.name = d.filters call.name) :
    c.evaluate scopes p e = d.evaluate scopes p e :=
  pipe_congr scopes p same (scopes.resolve e.path)

private theorem argumentInputs_congr {s t : Scopes} {args : List Argument}
    (same : ∀ path ∈ args.filterMap Argument.path?, s.resolve path = t.resolve path) :
    argumentInputs s args = argumentInputs t args := by
  induction args with
  | nil => rfl
  | cons argument rest ih =>
    cases argument with
    | literal v =>
      rw [argumentInputs, argumentInputs, ih same]
      rfl
    | path path =>
      obtain ⟨first, others⟩ := List.forall_mem_cons.mp same
      rw [argumentInputs, argumentInputs, argumentInput, argumentInput, first, ih others]

/-- Of the scopes, an expression needs what its paths resolve to. -/
theorem evaluate_congr_of_paths (c : Collaborators) {s t : Scopes} (p : Position) {e : Expression}
    (same : ∀ path ∈ e.paths, s.resolve path = t.resolve path) :
    c.evaluate s p e = c.evaluate t p e := by
  obtain ⟨own, arguments⟩ := List.forall_mem_cons.mp same
  rw [evaluate, evaluate, own]
  generalize t.resolve e.path = value
  generalize e.filters = calls at arguments
  induction calls generalizing value with
  | nil => rfl
  | cons first rest ih =>
    rw [List.flatMap_cons, List.forall_mem_append] at arguments
    obtain ⟨here, later⟩ := arguments
    have head : c.call s p value first = c.call t p value first := by
      simp only [call, argumentInputs_congr here]
    rw [pipe, pipe, head]
    cases c.call t p value first with
    | error cause => rfl
    | ok result => exact ih (some result) later

private theorem call_relocate (c : Collaborators) (scopes : Scopes) (p q : Position)
    (value : Option Data) (call : FilterCall) :
    c.call scopes q value call = (c.call scopes p value call).mapError (·.relocate q) := by
  unfold Collaborators.call
  cases c.filters call.name with
  | none => rfl
  | some filter =>
    cases argumentInputs scopes call.args with
    | error reason => rfl
    | ok args =>
      cases filterInput value with
      | error reason => rfl
      | ok input =>
        cases outcome : filter input args <;> simp only [outcome] <;> rfl

/-- The place of a tag only shows in the error of its expression. -/
theorem evaluate_relocate (c : Collaborators) (scopes : Scopes) (p q : Position)
    (e : Expression) :
    c.evaluate scopes q e = (c.evaluate scopes p e).mapError (·.relocate q) := by
  unfold evaluate
  generalize scopes.resolve e.path = value
  induction e.filters generalizing value with
  | nil => rfl
  | cons first rest ih =>
    simp only [pipe, call_relocate c scopes p q value first]
    cases c.call scopes p value first with
    | error cause => rfl
    | ok result => exact ih (some result)

private theorem error_of_call {c : Collaborators} {scopes : Scopes} {p : Position}
    {value : Option Data} {call : FilterCall} {cause : RenderError}
    (failed : c.call scopes p value call = .error cause) :
    cause = .unknownFilter call.name p ∨ ∃ message, cause = .filterFailed call.name message p := by
  unfold Collaborators.call at failed
  split at failed
  · exact .inl (Except.error.inj failed).symm
  · split at failed
    · exact .inr ⟨_, (Except.error.inj failed).symm⟩
    · split at failed
      · exact .inr ⟨_, (Except.error.inj failed).symm⟩
      · split at failed
        · exact .inr ⟨_, (Except.error.inj failed).symm⟩
        · cases failed

/-- An expression only fails at one of its filters. -/
theorem exists_call_of_evaluate {c : Collaborators} {scopes : Scopes} {p : Position}
    {e : Expression} {cause : RenderError} (failed : c.evaluate scopes p e = .error cause) :
    ∃ call ∈ e.filters, cause = .unknownFilter call.name p ∨
      ∃ message, cause = .filterFailed call.name message p := by
  unfold evaluate at failed
  generalize scopes.resolve e.path = value at failed
  generalize e.filters = calls at failed ⊢
  induction calls generalizing value with
  | nil => cases failed
  | cons first rest ih =>
    cases called : c.call scopes p value first with
    | error reason =>
      simp only [pipe, called, Except.error.injEq] at failed
      subst failed
      exact ⟨first, List.mem_cons_self, error_of_call called⟩
    | ok result =>
      simp only [pipe, called] at failed
      obtain ⟨call, member, cause⟩ := ih (some result) failed
      exact ⟨call, List.mem_cons_of_mem first member, cause⟩

end Collaborators

end Mustache
