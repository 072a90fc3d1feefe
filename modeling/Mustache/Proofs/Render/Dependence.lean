import Mustache.Proofs.Render.Chains

namespace Mustache

def Node.calls (n : Node) : List String :=
  match n.expression? with
  | none => []
  | some (e, _) => e.filters.map (·.name)

namespace Template

/-- The names in the partial and parent tags of a template, wherever in its tree they are. -/
def names (t : Template) : List String :=
  (Node.subtrees t.nodes).filterMap Node.included?

/-- The filters that the expressions of a template call. -/
def calls (t : Template) : List String :=
  (Node.subtrees t.nodes).flatMap Node.calls

end Template

namespace Collaborators

/-- The names that a template needs: its own, and those in what is stored under needed names. -/
inductive Needs (c : Collaborators) (root : Template) : String → Prop where
  | own {name : String} (names : name ∈ root.names) : Needs c root name
  | stored {name other : String} {t : Template} (earlier : Needs c root name)
      (found : c.templates name = some t) (names : other ∈ t.names) : Needs c root other

/-- The collaborators give the same for all that a template needs. -/
structure AgreesFor (c d : Collaborators) (root : Template) : Prop where
  templates : ∀ name, c.Needs root name → c.templates name = d.templates name
  filters : ∀ t, (t = root ∨ ∃ name, c.Needs root name ∧ c.templates name = some t) →
    ∀ filter ∈ t.calls, c.filters filter = d.filters filter
  escaper : c.escaper = d.escaper

variable {c d : Collaborators} {root : Template}

private theorem needs_of_reaches {t : Template} (reached : c.Reaches root t) {name : String}
    (names : name ∈ t.names) : c.Needs root name := by
  induction reached generalizing name with
  | root => exact .own names
  | included earlier inside includes found ih =>
    exact .stored (ih (List.mem_filterMap.mpr ⟨_, inside, includes⟩)) found names

theorem Needs.reaches {name : String} (needed : c.Needs root name) {t : Template}
    (found : c.templates name = some t) : c.Reaches root t := by
  induction needed generalizing t with
  | own names =>
    obtain ⟨n, inside, includes⟩ := List.mem_filterMap.mp names
    exact .included .root inside includes found
  | stored earlier stored names ih =>
    obtain ⟨n, inside, includes⟩ := List.mem_filterMap.mp names
    exact .included (ih stored) inside includes found

/-- What can be reached is the template itself and what is stored under needed names. -/
theorem reaches_iff_needs {t : Template} :
    c.Reaches root t ↔ t = root ∨ ∃ name, c.Needs root name ∧ c.templates name = some t := by
  constructor
  · intro reached
    cases reached with
    | root => exact .inl rfl
    | @included _ _ n name earlier inside includes found =>
      have needed := needs_of_reaches earlier (List.mem_filterMap.mpr ⟨n, inside, includes⟩)
      exact .inr ⟨name, needed, found⟩
  · rintro (rfl | ⟨name, needed, found⟩)
    · exact .root
    · exact needed.reaches found

private theorem AgreesFor.templates_eq (agree : c.AgreesFor d root) {n : Node}
    (within : c.Within root n) {name : String} (names : n.included? = some name) :
    c.templates name = d.templates name := by
  obtain ⟨t, reached, inside⟩ := within
  exact agree.templates name (needs_of_reaches reached (List.mem_filterMap.mpr ⟨n, inside, names⟩))

theorem AgreesFor.evaluate_eq (agree : c.AgreesFor d root) {n : Node} (within : c.Within root n)
    {e : Expression} {p : Position} (tag : n.expression? = some (e, p)) (scopes : Scopes) :
    c.evaluate scopes p e = d.evaluate scopes p e := by
  obtain ⟨t, reached, inside⟩ := within
  refine evaluate_congr scopes p fun call member => ?_
  have calls : call.name ∈ n.calls := by
    simp only [Node.calls, tag]
    exact List.mem_map_of_mem member
  exact agree.filters t (reaches_iff_needs.mp reached) call.name
    (List.mem_flatMap.mpr ⟨n, inside, calls⟩)

variable {v : Visit}

theorem AgreesFor.own_eq (agree : c.AgreesFor d root) (within : c.Within root v.node) :
    c.own v = d.own v := by
  have included {name : String} (names : v.node.included? = some name) :=
    agree.templates_eq within names
  have value {e : Expression} {p : Position} (tag : v.node.expression? = some (e, p)) :=
    agree.evaluate_eq within tag
  cases node : v.node with
  | text s => simp only [own, node]
  | interpolation e escaped p =>
    simp only [own, node, value (by rw [node]; rfl), valueText, agree.escaper]
  | sect e inverted nodes p => simp only [own, node, value (by rw [node]; rfl)]
  | inclusion name indent p => simp only [own, node, withTemplate, included (by rw [node]; rfl)]
  | block name nodes p => simp only [own, node]
  | parent name indent overrides p =>
    simp only [own, node, withTemplate, included (by rw [node]; rfl)]

theorem AgreesFor.body_eq (agree : c.AgreesFor d root) (within : c.Within root v.node) :
    c.body v = d.body v := by
  cases node : v.node with
  | text s => simp only [body, node]
  | interpolation e escaped p => simp only [body, node]
  | sect e inverted nodes p =>
    simp only [body, node, agree.evaluate_eq within (by rw [node]; rfl)]
  | inclusion name indent p =>
    simp only [body, node, agree.templates_eq within (by rw [node]; rfl)]
  | block name nodes p => simp only [body, node]
  | parent name indent overrides p =>
    simp only [body, node, agree.templates_eq within (by rw [node]; rfl)]

/-- The run of every visit that a rendering comes to is the same with both. -/
theorem AgreesFor.visit_eq (agree : c.AgreesFor d root) {data : Data}
    (reached : c.Reached root data v) : c.visit v = d.visit v := by
  -- the visits directly inside are reached as well, also those of an override's body
  induction v using (wellFounded_descents c).induction with
  | h v ih =>
    have own := agree.own_eq reached.traced.within
    have descents : c.descents v = d.descents v := by
      simp only [Collaborators.descents, own, agree.body_eq reached.traced.within]
    have inside : Run.each c.visit (c.descents v) = Run.each d.visit (c.descents v) :=
      Run.each_congr fun w member => ih w member (reached.inside member)
    rw [Collaborators.visit_eq reached.nesting_le, Collaborators.visit_eq reached.nesting_le, inside,
      own, descents]

end Collaborators

namespace Template

/-- Only what a template needs matters: with collaborators that agree on it, and whatever else
they have, rendering gives the same text or the same error. -/
theorem render_congr_of_needs {c d : Collaborators} {root : Template}
    (agree : c.AgreesFor d root) (data : Data) : root.render data c = root.render data d := by
  have run : root.run data c = root.run data d := by
    rw [Collaborators.run_eq_visits, Collaborators.run_eq_visits]
    exact Run.each_congr fun v member => agree.visit_eq (.outermost member)
  rw [render, render, run]

/-- The body of an override includes a template that the page with the block does not name. That
template calls a filter that both collaborators have, and they differ on other names. -/
theorem render_congr_of_needs_override :
    let source :=
      "\x7b\x7b<page\x7d\x7d\x7b\x7b$b\x7d\x7d\x7b\x7b>item\x7d\x7d\x7b\x7b/b\x7d\x7d\x7b\x7b/page\x7d\x7d"
    let root : Template := ⟨[.parent "page" ""
      [.block "b" [.inclusion "item" "" ⟨1, 16, 15⟩] ⟨1, 10, 9⟩] ⟨1, 1, 0⟩], .html⟩
    let page : Template := ⟨[.block "b" [] ⟨1, 1, 0⟩], .html⟩
    let item : Template := ⟨[.interpolation ⟨[.this], [⟨"twice", []⟩]⟩ true ⟨1, 1, 0⟩], .html⟩
    let twice : Filter := fun v _ => .ok (.string (v.text ++ v.text))
    let c : Collaborators :=
      { templates := fun name =>
          if name = "page" then some page else if name = "item" then some item else none
        filters := fun name => if name = "twice" then some twice else none }
    let d : Collaborators :=
      { templates := fun name =>
          if name = "page" then some page else if name = "item" then some item else some root
        filters := fun name => if name = "twice" then some twice else some fun v _ => .ok v }
    compile {} source = .ok root ∧
      compile {} "\x7b\x7b$b\x7d\x7d\x7b\x7b/b\x7d\x7d" = .ok page ∧
      compile {} "\x7b\x7b.|twice\x7d\x7d" = .ok item ∧
      c.AgreesFor d root ∧ c.templates "other" ≠ d.templates "other" ∧
      c.filters "other" ≠ d.filters "other" ∧
      root.render (.json (.string "x")) c = root.render (.json (.string "x")) d ∧
      root.render (.json (.string "x")) d = .ok "xx" := by
  intro source root page item twice c d
  have needed {name : String} (needed : c.Needs root name) : name = "page" ∨ name = "item" := by
    induction needed with
    | own names =>
      rw [show root.names = ["page", "item"] by decide] at names
      simpa using names
    | @stored name other t earlier found names ih =>
      have alone : t.names = [] := by
        rcases ih with rfl | rfl
        · obtain rfl : page = t := Option.some.inj found
          decide
        · obtain rfl : item = t := Option.some.inj found
          decide
      simp [alone] at names
  have agree : c.AgreesFor d root := by
    refine ⟨?_, ?_, rfl⟩
    · intro name need
      rcases needed need with rfl | rfl <;> rfl
    · have quiet {t : Template} {filter : String} (none : t.calls = []) (call : filter ∈ t.calls) :
          c.filters filter = d.filters filter := by
        simp [none] at call
      rintro t (rfl | ⟨name, need, found⟩) filter call
      · exact quiet (by decide) call
      · rcases needed need with rfl | rfl
        · obtain rfl : page = t := Option.some.inj found
          exact quiet (by decide) call
        · obtain rfl : item = t := Option.some.inj found
          rw [show item.calls = ["twice"] by decide, List.mem_singleton] at call
          rw [call]
          rfl
  exact ⟨by cbv, by cbv, by cbv, agree, nofun, nofun, render_congr_of_needs agree _,
    by decide +kernel⟩

end Template

end Mustache
