import Mustache.Proofs.Data.Reordering
import Mustache.Proofs.Render.Merging

namespace Mustache.Template

/-- Data in two orders of its tables, with overrides put together in any order each time: the
results are the same but for the reason why some value in the data has no counterpart. They are the
same if no value there can fail for two reasons with different messages. -/
theorem mayRender_reordered (t : Template) (c : Collaborators) {v w : Data}
    (reordered : v.Reordered w) {x y : Except RenderError String} (first : t.MayRender v c x)
    (second : t.MayRender w c y) :
    UpToError (RenderError.Alike fun a b => ∃ u, v.Contains u ∧ u.MayFail a ∧ u.MayFail b) x y ∧
      ((∀ u a b, v.Contains u → u.MayFail a → u.MayFail b → a.message = b.message) → x = y) := by
  obtain rfl := (t.mayRender_iff v c).mp first
  obtain rfl := (t.mayRender_iff w c).mp second
  have alike := t.render_alike (Data.Reordered.likeness v) (Data.Reordered.convertsUpTo v)
    ⟨.inl .self, reordered⟩ c
  refine ⟨alike, fun single => alike.eq fun e e' errors => errors.eq ?_⟩
  rintro a b ⟨u, contains, left, right⟩
  exact single u a b contains left right

/-- A table in a table, both turned around, where a filter gets the inner one and an override is
met inside two parent tags. -/
theorem mayRender_reordered_nested :
    let t : Template := ⟨[.parent "p" "" [.block "b" [.text "<"] ⟨1, 6, 5⟩] .start], .html⟩
    let p : Template := ⟨[.parent "q" "" [.block "b" [.text "?"] ⟨1, 6, 5⟩,
      .block "d" [.interpolation ⟨[.identifier "m"], [⟨"first", []⟩]⟩ false ⟨1, 20, 19⟩] ⟨1, 13, 12⟩]
      .start], .html⟩
    let q : Template := ⟨[.block "b" [] .start, .block "d" [] ⟨1, 12, 11⟩], .html⟩
    let c : Collaborators :=
      { templates := fun name => if name = "p" then some p else if name = "q" then some q else none
        filters := fun _ => some fun
          | .object ((_, v) :: _), _ => .ok v
          | _, _ => .error "empty" }
    let v : Data := .table [("m", .table [("x", .integer 1), ("y", .string "b")]), ("n", .absent)]
    let w : Data := .table [("n", .absent), ("m", .table [("y", .string "b"), ("x", .integer 1)])]
    v.Reordered w ∧ t.MayRender v c (.ok "<1") ∧ ∀ x, t.MayRender w c x → x = .ok "<1" := by
  intro t p q c v w
  have inner : Data.Reordered (.table [("x", .integer 1), ("y", .string "b")])
      (.table [("y", .string "b"), ("x", .integer 1)]) := by
    refine @Data.Reordered.table [("x", .integer 1, .integer 1), ("y", .string "b", .string "b")] _
      (List.pairwise_pair.mpr (by decide)) (.swap _ _ []) ?_
    simp only [List.forall_mem_cons]
    exact ⟨.same _, .same _, by simp⟩
  have reordered : v.Reordered w := by
    refine @Data.Reordered.table [("m", _, _), ("n", .absent, .absent)] _
      (List.pairwise_pair.mpr (by decide)) (.swap _ _ []) ?_
    simp only [List.forall_mem_cons]
    exact ⟨inner, .same _, by simp⟩
  have rendered : t.render v c = .ok "<1" := by decide +kernel
  have first : t.MayRender v c (.ok "<1") := (t.mayRender_iff v c).mpr rendered.symm
  refine ⟨reordered, first, fun x second => ?_⟩
  refine ((mayRender_reordered t c reordered first second).2 ?_).symm
  -- all of the data has a counterpart, so nothing in it can fail
  intro u a b contains left right
  obtain ⟨e, failed⟩ := v.toJson_error_iff.mpr (contains.unconvertible left.unconvertible)
  cases failed

/-- Of two entries without a counterpart the message names the one that is visited first. -/
theorem mayRender_visited :
    let t : Template := ⟨[.interpolation ⟨[.this], [⟨"id", []⟩]⟩ true .start], .html⟩
    let c : Collaborators := { filters := fun _ => some fun v _ => .ok v }
    let nan : Data := .yaml (.number (.float (0.0 / 0.0)))
    let infinite : Data := .yaml (.number (.float (1.0 / 0.0)))
    Data.Reordered (.table [("a", nan), ("b", infinite)]) (.table [("b", infinite), ("a", nan)]) ∧
      t.MayRender (.table [("a", nan), ("b", infinite)]) c
        (.error (.filterFailed "id" "number `.nan` has no JSON counterpart" .start)) ∧
      t.MayRender (.table [("b", infinite), ("a", nan)]) c
        (.error (.filterFailed "id" "number `.inf` has no JSON counterpart" .start)) := by
  intro t c nan infinite
  refine ⟨?_, (t.mayRender_iff _ c).mpr (by decide +kernel),
    (t.mayRender_iff _ c).mpr (by decide +kernel)⟩
  refine @Data.Reordered.table [("a", nan, nan), ("b", infinite, infinite)] _
    (List.pairwise_pair.mpr (by decide)) (.swap _ _ []) ?_
  simp only [List.forall_mem_cons]
  exact ⟨.same _, .same _, by simp⟩

end Mustache.Template
