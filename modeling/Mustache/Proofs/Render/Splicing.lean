import Mustache.Proofs.Render.Comparison
import Mustache.Proofs.Render.Writing

namespace Mustache

/-- Nodes of which one inclusion of the name without indentation was replaced by other nodes. It
may be inside sections and blocks, also in blocks that a parent overrides. -/
inductive Spliced (name : String) (content : List Node) : List Node → List Node → Prop where
  | here (before : List Node) (p : Position) (after : List Node) :
      Spliced name content (before ++ .inclusion name "" p :: after) (before ++ (content ++ after))
  | sect (before : List Node) (e : Expression) (inverted : Bool) {ns ms : List Node}
      (inside : Spliced name content ns ms) (p : Position) (after : List Node) :
      Spliced name content (before ++ .sect e inverted ns p :: after)
        (before ++ .sect e inverted ms p :: after)
  | block (before : List Node) (replaced : String) {ns ms : List Node}
      (inside : Spliced name content ns ms) (p : Position) (after : List Node) :
      Spliced name content (before ++ .block replaced ns p :: after)
        (before ++ .block replaced ms p :: after)
  | override (before : List Node) (included indent : String) (first : List Node)
      (replaced : String) {ns ms : List Node} (inside : Spliced name content ns ms)
      (p : Position) (last : List Node) (q : Position) (after : List Node) :
      Spliced name content
        (before ++ .parent included indent (first ++ .block replaced ns p :: last) q :: after)
        (before ++ .parent included indent (first ++ .block replaced ms p :: last) q :: after)

namespace Comparison

/-- Nothing differs but the inclusions of one template. Where the first run has no error, the
second one writes the same. -/
def splicing (name : String) (content : Template) : Comparison where
  texts := Eq
  indents := Eq
  expressions := Eq
  places := Eq
  parts contentType ns ms :=
    content.contentType = contentType ∧ (∃ p, ns = [.inclusion name "" p]) ∧ ms = content.nodes
  values := Eq
  runs r s := r.error = none → r.WritesAs s

variable {name : String} {content : Template}

private theorem splicing_reflexive : (splicing name content).Reflexive :=
  ⟨fun _ => rfl, fun _ => rfl, fun _ => rfl, fun _ => rfl⟩

theorem nodes_of_spliced {ns ms : List Node} (spliced : Spliced name content.nodes ns ms) :
    (splicing name content).Nodes content.contentType false ns ms := by
  have stays (inParent : Bool) (nodes : List Node) :
      (splicing name content).Nodes content.contentType inParent nodes nodes :=
    splicing_reflexive.nodes content.contentType inParent nodes
  induction spliced with
  | here before p after =>
    have exchanged : (splicing name content).parts content.contentType [.inclusion name "" p]
        content.nodes := ⟨rfl, ⟨p, rfl⟩, rfl⟩
    exact (stays false before).append (.part exchanged (stays false after))
  | sect before e inverted inside p after ih =>
    exact (stays false before).append (.sect rfl inverted rfl ih (stays false after))
  | block before replaced inside p after ih =>
    exact (stays false before).append (.block replaced rfl ih (stays false after))
  | override before included indent first replaced inside p last q after ih =>
    refine (stays false before).append (.parent included rfl rfl ?_ (stays false after))
    exact (stays true first).append (.block replaced rfl ih (stays true last))

/-- An inclusion without indentation writes what the nodes of the template write. -/
theorem splicing_parts {c : Collaborators} (stored : c.templates name = some content)
    {room room' : Nat} {f g : Frame} {s t : Scopes} {ns ms : List Node}
    (inner : ∀ fewer < room, (splicing name content).Renders c c fewer)
    (frames : (splicing name content).Frames f g) (scopes : s.Related Eq t)
    (levels : (splicing name content).Levels room f.depth room' g.depth)
    (exchanged : (splicing name content).parts f.contentType ns ms) :
    (splicing name content).runs (Run.each (c.renderNode room f s) ns)
      (Run.each (c.renderNode room' g t) ms) := by
  obtain ⟨contentType, ⟨p, rfl⟩, rfl⟩ := exchanged
  simp only [splicing, Run.each, Run.andThen_empty]
  rw [Collaborators.renderNode, Collaborators.withTemplate]
  intro fine
  by_cases limit : maxInclusions ≤ f.depth
  · rw [if_pos limit] at fine
    cases fine
  · rw [if_neg limit] at fine ⊢
    simp only [stored] at fine ⊢
    cases room with
    | zero => cases fine
    | succ room =>
      -- What is included has a level less and an inclusion more around it than what is spliced.
      have entered : (splicing name content).Frames (f.entering content) g :=
        ⟨frames.contentType.trans contentType.symm, frames.blocks⟩
      have spare : (splicing name content).Levels room (f.depth + 1) room' g.depth :=
        .spare (Nat.le_of_succ_le levels.room_le) (Nat.le_succ_of_le levels.depth_le)
          fun e r impossible => by cases impossible
      have same := inner room room.lt_succ_self entered scopes spare
        (splicing_reflexive.nodes content.contentType false content.nodes)
      exact (Run.writesAs_lookup name _).trans ((Run.writesAs_region_empty _).trans (same fine))

private theorem splicing_lawful {c : Collaborators} (stored : c.templates name = some content) :
    (splicing name content).Lawful c c where
  empty _ := .refl _
  andThen := by
    intro r s next more first second fine
    obtain ⟨before, after⟩ := Run.error_andThen_eq_none_iff.mp fine
    exact (first before).andThen (second after)
  region := by
    rintro indent _ r s rfl inside fine
    exact (inside fine).region indent
  text := by
    rintro s _ rfl fine
    exact .refl _
  value _ _ := .refl _
  lookup _ _ := .refl _
  fail := by
    intro e p q same impossible
    cases impossible
  agreement := .eq
  evaluate := by
    rintro s t e _ p _ scopes rfl rfl
    exact outcomes_of_agreement .eq rfl scopes p p e
  parts := splicing_parts stored
  templates name :=
    rel_option_refl (fun t => splicing_reflexive.template t) (c.templates name)
  escaper := rfl

end Comparison

/-- An inclusion without indentation may be replaced by the nodes of the template it names, if that
is one of the same content type: where the template with the inclusion is rendered to a text, the
template without it is rendered to the same text. -/
theorem Template.render_spliced {t content : Template} {c : Collaborators} {name : String}
    (stored : c.templates name = some content) (types : content.contentType = t.contentType)
    {nodes : List Node} (spliced : Spliced name content.nodes t.nodes nodes) {data : Data}
    {out : String} (rendered : t.render data c = .ok out) :
    render ⟨nodes, t.contentType⟩ data c = .ok out := by
  have alike : (Comparison.splicing name content).Templates t ⟨nodes, t.contentType⟩ :=
    ⟨rfl, types ▸ Comparison.nodes_of_spliced spliced⟩
  have compared := (Comparison.splicing_lawful stored).run alike (v := data) rfl
  have fine : (t.run data c).error = none := by
    rw [render_eq_text, Run.text] at rendered
    generalize (t.run data c).error = error at rendered ⊢
    cases error with
    | none => rfl
    | some e => cases rendered
  rw [render_eq_text] at rendered ⊢
  rw [← (compared fine).text_eq, rendered]

/-- An inclusion in a block that overrides another one, inside a section. -/
theorem Template.render_spliced_override :
    let place : Position := ⟨1, 1, 0⟩
    let inside (nodes : List Node) : Template :=
      ⟨[.sect ⟨[.identifier "xs"], []⟩ false
        [.parent "page" "" [.block "b" nodes place] place] place], .html⟩
    let row : Template :=
      ⟨[.text "<", .interpolation ⟨[.identifier "x"], []⟩ true place, .text ">"], .html⟩
    let page : Template := ⟨[.block "b" [] place, .text ";"], .html⟩
    let c : Collaborators :=
      { templates := fun name =>
          if name = "row" then some row else if name = "page" then some page else none }
    let data : Data :=
      .json (.object [("xs", .array [.object [("x", .string "a")], .object [("x", .string "&")]])])
    (inside [.inclusion "row" "" place]).render data c = .ok "<a>;<&amp;>;" ∧
      (inside row.nodes).render data c = .ok "<a>;<&amp;>;" := by
  intro place inside row page c data
  have rendered : (inside [.inclusion "row" "" place]).render data c = .ok "<a>;<&amp;>;" := by
    decide +kernel
  refine ⟨rendered, ?_⟩
  have here : Spliced "row" row.nodes [.inclusion "row" "" place] row.nodes := .here [] place []
  have override := Spliced.override [] "page" "" [] "b" here place [] place []
  have spliced : Spliced "row" row.nodes (inside [.inclusion "row" "" place]).nodes
      (inside row.nodes).nodes := .sect [] ⟨[.identifier "xs"], []⟩ false override place []
  have stored : c.templates "row" = some row := rfl
  have types : row.contentType = (inside [.inclusion "row" "" place]).contentType := rfl
  exact Template.render_spliced stored types spliced rendered

end Mustache
