import Mustache.Proofs.Render.Comparison
import Mustache.Proofs.Template.Preorder

namespace Mustache

theorem Builder.addTokens_tag_eq_ok_iff {b b' : Builder} {t : Tag} {rest : List Token} :
    b.addTokens (.tag t :: rest) = .ok b' ↔
      ∃ next, b.Step t next ∧ next.addTokens rest = .ok b' := by
  rw [addTokens, addToken]
  cases taken : b.addTag t with
  | error e =>
    simp only [reduceCtorEq, false_iff, not_exists, not_and]
    intro next step
    rw [addTag_of_step step] at taken
    cases taken
  | ok next =>
    have step := step_of_addTag taken
    constructor
    · intro others
      exact ⟨next, step, others⟩
    · rintro ⟨other, again, others⟩
      obtain rfl := Except.ok.inj (taken.symm.trans (addTag_of_step again))
      exact others

/-- Whether a tag of this kind may hold an expression. -/
def TagKind.holdsExpression : TagKind → Bool
  | interpolation _ | sect _ | closing => true
  | _ => false

namespace Comparison

/-- Tags of one kind and content at places that are alike. -/
structure Tags (k : Comparison) (t u : Tag) : Prop where
  kind : u.kind = t.kind
  content : u.content = t.content
  places : k.places t.position u.position
  indents : k.indents t.indent u.indent

/-- Tags that a builder takes alike: what one reads as an expression, the other reads as an alike
one, and all other contents are the same. -/
structure Readings (k : Comparison) (t u : Tag) : Prop where
  kind : u.kind = t.kind
  expression : ∀ {e}, Expression.parse t.content = .ok e →
    ∃ e', Expression.parse u.content = .ok e' ∧ k.expressions e e'
  content : t.kind.holdsExpression = false → u.content = t.content
  places : k.places t.position u.position
  indents : k.indents t.indent u.indent

/-- Tokens that are alike, but for texts that are cut in two. -/
inductive Tokens (k : Comparison) (contentType : ContentType) : List Token → List Token → Prop where
  | nil : Tokens k contentType [] []
  | text {s t : String} {rest others : List Token} (texts : k.texts s t)
      (behind : Tokens k contentType rest others) :
      Tokens k contentType (.text s :: rest) (.text t :: others)
  | cut {s t : String} {rest others : List Token}
      (exchanged : k.parts contentType [.text (s ++ t)] [.text s, .text t])
      (behind : Tokens k contentType rest others) :
      Tokens k contentType (.text (s ++ t) :: rest) (.text s :: .text t :: others)
  | tag {t u : Tag} {rest others : List Token} (tags : k.Tags t u)
      (behind : Tokens k contentType rest others) :
      Tokens k contentType (.tag t :: rest) (.tag u :: others)

inductive Openings (k : Comparison) : Opening → Opening → Prop where
  | sect {e e' : Expression} (expressions : k.expressions e e') (inverted : Bool) :
      Openings k (.sect e inverted) (.sect e' inverted)
  | block (name : String) : Openings k (.block name) (.block name)
  | parent (name : String) {i j : String} (indents : k.indents i j) :
      Openings k (.parent name i) (.parent name j)

structure OpenScopes (k : Comparison) (contentType : ContentType) (s r : OpenScope) : Prop where
  opening : k.Openings s.opening r.opening
  places : k.places s.position r.position
  nodes : k.Nodes contentType (s.opening.kind == .parent) s.nodes r.nodes

structure Builders (k : Comparison) (contentType : ContentType) (b c : Builder) : Prop where
  types : c.contentType = b.contentType
  scopes : List.Forall₂ (k.OpenScopes contentType) b.scopes c.scopes
  nodes : k.Nodes contentType false b.nodes c.nodes

variable {k : Comparison} {contentType : ContentType}

theorem Tokens.append {tokens others more rest : List Token}
    (before : k.Tokens contentType tokens others) (behind : k.Tokens contentType more rest) :
    k.Tokens contentType (tokens ++ more) (others ++ rest) := by
  induction before with
  | nil => exact behind
  | text texts _ ih => exact .text texts ih
  | cut exchanged _ ih => exact .cut exchanged ih
  | tag tags _ ih => exact .tag tags ih

theorem Reflexive.tokens (refl : k.Reflexive) (contentType : ContentType) (tokens : List Token) :
    k.Tokens contentType tokens tokens := by
  induction tokens with
  | nil => exact .nil
  | cons t rest ih =>
    cases t with
    | text s => exact .text (refl.texts s) ih
    | tag t => exact .tag ⟨rfl, rfl, refl.places _, refl.indents _⟩ ih

private theorem Openings.kind_eq {o o' : Opening} (openings : k.Openings o o') :
    o'.kind = o.kind := by
  cases openings <;> rfl

private theorem OpenScopes.isClosedBy_eq {s r : OpenScope} (alike : k.OpenScopes contentType s r)
    (exact : ∀ e e', k.expressions e e' ↔ e' = e) (content : String) :
    r.isClosedBy content = s.isClosedBy content := by
  have openings := alike.opening
  unfold OpenScope.isClosedBy
  generalize s.opening = left at openings ⊢
  generalize r.opening = right at openings ⊢
  cases openings with
  | sect expressions inverted => rw [(exact _ _).mp expressions]
  | block name => rfl
  | parent name indents => rfl

/-- Scopes that are closed leave alike nodes, wherever they stand. -/
theorem OpenScopes.toNode {s r : OpenScope} (alike : k.OpenScopes contentType s r)
    (inParent : Bool) : k.Nodes contentType inParent [s.toNode] [r.toNode] := by
  obtain ⟨openings, places, nodes⟩ := alike
  obtain ⟨opening, p, ns⟩ := s
  obtain ⟨other, q, ms⟩ := r
  cases openings with
  | sect expressions inverted => exact .sect expressions inverted places nodes .nil
  | block name => exact .block name places nodes .nil
  | parent name indents => exact .parent name indents places nodes .nil

private theorem OpenScopes.isBlock_eq {s r : OpenScope} (alike : k.OpenScopes contentType s r) :
    r.toNode.isBlock = s.toNode.isBlock := by
  rw [OpenScope.isBlock_toNode, OpenScope.isBlock_toNode, alike.opening.kind_eq]

theorem OpenScopes.add {s r : OpenScope} (scopes : k.OpenScopes contentType s r) {n m : Node}
    (alike : ∀ inParent, k.Nodes contentType inParent [n] [m]) (blocks : m.isBlock = n.isBlock) :
    k.OpenScopes contentType (s.add n) (r.add m) := by
  rw [OpenScope.add_eq, OpenScope.add_eq, blocks, scopes.opening.kind_eq]
  split
  · exact ⟨scopes.opening, scopes.places, scopes.nodes.append (alike _)⟩
  · exact scopes

theorem OpenScopes.add_cut {s r : OpenScope} (scopes : k.OpenScopes contentType s r)
    {first second : String}
    (exchanged : k.parts contentType [.text (first ++ second)] [.text first, .text second]) :
    k.OpenScopes contentType (s.add (.text (first ++ second)))
      ((r.add (.text first)).add (.text second)) := by
  obtain ⟨openings, places, nodes⟩ := scopes
  have kind := openings.kind_eq
  cases inParent : s.opening.kind == TagKind.parent with
  | true =>
    simp only [OpenScope.add_eq, Node.isBlock, kind, bne, inParent, Bool.not_true, Bool.or_false,
      Bool.false_eq_true, ↓reduceIte]
    exact ⟨openings, places, nodes⟩
  | false =>
    simp only [OpenScope.add_eq, Node.isBlock, kind, bne, inParent, Bool.not_false, Bool.or_true,
      ↓reduceIte]
    refine ⟨openings, places, ?_⟩
    rw [inParent] at nodes
    have both := nodes.append (.part exchanged .nil)
    simp only [inParent]
    simpa using both

namespace Builders

variable {b c : Builder}

theorem add (builders : k.Builders contentType b c) {n m : Node}
    (alike : ∀ inParent, k.Nodes contentType inParent [n] [m]) (blocks : m.isBlock = n.isBlock) :
    k.Builders contentType (b.add n) (c.add m) := by
  obtain ⟨types, scopes, nodes⟩ := builders
  unfold Builder.add
  generalize b.scopes = left at scopes ⊢
  generalize c.scopes = right at scopes ⊢
  cases scopes with
  | nil => exact ⟨types, .nil, nodes.append (alike false)⟩
  | cons first outer => exact ⟨types, .cons (first.add alike blocks) outer, nodes⟩

theorem add_cut (builders : k.Builders contentType b c) {s t : String}
    (exchanged : k.parts contentType [.text (s ++ t)] [.text s, .text t]) :
    k.Builders contentType (b.add (.text (s ++ t))) ((c.add (.text s)).add (.text t)) := by
  obtain ⟨types, scopes, nodes⟩ := builders
  unfold Builder.add
  generalize b.scopes = left at scopes ⊢
  generalize c.scopes = right at scopes ⊢
  cases scopes with
  | nil =>
    have both := nodes.append (.part exchanged .nil)
    exact ⟨types, .nil, by simpa using both⟩
  | cons first outer => exact ⟨types, .cons (first.add_cut exchanged) outer, nodes⟩

end Builders

theorem Tags.readings {t u : Tag} (tags : k.Tags t u) (same : ∀ e, k.expressions e e) :
    k.Readings t u where
  kind := tags.kind
  expression {e} parsed := ⟨e, tags.content ▸ parsed, same e⟩
  content _ := tags.content
  places := tags.places
  indents := tags.indents

theorem Readings.holds {t u : Tag} (readings : k.Readings t u) (holds : t.Holds) : u.Holds := by
  have content := readings.content
  unfold Tag.Holds at holds ⊢
  rw [readings.kind]
  cases kind : t.kind with
  | interpolation escaped | sect inverted =>
    simp only [kind] at holds ⊢
    obtain ⟨e, parsed⟩ := holds
    obtain ⟨e', again, -⟩ := readings.expression parsed
    exact ⟨e', again⟩
  | block | parent | inclusion =>
    simp only [kind] at holds ⊢
    rw [content (by rw [kind]; rfl)]
    exact holds
  | closing | comment | delimiters next | pragma => trivial

theorem Readings.opening {t u : Tag} (readings : k.Readings t u) {o : Opening}
    (opens : t.opening? = some o) : ∃ o', u.opening? = some o' ∧ k.Openings o o' := by
  have content := readings.content
  unfold Tag.opening? at opens ⊢
  rw [readings.kind]
  cases kind : t.kind with
  | sect inverted =>
    simp only [kind] at opens ⊢
    obtain ⟨e, parsed, rfl⟩ := Option.map_eq_some_iff.mp opens
    obtain ⟨e', again, expressions⟩ := readings.expression (toOption_eq_some_iff.mp parsed)
    exact ⟨_, by rw [again]; rfl, .sect expressions inverted⟩
  | block =>
    simp only [kind] at opens ⊢
    obtain rfl := Option.some.inj opens
    rw [content (by rw [kind]; rfl)]
    exact ⟨_, rfl, .block _⟩
  | parent =>
    simp only [kind] at opens ⊢
    obtain rfl := Option.some.inj opens
    rw [content (by rw [kind]; rfl)]
    exact ⟨_, rfl, .parent _ readings.indents⟩
  | _ => simp [kind] at opens

namespace Builders

variable {b b' c : Builder}

/-- What one builder does with a tag, another one does with a tag that it reads alike, if a tag
that closes a scope of the one closes the scope of the other. -/
theorem step (builders : k.Builders contentType b c) {t u : Tag} (readings : k.Readings t u)
    (closes : ∀ {s r : OpenScope}, t.kind = .closing → k.OpenScopes contentType s r →
      s ∈ b.scopes.head? → r ∈ c.scopes.head? → s.isClosedBy t.content = true →
      r.isClosedBy u.content = true)
    (step : Builder.Step b t b') :
    ∃ c', Builder.Step c u c' ∧ k.Builders contentType b' c' := by
  have content := readings.content
  cases step with
  | interpolation kind parsed =>
    obtain ⟨e', again, expressions⟩ := readings.expression parsed
    refine ⟨_, .interpolation (readings.kind.trans kind) again, ?_⟩
    exact builders.add (fun _ => .interpolation expressions _ readings.places .nil) rfl
  | enter opens holds room =>
    obtain ⟨o', openings, alike⟩ := readings.opening opens
    refine ⟨_, .enter openings (readings.holds holds) (builders.scopes.length_eq ▸ room), ?_⟩
    exact ⟨builders.types, .cons ⟨alike, readings.places, .nil⟩ builders.scopes, builders.nodes⟩
  | @leave s outer kind scopes closed =>
    have opened := builders.scopes
    rw [scopes] at opened
    generalize others : c.scopes = right at opened
    cases opened with
    | @cons _ r _ inner first rest =>
      have closed : r.isClosedBy u.content = true :=
        closes kind first (by simp [scopes]) (by simp [others]) closed
      have left : k.Builders contentType { b with scopes := outer } { c with scopes := inner } :=
        ⟨builders.types, rest, builders.nodes⟩
      exact ⟨_, .leave (readings.kind.trans kind) others closed,
        left.add first.toNode first.isBlock_eq⟩
  | inclusion kind holds =>
    refine ⟨_, .inclusion (readings.kind.trans kind) (readings.holds holds), ?_⟩
    rw [content (by rw [kind]; rfl)]
    exact builders.add (fun _ => .inclusion _ readings.indents readings.places .nil) rfl
  | pragma kind =>
    refine ⟨_, .pragma (readings.kind.trans kind), ?_⟩
    rw [content (by rw [kind]; rfl)]
    exact ⟨by simp only [builders.types], builders.scopes, builders.nodes⟩
  | skip kind => exact ⟨c, .skip (readings.kind.symm ▸ kind), builders⟩

theorem addTokens (builders : k.Builders contentType b c)
    (exact : ∀ e e', k.expressions e e' ↔ e' = e) {tokens others : List Token}
    (alike : k.Tokens contentType tokens others) (taken : b.addTokens tokens = .ok b') :
    ∃ c', c.addTokens others = .ok c' ∧ k.Builders contentType b' c' := by
  induction alike generalizing b c with
  | nil =>
    obtain rfl := Except.ok.inj taken
    exact ⟨c, rfl, builders⟩
  | text texts _ ih => exact ih (builders.add (fun _ => .text texts .nil) rfl) taken
  | cut exchanged _ ih => exact ih (builders.add_cut exchanged) taken
  | @tag t u rest others tags _ ih =>
    obtain ⟨next, first, taken⟩ := Builder.addTokens_tag_eq_ok_iff.mp taken
    have readings := tags.readings fun e => (exact e e).mpr rfl
    obtain ⟨after, step, left⟩ := builders.step readings
      (fun _ scopes _ _ closed => by rwa [scopes.isClosedBy_eq exact, tags.content]) first
    obtain ⟨c', again, alike⟩ := ih left taken
    exact ⟨c', Builder.addTokens_tag_eq_ok_iff.mpr ⟨after, step, again⟩, alike⟩

end Builders

/-- Where builders go on alike, the templates of the tokens are alike. -/
theorem exists_ofScan {tokens others : List Token} {t : Template}
    (run : ∀ {b}, k.Builders t.contentType (.start contentType) (.start contentType) →
      (Builder.start contentType).addTokens tokens = .ok b →
      ∃ c, (Builder.start contentType).addTokens others = .ok c ∧ k.Builders t.contentType b c)
    (spelled : Template.ofScan contentType ⟨tokens, none⟩ = .ok t) :
    ∃ u, Template.ofScan contentType ⟨others, none⟩ = .ok u ∧ k.Templates t u := by
  obtain ⟨b, taken, -, closed, rfl⟩ := Template.ofScan_eq_ok_iff.mp spelled
  obtain ⟨c, takes, builders⟩ := run ⟨rfl, .nil, .nil⟩ taken
  have closes : c.scopes = [] := by
    have scopes := builders.scopes
    rw [closed] at scopes
    exact List.forall₂_nil_left_iff.mp scopes
  exact ⟨_, Template.ofScan_eq_ok_iff.mpr ⟨c, takes, rfl, closes, rfl⟩,
    builders.types, builders.nodes⟩

theorem Tokens.exists_ofScan {tokens others : List Token} {t : Template}
    (alike : k.Tokens t.contentType tokens others)
    (exact : ∀ e e', k.expressions e e' ↔ e' = e)
    (spelled : Template.ofScan contentType ⟨tokens, none⟩ = .ok t) :
    ∃ u, Template.ofScan contentType ⟨others, none⟩ = .ok u ∧ k.Templates t u :=
  Comparison.exists_ofScan (fun start taken => start.addTokens exact alike taken) spelled

end Comparison

end Mustache
