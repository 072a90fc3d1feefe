import Mustache.Proofs.Places
import Mustache.Template.Compile

/-!
Which tokens spell a template. Scopes are followed through the tags alone: an opening
tag is pushed and a closing tag pops, whatever they hold. `WellNested` says what every
tag must hold where it stands. `Builder.Step` lists what a builder does with a tag it
takes, and a run of a builder ends without a fault exactly when all its tokens fit.
-/

namespace Mustache

namespace Tag

/-- The content that a tag of its kind needs: an expression, or a name, in which there
is no white space. -/
def Holds (t : Tag) : Prop :=
  match t.kind with
  | .interpolation _ | .sect _ => ∃ e, Expression.parse t.content = .ok e
  | .block | .parent | .inclusion => ∀ c ∈ t.content.toList, Text.isBlank c = false
  | _ => True

/-- A closing tag for an opening tag: a section needs an equal expression, a block or
parent the same name. -/
def IsClosedBy (opener closer : Tag) : Prop :=
  match opener.kind with
  | .sect _ => ∃ e f, Expression.parse opener.content = .ok e ∧
      Expression.parse closer.content = .ok f ∧ (f == e) = true
  | _ => opener.content = closer.content

/-- What a tag needs where the given tags are open, the innermost first: its content,
room for the scope it opens, and a scope that it closes. -/
structure Fits (t : Tag) (opened : List Tag) : Prop where
  holds : t.Holds
  room : t.kind.opensScope = true → opened.length < 128
  closes : t.kind = .closing → ∃ opener outer, opened = opener :: outer ∧ opener.IsClosedBy t

/-- The scope that a tag opens, unless it opens none or its expression is none. -/
def opening? (t : Tag) : Option Opening :=
  match t.kind with
  | .sect inverted => (Expression.parse t.content).toOption.map (.sect · inverted)
  | .block => some (.block t.content)
  | .parent => some (.parent t.content t.indent)
  | _ => none

end Tag

namespace Token

def openAfter (opened : List Tag) : Token → List Tag
  | text _ => opened
  | tag t =>
    if t.kind.opensScope then t :: opened
    else if t.kind = .closing then opened.tail
    else opened

def Fits (opened : List Tag) : Token → Prop
  | text _ => True
  | tag t => t.Fits opened

/-- The tags that are open after a sequence of tokens, the innermost first. -/
def openTags (tokens : List Token) : List Tag :=
  tokens.foldl openAfter []

/-- Every token fits where it stands, and no scope is left open. -/
def WellNested (tokens : List Token) : Prop :=
  Everywhere (fun before t _ => t.Fits (openTags before)) tokens ∧ openTags tokens = []

end Token

def Opening.kind : Opening → TagKind
  | sect _ inverted => .sect inverted
  | block _ => .block
  | parent _ _ => .parent

theorem toOption_eq_some_iff {ε α : Type} {x : Except ε α} {a : α} :
    x.toOption = some a ↔ x = .ok a := by
  cases x <;> simp [Except.toOption]

theorem Tag.kind_of_opening {t : Tag} {o : Opening} (opens : t.opening? = some o) :
    t.kind = o.kind := by
  unfold opening? at opens
  split at opens
  · obtain ⟨e, -, rfl⟩ := Option.map_eq_some_iff.mp opens
    assumption
  · obtain rfl := Option.some.inj opens
    assumption
  · obtain rfl := Option.some.inj opens
    assumption
  · simp at opens

namespace Builder

/-- What a builder becomes with a tag it takes. -/
inductive Step (b : Builder) (t : Tag) : Builder → Prop where
  | interpolation {escaped : Bool} {e : Expression} (kind : t.kind = .interpolation escaped)
      (parsed : Expression.parse t.content = .ok e) :
      Step b t (b.add (.interpolation e escaped t.position))
  | enter {o : Opening} (opens : t.opening? = some o) (holds : t.Holds)
      (room : b.scopes.length < 128) : Step b t (b.enter o t.position)
  | leave {s : OpenScope} {outer : List OpenScope} (kind : t.kind = .closing)
      (scopes : b.scopes = s :: outer) (closed : s.isClosedBy t.content = true) :
      Step b t (add { b with scopes := outer } s.toNode)
  | inclusion (kind : t.kind = .inclusion) (holds : t.Holds) :
      Step b t (b.add (.inclusion t.content t.indent t.position))
  | pragma (kind : t.kind = .pragma) :
      Step b t { b with contentType := (Pragma.read t.content).apply b.contentType }
  | skip (kind : t.kind = .comment ∨ ∃ next, t.kind = .delimiters next) : Step b t b

theorem expression_eq_ok_iff {t : Tag} {e : Expression} :
    expression t = .ok e ↔ Expression.parse t.content = .ok e := by
  unfold expression
  cases Expression.parse t.content <;> simp

theorem name_eq_ok_iff {t : Tag} {name : String} :
    Builder.name t = .ok name ↔
      (∀ c ∈ t.content.toList, Text.isBlank c = false) ∧ name = t.content := by
  unfold Builder.name
  split
  · rename_i blank
    simp only [List.any_eq_true] at blank
    obtain ⟨c, member, isBlank⟩ := blank
    simp only [reduceCtorEq, false_iff, not_and]
    intro none
    simp [none c member] at isBlank
  · rename_i none
    simp only [List.any_eq_true, not_exists, not_and, Bool.not_eq_true] at none
    simp only [Except.ok.injEq, eq_comm (a := t.content)]
    exact ⟨fun same => ⟨none, same⟩, fun both => both.2⟩

theorem close_eq_ok_iff {b b' : Builder} {t : Tag} :
    b.close t = .ok b' ↔ ∃ s outer, b.scopes = s :: outer ∧ s.isClosedBy t.content = true ∧
      b' = add { b with scopes := outer } s.toNode := by
  unfold close
  split
  · rename_i none
    simp [none]
  · rename_i s outer scopes
    split
    · rename_i closed
      simp only [Except.ok.injEq, scopes, List.cons.injEq]
      constructor
      · intro same
        exact ⟨s, outer, ⟨rfl, rfl⟩, closed, same.symm⟩
      · rintro ⟨_, _, ⟨rfl, rfl⟩, -, rfl⟩
        rfl
    · rename_i other
      simp only [reduceCtorEq, scopes, List.cons.injEq, false_iff, not_exists, not_and]
      rintro _ _ ⟨rfl, rfl⟩ closed
      exact absurd closed other

theorem bind_pure_eq_ok_iff {ε α β : Type} {x : Except ε α} {f : α → β} {y : β} :
    (do return f (← x) : Except ε β) = .ok y ↔ ∃ a, x = .ok a ∧ y = f a := by
  cases x with
  | error e => simp [bind, Except.bind]
  | ok a => simp [bind, Except.bind, pure, Except.pure, eq_comm]

theorem bind_pure_eq_error_iff {ε α β : Type} {x : Except ε α} {f : α → β} {e : ε} :
    (do return f (← x) : Except ε β) = .error e ↔ x = .error e := by
  cases x <;> simp [bind, Except.bind, pure, Except.pure]

theorem addTag_of_step {b b' : Builder} {t : Tag} (step : Step b t b') :
    b.addTag t = .ok b' := by
  unfold addTag
  cases step with
  | interpolation kind parsed =>
    simp only [kind, TagKind.opensScope, Bool.false_and, Bool.false_eq_true, ↓reduceIte]
    exact bind_pure_eq_ok_iff.mpr ⟨_, expression_eq_ok_iff.mpr parsed, rfl⟩
  | @enter o opens holds room =>
    have notFull : ¬ maxNesting ≤ b.scopes.length := Nat.not_le.mpr room
    simp only [notFull, decide_false, Bool.and_false, Bool.false_eq_true, ↓reduceIte]
    unfold Tag.opening? at opens
    unfold Tag.Holds at holds
    cases kind : t.kind with
    | sect inverted =>
      simp only [kind] at opens
      obtain ⟨e, parsed, rfl⟩ := Option.map_eq_some_iff.mp opens
      exact bind_pure_eq_ok_iff.mpr
        ⟨e, expression_eq_ok_iff.mpr (toOption_eq_some_iff.mp parsed), rfl⟩
    | block | parent =>
      simp only [kind, Option.some.injEq] at opens holds
      subst opens
      exact bind_pure_eq_ok_iff.mpr ⟨_, name_eq_ok_iff.mpr ⟨holds, rfl⟩, rfl⟩
    | _ => simp [kind] at opens
  | leave kind scopes closed =>
    simp only [kind, TagKind.opensScope, Bool.false_and, Bool.false_eq_true, ↓reduceIte]
    exact close_eq_ok_iff.mpr ⟨_, _, scopes, closed, rfl⟩
  | inclusion kind holds =>
    simp only [kind, TagKind.opensScope, Bool.false_and, Bool.false_eq_true, ↓reduceIte]
    simp only [Tag.Holds, kind] at holds
    exact bind_pure_eq_ok_iff.mpr ⟨_, name_eq_ok_iff.mpr ⟨holds, rfl⟩, rfl⟩
  | pragma kind => simp [kind, TagKind.opensScope]
  | skip kind => rcases kind with kind | ⟨next, kind⟩ <;> simp [kind, TagKind.opensScope]

theorem step_of_addTag {b b' : Builder} {t : Tag} (taken : b.addTag t = .ok b') :
    Step b t b' := by
  unfold addTag at taken
  split at taken
  · simp at taken
  · rename_i full
    have room (opens : t.kind.opensScope = true) : b.scopes.length < maxNesting := by
      apply Nat.lt_of_not_le
      intro deep
      exact full (by simpa only [opens, Bool.true_and, decide_eq_true_eq] using deep)
    cases kind : t.kind with
    | interpolation escaped =>
      simp only [kind] at taken
      obtain ⟨e, parsed, rfl⟩ := bind_pure_eq_ok_iff.mp taken
      exact .interpolation kind (expression_eq_ok_iff.mp parsed)
    | sect inverted =>
      simp only [kind] at taken
      obtain ⟨e, parsed, rfl⟩ := bind_pure_eq_ok_iff.mp taken
      have parsed := expression_eq_ok_iff.mp parsed
      exact .enter (by simp [Tag.opening?, kind, toOption_eq_some_iff.mpr parsed])
        (by simp [Tag.Holds, kind, parsed]) (room (by simp [kind, TagKind.opensScope]))
    | block | parent =>
      simp only [kind] at taken
      obtain ⟨name, named, rfl⟩ := bind_pure_eq_ok_iff.mp taken
      obtain ⟨holds, rfl⟩ := name_eq_ok_iff.mp named
      exact .enter (by simp [Tag.opening?, kind]) (by simpa only [Tag.Holds, kind] using holds)
        (room (by simp [kind, TagKind.opensScope]))
    | closing =>
      simp only [kind] at taken
      obtain ⟨s, outer, scopes, closed, rfl⟩ := close_eq_ok_iff.mp taken
      exact .leave kind scopes closed
    | inclusion =>
      simp only [kind] at taken
      obtain ⟨name, named, rfl⟩ := bind_pure_eq_ok_iff.mp taken
      obtain ⟨holds, rfl⟩ := name_eq_ok_iff.mp named
      exact .inclusion kind (by simpa only [Tag.Holds, kind] using holds)
    | pragma =>
      simp only [kind, Except.ok.injEq] at taken
      subst taken
      exact .pragma kind
    | comment =>
      simp only [kind, Except.ok.injEq] at taken
      subst taken
      exact .skip (.inl kind)
    | delimiters next =>
      simp only [kind, Except.ok.injEq] at taken
      subst taken
      exact .skip (.inr ⟨next, kind⟩)

/-- A builder takes a tag exactly when there is a step for it. -/
theorem addTag_eq_ok_iff {b b' : Builder} {t : Tag} : b.addTag t = .ok b' ↔ Step b t b' :=
  ⟨step_of_addTag, addTag_of_step⟩

/-- A builder whose open scopes are those that the given tags opened. -/
def Follows (b : Builder) (opened : List Tag) : Prop :=
  b.scopes.map (some ·.opening) = opened.map Tag.opening?

theorem Follows.length_eq {b : Builder} {opened : List Tag} (follows : b.Follows opened) :
    b.scopes.length = opened.length := by
  simpa using congrArg List.length follows

theorem Follows.cons_iff {b : Builder} {opener : Tag} {outer : List Tag} :
    b.Follows (opener :: outer) ↔ ∃ s scopes, b.scopes = s :: scopes ∧
      opener.opening? = some s.opening ∧ Follows { b with scopes } outer := by
  unfold Follows
  cases scopes : b.scopes with
  | nil => simp
  | cons s inner =>
    simp only [List.map_cons, List.cons.injEq, eq_comm (a := some s.opening)]
    constructor
    · intro ⟨opens, follows⟩
      exact ⟨s, inner, ⟨rfl, rfl⟩, opens, follows⟩
    · rintro ⟨_, _, ⟨rfl, rfl⟩, opens, follows⟩
      exact ⟨opens, follows⟩

/-- Of the open scopes, adding a node changes nothing but their nodes. -/
theorem map_scopes_add {α : Type} {f : OpenScope → α} (kept : ∀ s nodes, f { s with nodes } = f s)
    (b : Builder) (n : Node) : (b.add n).scopes.map f = b.scopes.map f := by
  unfold add
  split
  · rename_i none
    simp [none]
  · rename_i s outer scopes
    have same : f (s.add n) = f s := by
      unfold OpenScope.add
      split
      · split
        · exact kept s _
        · rfl
      · exact kept s _
    simp [scopes, same]

@[simp] theorem map_opening_add (b : Builder) (n : Node) :
    (b.add n).scopes.map (some ·.opening) = b.scopes.map (some ·.opening) :=
  map_scopes_add (fun _ _ => rfl) b n

section

/-! What the open scopes have of the tags that opened them, they keep. -/

variable {α : Type} {f : OpenScope → α} {g : Tag → α} {b b' : Builder} {opened : List Tag}
  (kept : ∀ s nodes, f { s with nodes } = f s)
  (fresh : ∀ t o, t.opening? = some o → f ⟨o, t.position, []⟩ = g t)

include kept fresh

private theorem Step.map_scopes {t : Tag} (step : Step b t b')
    (same : b.scopes.map f = opened.map g) :
    b'.scopes.map f = ((Token.tag t).openAfter opened).map g := by
  cases step with
  | interpolation kind parsed =>
    rw [map_scopes_add kept, same]
    simp [Token.openAfter, kind, TagKind.opensScope]
  | @enter o opens holds room =>
    have kind : t.kind.opensScope = true := by
      rw [Tag.kind_of_opening opens]
      cases o <;> rfl
    simp [Token.openAfter, kind, Builder.enter, fresh t o opens, same]
  | leave kind scopes closed =>
    rw [scopes] at same
    rw [map_scopes_add kept]
    cases opened with
    | nil => cases same
    | cons opener outer =>
      simpa [Token.openAfter, kind, TagKind.opensScope] using (List.cons.inj same).2
  | inclusion kind holds =>
    rw [map_scopes_add kept, same]
    simp [Token.openAfter, kind, TagKind.opensScope]
  | pragma kind => simpa [Token.openAfter, kind, TagKind.opensScope] using same
  | skip kind =>
    rcases kind with kind | ⟨next, kind⟩ <;>
      simpa [Token.openAfter, kind, TagKind.opensScope] using same

private theorem map_scopes_addToken {t : Token} (taken : b.addToken t = .ok b')
    (same : b.scopes.map f = opened.map g) : b'.scopes.map f = (t.openAfter opened).map g := by
  cases t with
  | text s =>
    obtain rfl := Except.ok.inj taken
    rw [map_scopes_add kept, same]
    rfl
  | tag t => exact (step_of_addTag taken).map_scopes kept fresh same

theorem map_scopes_addTokens {tokens : List Token} (taken : b.addTokens tokens = .ok b')
    (same : b.scopes.map f = opened.map g) :
    b'.scopes.map f = (tokens.foldl Token.openAfter opened).map g := by
  induction tokens generalizing b opened with
  | nil =>
    obtain rfl := Except.ok.inj taken
    exact same
  | cons t rest ih =>
    unfold Builder.addTokens at taken
    split at taken
    · cases taken
    · rename_i next first
      exact ih taken (map_scopes_addToken kept fresh first same)

end

theorem Step.follows {b b' : Builder} {t : Tag} {opened : List Tag} (step : Step b t b')
    (follows : b.Follows opened) : b'.Follows ((Token.tag t).openAfter opened) :=
  step.map_scopes (fun _ _ => rfl) (fun _ _ opens => opens.symm) follows

end Builder

theorem OpenScope.isClosedBy_iff {s : OpenScope} {opener closer : Tag}
    (opens : opener.opening? = some s.opening) :
    s.isClosedBy closer.content = true ↔ opener.IsClosedBy closer := by
  have kind := Tag.kind_of_opening opens
  unfold isClosedBy Tag.IsClosedBy
  unfold Tag.opening? at opens
  cases opening : s.opening with
  | sect e inverted =>
    rw [opening] at kind opens
    simp only [kind, Opening.kind, Option.map_eq_some_iff, toOption_eq_some_iff] at opens ⊢
    obtain ⟨f, parsed, same⟩ := opens
    obtain ⟨rfl, -⟩ := Opening.sect.inj same
    cases Expression.parse closer.content <;> simp [parsed]
  | block name =>
    rw [opening] at kind opens
    simp only [kind, Opening.kind, Option.some.injEq, Opening.block.injEq] at opens ⊢
    simp [opens]
  | parent name indent =>
    rw [opening] at kind opens
    simp only [kind, Opening.kind, Option.some.injEq, Opening.parent.injEq] at opens ⊢
    simp [opens.1]

namespace Builder

theorem Step.fits {b b' : Builder} {t : Tag} {opened : List Tag} (step : Step b t b')
    (follows : b.Follows opened) : t.Fits opened := by
  cases step with
  | interpolation kind parsed =>
    exact ⟨by simp [Tag.Holds, kind, parsed], by simp [kind, TagKind.opensScope], by simp [kind]⟩
  | @enter o opens holds room =>
    have kind := Tag.kind_of_opening opens
    refine ⟨holds, fun _ => follows.length_eq ▸ room, ?_⟩
    cases o <;> simp [kind, Opening.kind]
  | @leave s outer kind scopes closed =>
    refine ⟨by simp [Tag.Holds, kind], by simp [kind, TagKind.opensScope], fun _ => ?_⟩
    cases opened with
    | nil => simp [Follows, scopes] at follows
    | cons opener others =>
      obtain ⟨_, _, same, opens, -⟩ := Follows.cons_iff.mp follows
      obtain ⟨rfl, -⟩ := List.cons.inj (scopes.symm.trans same)
      exact ⟨opener, others, rfl, (OpenScope.isClosedBy_iff opens).mp closed⟩
  | inclusion kind holds =>
    exact ⟨holds, by simp [kind, TagKind.opensScope], by simp [kind]⟩
  | pragma kind =>
    exact ⟨by simp [Tag.Holds, kind], by simp [kind, TagKind.opensScope], by simp [kind]⟩
  | skip kind =>
    rcases kind with kind | ⟨next, kind⟩ <;>
      exact ⟨by simp [Tag.Holds, kind], by simp [kind, TagKind.opensScope], by simp [kind]⟩

private theorem exists_step {b : Builder} {t : Tag} {opened : List Tag} (follows : b.Follows opened)
    (fits : t.Fits opened) : ∃ b', Step b t b' := by
  have room (opens : t.kind.opensScope = true) : b.scopes.length < 128 :=
    follows.length_eq ▸ fits.room opens
  have holds := fits.holds
  cases kind : t.kind with
  | interpolation escaped =>
    simp only [Tag.Holds, kind] at holds
    obtain ⟨e, parsed⟩ := holds
    exact ⟨_, .interpolation kind parsed⟩
  | sect inverted =>
    simp only [Tag.Holds, kind] at holds
    obtain ⟨e, parsed⟩ := holds
    have opens : t.opening? = some (.sect e inverted) := by
      simp [Tag.opening?, kind, toOption_eq_some_iff.mpr parsed]
    exact ⟨_, .enter opens fits.holds (room (by rw [kind]; rfl))⟩
  | block =>
    have opens : t.opening? = some (.block t.content) := by simp [Tag.opening?, kind]
    exact ⟨_, .enter opens holds (room (by rw [kind]; rfl))⟩
  | parent =>
    have opens : t.opening? = some (.parent t.content t.indent) := by simp [Tag.opening?, kind]
    exact ⟨_, .enter opens holds (room (by rw [kind]; rfl))⟩
  | closing =>
    obtain ⟨opener, outer, rfl, closed⟩ := fits.closes kind
    obtain ⟨s, scopes, same, opens, -⟩ := Follows.cons_iff.mp follows
    exact ⟨_, .leave kind same ((OpenScope.isClosedBy_iff opens).mpr closed)⟩
  | inclusion => exact ⟨_, .inclusion kind holds⟩
  | comment => exact ⟨_, .skip (.inl kind)⟩
  | delimiters next => exact ⟨_, .skip (.inr ⟨next, kind⟩)⟩
  | pragma => exact ⟨_, .pragma kind⟩

theorem exists_addToken_iff {b : Builder} {t : Token} {opened : List Tag}
    (follows : b.Follows opened) : (∃ b', b.addToken t = .ok b') ↔ t.Fits opened := by
  cases t with
  | text s => simp [addToken, Token.Fits]
  | tag t =>
    simp only [addToken, addTag_eq_ok_iff, Token.Fits]
    constructor
    · rintro ⟨b', step⟩
      exact step.fits follows
    · exact exists_step follows

theorem Follows.addToken {b b' : Builder} {t : Token} {opened : List Tag}
    (follows : b.Follows opened) (taken : b.addToken t = .ok b') :
    b'.Follows (t.openAfter opened) :=
  map_scopes_addToken (fun _ _ => rfl) (fun _ _ opens => opens.symm) taken follows

/-- A run takes all tokens exactly when each of them fits after those before it. -/
theorem exists_addTokens_iff {b : Builder} {tokens : List Token} {opened : List Tag}
    (follows : b.Follows opened) :
    (∃ b', b.addTokens tokens = .ok b') ↔
      Everywhere (fun before t _ => t.Fits (before.foldl Token.openAfter opened)) tokens := by
  induction tokens generalizing b opened with
  | nil => simp [addTokens]
  | cons t rest ih =>
    rw [everywhere_cons, List.foldl_nil, ← exists_addToken_iff follows, addTokens]
    cases first : b.addToken t with
    | error e => simp
    | ok next => simp [ih (follows.addToken first)]

theorem Follows.addTokens {b b' : Builder} {tokens : List Token} {opened : List Tag}
    (follows : b.Follows opened) (taken : b.addTokens tokens = .ok b') :
    b'.Follows (tokens.foldl Token.openAfter opened) :=
  map_scopes_addTokens (fun _ _ => rfl) (fun _ _ opens => opens.symm) taken follows

end Builder

namespace Template

theorem ofScan_eq_ok_iff {contentType : ContentType} {scan : Scan} {t : Template} :
    ofScan contentType scan = .ok t ↔
      ∃ b, (Builder.start contentType).addTokens scan.tokens = .ok b ∧ scan.error = none ∧
        b.scopes = [] ∧ t = ⟨b.nodes, b.contentType⟩ := by
  unfold ofScan
  cases (Builder.start contentType).addTokens scan.tokens with
  | error e => simp
  | ok b =>
    cases scan.error with
    | some e => simp
    | none => cases scopes : b.scopes <;> simp [Builder.finish, scopes, eq_comm (a := t)]

/-- A scan spells a template exactly when it has no fault and its tokens are well
nested. -/
theorem exists_ofScan_iff {contentType : ContentType} {scan : Scan} :
    (∃ t, ofScan contentType scan = .ok t) ↔
      scan.error = none ∧ Token.WellNested scan.tokens := by
  have initially : (Builder.start contentType).Follows [] := rfl
  unfold Token.WellNested Token.openTags
  rw [← Builder.exists_addTokens_iff initially]
  have closed {b : Builder} (taken : (Builder.start contentType).addTokens scan.tokens = .ok b) :
      b.scopes = [] ↔ scan.tokens.foldl Token.openAfter [] = [] := by
    have lengths := (initially.addTokens taken).length_eq
    rw [← List.length_eq_zero_iff, lengths, List.length_eq_zero_iff]
  simp only [ofScan_eq_ok_iff]
  constructor
  · intro ⟨t, b, taken, whole, done, _⟩
    exact ⟨whole, ⟨b, taken⟩, (closed taken).mp done⟩
  · intro ⟨whole, ⟨b, taken⟩, done⟩
    exact ⟨_, b, taken, whole, (closed taken).mpr done, rfl⟩

end Template

end Mustache
