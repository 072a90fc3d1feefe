import Mustache.Proofs.Render.Identity
import Mustache.Proofs.Template.Comparison

namespace Mustache

/-- Tags that differ in their places, and in that a filter was appended to the content or not. -/
structure Tag.Appended (name : String) (appended : Bool) (t u : Tag) : Prop where
  kind : u.kind = t.kind
  content : u.content = if appended then t.content ++ " | " ++ name else t.content
  indent : u.indent = t.indent

/-- Tokens where a filter was appended to variables and sections. The given tags are open; a
closing tag is changed as the tag is that it closes. -/
inductive Token.Appended (name : String) : List (Tag × Tag) → List Token → List Token → Prop where
  | nil {opened : List (Tag × Tag)} : Appended name opened [] []
  | text {opened : List (Tag × Tag)} {rest others : List Token} (s : String)
      (behind : Appended name opened rest others) :
      Appended name opened (.text s :: rest) (.text s :: others)
  | enter {opened : List (Tag × Tag)} {appended : Bool} {t u : Tag} {rest others : List Token}
      (opens : t.kind.opensScope = true) (tags : t.Appended name appended u)
      (sections : appended = true → ∃ inverted, t.kind = .sect inverted)
      (behind : Appended name ((t, u) :: opened) rest others) :
      Appended name opened (.tag t :: rest) (.tag u :: others)
  | leave {opened : List (Tag × Tag)} {appended : Bool} {opener other t u : Tag}
      {rest others : List Token} (kind : t.kind = .closing)
      (openers : opener.Appended name appended other) (tags : t.Appended name appended u)
      (behind : Appended name opened rest others) :
      Appended name ((opener, other) :: opened) (.tag t :: rest) (.tag u :: others)
  | stay {opened : List (Tag × Tag)} {appended : Bool} {t u : Tag} {rest others : List Token}
      (opens : t.kind.opensScope = false) (closes : t.kind ≠ .closing)
      (tags : t.Appended name appended u)
      (written : appended = true → ∃ escaped, t.kind = .interpolation escaped)
      (behind : Appended name opened rest others) :
      Appended name opened (.tag t :: rest) (.tag u :: others)

namespace Expression

theorem through_beq {e f : Expression} (name : String) (same : (f == e) = true) :
    (f.through name == e.through name) = true := by
  have parts (e f : Expression) : (f == e) = (f.path == e.path && f.filters == e.filters) := rfl
  have call : ((⟨name, []⟩ : FilterCall) == ⟨name, []⟩) =
      (name == name && ([] : List Argument) == []) := rfl
  have calls (l m : List FilterCall) (same : (l == m) = true) :
      (l ++ [⟨name, []⟩] == m ++ [⟨name, []⟩]) = true := by
    induction l generalizing m with
    | nil =>
      cases m with
      | nil => simp [call]
      | cons call m => cases same
    | cons call l ih =>
      cases m with
      | nil => cases same
      | cons other m =>
        simp only [List.cons_append, List.cons_beq_cons, Bool.and_eq_true] at same ⊢
        exact ⟨same.1, ih m same.2⟩
  rw [parts, Bool.and_eq_true] at same ⊢
  exact ⟨same.1, calls _ _ same.2⟩

end Expression

namespace Tag.Appended

variable {name : String} {appended : Bool} {opener other t u : Tag}

/-- The tags are read alike if the filter was appended to an expression. -/
theorem readings (identifier : Expression.IsIdentifier name.toList)
    (tags : t.Appended name appended u)
    (expression : appended = true → t.kind.holdsExpression = true) :
    (Comparison.identity name fun _ _ => True).Readings t u := by
  obtain ⟨kind, content, indent⟩ := tags
  refine ⟨kind, ?_, ?_, trivial, indent.symm⟩
  · intro e parsed
    rw [content]
    cases appended with
    | false => exact ⟨e, parsed, .inl rfl⟩
    | true => exact ⟨e.through name, Expression.parse_through identifier parsed, .inr rfl⟩
  · intro none
    cases appended with
    | false => exact content
    | true => simp [none] at expression

theorem isClosedBy (identifier : Expression.IsIdentifier name.toList)
    (openers : opener.Appended name appended other) (tags : t.Appended name appended u)
    (closed : opener.IsClosedBy t) : other.IsClosedBy u := by
  unfold Tag.IsClosedBy at closed ⊢
  rw [openers.kind, openers.content, tags.content]
  cases appended with
  | false => exact closed
  | true =>
    split at closed
    · obtain ⟨e, f, opens, closes, same⟩ := closed
      exact ⟨_, _, Expression.parse_through identifier opens,
        Expression.parse_through identifier closes, Expression.through_beq name same⟩
    · simpa using closed

end Tag.Appended

namespace Comparison

variable {name : String} {contentType : ContentType} {b b' c : Builder}
  {opened : List (Tag × Tag)}

/-- The tags that are open in two builders close alike if their openers do. -/
theorem closes_of_follows {t u : Tag} {s r : OpenScope}
    (left : b.Follows (opened.map Prod.fst)) (right : c.Follows (opened.map Prod.snd))
    (closes : ∀ {pair outer}, opened = pair :: outer → pair.1.IsClosedBy t → pair.2.IsClosedBy u)
    (first : s ∈ b.scopes.head?) (second : r ∈ c.scopes.head?)
    (closed : s.isClosedBy t.content = true) : r.isClosedBy u.content = true := by
  cases opened with
  | nil =>
    have none : b.scopes = [] := List.map_eq_nil_iff.mp left
    simp [none] at first
  | cons pair outer =>
    obtain ⟨_, _, scopes, opens, -⟩ := Builder.Follows.cons_iff.mp left
    obtain ⟨_, _, others, reopens, -⟩ := Builder.Follows.cons_iff.mp right
    simp only [scopes, others, List.head?_cons, Option.mem_def, Option.some.injEq] at first second
    subst first second
    have closes := closes rfl ((OpenScope.isClosedBy_iff opens).mp closed)
    exact (OpenScope.isClosedBy_iff reopens).mpr closes

/-- What a builder does with a tag, another one does with the changed tag. -/
theorem step_appended {t u : Tag}
    (builders : (identity name fun _ _ => True).Builders contentType b c)
    (left : b.Follows (opened.map Prod.fst)) (right : c.Follows (opened.map Prod.snd))
    (readings : (identity name fun _ _ => True).Readings t u)
    (closes : t.kind = .closing → ∀ {pair outer}, opened = pair :: outer →
      pair.1.IsClosedBy t → pair.2.IsClosedBy u) (step : b.Step t b') :
    ∃ c', c.Step u c' ∧ (identity name fun _ _ => True).Builders contentType b' c' ∧
      b'.Follows ((Token.tag t).openAfter (opened.map Prod.fst)) ∧
      c'.Follows ((Token.tag u).openAfter (opened.map Prod.snd)) := by
  obtain ⟨c', again, alike⟩ := builders.step readings
    (fun kind _ first second closed =>
      closes_of_follows left right (closes kind) first second closed) step
  exact ⟨c', again, alike, step.follows left, again.follows right⟩

private theorem addTokens_appended {tokens others : List Token}
    (identifier : Expression.IsIdentifier name.toList)
    (builders : (identity name fun _ _ => True).Builders contentType b c)
    (left : b.Follows (opened.map Prod.fst)) (right : c.Follows (opened.map Prod.snd))
    (appended : Token.Appended name opened tokens others) (taken : b.addTokens tokens = .ok b') :
    ∃ c', c.addTokens others = .ok c' ∧
      (identity name fun _ _ => True).Builders contentType b' c' := by
  induction appended generalizing b c with
  | nil =>
    obtain rfl := Except.ok.inj taken
    exact ⟨c, rfl, builders⟩
  | text s _ ih =>
    have alike := builders.add (n := .text s) (m := .text s) (fun _ => .text rfl .nil) rfl
    refine ih alike ?_ ?_ taken
    · simpa [Builder.Follows] using left
    · simpa [Builder.Follows] using right
  | @enter opened appended t u _ _ opens tags sections _ ih =>
    obtain ⟨next, step, taken⟩ := Builder.addTokens_tag_eq_ok_iff.mp taken
    have readings := tags.readings identifier fun changed => by
      obtain ⟨inverted, kind⟩ := sections changed
      rw [kind]
      rfl
    obtain ⟨after, again, alike, left, right⟩ := step_appended builders left right readings
      (fun kind => by simp [kind, TagKind.opensScope] at opens) step
    rw [Token.openAfter, tags.kind, if_pos opens] at right
    rw [Token.openAfter, if_pos opens] at left
    obtain ⟨c', others, both⟩ := ih alike left right taken
    exact ⟨c', Builder.addTokens_tag_eq_ok_iff.mpr ⟨after, again, others⟩, both⟩
  | @leave opened appended opener other t u _ _ kind openers tags _ ih =>
    obtain ⟨next, step, taken⟩ := Builder.addTokens_tag_eq_ok_iff.mp taken
    have readings := tags.readings identifier fun _ => by rw [kind]; rfl
    obtain ⟨after, again, alike, left, right⟩ := step_appended builders left right readings
      (fun _ pair outer same closed => by
        obtain ⟨rfl, rfl⟩ := List.cons.inj same
        exact openers.isClosedBy identifier tags closed) step
    rw [Token.openAfter, tags.kind, kind] at right
    rw [Token.openAfter, kind] at left
    obtain ⟨c', others, both⟩ := ih alike left right taken
    exact ⟨c', Builder.addTokens_tag_eq_ok_iff.mpr ⟨after, again, others⟩, both⟩
  | @stay opened appended t u _ _ opens closes tags written _ ih =>
    obtain ⟨next, step, taken⟩ := Builder.addTokens_tag_eq_ok_iff.mp taken
    have readings := tags.readings identifier fun changed => by
      obtain ⟨escaped, kind⟩ := written changed
      rw [kind]
      rfl
    obtain ⟨after, again, alike, left, right⟩ := step_appended builders left right readings
      (fun kind => absurd kind closes) step
    rw [Token.openAfter, tags.kind, opens, if_neg (by simp), if_neg closes] at right
    rw [Token.openAfter, opens, if_neg (by simp), if_neg closes] at left
    obtain ⟨c', others, both⟩ := ih alike left right taken
    exact ⟨c', Builder.addTokens_tag_eq_ok_iff.mpr ⟨after, again, others⟩, both⟩

end Comparison

/-- Where a filter is appended to variables and sections of a source and to the tags that close
these sections, the source still compiles, and its template has the filter in their expressions. -/
theorem Template.ofScan_appended {name : String} {contentType : ContentType} {scan longer : Scan}
    {t : Template} (identifier : Expression.IsIdentifier name.toList)
    (made : ofScan contentType scan = .ok t) (whole : longer.error = none)
    (appended : Token.Appended name [] scan.tokens longer.tokens) :
    ∃ u, ofScan contentType longer = .ok u ∧
      (Comparison.identity name fun _ _ => True).Templates t u := by
  obtain ⟨tokens, fault⟩ := scan
  obtain ⟨others, fault'⟩ := longer
  obtain ⟨_, -, fine, -⟩ := ofScan_eq_ok_iff.mp made
  obtain rfl : fault = none := fine
  obtain rfl : fault' = none := whole
  refine Comparison.exists_ofScan (fun start taken => ?_) made
  refine Comparison.addTokens_appended identifier start ?_ ?_ appended taken
  · rfl
  · rfl

/-- Where places are not compared, templates are alike if they are at all. -/
theorem Comparison.Templates.anywhere {name : String} {places : Position → Position → Prop}
    {t u : Template} (alike : (identity name places).Templates t u) :
    (identity name fun _ _ => True).Templates t u := by
  have nodes {contentType : ContentType} {inParent : Bool} {ns ms : List Node}
      (alike : (identity name places).Nodes contentType inParent ns ms) :
      (identity name fun _ _ => True).Nodes contentType inParent ns ms := by
    induction alike with
    | nil => exact .nil
    | part exchanged behind ih => exact exchanged.elim
    | text texts behind ih => exact .text texts ih
    | interpolation expressions escaped places behind ih =>
      refine .interpolation ?_ escaped trivial ih
      exact expressions
    | sect expressions inverted places inside behind insideIh ih =>
      refine .sect ?_ inverted trivial insideIh ih
      exact expressions
    | inclusion name indents places behind ih => exact .inclusion name indents trivial ih
    | block name places inside behind insideIh ih => exact .block name trivial insideIh ih
    | parent name indents places overrides behind overridesIh ih =>
      exact .parent name indents trivial overridesIh ih
  exact ⟨alike.contentType, nodes alike.nodes⟩

/-- Appending a filter that returns its input to any of the expressions of a template and of the
templates that are stored leaves the result of rendering JSON as it is: the text, or the error, at
the place that its tag now has. In a source the filter is appended to closing tags too. -/
theorem Template.render_identity {name : String} {filter : Filter} {c d : Collaborators}
    (registered : c.filters name = some filter) (returns : ∀ v, filter v [] = .ok v)
    (filters : d.filters = c.filters) (escaper : d.escaper = c.escaper)
    {places : Position → Position → Prop}
    (stored : ∀ n, Option.Rel (Comparison.identity name places).Templates
      (c.templates n) (d.templates n)) (v : Json) :
    (∀ t u, (Comparison.identity name places).Templates t u →
      Results Eq places (t.render (.json v) c) (u.render (.json v) d) ∧
        ((∀ p q, places p q → p = q) → u.render (.json v) d = t.render (.json v) c)) ∧
    (Expression.IsIdentifier name.toList → ∀ config source longer t,
      compile config source = .ok t → (Scan.ofSource config.delimiters longer).error = none →
      Token.Appended name [] (Scan.ofSource config.delimiters source).tokens
        (Scan.ofSource config.delimiters longer).tokens →
      ∃ u, compile config longer = .ok u ∧
        (Comparison.identity name fun _ _ => True).Templates t u ∧
        Results Eq (fun _ _ => True) (t.render (.json v) c) (u.render (.json v) d)) := by
  have results {places : Position → Position → Prop}
      (stored : ∀ n, Option.Rel (Comparison.identity name places).Templates
        (c.templates n) (d.templates n)) {t u : Template}
      (root : (Comparison.identity name places).Templates t u) :
      Results Eq places (t.render (.json v) c) (u.render (.json v) d) := by
    have laws := Comparison.identity_lawful registered returns filters escaper stored
    have compared := laws.run root (v := .json v) ⟨v, .given, .given⟩
    rw [render_eq_text, render_eq_text]
    exact compared.text fun same => by rw [same]
  constructor
  · intro t u root
    have compared := results stored root
    exact ⟨compared, fun same => (compared.eq fun {p q} => same p q).symm⟩
  · intro identifier config source longer t compiled fine appended
    obtain ⟨u, made, alike⟩ := ofScan_appended identifier compiled fine appended
    refine ⟨u, made, alike, results (fun n => ?_) alike⟩
    match c.templates n, d.templates n, stored n with
    | _, _, .some both => exact .some both.anywhere
    | _, _, .none => exact .none

/-- A section, an inverted section and variables, in a source and in a stored template, also where
a name is not defined. -/
theorem Template.render_identity_rows :
    let source := "\x7b\x7b#xs\x7d\x7d\x7b\x7b>row\x7d\x7d\x7b\x7b/xs\x7d\x7d"
    let longer := "\x7b\x7b#xs | id\x7d\x7d\x7b\x7b>row\x7d\x7d\x7b\x7b/xs | id\x7d\x7d"
    let returned : Filter := fun v _ => .ok v
    let store (row : Template) : Collaborators :=
      { templates := fun name => if name = "row" then some row else none
        filters := fun name => if name = "id" then some returned else none }
    let data : Json :=
      .object [("xs", .array [.object [("x", .string "a")], .object [("y", .bool true)]])]
    ∃ t u row other : Template,
      compile {} source = .ok t ∧ compile {} longer = .ok u ∧
      compile {} "\x7b\x7bx\x7d\x7d\x7b\x7b^y\x7d\x7d-\x7b\x7b/y\x7d\x7d;" = .ok row ∧
      compile {} "\x7b\x7bx|id\x7d\x7d\x7b\x7b^y|id\x7d\x7d-\x7b\x7b/y|id\x7d\x7d;" = .ok other ∧
      Token.Appended "id" [] (Scan.ofSource .braces source).tokens
        (Scan.ofSource .braces longer).tokens ∧
      t.render (.json data) (store row) = .ok "a-;;" ∧
      u.render (.json data) (store other) = .ok "a-;;" := by
  intro source longer returned store data
  let x : Expression := ⟨[.identifier "x"], []⟩
  let y : Expression := ⟨[.identifier "y"], []⟩
  let row : Template :=
    ⟨[.interpolation x true ⟨1, 1, 0⟩, .sect y true [.text "-"] ⟨1, 6, 5⟩, .text ";"], .html⟩
  let other : Template :=
    ⟨[.interpolation (x.through "id") true ⟨1, 1, 0⟩,
      .sect (y.through "id") true [.text "-"] ⟨1, 9, 8⟩, .text ";"], .html⟩
  let t : Template :=
    ⟨[.sect ⟨[.identifier "xs"], []⟩ false [.inclusion "row" "" ⟨1, 8, 7⟩] ⟨1, 1, 0⟩], .html⟩
  have compiled : compile {} source = .ok t := by cbv
  have rendered : t.render (.json data) (store row) = .ok "a-;;" := by decide +kernel
  have rows : (Comparison.identity "id" fun _ _ => True).Templates row other :=
    ⟨rfl, .interpolation (Or.inr rfl) true trivial
      (.sect (Or.inr rfl) true trivial (.text rfl .nil) (.text rfl .nil))⟩
  have stored (n : String) : Option.Rel (Comparison.identity "id" fun _ _ => True).Templates
      ((store row).templates n) ((store other).templates n) := by
    by_cases named : n = "row"
    · simpa [store, named] using rows
    · simp [store, named]
  have appended : Token.Appended "id" [] (Scan.ofSource .braces source).tokens
      (Scan.ofSource .braces longer).tokens := by
    let opener : Tag := ⟨.sect false, "xs", ⟨1, 1, 0⟩, "\x7b\x7b#xs\x7d\x7d", none⟩
    let other : Tag := ⟨.sect false, "xs | id", ⟨1, 1, 0⟩, "\x7b\x7b#xs | id\x7d\x7d", none⟩
    have tokens : (Scan.ofSource .braces source).tokens = [.tag opener,
        .tag ⟨.inclusion, "row", ⟨1, 8, 7⟩, "\x7b\x7b>row\x7d\x7d", none⟩,
        .tag ⟨.closing, "xs", ⟨1, 16, 15⟩, "\x7b\x7b/xs\x7d\x7d", none⟩] := by decide +kernel
    have others : (Scan.ofSource .braces longer).tokens = [.tag other,
        .tag ⟨.inclusion, "row", ⟨1, 13, 12⟩, "\x7b\x7b>row\x7d\x7d", none⟩,
        .tag ⟨.closing, "xs | id", ⟨1, 21, 20⟩, "\x7b\x7b/xs | id\x7d\x7d", none⟩] := by
      decide +kernel
    rw [tokens, others]
    refine @Token.Appended.enter "id" [] true _ _ _ _ rfl ⟨rfl, rfl, rfl⟩ (fun _ => ⟨false, rfl⟩) ?_
    refine @Token.Appended.stay "id" _ false _ _ _ _ rfl (by decide) ⟨rfl, rfl, rfl⟩ (by simp) ?_
    exact @Token.Appended.leave "id" [] true opener other _ _ _ _ rfl ⟨rfl, rfl, rfl⟩
      ⟨rfl, rfl, rfl⟩ .nil
  have whole : (Scan.ofSource .braces longer).error = none := by decide +kernel
  have registered : (store row).filters "id" = some returned := rfl
  have identifier : Expression.IsIdentifier "id".toList := ⟨by decide, List.all_eq_true.mp rfl⟩
  obtain ⟨-, sources⟩ := render_identity registered (fun _ => rfl) (d := store other) rfl rfl
    stored data
  obtain ⟨u, made, -, compared⟩ := sources identifier {} source longer t compiled whole appended
  rw [rendered] at compared
  exact ⟨t, u, row, other, compiled, made, by cbv, by cbv, appended, rendered, compared.eq_ok⟩

end Mustache
