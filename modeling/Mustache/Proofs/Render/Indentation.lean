import Mustache.Proofs.Render.Arrivals
import Mustache.Proofs.Render.Chains

/-!
Indentation of templates made of texts and partial tags. Main statement: a text of an included
template is written with the indentation around its tag and that of the tag before each of its
lines, of which the first one counts only if it begins a line of the output, and nothing else is
written. The first line begins one at the start, behind a line feed, and behind a tag with blanks
of its own; a tag that has none does not begin a line, alone on its own line or not.
-/

namespace Mustache

namespace Output

/-- A line is begun where the text of the output ends one. -/
def BeginsLines (out : Output) : Prop :=
  lineStartAfter true out.buffer.toList = true → out.lineStart = true

private theorem keptByText_beginsLines : KeptByText BeginsLines where
  text := by
    intro out s begins ends
    simp only [writeText, String.toList_append, String.toList_ofList, lineStartAfter_append,
      lineStartAfter_indentLines] at ends ⊢
    exact lineStartAfter_mono begins s.toList ends
  enter := fun out indent begins ends => by simp [enter, begins ends]
  leave := fun out indent begins => begins

/-- A line is begun while nothing is written behind an output. -/
def FreshSince (start out : Output) : Prop :=
  start.buffer.toList <+: out.buffer.toList ∧ (out.buffer = start.buffer → out.lineStart = true)

private theorem keptByText_freshSince (start : Output) : KeptByText start.FreshSince where
  text := by
    rintro out s ⟨behind, fresh⟩
    refine ⟨behind.trans (out.prefix_writeText s), fun same => ?_⟩
    cases chars : s.toList with
    | nil =>
      simp only [writeText, chars, indentLines, lineStartAfter] at same ⊢
      exact fresh (by simpa using same)
    | cons c rest =>
      -- something was written, so the output is longer than it was at the start
      have longer := behind.length_le
      have lengths := congrArg (fun text : String => text.toList.length) same
      simp only [writeText, chars, indentLines, String.toList_append, String.toList_ofList,
        List.length_append, List.length_cons] at lengths
      omega
  enter := fun out indent ⟨behind, fresh⟩ => ⟨behind, fun same => by simp [enter, fresh same]⟩
  leave := fun out indent fresh => fresh

theorem freshSince_enter (out : Output) {indent : String} (blanks : indent ≠ "") :
    out.FreshSince (out.enter indent) :=
  ⟨List.prefix_rfl, fun _ => by simp [enter, blanks]⟩

private theorem writeText_eq (out : Output) (s : String) :
    (out.writeText s).buffer.toList =
      out.buffer.toList ++ indented out.indent.toList out.lineStart (Text.lines s.toList) := by
  simp [writeText, indentLines_eq_indented]

/-- How a text `s` stands in the whole text: `out` is the output at a tag with the blanks `indent`,
and `mid` that at the text, which is in the template that the tag includes. -/
structure Indents (out mid : Output) (indent s : String) (whole : String) : Prop where
  since : out.buffer.toList <+: mid.buffer.toList
  /-- The text is written with the indentation before its lines, behind what is there. -/
  written : mid.buffer.toList ++ indented (out.indent ++ indent).toList mid.lineStart
    (Text.lines s.toList) <+: whole.toList
  /-- All of the lines have it exactly if the first one begins a line of the output. -/
  every : indented (out.indent ++ indent).toList mid.lineStart (Text.lines s.toList) =
      (Text.lines s.toList).flatMap ((out.indent ++ indent).toList ++ ·) ↔
    mid.lineStart = true ∨ out.indent ++ indent = "" ∨ s = ""
  /-- A line is begun at the start, behind a line feed, and behind the tag if it has blanks. -/
  begun : mid.buffer = "" ∨ mid.buffer.toList.getLast? = some '\n' ∨
    indent ≠ "" ∧ mid.buffer = out.buffer → mid.lineStart = true

end Output

/-- A text or a partial tag. -/
def Node.isPlain : Node → Bool
  | text _ => true
  | inclusion _ _ _ => true
  | _ => false

namespace Template

/-- A compiled template made of texts and partial tags. -/
structure IsPlain (t : Template) : Prop where
  compiled : ∃ config source, compile config source = .ok t
  nodes : ∀ n ∈ Node.subtrees t.nodes, n.isPlain = true

/-- A partial tag of a source keeps its name and its place, and its blanks if it is alone on its
line. -/
theorem exists_tag_of_inclusion {config : Configuration} {source : String} {t : Template}
    (compiled : compile config source = .ok t) {name indent : String} {p : Position}
    (inside : .inclusion name indent p ∈ Node.subtrees t.nodes) :
    ∃ tag, .tag tag ∈ (Scan.ofSource config.delimiters source).tokens ∧ tag.kind = .inclusion ∧
      tag.content = name ∧ tag.position = p ∧ indent = (tag.margins.map (·.indent)).getD "" := by
  obtain ⟨token, member, marked⟩ := (spelledBy_of_ofScan compiled).exists_token inside
  cases token with
  | text s => cases marked
  | tag tag =>
    refine ⟨tag, member, ?_⟩
    cases kind : tag.kind <;> simp_all [Token.mark?, Node.mark]
    cases margins : tag.margins <;> simp [← marked.2.1, Tag.indent, margins]

end Template

namespace Collaborators

variable {c : Collaborators} {root : Template} {data : Data} {v : Visit} {out : Output}

variable (plain : ∀ t, c.Reaches root t → t.IsPlain)

include plain

theorem Reached.valueless (reached : c.Reached root data v) (e : Expression) (escaped : Bool)
    (p : Position) : v.node ≠ .interpolation e escaped p := by
  intro node
  obtain ⟨t, reaches, inside⟩ := reached.traced.within
  have isPlain := (plain t reaches).nodes _ inside
  simp [node, Node.isPlain] at isPlain

variable {text : String} (rendered : root.render data c = .ok text)

include rendered

private theorem Arrives.beginsLines (arrives : c.Arrives root data v out) : out.BeginsLines :=
  arrives.keeps Output.keptByText_beginsLines (fun _ reached => reached.valueless plain) rendered
    fun _ => rfl

/-- Inside a tag with blanks of its own, a line is begun until something is written. -/
theorem Reached.freshSince (reached : c.Reached root data v) {before behind : List Visit}
    (split : c.descents v = before ++ behind) {indent : String} (blanks : indent ≠ "")
    (out : Output) : out.FreshSince (c.outputAfter (out.enter indent) before) := by
  have earlier : ∀ w ∈ before, c.Reached root data w :=
    fun w member => reached.inside (split ▸ List.mem_append_left _ member)
  exact keeps_of_reached (Output.keptByText_freshSince out)
    (fun _ reached => reached.valueless plain) rendered earlier (out.freshSince_enter blanks)

/-- A text inside a visit is written with the indentation of the visit's node. -/
theorem Arrives.indents (arrives : c.Arrives root data v out) {before behind : List Visit}
    {w : Visit} (split : c.descents v = before ++ w :: behind) {s : String} (node : w.node = .text s) :
    out.Indents (c.outputAfter (out.enter v.node.indent) before) v.node.indent s text := by
  have met := arrives.inside split
  have written := met.prefix_of_render rendered
  rw [outputAfter_text node, Output.writeText_eq, indent_outputAfter] at written
  have begins := met.beginsLines plain rendered
  refine ⟨prefix_outputAfter c (out.enter v.node.indent) before, written, ?_, ?_⟩
  · rw [Output.indented_eq_flatMap_iff]
    simp
  · rintro (empty | ended | ⟨blanks, same⟩)
    · exact begins ((Output.lineStartAfter_true_iff _).mpr (.inl (by simp [empty])))
    · exact begins ((Output.lineStartAfter_true_iff _).mpr (.inr ended))
    · exact (arrives.reached.freshSince plain rendered split blanks out).2 same

omit plain in
/-- The last text of a body ends it: nothing is written where the region ends. -/
theorem Arrives.outputAfter_last (arrives : c.Arrives root data v out) {before : List Visit}
    {w : Visit} (split : c.descents v = before ++ [w]) {s : String} (node : w.node = .text s) :
    c.outputAfter out [v] =
      ((c.outputAfter (out.enter v.node.indent) before).writeText s).leave out.indent := by
  have bounded := arrives.reached.nesting_le
  have fine := arrives.reached.fine rendered
  have level : v.node.isLevel = true :=
    (descent_of_mem (by simp [split] : w ∈ c.descents v)).2.eq_inside.1
  have earlier : ∀ u ∈ before, (c.visit u).error = none :=
    fun u member => (fine_of_visit bounded fine).2 u (split ▸ List.mem_append_left _ member)
  rw [outputAfter_visit bounded fine, writeAll_own level, split, outputAfter_append earlier,
    outputAfter_text node]

end Collaborators

namespace Template

/-- Partial tags indent the lines of what they include: `out` is the output at a tag, `mid` that
at a text of the template it includes. A tag with other content on its line has no blanks. -/
theorem render_indented {root : Template} {data : Data} {c : Collaborators} {text : String}
    (plain : ∀ t, c.Reaches root t → t.IsPlain) (rendered : root.render data c = .ok text)
    {v : Visit} {out : Output} (arrives : c.Arrives root data v out) {name indent : String}
    {p : Position} (node : v.node = .inclusion name indent p) :
    out.indent = v.indentation ∧
    (∃ t, c.Reaches root t ∧ v.node ∈ Node.subtrees t.nodes ∧
      ∀ config source, compile config source = .ok t →
        ∃ tag, .tag tag ∈ (Scan.ofSource config.delimiters source).tokens ∧
          tag.kind = .inclusion ∧ tag.content = name ∧ tag.position = p ∧
          indent = (tag.margins.map (·.indent)).getD "") ∧
    ∃ u, c.templates name = some u ∧ ∀ before s behind, u.nodes = before ++ .text s :: behind →
      let inside := v.inside (v.frame.entering u) v.scopes
      let mid := c.outputAfter (out.enter indent) (before.map inside)
      c.Arrives root data (inside (.text s)) mid ∧ out.Indents mid indent s text ∧
      (before = [] → (mid.lineStart = true ↔ out.lineStart = true ∨ indent ≠ "")) ∧
      (behind = [] → c.outputAfter out [v] = (mid.writeText s).leave out.indent) := by
  have reached := arrives.reached
  have own := (Collaborators.fine_of_visit reached.nesting_le (reached.fine rendered)).1
  obtain ⟨u, found, descents⟩ := Collaborators.exists_descents_of_inclusion node own
  obtain ⟨t, reaches, inside⟩ := reached.traced.within
  refine ⟨arrives.indent_eq, ⟨t, reaches, inside, fun config source compiled => ?_⟩, u, found, ?_⟩
  · exact exists_tag_of_inclusion compiled (node ▸ inside)
  intro before s behind nodes inside mid
  have split : c.descents v = before.map inside ++ inside (.text s) :: behind.map inside := by
    rw [descents, nodes, List.map_append, List.map_cons]
  obtain rfl : v.node.indent = indent := by rw [node]; rfl
  refine ⟨arrives.inside split, arrives.indents plain rendered split rfl, ?_, ?_⟩
  · rintro rfl
    simp [mid, Collaborators.outputAfter, Run.each, Run.empty, Output.writeAll, Output.enter]
  · rintro rfl
    exact arrives.outputAfter_last rendered split rfl

/-- A tag that is alone on its line but has no blanks before it does not begin a line: behind a
template without a final line feed, what it includes is not indented. -/
theorem render_not_indented :
    let page : Template :=
      ⟨[.inclusion "a" "" ⟨1, 1, 0⟩, .inclusion "b" "" ⟨2, 1, 7⟩], .html⟩
    let root : Template := ⟨[.inclusion "p" " " ⟨1, 2, 1⟩], .html⟩
    let c : Collaborators :=
      { templates := fun name =>
          if name = "p" then some page
          else if name = "a" then some ⟨[.text "x"], .html⟩
          else if name = "b" then some ⟨[.text "y"], .html⟩
          else none }
    let data : Data := .json .null
    let tag : Tag :=
      ⟨.inclusion, "b", ⟨2, 1, 7⟩, "\x7b\x7b>b\x7d\x7d", some ⟨"", "\n"⟩⟩
    let inside : Node → Visit := fun n =>
      ⟨n, ⟨.html, 1, []⟩, .root data, 1, [.inclusion "p" " " ⟨1, 2, 1⟩]⟩
    compile {} " \x7b\x7b>p\x7d\x7d" = .ok root ∧
      compile {} "\x7b\x7b>a\x7d\x7d\n\x7b\x7b>b\x7d\x7d\n" = .ok page ∧
      compile {} "x" = .ok ⟨[.text "x"], .html⟩ ∧ compile {} "y" = .ok ⟨[.text "y"], .html⟩ ∧
      .tag tag ∈ (Scan.ofSource .braces "\x7b\x7b>a\x7d\x7d\n\x7b\x7b>b\x7d\x7d\n").tokens ∧
      c.Arrives root data (inside (.inclusion "b" "" ⟨2, 1, 7⟩)) ⟨" x", " ", false⟩ ∧
      root.render data c = .ok " xy" ∧ ¬ " y".toList <:+: " xy".toList := by
  intro page root c data tag inside
  have outer := @Collaborators.Arrives.outermost c root data [] []
    ⟨.inclusion "p" " " ⟨1, 2, 1⟩, ⟨.html, 0, []⟩, .root data, 0, []⟩ rfl
  have arrives := @Collaborators.Arrives.inside c root data [inside (.inclusion "a" "" ⟨1, 1, 0⟩)] []
    _ (inside (.inclusion "b" "" ⟨2, 1, 7⟩)) _ outer rfl
  rw [show c.outputAfter (Output.enter _ _) _ = ⟨" x", " ", false⟩ by decide +kernel] at arrives
  exact ⟨by cbv, by cbv, by cbv, by cbv, by decide +kernel, arrives, by decide +kernel, by decide⟩

/-- A text behind a tag of its template, in a region. -/
theorem render_indented_nested :
    let root : Template := ⟨[.text "a\n", .inclusion "p" "  " ⟨2, 3, 4⟩, .text "b"], .html⟩
    let page : Template := ⟨[.text "x\n\n", .inclusion "q" "" ⟨3, 1, 3⟩, .text "y"], .html⟩
    let line : Template := ⟨[.text "z\n"], .html⟩
    let c : Collaborators :=
      { templates := fun name =>
          if name = "p" then some page else if name = "q" then some line else none }
    let data : Data := .json .null
    let v : Visit := ⟨.inclusion "p" "  " ⟨2, 3, 4⟩, ⟨.html, 0, []⟩, .root data, 0, []⟩
    (∀ t, c.Reaches root t → t.IsPlain) ∧ root.render data c = .ok "a\n  x\n  \n  z\n  yb" ∧
      c.Arrives root data v ⟨"a\n", "", true⟩ ∧
      ∃ mid, c.Arrives root data (v.inside ⟨.html, 1, []⟩ (.root data) (.text "y")) mid ∧
        mid.lineStart = true ∧ mid.buffer.toList ++ "  y".toList <+: "a\n  x\n  \n  z\n  yb".toList := by
  intro root page line c data v
  have stored {name : String} {t : Template} (found : c.templates name = some t) :
      t = page ∨ t = line := by
    simp only [c] at found
    split at found
    · exact .inl (Option.some.inj found).symm
    · split at found
      · exact .inr (Option.some.inj found).symm
      · cases found
  have plain : ∀ t, c.Reaches root t → t.IsPlain := by
    have known : ∀ t, c.Reaches root t → t = root ∨ t = page ∨ t = line := by
      intro t reached
      cases reached with
      | root => exact .inl rfl
      | included earlier inside names found => exact .inr (stored found)
    intro t reached
    rcases known t reached with rfl | rfl | rfl
    · exact ⟨⟨{}, "a\n  \x7b\x7b>p\x7d\x7d\nb", by cbv⟩, by decide⟩
    · exact ⟨⟨{}, "x\n\n\x7b\x7b>q\x7d\x7d\ny", by cbv⟩, by decide⟩
    · exact ⟨⟨{}, "z\n", by cbv⟩, by decide⟩
  have rendered : root.render data c = .ok "a\n  x\n  \n  z\n  yb" := by decide +kernel
  have arrives : c.Arrives root data v ⟨"a\n", "", true⟩ := by
    have first := @Collaborators.Arrives.outermost c root data
      [⟨.text "a\n", ⟨.html, 0, []⟩, .root data, 0, []⟩]
      [⟨.text "b", ⟨.html, 0, []⟩, .root data, 0, []⟩] v rfl
    rwa [show c.outputAfter {} _ = ⟨"a\n", "", true⟩ by decide +kernel] at first
  refine ⟨plain, rendered, arrives, ?_⟩
  obtain ⟨-, -, u, found, texts⟩ := render_indented plain rendered arrives rfl
  obtain rfl : page = u := Option.some.inj found
  obtain ⟨met, indents, -, -⟩ := texts [.text "x\n\n", .inclusion "q" "" ⟨3, 1, 3⟩] "y" [] rfl
  have fresh := indents.begun (.inr (.inl (by decide +kernel)))
  have written := indents.written
  rw [fresh] at written
  exact ⟨_, met, fresh, written⟩

end Template

end Mustache
