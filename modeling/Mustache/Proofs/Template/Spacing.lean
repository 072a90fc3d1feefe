import Mathlib
import Mustache.Proofs.Template.Comparison
import Mustache.Proofs.Template.Relocation
import Mustache.Proofs.Token.Spacing

namespace Mustache

namespace Comparison

/-- Nothing differs but the places of tags. -/
def placing : Comparison where
  texts := Eq
  indents := Eq
  expressions := Eq
  places _ _ := True
  parts _ _ _ := False
  values := Eq
  runs _ _ := True

variable {contentType : ContentType}

/-- Tokens with white space behind openers are alike up to their places. -/
theorem placing_tokens {tokens others : List Token}
    (respaced : List.Forall₂ Token.Respaced tokens others) :
    placing.Tokens contentType tokens others := by
  induction respaced with
  | nil => exact .nil
  | cons first rest ih =>
    cases first with
    | text s => exact .text rfl ih
    | tag kind content indent => exact .tag ⟨kind, content, trivial, indent.symm⟩ ih

/-- Trees that differ in the places of tags are the same with all tags at one place. -/
theorem relocateAll_eq_of_placing {inParent : Bool} {nodes others : List Node}
    (alike : placing.Nodes contentType inParent nodes others) (p : Position) :
    Node.relocateAll (fun _ => p) others = Node.relocateAll (fun _ => p) nodes := by
  induction alike with
  | nil => rfl
  | part exchanged behind ih => exact exchanged.elim
  | text texts behind ih =>
    obtain rfl := texts
    simp only [Node.relocateAll, ih]
  | interpolation expressions escaped places behind ih =>
    obtain rfl := expressions
    simp only [Node.relocateAll, Node.relocate, ih]
  | sect expressions inverted places inside behind insideIh ih =>
    obtain rfl := expressions
    simp only [Node.relocateAll, Node.relocate, insideIh, ih]
  | inclusion name indents places behind ih =>
    obtain rfl := indents
    simp only [Node.relocateAll, Node.relocate, ih]
  | block name places inside behind insideIh ih =>
    simp only [Node.relocateAll, Node.relocate, insideIh, ih]
  | parent name indents places overrides behind overridesIh ih =>
    obtain rfl := indents
    simp only [Node.relocateAll, Node.relocate, overridesIh, ih]

private theorem relocate_eq_of_placing {t u : Template} (alike : placing.Templates t u)
    (p : Position) : u.relocate (fun _ => p) = t.relocate fun _ => p := by
  obtain ⟨contentType, nodes⟩ := alike
  obtain ⟨ns, type⟩ := t
  obtain ⟨ms, type'⟩ := u
  obtain rfl : type' = type := contentType
  exact congrArg (Template.mk · type') (relocateAll_eq_of_placing nodes p)

end Comparison

namespace Template

/-- A source that compiles does so with white space behind the openers of tags that have no bracket
there, and to the same tree with its tags at other places. -/
theorem compile_spaced {config : Configuration} {source spaced : String} {t : Template}
    (compiled : compile config source = .ok t)
    (made : Token.Spaced config.delimiters (Scan.ofSource config.delimiters source).tokens
      spaced.toList) :
    ∃ u, compile config spaced = .ok u ∧
      u.relocate (fun _ => .start) = t.relocate fun _ => .start := by
  obtain ⟨_, -, fine, -⟩ := ofScan_eq_ok_iff.mp compiled
  have whole : Scan.ofSource config.delimiters source =
      ⟨(Scan.ofSource config.delimiters source).tokens, none⟩ := by
    rw [← fine]
  obtain ⟨tokens, scanned, respaced⟩ :=
    Scan.exists_respaced (s := .start config.delimiters source)
      (r := .start config.delimiters spaced) rfl rfl fine made
  rw [compile, whole] at compiled
  obtain ⟨u, spelled, alike⟩ := Comparison.Tokens.exists_ofScan
    (Comparison.placing_tokens respaced) (fun _ _ => eq_comm) compiled
  refine ⟨u, ?_, Comparison.relocate_eq_of_placing alike .start⟩
  rw [compile, Scan.ofSource, scanned, spelled]

/-- White space, with a line end too, in a comment alone on its line and behind an opener that was
set by a tag; none before the bracket of that tag. -/
theorem compile_spaced_lines :
    let source := " \x7b\x7b!c\x7d\x7d \n\x7b\x7b=<% %>=\x7d\x7d<%&y%>"
    let spaced := " \x7b\x7b  !c\x7d\x7d \n\x7b\x7b=<% %>=\x7d\x7d<% \n&y%>"
    let t : Template := ⟨[.interpolation ⟨[.identifier "y"], []⟩ false ⟨2, 12, 20⟩], .html⟩
    compile {} source = .ok t ∧ ∃ u, compile {} spaced = .ok u ∧
      u.relocate (fun _ => .start) = t.relocate fun _ => .start := by
  intro source spaced t
  let next : Delimiters := ⟨"<%", "%>", rfl, rfl⟩
  let comment : Tag := ⟨.comment, "c", ⟨1, 2, 1⟩, "\x7b\x7b!c\x7d\x7d", some ⟨" ", " \n"⟩⟩
  let change : Tag := ⟨.delimiters next, "<% %>", ⟨2, 1, 9⟩, "\x7b\x7b=<% %>=\x7d\x7d", none⟩
  let value : Tag := ⟨.interpolation false, "y", ⟨2, 12, 20⟩, "<%&y%>", none⟩
  have scanned : Scan.ofSource .braces source =
      ⟨[.tag comment, .tag change, .tag value], none⟩ := by decide +kernel
  have compiled : compile {} source = .ok t := by
    rw [compile, show Configuration.delimiters {} = .braces from rfl, scanned]
    cbv
  have made : Token.Spaced .braces (Scan.ofSource .braces source).tokens spaced.toList := by
    have spaces : Text.Blanks [' ', ' '] := by simp [Text.Blanks, Text.isBlank]
    have line : Text.Blanks [' ', '\n'] := by simp [Text.Blanks, Text.isBlank]
    have third := @Token.Spaced.tag next value [] [' ', '\n'] "&y%>".toList [] (by decide) line
      (.inr (Text.stops_cons.mpr rfl)) (.nil _)
    have second := @Token.Spaced.tag .braces change _ [] "=<% %>=\x7d\x7d".toList _ (by decide)
      Text.blanks_nil (.inl rfl) third
    have first := @Token.Spaced.tag .braces comment _ [' ', ' '] "!c\x7d\x7d".toList _ (by decide)
      spaces (.inr (Text.stops_cons.mpr rfl)) second
    rw [scanned]
    exact cast (congrArg (Token.Spaced .braces _) (by decide +kernel)) first
  exact ⟨compiled, compile_spaced compiled made⟩

/-- In front of a bracket white space makes another tag, or none. -/
theorem compile_spaced_bracket :
    compile {} "\x7b\x7b\x7bx\x7d\x7d\x7d" =
        .ok ⟨[.interpolation ⟨[.identifier "x"], []⟩ false .start], .html⟩ ∧
      compile {} "\x7b\x7b \x7bx\x7d\x7d\x7d" =
        .ok ⟨[.interpolation ⟨[.identifier "\x7bx"], []⟩ true .start, .text "\x7d"], .html⟩ ∧
      (compile {} "\x7b\x7b=<% %>=\x7d\x7d").toOption.isSome = true ∧
      (compile {} "\x7b\x7b =<% %>=\x7d\x7d").toOption.isSome = false :=
  ⟨by cbv, by cbv, by decide +kernel, by decide +kernel⟩

end Template

end Mustache
