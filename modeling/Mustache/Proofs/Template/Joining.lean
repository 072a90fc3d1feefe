import Mustache.Proofs.Template.Spelling
import Mustache.Proofs.Token.Lines

namespace Mustache

namespace Node

/-- A node in front of others; a text becomes one with a text behind it. -/
def joinBefore : Node → List Node → List Node
  | text s, text t :: rest => text (s ++ t) :: rest
  | n, rest => n :: rest

/-- Nodes with each row of adjacent texts made one. -/
def joinTexts (nodes : List Node) : List Node :=
  nodes.foldr joinBefore []

/-- The node of a text, unless there is no text. -/
def ofText (s : List Char) : List Node :=
  if s.isEmpty then [] else [.text (String.ofList s)]

theorem joinBefore_text_append (s t : String) (rest : List Node) :
    joinBefore (text (s ++ t)) rest = joinBefore (text s) (joinBefore (text t) rest) := by
  cases rest with
  | nil => rfl
  | cons n rest =>
    cases n with
    | text u => simp [joinBefore, String.append_assoc]
    | _ => rfl

theorem joinTexts_cut (before behind : List Node) (s t : List Char) :
    joinTexts (before ++ ofText (s ++ t) ++ behind) =
      joinTexts (before ++ ofText s ++ (ofText t ++ behind)) := by
  have middle (rest : List Node) : (ofText (s ++ t)).foldr joinBefore rest =
      (ofText s).foldr joinBefore ((ofText t).foldr joinBefore rest) := by
    cases s with
    | nil => rfl
    | cons c s =>
      cases t with
      | nil => simp [ofText]
      | cons d t =>
        have both := joinBefore_text_append (String.ofList (c :: s)) (String.ofList (d :: t)) rest
        rw [← String.ofList_append] at both
        exact both
  simp only [joinTexts, List.foldr_append, middle]

end Node

namespace Token

@[simp] theorem foldl_openAfter_ofText (opened : List Tag) (s : List Char) :
    (Scan.ofText s).foldl openAfter opened = opened := by
  unfold Scan.ofText
  split <;> rfl

private theorem wellNested_ofText (s : List Char) : WellNested (Scan.ofText s) := by
  refine ⟨?_, foldl_openAfter_ofText [] s⟩
  unfold Scan.ofText
  split
  · exact everywhere_nil _
  · exact everywhere_cons.mpr ⟨trivial, everywhere_nil _⟩

/-- Behind tokens that leave no scope open, others nest as they do by themselves. -/
theorem wellNested_append {first second : List Token} (closed : openTags first = []) :
    WellNested (first ++ second) ↔ WellNested first ∧ WellNested second := by
  have behind (before : List Token) : openTags (first ++ before) = openTags before := by
    unfold openTags at closed ⊢
    rw [List.foldl_append, closed]
  simp only [WellNested, everywhere_append, behind, closed, and_true, and_assoc]

theorem keptMarks_append (opened : List Tag) (first second : List Token) :
    keptMarks opened (first ++ second) =
      keptMarks opened first ++ keptMarks (first.foldl openAfter opened) second := by
  induction first generalizing opened with
  | nil => rfl
  | cons t rest ih => simp only [List.cons_append, keptMarks, ih, List.append_assoc, List.foldl_cons]

private theorem keptMarks_ofText (s : List Char) :
    keptMarks [] (Scan.ofText s) = Node.marksAll (Node.ofText s) := by
  unfold Scan.ofText Node.ofText
  split <;> rfl

private theorem filterMap_contentType_ofText (s : List Char) :
    (Scan.ofText s).filterMap contentType? = [] := by
  unfold Scan.ofText
  split <;> rfl

/-- Well nested tokens are the marks of a tree. -/
theorem WellNested.exists_nodes {tokens : List Token} (nested : WellNested tokens) :
    ∃ nodes, Node.marksAll nodes = keptMarks [] tokens := by
  obtain ⟨t, made⟩ := (@Template.exists_ofScan_iff .html ⟨tokens, none⟩).mpr ⟨rfl, nested⟩
  exact ⟨t.nodes, (Template.spelledBy_of_ofScan made).marks⟩

end Token

/-- The template that a joined scan spells: both trees, one after the other. -/
theorem Template.SpelledBy.joined {t u : Template} {contentType : ContentType}
    {first second whole : Scan} (left : t.SpelledBy contentType first)
    (right : u.SpelledBy contentType second) (types : t.contentType = u.contentType)
    (joined : first.Joined second whole) :
    ∃ nodes, SpelledBy ⟨nodes, t.contentType⟩ contentType whole ∧
      Node.joinTexts nodes = Node.joinTexts (t.nodes ++ u.nodes) := by
  obtain ⟨⟨front, last, next, others, firstTokens, secondTokens, tokens⟩, error⟩ := joined
  have closed : Token.openTags front = [] := by
    have all := left.nested.2
    rw [firstTokens] at all
    simpa [Token.openTags] using all
  have ended : front.foldl Token.openAfter [] = [] := closed
  have frontNested : Token.WellNested front := by
    have all := left.nested
    rw [firstTokens, Token.wellNested_append closed] at all
    exact all.1
  have othersNested : Token.WellNested others := by
    have all := right.nested
    rw [secondTokens, Token.wellNested_append (Token.wellNested_ofText next).2] at all
    exact all.2
  obtain ⟨ns, frontMarks⟩ := frontNested.exists_nodes
  obtain ⟨ms, othersMarks⟩ := othersNested.exists_nodes
  have leftNodes : t.nodes = ns ++ Node.ofText last := by
    refine Node.marksAll_injective ?_
    rw [left.marks, firstTokens, Token.keptMarks_append, ended, Node.marksAll_append, frontMarks,
      Token.keptMarks_ofText]
  have rightNodes : u.nodes = Node.ofText next ++ ms := by
    refine Node.marksAll_injective ?_
    rw [right.marks, secondTokens, Token.keptMarks_append, Token.foldl_openAfter_ofText,
      Node.marksAll_append, othersMarks, Token.keptMarks_ofText]
  refine ⟨ns ++ Node.ofText (last ++ next) ++ ms, ⟨error.trans right.whole, ?_, ?_, ?_⟩, ?_⟩
  · rw [tokens, List.append_assoc, Token.wellNested_append closed,
      Token.wellNested_append (Token.wellNested_ofText _).2]
    exact ⟨frontNested, Token.wellNested_ofText _, othersNested⟩
  · simp only [tokens, Token.keptMarks_append, List.foldl_append, ended, Node.marksAll_append,
      frontMarks, othersMarks, Token.keptMarks_ofText, Token.foldl_openAfter_ofText]
  · have leftType := left.contentType
    have rightType := right.contentType
    simp only [firstTokens, secondTokens, tokens, List.filterMap_append,
      Token.filterMap_contentType_ofText, List.append_nil, List.nil_append,
      List.getLast?_append] at leftType rightType ⊢
    cases last : (others.filterMap Token.contentType?).getLast? with
    | none => simpa using leftType
    | some c =>
      rw [last] at rightType
      simpa [types] using rightType
  · rw [leftNodes, rightNodes]
    exact Node.joinTexts_cut ns ms last next

end Mustache
