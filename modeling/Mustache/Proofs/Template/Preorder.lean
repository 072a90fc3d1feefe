import Mustache.Proofs.Template.Nesting
import Mustache.Proofs.Template.Pragma

/-!
The tree of a template, written in preorder with a mark where a scope is entered and
one where it is left. Tokens have marks of their own, and compiling keeps them in
order: it drops the tags that leave no node, and whatever stands directly inside a
parent without being a block. The marks determine the tree.
-/

namespace Mustache

/-- A piece of a tree in preorder. -/
inductive Mark where
  | text (s : String)
  | interpolation (expression : Expression) (escaped : Bool) (position : Position)
  | inclusion (name : String) (indent : String) (position : Position)
  | enter (opening : Opening) (position : Position)
  | leave

namespace Node

mutual

def marks : Node → List Mark
  | text s => [.text s]
  | interpolation e escaped position => [.interpolation e escaped position]
  | sect e inverted nodes position =>
    .enter (.sect e inverted) position :: marksAll nodes ++ [.leave]
  | inclusion name indent position => [.inclusion name indent position]
  | block name nodes position => .enter (.block name) position :: marksAll nodes ++ [.leave]
  | parent name indent nodes position =>
    .enter (.parent name indent) position :: marksAll nodes ++ [.leave]
termination_by structural n => n

def marksAll : List Node → List Mark
  | [] => []
  | n :: rest => marks n ++ marksAll rest
termination_by structural nodes => nodes

end

mutual

/-- Whether the parents in a tree, at every depth, hold blocks only. -/
def parentsHoldBlocks : Node → Bool
  | sect _ _ nodes _ => allParentsHoldBlocks nodes
  | block _ nodes _ => allParentsHoldBlocks nodes
  | parent _ _ nodes _ => nodes.all isBlock && allParentsHoldBlocks nodes
  | _ => true
termination_by structural n => n

def allParentsHoldBlocks : List Node → Bool
  | [] => true
  | n :: rest => parentsHoldBlocks n && allParentsHoldBlocks rest
termination_by structural nodes => nodes

end

@[simp] theorem marksAll_append (ns ms : List Node) :
    marksAll (ns ++ ms) = marksAll ns ++ marksAll ms := by
  induction ns with
  | nil => rfl
  | cons n rest ih => simp [marksAll, ih]

@[simp] theorem allParentsHoldBlocks_append (ns ms : List Node) :
    allParentsHoldBlocks (ns ++ ms) = (allParentsHoldBlocks ns && allParentsHoldBlocks ms) := by
  induction ns with
  | nil => rfl
  | cons n rest ih => simp [allParentsHoldBlocks, ih, Bool.and_assoc]

private theorem marks_ne_leave (n : Node) (after rest : List Mark) :
    n.marks ++ after ≠ .leave :: rest := by
  cases n <;> simp [marks]

mutual

private theorem marks_append_inj (n m : Node) (after rest : List Mark)
    (same : n.marks ++ after = m.marks ++ rest) : n = m ∧ after = rest := by
  cases n <;> cases m <;> simp [marks] at same
  case text => simpa using same
  case interpolation => simpa [and_assoc] using same
  case inclusion => simpa [and_assoc] using same
  case sect e inverted ns p f inverted' ms q =>
    obtain ⟨⟨⟨rfl, rfl⟩, rfl⟩, same⟩ := same
    obtain ⟨rfl, tails⟩ := marksAll_append_inj ns ms _ _ same
    exact ⟨rfl, tails⟩
  case block a ns p b ms q =>
    obtain ⟨⟨rfl, rfl⟩, same⟩ := same
    obtain ⟨rfl, tails⟩ := marksAll_append_inj ns ms _ _ same
    exact ⟨rfl, tails⟩
  case parent a i ns p b j ms q =>
    obtain ⟨⟨⟨rfl, rfl⟩, rfl⟩, same⟩ := same
    obtain ⟨rfl, tails⟩ := marksAll_append_inj ns ms _ _ same
    exact ⟨rfl, tails⟩
termination_by structural n

private theorem marksAll_append_inj (ns ms : List Node) (after rest : List Mark)
    (same : marksAll ns ++ .leave :: after = marksAll ms ++ .leave :: rest) :
    ns = ms ∧ after = rest := by
  cases ns with
  | nil =>
    cases ms with
    | nil => simpa [marksAll] using same
    | cons m ms =>
      rw [marksAll, marksAll, List.append_assoc] at same
      exact absurd same.symm (marks_ne_leave m _ _)
  | cons n ns =>
    cases ms with
    | nil =>
      rw [marksAll, marksAll, List.append_assoc] at same
      exact absurd same (marks_ne_leave n _ _)
    | cons m ms =>
      rw [marksAll, marksAll, List.append_assoc, List.append_assoc] at same
      obtain ⟨rfl, others⟩ := marks_append_inj n m _ _ same
      obtain ⟨rfl, tails⟩ := marksAll_append_inj ns ms _ _ others
      exact ⟨rfl, tails⟩
termination_by structural ns

end

/-- Nodes with the same marks are the same nodes. -/
theorem marksAll_injective {ns ms : List Node} (same : marksAll ns = marksAll ms) : ns = ms :=
  (marksAll_append_inj ns ms [] [] (by rw [same])).1

end Node

namespace TagKind

/-- Whether scopes of these kinds, the innermost first, all stay in a tree: directly
inside a parent only a block does. -/
def allKept : List TagKind → Bool
  | [] => true
  | kind :: outer => (kind == block || outer.head? != some parent) && allKept outer

end TagKind

namespace Token

/-- Whether a token's mark stays in the tree where the given tags are open. -/
def isKept (opened : List Tag) : Token → Bool
  | text _ => opened.head?.map Tag.kind != some .parent && TagKind.allKept (opened.map Tag.kind)
  | tag t =>
    if t.kind = .closing then TagKind.allKept (opened.map Tag.kind)
    else TagKind.allKept (t.kind :: opened.map Tag.kind)

/-- The mark of a token; comments, delimiters and pragmas have none. -/
def mark? : Token → Option Mark
  | text s => some (.text s)
  | tag t =>
    match t.kind with
    | .interpolation escaped =>
      (Expression.parse t.content).toOption.map (.interpolation · escaped t.position)
    | .inclusion => some (.inclusion t.content t.indent t.position)
    | .closing => some .leave
    | _ => t.opening?.map (.enter · t.position)

/-- The marks that stay in the tree, when the given tags are open at first. -/
def keptMarks (opened : List Tag) : List Token → List Mark
  | [] => []
  | t :: rest =>
    (if t.isKept opened then t.mark?.toList else []) ++ keptMarks (t.openAfter opened) rest

end Token

theorem OpenScope.add_eq (s : OpenScope) (n : Node) :
    s.add n = if n.isBlock || s.opening.kind != .parent then
      { s with nodes := s.nodes ++ [n] } else s := by
  unfold add
  cases s.opening <;> simp [Opening.kind]

private theorem OpenScope.marks_toNode (s : OpenScope) :
    s.toNode.marks = .enter s.opening s.position :: Node.marksAll s.nodes ++ [.leave] := by
  unfold toNode
  split <;> rename_i opening <;> simp [Node.marks, opening]

theorem OpenScope.isBlock_toNode (s : OpenScope) :
    s.toNode.isBlock = (s.opening.kind == .block) := by
  unfold toNode
  split <;> rename_i opening <;> simp [Node.isBlock, Opening.kind, opening]

namespace Builder

def kinds (scopes : List OpenScope) : List TagKind :=
  scopes.map (·.opening.kind)

/-- What a builder has written so far, less the scopes that will not stay. -/
def written (nodes : List Node) : List OpenScope → List Mark
  | [] => Node.marksAll nodes
  | s :: outer =>
    written nodes outer ++
      if TagKind.allKept (kinds (s :: outer)) then
        .enter s.opening s.position :: Node.marksAll s.nodes
      else []

private theorem Follows.kinds_eq {b : Builder} {opened : List Tag} (follows : b.Follows opened) :
    kinds b.scopes = opened.map Tag.kind := by
  unfold Follows at follows
  generalize b.scopes = scopes at follows
  induction scopes generalizing opened with
  | nil =>
    cases opened with
    | nil => rfl
    | cons opener outer => simp at follows
  | cons s scopes ih =>
    cases opened with
    | nil => simp at follows
    | cons opener outer =>
      obtain ⟨opens, others⟩ := List.cons.inj follows
      have kind := Tag.kind_of_opening opens.symm
      simp [kinds, kind] at ih ⊢
      exact ih others

/-- A node is written where it stays, and leaves everything else as it was. -/
theorem written_add (b : Builder) (n : Node) :
    written (b.add n).nodes (b.add n).scopes = written b.nodes b.scopes ++
      if (n.isBlock || (kinds b.scopes).head? != some .parent) && TagKind.allKept (kinds b.scopes)
      then n.marks else [] := by
  unfold add
  cases scopes : b.scopes with
  | nil => simp [written, kinds, TagKind.allKept, Node.marksAll]
  | cons s outer =>
    have head : ((kinds (s :: outer)).head? != some .parent) = (s.opening.kind != .parent) := by
      simp [kinds, bne]
    simp only [OpenScope.add_eq, head]
    by_cases fits : (n.isBlock || s.opening.kind != .parent) = true
    · have same : kinds ({ s with nodes := s.nodes ++ [n] } :: outer) = kinds (s :: outer) := rfl
      by_cases kept : TagKind.allKept (kinds (s :: outer)) = true
      · simp [fits, kept, same, written, Node.marksAll]
      · simp [fits, kept, same, written]
    · simp only [fits, Bool.false_and, Bool.false_eq_true, ↓reduceIte, List.append_nil]

theorem Step.written_eq {b b' : Builder} {t : Tag} {opened : List Tag} (step : Step b t b')
    (follows : b.Follows opened) :
    written b'.nodes b'.scopes = written b.nodes b.scopes ++
      if (Token.tag t).isKept opened then (Token.tag t).mark?.toList else [] := by
  have kinds := follows.kinds_eq
  unfold Token.isKept
  rw [← kinds]
  cases step with
  | interpolation kind parsed =>
    rw [written_add]
    simp [kind, parsed, Except.toOption, Token.mark?, TagKind.allKept, Node.isBlock, Node.marks]
  | @enter o opens holds room =>
    have kind := Tag.kind_of_opening opens
    have mark : (Token.tag t).mark? = some (.enter o t.position) := by
      cases o <;> simp [Token.mark?, kind, Opening.kind, opens]
    have scope : o.kind ≠ .closing := by
      cases o <;> simp [Opening.kind]
    simp [Builder.enter, written, Builder.kinds, mark, scope, kind, Node.marksAll]
  | @leave s outer kind scopes closed =>
    rw [written_add, scopes]
    simp only [written, OpenScope.isBlock_toNode, OpenScope.marks_toNode, List.append_assoc]
    congr 1
    have kept : TagKind.allKept (Builder.kinds (s :: outer)) =
        ((s.opening.kind == .block || (Builder.kinds outer).head? != some .parent) &&
          TagKind.allKept (Builder.kinds outer)) := rfl
    rw [← kept]
    split <;> simp_all [Token.mark?]
  | inclusion kind holds =>
    rw [written_add]
    simp [kind, Token.mark?, TagKind.allKept, Node.isBlock, Node.marks]
  | pragma kind => simp [Token.mark?, Tag.opening?, kind]
  | skip kind => rcases kind with kind | ⟨next, kind⟩ <;> simp [Token.mark?, Tag.opening?, kind]

private theorem written_addToken {b b' : Builder} {t : Token} {opened : List Tag}
    (follows : b.Follows opened) (taken : b.addToken t = .ok b') :
    written b'.nodes b'.scopes = written b.nodes b.scopes ++
      if t.isKept opened then t.mark?.toList else [] := by
  cases t with
  | text s =>
    obtain rfl := Except.ok.inj taken
    rw [written_add, Token.isKept, follows.kinds_eq]
    simp [Node.isBlock, Node.marks, Token.mark?]
  | tag t => exact (step_of_addTag taken).written_eq follows

theorem written_addTokens {b b' : Builder} {tokens : List Token} {opened : List Tag}
    (follows : b.Follows opened) (taken : b.addTokens tokens = .ok b') :
    written b'.nodes b'.scopes =
      written b.nodes b.scopes ++ Token.keptMarks opened tokens := by
  induction tokens generalizing b opened with
  | nil =>
    obtain rfl := Except.ok.inj taken
    simp [Token.keptMarks]
  | cons t rest ih =>
    unfold addTokens at taken
    split at taken
    · simp at taken
    · rename_i next first
      rw [ih (follows.addToken first) taken, written_addToken follows first, Token.keptMarks,
        List.append_assoc]

/-- A builder in which all parents hold blocks only, also those that are still open. -/
def HoldsBlocks (b : Builder) : Prop :=
  Node.allParentsHoldBlocks b.nodes = true ∧
    ∀ s ∈ b.scopes, s.toNode.parentsHoldBlocks = true

theorem HoldsBlocks.add {b : Builder} {n : Node} (holds : b.HoldsBlocks)
    (node : n.parentsHoldBlocks = true) : (b.add n).HoldsBlocks := by
  have scope (s : OpenScope) (before : s.toNode.parentsHoldBlocks = true) :
      (s.add n).toNode.parentsHoldBlocks = true := by
    rw [OpenScope.add_eq]
    split
    · rename_i fits
      unfold OpenScope.toNode at before ⊢
      cases opening : s.opening <;>
        simp_all [Node.parentsHoldBlocks, Node.allParentsHoldBlocks, Opening.kind]
    · exact before
  unfold Builder.add
  split
  · exact ⟨by simp [holds.1, node, Node.allParentsHoldBlocks], holds.2⟩
  · rename_i s outer scopes
    refine ⟨holds.1, ?_⟩
    intro other member
    rcases List.mem_cons.mp member with rfl | member
    · exact scope s (holds.2 s (by simp [scopes]))
    · exact holds.2 other (by simp [scopes, member])

private theorem Step.holdsBlocks {b b' : Builder} {t : Tag} (step : Step b t b')
    (holds : b.HoldsBlocks) : b'.HoldsBlocks := by
  cases step with
  | interpolation kind parsed => exact holds.add rfl
  | @enter o opens content room =>
    refine ⟨holds.1, ?_⟩
    intro s member
    rcases List.mem_cons.mp member with rfl | member
    · cases o <;> rfl
    · exact holds.2 s member
  | @leave s outer kind scopes closed =>
    refine HoldsBlocks.add ⟨holds.1, ?_⟩ (holds.2 s (by simp [scopes]))
    intro other member
    exact holds.2 other (by simp [scopes, member])
  | inclusion kind content => exact holds.add rfl
  | pragma kind => exact holds
  | skip kind => exact holds

@[simp] theorem contentType_add (b : Builder) (n : Node) :
    (b.add n).contentType = b.contentType := by
  unfold add
  split <;> rfl

private theorem Step.contentType_eq {b b' : Builder} {t : Tag} (step : Step b t b') :
    b'.contentType = (Token.tag t).contentType?.getD b.contentType := by
  cases step with
  | interpolation kind parsed => simp [Token.contentType?, kind]
  | @enter o opens holds room =>
    have kind := Tag.kind_of_opening opens
    cases o <;> simp [Builder.enter, Token.contentType?, kind, Opening.kind]
  | leave kind scopes closed => simp [Token.contentType?, kind]
  | inclusion kind holds => simp [Token.contentType?, kind]
  | pragma kind =>
    simp only [Token.contentType?, kind]
    cases Pragma.read t.content <;> rfl
  | skip kind => rcases kind with kind | ⟨next, kind⟩ <;> simp [Token.contentType?, kind]

/-- A run keeps to blocks in parents, and its content type is the last one that a token
sets. -/
theorem holdsBlocks_addTokens {b b' : Builder} {tokens : List Token}
    (taken : b.addTokens tokens = .ok b') (holds : b.HoldsBlocks) :
    b'.HoldsBlocks ∧
      b'.contentType = (tokens.filterMap Token.contentType?).getLast?.getD b.contentType := by
  induction tokens generalizing b with
  | nil =>
    obtain rfl := Except.ok.inj taken
    exact ⟨holds, rfl⟩
  | cons t rest ih =>
    unfold addTokens at taken
    split at taken
    · simp at taken
    · rename_i next first
      have kept : next.HoldsBlocks ∧ next.contentType = t.contentType?.getD b.contentType := by
        cases t with
        | text s =>
          obtain rfl := Except.ok.inj first
          exact ⟨holds.add rfl, contentType_add b _⟩
        | tag t =>
          have step := step_of_addTag first
          exact ⟨step.holdsBlocks holds, step.contentType_eq⟩
      obtain ⟨blocks, contentType⟩ := ih taken kept.1
      refine ⟨blocks, ?_⟩
      rw [contentType, kept.2, List.filterMap_cons]
      cases t.contentType? with
      | none => rfl
      | some c => simp [List.getLast?_cons]

end Builder

namespace Template

/-- Compiling succeeds exactly on a source without a scanning fault whose tokens are well
nested. The template is then the one tree whose marks in preorder are those of the
tokens that stay; its parents hold blocks only, and its content type is the last one
that a pragma sets. -/
theorem compile_preorder (config : Configuration) (source : String) :
    ((∃ t, compile config source = .ok t) ↔
      (Scan.ofSource config.delimiters source).error = none ∧
        Token.WellNested (Scan.ofSource config.delimiters source).tokens) ∧
    ∀ t, compile config source = .ok t →
      (∀ nodes, Node.marksAll nodes =
        Token.keptMarks [] (Scan.ofSource config.delimiters source).tokens ↔ nodes = t.nodes) ∧
      Node.allParentsHoldBlocks t.nodes = true ∧
      ∀ c, Token.LastType config.contentType (Scan.ofSource config.delimiters source).tokens c ↔
        c = t.contentType := by
  refine ⟨exists_ofScan_iff, ?_⟩
  intro t compiled
  obtain ⟨b, taken, -, done, rfl⟩ := ofScan_eq_ok_iff.mp compiled
  have initially : (Builder.start config.contentType).Follows [] := rfl
  have written := Builder.written_addTokens initially taken
  rw [done] at written
  obtain ⟨blocks, contentType⟩ := Builder.holdsBlocks_addTokens taken ⟨rfl, by simp [Builder.start]⟩
  refine ⟨?_, blocks.1, ?_⟩
  · intro nodes
    have marks : Node.marksAll b.nodes =
        Token.keptMarks [] (Scan.ofSource config.delimiters source).tokens := written
    rw [← marks]
    constructor
    · exact Node.marksAll_injective
    · intro same
      rw [same]
  · intro c
    rw [Token.lastType_iff, eq_comm, contentType]
    rfl

/-- A text directly inside a parent goes and the block stays; of two pragmas the last one sets no
type. -/
theorem compile_preorder_parent :
    let source := "\x7b\x7b%CONTENT_TYPE: TEXT\x7d\x7d\x7b\x7b<p\x7d\x7dx\x7b\x7b$b\x7d\x7d" ++
      "\x7b\x7b/b\x7d\x7d\x7b\x7b/p\x7d\x7d\x7b\x7b%a:HTML\x7d\x7d"
    let tokens := (Scan.ofSource .braces source).tokens
    let t : Template := ⟨[.parent "p" "" [.block "b" [] ⟨1, 31, 30⟩] ⟨1, 24, 23⟩], .text⟩
    compile {} source = .ok t ∧ Token.LastType .html tokens .text ∧
      Token.keptMarks [] tokens = [.enter (.parent "p" "") ⟨1, 24, 23⟩,
        .enter (.block "b") ⟨1, 31, 30⟩, .leave, .leave] := by
  intro source tokens t
  have scanned : Scan.ofSource .braces source =
      ⟨[.tag ⟨.pragma, "CONTENT_TYPE: TEXT", ⟨1, 1, 0⟩, "\x7b\x7b%CONTENT_TYPE: TEXT\x7d\x7d", none⟩,
        .tag ⟨.parent, "p", ⟨1, 24, 23⟩, "\x7b\x7b<p\x7d\x7d", none⟩, .text "x",
        .tag ⟨.block, "b", ⟨1, 31, 30⟩, "\x7b\x7b$b\x7d\x7d", none⟩,
        .tag ⟨.closing, "b", ⟨1, 37, 36⟩, "\x7b\x7b/b\x7d\x7d", none⟩,
        .tag ⟨.closing, "p", ⟨1, 43, 42⟩, "\x7b\x7b/p\x7d\x7d", none⟩,
        .tag ⟨.pragma, "a:HTML", ⟨1, 49, 48⟩, "\x7b\x7b%a:HTML\x7d\x7d", none⟩], none⟩ := by
    decide +kernel
  have compiled : compile {} source = .ok t := by
    rw [compile, show Configuration.delimiters {} = .braces from rfl, scanned]
    rfl
  obtain ⟨nodes, -, types⟩ := (compile_preorder {} source).2 t compiled
  exact ⟨compiled, (types .text).mpr rfl, ((nodes t.nodes).mpr rfl).symm⟩

end Template

end Mustache
