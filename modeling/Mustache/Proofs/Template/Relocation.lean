import Mustache.Proofs.Template.Spelling
import Mustache.Proofs.Token.Relocation

namespace Mustache

namespace Node

mutual

/-- The node with all its tags at other places. -/
def relocate (move : Position → Position) : Node → Node
  | text s => text s
  | interpolation e escaped p => interpolation e escaped (move p)
  | sect e inverted nodes p => sect e inverted (relocateAll move nodes) (move p)
  | inclusion name indent p => inclusion name indent (move p)
  | block name nodes p => block name (relocateAll move nodes) (move p)
  | parent name indent overrides p => parent name indent (relocateAll move overrides) (move p)
termination_by structural n => n

def relocateAll (move : Position → Position) : List Node → List Node
  | [] => []
  | n :: rest => relocate move n :: relocateAll move rest
termination_by structural nodes => nodes

end

theorem relocateAll_eq_map (move : Position → Position) (nodes : List Node) :
    relocateAll move nodes = nodes.map (relocate move) := by
  induction nodes with
  | nil => rfl
  | cons n rest ih => simp only [relocateAll, List.map_cons, ih]

mutual

private theorem relocate_id (n : Node) : n.relocate (fun p => p) = n := by
  cases n <;> simp only [relocate]
  case sect e inverted nodes p => rw [relocateAll_id nodes]
  case block name nodes p => rw [relocateAll_id nodes]
  case parent name indent overrides p => rw [relocateAll_id overrides]
termination_by structural n

theorem relocateAll_id (nodes : List Node) : relocateAll (fun p => p) nodes = nodes := by
  cases nodes with
  | nil => rfl
  | cons n rest => rw [relocateAll, relocate_id n, relocateAll_id rest]
termination_by structural nodes

end

end Node

variable {move : Position → Position}

def OpenScope.relocate (move : Position → Position) (s : OpenScope) : OpenScope :=
  { s with position := move s.position, nodes := Node.relocateAll move s.nodes }

def Builder.relocate (move : Position → Position) (b : Builder) : Builder :=
  { b with scopes := b.scopes.map (·.relocate move), nodes := Node.relocateAll move b.nodes }

def Template.relocate (move : Position → Position) (t : Template) : Template :=
  { t with nodes := Node.relocateAll move t.nodes }

private theorem OpenScope.relocate_add (s : OpenScope) (n : Node) :
    (s.add n).relocate move = (s.relocate move).add (n.relocate move) := by
  have kind : (n.relocate move).isBlock = n.isBlock := by
    cases n <;> rfl
  simp only [add_eq, relocate, kind]
  split
  · simp only [Node.relocateAll_eq_map, List.map_append, List.map_cons, List.map_nil]
  · rfl

private theorem OpenScope.relocate_toNode (s : OpenScope) :
    s.toNode.relocate move = (s.relocate move).toNode := by
  unfold toNode relocate
  cases s.opening <;> rfl

namespace Builder

private theorem relocate_add (b : Builder) (n : Node) :
    (b.add n).relocate move = (b.relocate move).add (n.relocate move) := by
  unfold add
  cases scopes : b.scopes with
  | nil =>
    simp only [relocate, scopes, List.map_nil, Node.relocateAll_eq_map, List.map_append,
      List.map_cons]
  | cons s outer => simp only [relocate, scopes, List.map_cons, OpenScope.relocate_add]

private theorem expression_relocate (t : Tag) :
    expression (t.relocate move) = (expression t).mapError (·.relocate move) := by
  unfold expression Tag.relocate
  cases Expression.parse t.content <;> rfl

private theorem name_relocate (t : Tag) :
    Builder.name (t.relocate move) = (Builder.name t).mapError (·.relocate move) := by
  unfold Builder.name Tag.relocate
  split <;> rfl

private theorem close_relocate (b : Builder) (t : Tag) :
    (b.relocate move).close (t.relocate move) =
      ((b.close t).map (·.relocate move)).mapError (·.relocate move) := by
  unfold close
  cases scopes : b.scopes with
  | nil => simp [relocate, scopes, Tag.relocate, SyntaxError.relocate, Except.map, Except.mapError]
  | cons s outer =>
    have closed : (s.relocate move).isClosedBy t.content = s.isClosedBy t.content := rfl
    have added := @relocate_add move { b with scopes := outer } s.toNode
    rw [OpenScope.relocate_toNode] at added
    simp only [relocate, scopes, List.map_cons, Tag.relocate, closed]
    split
    · exact congrArg Except.ok added.symm
    · rfl

/-- A builder takes a tag at another place as it takes the tag, or refuses it there. -/
theorem addTag_relocate (b : Builder) (t : Tag) :
    (b.relocate move).addTag (t.relocate move) =
      ((b.addTag t).map (·.relocate move)).mapError (·.relocate move) := by
  have room : (b.relocate move).scopes.length = b.scopes.length := List.length_map _
  have kind : (t.relocate move).kind = t.kind := rfl
  unfold addTag
  rw [room, kind]
  split
  · rfl
  · cases t.kind with
    | interpolation escaped =>
      simp only [expression_relocate]
      cases expression t with
      | error e => rfl
      | ok e => exact congrArg Except.ok (relocate_add b (.interpolation e escaped t.position)).symm
    | sect inverted =>
      simp only [expression_relocate]
      cases expression t <;> rfl
    | block | parent =>
      simp only [name_relocate]
      cases Builder.name t <;> rfl
    | inclusion =>
      simp only [name_relocate]
      cases Builder.name t with
      | error e => rfl
      | ok name => exact congrArg Except.ok (relocate_add b (.inclusion name t.indent t.position)).symm
    | closing => exact close_relocate b t
    | _ => rfl

private theorem addTokens_relocate (b : Builder) (tokens : List Token) :
    (b.relocate move).addTokens (tokens.map (·.relocate move)) =
      ((b.addTokens tokens).map (·.relocate move)).mapError (·.relocate move) := by
  induction tokens generalizing b with
  | nil => rfl
  | cons t rest ih =>
    have first : (b.relocate move).addToken (t.relocate move) =
        ((b.addToken t).map (·.relocate move)).mapError (·.relocate move) := by
      cases t with
      | text s => exact congrArg Except.ok (relocate_add b (.text s)).symm
      | tag t => exact addTag_relocate b t
    simp only [List.map_cons, addTokens, first]
    cases b.addToken t with
    | error e => rfl
    | ok next => exact ih next

private theorem finish_relocate (b : Builder) :
    (b.relocate move).finish = (b.finish.map (·.relocate move)).mapError (·.relocate move) := by
  unfold finish
  cases scopes : b.scopes with
  | nil => simp [relocate, scopes, Template.relocate, Except.map, Except.mapError]
  | cons s outer =>
    simp only [relocate, scopes, List.map_cons]
    rfl

end Builder

namespace Template

/-- Tokens at other places give the tree with its tags there, or the first fault there. -/
theorem ofScan_relocate (move : Position → Position) (contentType : ContentType) (scan : Scan) :
    ofScan contentType (scan.relocate move) =
      ((ofScan contentType scan).map (·.relocate move)).mapError (·.relocate move) := by
  have built := @Builder.addTokens_relocate move (.start contentType) scan.tokens
  have start : (Builder.start contentType).relocate move = .start contentType := rfl
  rw [start] at built
  simp only [ofScan, Scan.relocate, built]
  cases (Builder.start contentType).addTokens scan.tokens with
  | error e => rfl
  | ok b =>
    cases scan.error with
    | none => exact b.finish_relocate
    | some e => rfl

end Template

theorem Template.SpelledBy.relocate {t : Template} {contentType : ContentType} {scan : Scan}
    (spelled : t.SpelledBy contentType scan) (move : Position → Position) :
    (t.relocate move).SpelledBy contentType (scan.relocate move) := by
  refine spelledBy_of_ofScan ?_
  rw [ofScan_relocate, ofScan_eq_ok_iff_spelledBy.mpr spelled]
  rfl

end Mustache
