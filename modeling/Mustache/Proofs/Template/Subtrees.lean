import Mustache.Proofs.Template.Spelling
import Mustache.Proofs.Token.Regions

namespace Mustache

namespace Node

mutual

def subtree : Node → List Node
  | text s => [text s]
  | interpolation e escaped p => [interpolation e escaped p]
  | sect e inverted nodes p => sect e inverted nodes p :: subtrees nodes
  | inclusion name indent p => [inclusion name indent p]
  | block name nodes p => block name nodes p :: subtrees nodes
  | parent name indent overrides p => parent name indent overrides p :: subtrees overrides
termination_by structural n => n

def subtrees : List Node → List Node
  | [] => []
  | n :: rest => subtree n ++ subtrees rest
termination_by structural nodes => nodes

end

/-- The nodes directly inside a node. -/
def children : Node → List Node
  | sect _ _ nodes _ => nodes
  | block _ nodes _ => nodes
  | parent _ _ overrides _ => overrides
  | _ => []

private theorem subtree_eq (n : Node) : n.subtree = n :: subtrees n.children := by
  cases n <;> rfl

theorem mem_subtrees_iff {n : Node} {nodes : List Node} :
    n ∈ subtrees nodes ↔ ∃ m ∈ nodes, n ∈ m.subtree := by
  induction nodes with
  | nil => simp [subtrees]
  | cons m rest ih => simp [subtrees, ih]

theorem mem_subtrees_of_mem {n : Node} {nodes : List Node} (member : n ∈ nodes) :
    n ∈ subtrees nodes :=
  mem_subtrees_iff.mpr ⟨n, member, by simp [subtree_eq n]⟩

mutual

private theorem mem_subtree_trans {n child : Node} (m : Node) (inside : n ∈ m.subtree)
    (member : child ∈ n.children) : child ∈ m.subtree := by
  rw [subtree_eq, List.mem_cons] at inside ⊢
  right
  rcases inside with rfl | deeper
  · exact mem_subtrees_of_mem member
  · cases m with
    | sect e inverted nodes p => exact mem_subtrees_trans nodes deeper member
    | block name nodes p => exact mem_subtrees_trans nodes deeper member
    | parent name indent overrides p => exact mem_subtrees_trans overrides deeper member
    | _ => cases deeper
termination_by structural m

theorem mem_subtrees_trans {n child : Node} (nodes : List Node) (inside : n ∈ subtrees nodes)
    (member : child ∈ n.children) : child ∈ subtrees nodes := by
  cases nodes with
  | nil => cases inside
  | cons m rest =>
    rw [subtrees, List.mem_append] at inside ⊢
    rcases inside with first | later
    · exact .inl (mem_subtree_trans m first member)
    · exact .inr (mem_subtrees_trans rest later member)
termination_by structural nodes

end

def mark : Node → Mark
  | text s => .text s
  | interpolation e escaped p => .interpolation e escaped p
  | sect e inverted _ p => .enter (.sect e inverted) p
  | inclusion name indent p => .inclusion name indent p
  | block name _ p => .enter (.block name) p
  | parent name indent _ p => .enter (.parent name indent) p

mutual

private theorem mark_mem_marks {n : Node} (m : Node) (inside : n ∈ m.subtree) :
    n.mark ∈ m.marks := by
  rw [subtree_eq, List.mem_cons] at inside
  rcases inside with rfl | deeper
  · cases n <;> simp [mark, marks]
  · cases m with
    | sect e inverted nodes p => simp [marks, mark_mem_marksAll nodes deeper]
    | block name nodes p => simp [marks, mark_mem_marksAll nodes deeper]
    | parent name indent overrides p => simp [marks, mark_mem_marksAll overrides deeper]
    | _ => cases deeper
termination_by structural m

private theorem mark_mem_marksAll {n : Node} (nodes : List Node) (inside : n ∈ subtrees nodes) :
    n.mark ∈ marksAll nodes := by
  cases nodes with
  | nil => cases inside
  | cons m rest =>
    rw [subtrees, List.mem_append] at inside
    rw [marksAll, List.mem_append]
    rcases inside with first | later
    · exact .inl (mark_mem_marks m first)
    · exact .inr (mark_mem_marksAll rest later)
termination_by structural nodes

end

end Node

private theorem Token.exists_mem_of_keptMarks {m : Mark} {opened : List Tag} {tokens : List Token}
    (kept : m ∈ keptMarks opened tokens) : ∃ t ∈ tokens, t.mark? = some m := by
  induction tokens generalizing opened with
  | nil => cases kept
  | cons t rest ih =>
    rw [keptMarks, List.mem_append] at kept
    rcases kept with first | later
    · split at first
      · exact ⟨t, List.mem_cons_self, Option.mem_toList.mp first⟩
      · cases first
    · obtain ⟨u, member, same⟩ := ih later
      exact ⟨u, List.mem_cons_of_mem t member, same⟩

/-- Every node of a compiled template has the mark of a token of its source. -/
theorem Template.SpelledBy.exists_token {t : Template} {contentType : ContentType} {scan : Scan}
    (spelled : t.SpelledBy contentType scan) {n : Node} (inside : n ∈ Node.subtrees t.nodes) :
    ∃ token ∈ scan.tokens, token.mark? = some n.mark := by
  have marked := Node.mark_mem_marksAll t.nodes inside
  rw [spelled.marks] at marked
  exact Token.exists_mem_of_keptMarks marked

theorem Scan.isMargin_of_mem_indent (s : Scanner) {t : Tag}
    (member : .tag t ∈ (ofScanner s).tokens) {c : Char} (indent : c ∈ t.indent.toList) :
    isMargin c = true := by
  induction s using ofScanner.induct with
  | case1 s text step =>
    rw [ofScanner_of_done step] at member
    unfold ofText at member
    split at member <;> simp at member
  | case2 s e step =>
    rw [ofScanner_of_fault step] at member
    cases member
  | case3 s text tag next step ih =>
    rw [ofScanner_of_tag step] at member
    have later : .tag t ∈ ofText text → False := by
      unfold ofText
      split <;> simp
    rcases List.mem_append.mp member with before | here
    · exact (later before).elim
    · rcases List.mem_cons.mp here with same | behind
      · cases Token.tag.inj same
        have read := (Scanner.found_of_step step).read
        unfold Tag.indent at indent
        split at indent
        · rename_i m margins
          exact isMargin_iff.mpr ((read.margins m margins).indent c indent)
        · simp at indent
      · exact ih behind

namespace Node

/-- The indentation that an inclusion or a parent gives to what it includes. -/
def indent : Node → String
  | inclusion _ indent _ => indent
  | parent _ indent _ _ => indent
  | _ => ""

end Node

private theorem Token.opening_of_mark? {t : Tag} {o : Opening} {p : Position}
    (marked : (Token.tag t).mark? = some (.enter o p)) : t.opening? = some o := by
  simp only [mark?] at marked
  split at marked
  · obtain ⟨e, -, other⟩ := Option.map_eq_some_iff.mp marked
    cases other
  · cases marked
  · cases marked
  · obtain ⟨opening, opens, same⟩ := Option.map_eq_some_iff.mp marked
    cases same
    exact opens

theorem Token.indent_of_mark? {t : Token} {n : Node} (marked : t.mark? = some n.mark) :
    n.indent = "" ∨ ∃ tag, t = .tag tag ∧ n.indent = tag.indent := by
  cases t with
  | text s =>
    cases n <;> simp [mark?, Node.mark] at marked
    exact .inl rfl
  | tag t =>
    cases n with
    | inclusion name indent p =>
      right
      refine ⟨t, rfl, ?_⟩
      unfold mark? at marked
      cases kind : t.kind <;> simp_all [Node.mark, Node.indent]
    | parent name indent overrides p =>
      right
      refine ⟨t, rfl, ?_⟩
      have opens := opening_of_mark? marked
      have kind := Tag.kind_of_opening opens
      simp only [Tag.opening?, kind, Opening.kind, Option.some.injEq, Opening.parent.injEq] at opens
      exact opens.2.symm
    | _ => exact .inl rfl

theorem Template.SpelledBy.isMargin_of_mem_indent {t : Template} {contentType : ContentType}
    {s : Scanner} (spelled : t.SpelledBy contentType (Scan.ofScanner s)) {n : Node}
    (inside : n ∈ Node.subtrees t.nodes) {c : Char} (member : c ∈ n.indent.toList) :
    isMargin c = true := by
  obtain ⟨token, present, marked⟩ := spelled.exists_token inside
  rcases Token.indent_of_mark? marked with none | ⟨tag, rfl, same⟩
  · simp [none] at member
  · exact Scan.isMargin_of_mem_indent s present (same ▸ member)

end Mustache
