import Mathlib
import Mustache.Proofs.Template.Subtrees
import Mustache.Proofs.Token.Progress

namespace Mustache

open Text (NoneStarts)

namespace Scan

/-- The opener of a tag stands at a place of the source: it is the first one, behind what the tokens
before the tag stand for, of the delimiters in effect there. -/
def OpensAt (d : Delimiters) (source : String) (before : List Token) (p : Position) : Prop :=
  ∃ skipped rest, source.toList = before.flatMap Token.source ++ skipped ++
      ((before.foldl Token.delimitersAfter d).opener.toList ++ rest) ∧
    NoneStarts (before.foldl Token.delimitersAfter d).opener.toList skipped
      ((before.foldl Token.delimitersAfter d).opener.toList ++ rest) ∧
    p = .behind (before.flatMap Token.source ++ skipped)

theorem opensAt_of_split {d : Delimiters} {source : String} {before behind : List Token} {tag : Tag}
    (split : (ofSource d source).tokens = before ++ .tag tag :: behind) :
    OpensAt d source before tag.position := by
  obtain ⟨earlier, text, finder, next, reads, step, rfl, -⟩ :=
    everywhere_reads (.start d source) before (.tag tag) behind split tag rfl
  have found := Scanner.found_of_step step
  obtain ⟨span, lexeme, -⟩ := found.read.span
  have read := reads.hasRead (Scanner.hasRead_start d source)
  have whole : source.toList = _ := reads.rest_eq
  have delimiters : finder.delimiters =
      (earlier ++ ofText text).foldl Token.delimitersAfter d := by
    rw [List.foldl_append, foldl_delimitersAfter_ofText]
    exact reads.delimiters_eq
  have none := found.read.indent
  rw [lexeme, delimiters, List.append_assoc, List.append_assoc] at none
  refine ⟨tag.indent.toList, span ++ (tag.trailing ++ next.rest), ?_, none, ?_⟩
  · rw [whole, found.whole, Tag.region, lexeme, delimiters]
    simp [flatMap_source_ofText]
  · rw [(Scanner.position_of_step step).1, read.position, ← Position.advance_start,
      ← Position.advance_append, Position.advance_start]
    simp [flatMap_source_ofText]

/-- The place of the scan's fault is that of the opener of the tag that could not be read. -/
theorem opensAt_of_error {d : Delimiters} {source : String} {e : SyntaxError}
    (failed : (ofSource d source).error = some e) :
    OpensAt d source (ofSource d source).tokens e.position := by
  obtain ⟨earlier, last, reads, ⟨text, -, whole⟩ | ⟨fault, step, scan⟩⟩ :=
    exists_end (.start d source)
  · rw [ofSource, whole] at failed
    cases failed
  · rw [ofSource, scan] at failed ⊢
    obtain rfl := Option.some.inj failed
    obtain ⟨text, inner, cause, opener, -, rfl⟩ := Scanner.exists_read_of_fault step
    have whole := Text.eq_append_of_cut opener
    have first := Text.firstAfter_of_cut opener
    rw [whole, List.append_assoc] at first
    have read := reads.hasRead (Scanner.hasRead_start d source)
    have delimiters : last.delimiters = earlier.foldl Token.delimitersAfter d :=
      reads.delimiters_eq
    rw [delimiters] at first whole
    have rest : source.toList = _ := reads.rest_eq
    refine ⟨text, inner, by rw [rest, whole]; simp, first.noneStarts, ?_⟩
    simp only
    rw [read.position, ← Position.advance_start, ← Position.advance_append, Position.advance_start]
    rfl

end Scan

def Token.position? : Token → Option Position
  | text _ => none
  | tag t => some t.position

namespace Scan

theorem pairwise_position (s : Scanner) :
    ((ofScanner s).tokens.filterMap Token.position?).Pairwise fun p q => p.offset < q.offset := by
  have textless (text : List Char) : (ofText text).filterMap Token.position? = [] := by
    unfold ofText
    split <;> rfl
  induction s using ofScanner.induct with
  | case1 s text step => simp [ofScanner_of_done step, textless]
  | case2 s e step => simp [ofScanner_of_fault step]
  | case3 s text tag next step ih =>
    rw [ofScanner_of_tag step, List.filterMap_append, textless, List.nil_append]
    refine List.pairwise_cons.mpr ⟨?_, ih⟩
    intro q later
    obtain ⟨token, member, place⟩ := List.mem_filterMap.mp later
    cases token with
    | text s => cases place
    | tag other =>
      obtain rfl := Option.some.inj place
      exact Nat.lt_of_lt_of_le (Scanner.offset_lt_next step) (next.offset_le_of_mem member)

end Scan

namespace Node

def position? : Node → Option Position
  | text _ => none
  | interpolation _ _ p => some p
  | sect _ _ _ p => some p
  | inclusion _ _ p => some p
  | block _ _ p => some p
  | parent _ _ _ p => some p

end Node

/-- The place of the tag that a mark begins with. -/
def Mark.position? : Mark → Option Position
  | text _ => none
  | interpolation _ _ p => some p
  | inclusion _ _ p => some p
  | enter _ p => some p
  | leave => none

namespace Node

mutual

private theorem positions_subtree (n : Node) :
    n.subtree.filterMap position? = n.marks.filterMap Mark.position? := by
  cases n with
  | text s => rfl
  | interpolation e escaped p => rfl
  | inclusion name indent p => rfl
  | sect e inverted nodes p =>
    simp [subtree, marks, position?, Mark.position?, positions_subtrees nodes]
  | block name nodes p =>
    simp [subtree, marks, position?, Mark.position?, positions_subtrees nodes]
  | parent name indent overrides p =>
    simp [subtree, marks, position?, Mark.position?, positions_subtrees overrides]
termination_by structural n

theorem positions_subtrees (nodes : List Node) :
    (subtrees nodes).filterMap position? = (marksAll nodes).filterMap Mark.position? := by
  cases nodes with
  | nil => rfl
  | cons n rest =>
    rw [subtrees, marksAll, List.filterMap_append, List.filterMap_append, positions_subtree n,
      positions_subtrees rest]
termination_by structural nodes

end

private theorem position?_mark (n : Node) : n.mark.position? = n.position? := by
  cases n <;> rfl

end Node

namespace Token

theorem position_of_mark? {t : Token} {m : Mark} {p : Position} (marked : t.mark? = some m)
    (place : m.position? = some p) : t.position? = some p := by
  cases t with
  | text s =>
    obtain rfl := Option.some.inj marked
    cases place
  | tag t =>
    simp only [mark?] at marked
    split at marked
    · obtain ⟨e, -, rfl⟩ := Option.map_eq_some_iff.mp marked
      exact place
    · obtain rfl := Option.some.inj marked
      exact place
    · obtain rfl := Option.some.inj marked
      cases place
    · obtain ⟨opening, -, rfl⟩ := Option.map_eq_some_iff.mp marked
      exact place

private theorem positions_keptMarks (opened : List Tag) (tokens : List Token) :
    ((keptMarks opened tokens).filterMap Mark.position?).Sublist
      (tokens.filterMap position?) := by
  induction tokens generalizing opened with
  | nil => exact List.Sublist.slnil
  | cons t rest ih =>
    have first : ((if t.isKept opened then t.mark?.toList else []).filterMap
        Mark.position?).Sublist t.position?.toList := by
      split
      · cases marked : t.mark? with
        | none => simp
        | some m =>
          cases place : m.position? with
          | none => simp [place]
          | some p => simp [place, position_of_mark? marked place]
      · simp
    have split : (t :: rest).filterMap position? =
        t.position?.toList ++ rest.filterMap position? := by
      cases place : t.position? <;> simp [place]
    rw [keptMarks, List.filterMap_append, split]
    exact first.append (ih _)

theorem mem_of_mem_foldl_openAfter {t : Tag} {opened : List Tag} {tokens : List Token}
    (member : t ∈ tokens.foldl openAfter opened) : t ∈ opened ∨ .tag t ∈ tokens := by
  induction tokens generalizing opened with
  | nil => exact .inl member
  | cons token rest ih =>
    have here : t ∈ token.openAfter opened → t ∈ opened ∨ token = .tag t := by
      cases token with
      | text s => exact .inl
      | tag other =>
        simp only [openAfter]
        split
        · rw [List.mem_cons]
          rintro (rfl | before)
          · exact .inr rfl
          · exact .inl before
        · split
          · exact fun before => .inl (List.mem_of_mem_tail before)
          · exact .inl
    rcases ih member with first | later
    · exact (here first).imp_right fun same => by simp [same]
    · exact .inr (List.mem_cons_of_mem token later)

end Token

namespace Builder

theorem position_of_addTag_error {b : Builder} {t : Tag} {e : SyntaxError}
    (refused : b.addTag t = .error e) : e.position = t.position := by
  have named {e : SyntaxError} (failed : Builder.name t = .error e) : e.position = t.position := by
    unfold Builder.name at failed
    split at failed
    · obtain rfl := Except.error.inj failed
      rfl
    · cases failed
  have parsed {e : SyntaxError} (failed : expression t = .error e) : e.position = t.position := by
    unfold expression at failed
    split at failed
    · cases failed
    · obtain rfl := Except.error.inj failed
      rfl
  unfold addTag at refused
  split at refused
  · obtain rfl := Except.error.inj refused
    rfl
  · split at refused
    · exact parsed (bind_pure_eq_error_iff.mp refused)
    · exact parsed (bind_pure_eq_error_iff.mp refused)
    · exact named (bind_pure_eq_error_iff.mp refused)
    · exact named (bind_pure_eq_error_iff.mp refused)
    · unfold close at refused
      split at refused
      · obtain rfl := Except.error.inj refused
        rfl
      · split at refused
        · cases refused
        · obtain rfl := Except.error.inj refused
          rfl
    · exact named (bind_pure_eq_error_iff.mp refused)
    all_goals cases refused

end Builder

namespace Template

/-- What a fault of a compilation stands behind: the tokens before the tag that cannot be read,
before the tag that the builder refuses, or before the tag of the innermost scope left open. -/
inductive FaultBehind (contentType : ContentType) (scan : Scan) (e : SyntaxError) :
    List Token → Prop where
  | unread {b : Builder} (taken : (Builder.start contentType).addTokens scan.tokens = .ok b)
      (failed : scan.error = some e) : FaultBehind contentType scan e scan.tokens
  | refused {before behind : List Token} {tag : Tag} {b : Builder}
      (split : scan.tokens = before ++ .tag tag :: behind)
      (taken : (Builder.start contentType).addTokens before = .ok b)
      (refused : b.addTag tag = .error e) : FaultBehind contentType scan e before
  | unclosed {before behind : List Token} {tag : Tag} {outer : List Tag} {name : String}
      (whole : scan.error = none) (split : scan.tokens = before ++ .tag tag :: behind)
      (opened : Token.openTags scan.tokens = tag :: outer)
      (cause : e.cause = .unclosedSection name) : FaultBehind contentType scan e before

end Template

namespace Builder

/-- Tokens that are not all taken are taken up to a tag that is refused. -/
theorem exists_refused {b : Builder} {tokens : List Token} {e : SyntaxError}
    (failed : b.addTokens tokens = .error e) :
    ∃ before tag behind c, tokens = before ++ .tag tag :: behind ∧ b.addTokens before = .ok c ∧
      c.addTag tag = .error e := by
  induction tokens generalizing b with
  | nil => cases failed
  | cons t rest ih =>
    unfold addTokens at failed
    split at failed
    · rename_i cause first
      obtain rfl := Except.error.inj failed
      cases t with
      | text s => cases first
      | tag tag => exact ⟨[], tag, rest, b, rfl, rfl, first⟩
    · rename_i next first
      obtain ⟨before, tag, behind, c, rfl, taken, refused⟩ := ih failed
      exact ⟨t :: before, tag, behind, c, rfl, by simp only [addTokens, first, taken], refused⟩

end Builder

namespace Template

theorem exists_faultBehind {contentType : ContentType} {d : Delimiters} {source : String}
    {e : SyntaxError} (failed : ofScan contentType (.ofSource d source) = .error e) :
    ∃ before, FaultBehind contentType (.ofSource d source) e before ∧
      Scan.OpensAt d source before e.position := by
  unfold ofScan at failed
  split at failed
  · rename_i cause refused
    obtain rfl := Except.error.inj failed
    obtain ⟨before, tag, behind, b, split, taken, refused⟩ := Builder.exists_refused refused
    refine ⟨before, .refused split taken refused, ?_⟩
    rw [Builder.position_of_addTag_error refused]
    exact Scan.opensAt_of_split split
  · rename_i b taken
    split at failed
    · rename_i cause unread
      obtain rfl := Except.error.inj failed
      exact ⟨_, .unread taken unread, Scan.opensAt_of_error unread⟩
    · rename_i whole
      unfold Builder.finish at failed
      split at failed
      · cases failed
      · rename_i s scopes left
        obtain rfl := Except.error.inj failed
        have places : b.scopes.map OpenScope.position =
            (Token.openTags (Scan.ofSource d source).tokens).map Tag.position :=
          Builder.map_scopes_addTokens (fun _ _ => rfl) (fun _ _ _ => rfl) taken rfl
        cases opened : Token.openTags (Scan.ofSource d source).tokens with
        | nil =>
          rw [left, opened] at places
          cases places
        | cons tag outer =>
          have member : Token.tag tag ∈ (Scan.ofSource d source).tokens := by
            have among : tag ∈ Token.openTags (Scan.ofSource d source).tokens := by simp [opened]
            simpa using Token.mem_of_mem_foldl_openAfter among
          obtain ⟨before, behind, split⟩ := List.append_of_mem member
          rw [left, opened] at places
          have place : s.position = tag.position := (List.cons.inj places).1
          refine ⟨before, .unclosed whole split opened rfl, ?_⟩
          rw [place]
          exact Scan.opensAt_of_split split

/-- Every place in a compiled template and in a syntax error is that of the opener of a tag: of the
tag that left the node, of the tag that cannot be read or that is refused, or of the innermost scope
left open. In preorder the nodes with places have ascending offsets. -/
theorem compile_positions (config : Configuration) (source : String) :
    (∀ t, compile config source = .ok t →
      (∀ n ∈ Node.subtrees t.nodes, ∀ p, n.position? = some p →
        ∃ before tag behind,
          (Scan.ofSource config.delimiters source).tokens = before ++ .tag tag :: behind ∧
          (Token.tag tag).mark? = some n.mark ∧ Scan.OpensAt config.delimiters source before p) ∧
      ((Node.subtrees t.nodes).filterMap Node.position?).Pairwise fun p q => p.offset < q.offset) ∧
    ∀ e, compile config source = .error e →
      ∃ before, FaultBehind config.contentType (.ofSource config.delimiters source) e before ∧
        Scan.OpensAt config.delimiters source before e.position := by
  refine ⟨?_, fun e failed => exists_faultBehind failed⟩
  intro t compiled
  have spelled := spelledBy_of_ofScan compiled
  constructor
  · intro n inside p place
    obtain ⟨token, member, marked⟩ := spelled.exists_token inside
    have same := Token.position_of_mark? marked (n.position?_mark.trans place)
    cases token with
    | text s => cases same
    | tag tag =>
      obtain rfl := Option.some.inj same
      obtain ⟨before, behind, split⟩ := List.append_of_mem member
      exact ⟨before, tag, behind, split, marked, Scan.opensAt_of_split split⟩
  · rw [Node.positions_subtrees, spelled.marks]
    exact (Scan.pairwise_position (.start config.delimiters source)).sublist (Token.positions_keptMarks [] _)

/-- A variable in a section, and a fault, each behind a letter of two bytes and a tag on two
lines. -/
theorem compile_positions_nested :
    let source := "é\x7b\x7b#a\n\x7d\x7dé\x7b\x7bb\x7d\x7d\x7b\x7b/a\x7d\x7d"
    let faulty := "é\x7b\x7b#a\n\x7d\x7dé\x7b\x7b/b\x7d\x7d"
    let inner : Node := .interpolation ⟨[.identifier "b"], []⟩ true ⟨2, 4, 11⟩
    let t : Template :=
      ⟨[.text "é", .sect ⟨[.identifier "a"], []⟩ false [.text "é", inner] ⟨1, 2, 2⟩], .html⟩
    let e : SyntaxError := ⟨.unexpectedClosingTag "b" (some "a"), ⟨2, 4, 11⟩⟩
    compile {} source = .ok t ∧ compile {} faulty = .error e ∧
      (∃ before tag behind, (Scan.ofSource .braces source).tokens = before ++ .tag tag :: behind ∧
        (Token.tag tag).mark? = some inner.mark ∧ Scan.OpensAt .braces source before ⟨2, 4, 11⟩) ∧
      ∃ before, FaultBehind .html (.ofSource .braces faulty) e before ∧
        Scan.OpensAt .braces faulty before ⟨2, 4, 11⟩ := by
  intro source faulty inner t e
  have compiled : compile {} source = .ok t := by cbv
  have refused : compile {} faulty = .error e := by cbv
  obtain ⟨nodes, -⟩ := (compile_positions {} source).1 t compiled
  have inside : inner ∈ Node.subtrees t.nodes := by simp [t, inner, Node.subtrees, Node.subtree]
  exact ⟨compiled, refused, nodes inner inside ⟨2, 4, 11⟩ rfl,
    (compile_positions {} faulty).2 e refused⟩

end Template

end Mustache
