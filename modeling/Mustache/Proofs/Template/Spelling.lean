import Mustache.Proofs.Template.Preorder

/-!
What a scan spells. A template is spelled by a scan when the scan has no fault, its tokens
are well nested, and their marks and content types are those of the template; there is at
most one such template, and the builder finds it.
-/

namespace Mustache

/-- The template that a scan stands for, under the content type it begins with. -/
structure Template.SpelledBy (t : Template) (contentType : ContentType) (scan : Scan) : Prop where
  whole : scan.error = none
  nested : Token.WellNested scan.tokens
  marks : Node.marksAll t.nodes = Token.keptMarks [] scan.tokens
  contentType :
    t.contentType = (scan.tokens.filterMap Token.contentType?).getLast?.getD contentType

namespace Template

theorem spelledBy_of_ofScan {contentType : ContentType} {scan : Scan} {t : Template}
    (made : ofScan contentType scan = .ok t) : t.SpelledBy contentType scan := by
  obtain ⟨whole, nested⟩ := exists_ofScan_iff.mp ⟨t, made⟩
  obtain ⟨b, taken, -, done, rfl⟩ := ofScan_eq_ok_iff.mp made
  have initially : (Builder.start contentType).Follows [] := rfl
  have marks := Builder.written_addTokens initially taken
  rw [done] at marks
  have last := Builder.holdsBlocks_addTokens taken ⟨rfl, by simp [Builder.start]⟩
  exact ⟨whole, nested, marks, last.2⟩

theorem SpelledBy.unique {contentType : ContentType} {scan : Scan} {t u : Template}
    (first : t.SpelledBy contentType scan) (second : u.SpelledBy contentType scan) : t = u := by
  have nodes := Node.marksAll_injective (first.marks.trans second.marks.symm)
  have types := first.contentType.trans second.contentType.symm
  obtain ⟨n, c⟩ := t
  obtain ⟨m, d⟩ := u
  rw [show n = m from nodes, show c = d from types]

/-- Building a scan's tokens gives the template that the scan spells, and fails if there is
none. -/
theorem ofScan_eq_ok_iff_spelledBy {contentType : ContentType} {scan : Scan} {t : Template} :
    ofScan contentType scan = .ok t ↔ t.SpelledBy contentType scan := by
  constructor
  · exact spelledBy_of_ofScan
  · intro spelled
    obtain ⟨u, made⟩ := exists_ofScan_iff.mpr ⟨spelled.whole, spelled.nested⟩
    rw [made, (spelledBy_of_ofScan made).unique spelled]

end Template

end Mustache
