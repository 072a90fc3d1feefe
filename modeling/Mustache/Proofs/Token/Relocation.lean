import Mustache.Proofs.Token.Lines

namespace Mustache

/-- Places that are moved as a whole: what comes next stays next. -/
def Position.Uniform (move : Position → Position) : Prop :=
  ∀ p c, move (p.next c) = (move p).next c

/-- A place in a source when the given lines are put in front of it. -/
def Position.below (lines : String) (p : Position) : Position :=
  ⟨p.line + lines.toList.count '\n', p.column, p.offset + lines.utf8ByteSize⟩

namespace Position

theorem uniform_below (lines : String) : Uniform (below lines) := by
  intro p c
  unfold below next
  split
  · simp only [mk.injEq, true_and]
    omega
  · simp only [mk.injEq, true_and]
    omega

theorem Uniform.advance {move : Position → Position} (uniform : Uniform move) (p : Position)
    (s : List Char) : move (p.advance s) = (move p).advance s := by
  induction s generalizing p with
  | nil => rfl
  | cons c s ih =>
    have first := ih (p.next c)
    rw [uniform] at first
    exact first

/-- What was read is counted in lines and bytes. -/
theorem advance_counts (p : Position) (s : List Char) :
    (p.advance s).line = p.line + s.count '\n' ∧
      (p.advance s).offset = p.offset + (String.ofList s).utf8ByteSize := by
  induction s generalizing p with
  | nil => exact ⟨rfl, rfl⟩
  | cons c s ih =>
    obtain ⟨line, offset⟩ := ih (p.next c)
    have here : p.advance (c :: s) = (p.next c).advance s := rfl
    rw [here, line, offset, String.ofList_cons, String.utf8ByteSize_append,
      String.utf8ByteSize_singleton, List.count_cons]
    unfold next
    split
    · rename_i feed
      simp only [feed, beq_self_eq_true, ↓reduceIte]
      omega
    · rename_i other
      simp only [beq_false_of_ne other, Bool.false_eq_true, ↓reduceIte]
      omega

theorem advance_wholeLines {lines : String} (whole : Text.WholeLines lines.toList) :
    start.advance lines.toList = start.below lines := by
  obtain ⟨line, offset⟩ := advance_counts start lines.toList
  have column : (start.advance lines.toList).column = 1 := by
    rcases List.eq_nil_or_concat lines.toList with empty | ⟨before, c, split⟩
    · rw [empty]
      rfl
    · have feed : c = '\n' := whole c (by simp [split])
      rw [split, feed, List.concat_eq_append, advance_append]
      rfl
  rw [String.ofList_toList] at offset
  cases place : start.advance lines.toList with
  | mk l k o =>
    rw [place] at line column offset
    simp only [below, mk.injEq]
    exact ⟨line, column, offset⟩

end Position

variable {move : Position → Position}

def SyntaxError.relocate (move : Position → Position) (e : SyntaxError) : SyntaxError :=
  { e with position := move e.position }

def Tag.relocate (move : Position → Position) (t : Tag) : Tag :=
  { t with position := move t.position }

def Token.relocate (move : Position → Position) : Token → Token
  | text s => text s
  | tag t => tag (t.relocate move)

def Scan.relocate (move : Position → Position) (scan : Scan) : Scan :=
  ⟨scan.tokens.map (·.relocate move), scan.error.map (·.relocate move)⟩

namespace Scanner

def relocate (move : Position → Position) (s : Scanner) : Scanner :=
  { s with position := move s.position }

end Scanner

def ScanStep.relocate (move : Position → Position) : ScanStep → ScanStep
  | done text => done text
  | fault e => fault (e.relocate move)
  | tag text t next => tag text (t.relocate move) (next.relocate move)

namespace Scanner

private theorem place_relocate (uniform : Position.Uniform move) (s : Scanner) (text : List Char)
    (body : TagBody) : (s.relocate move).place text body = (s.place text body).relocate move := by
  unfold place
  simp only [relocate, ← uniform.advance]
  split
  · split <;> rfl
  · rfl

private theorem step_relocate (uniform : Position.Uniform move) (s : Scanner) :
    (s.relocate move).step = s.step.relocate move := by
  unfold step
  cases found : Text.cut s.delimiters.opener.toList s.rest with
  | none => simp only [relocate, found, ScanStep.relocate]
  | some parts =>
    obtain ⟨text, inner⟩ := parts
    cases read : TagBody.read s.delimiters inner with
    | error cause =>
      simp only [relocate, found, read, ← uniform.advance]
      rfl
    | ok body =>
      have placed := place_relocate uniform s text body
      simp only [relocate] at placed
      simp only [relocate, found, read, placed]

end Scanner

namespace Scan

@[simp] theorem map_relocate_ofText (text : List Char) :
    (ofText text).map (·.relocate move) = ofText text := by
  unfold ofText
  split <;> rfl

/-- Reading from another place on gives the same tokens and errors at other places. -/
theorem ofScanner_relocate (uniform : Position.Uniform move) (s : Scanner) :
    ofScanner (s.relocate move) = (ofScanner s).relocate move := by
  induction s using ofScanner.induct with
  | case1 s text step =>
    have moved := Scanner.step_relocate uniform s
    rw [step] at moved
    rw [ofScanner_of_done step, ofScanner_of_done moved]
    simp [relocate]
  | case2 s e step =>
    have moved := Scanner.step_relocate uniform s
    rw [step] at moved
    rw [ofScanner_of_fault step, ofScanner_of_fault moved]
    rfl
  | case3 s text tag next step ih =>
    have moved := Scanner.step_relocate uniform s
    rw [step] at moved
    rw [ofScanner_of_tag step, ofScanner_of_tag moved, ih]
    simp only [relocate, List.map_append, List.map_cons, map_relocate_ofText]
    rfl

/-- The scan of whole lines and of a source behind them, under the delimiters that the lines
begin and end with, is made of the scans of both, the second one below the lines. -/
theorem joined_ofSource {d : Delimiters} {lines source : String}
    (whole : Text.WholeLines lines.toList) (first : (ofSource d lines).error = none)
    (second : (ofSource d source).error = none)
    (delimiters : (ofSource d lines).tokens.foldl Token.delimitersAfter d = d) :
    (ofSource d lines).Joined ((ofSource d source).relocate (·.below lines))
      (ofSource d (lines ++ source)) := by
  have after : (Scanner.start d lines).after source.toList =
      (Scanner.start d source).relocate (·.below lines) := by
    simp only [Scanner.after, Scanner.relocate, Scanner.start, Position.advance_wholeLines whole]
    exact congrArg _ delimiters
  have settled : (Scanner.start d lines).AtLines := ⟨whole, fun _ => rfl⟩
  have joined := joined_ofScanner source.toList settled first
  rw [after, Scanner.followedBy_start, ofScanner_relocate (Position.uniform_below lines)] at joined
  refine joined ?_
  have none : (ofScanner (.start d source)).error = none := second
  rw [relocate, none]
  rfl

end Scan

end Mustache
