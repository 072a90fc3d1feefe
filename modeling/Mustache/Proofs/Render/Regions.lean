import Mustache.Proofs.Render.Writing

namespace Mustache

/-- A character that is written. -/
structure Written where
  char : Char
  /-- Whether it stands in template text, and not in a value. -/
  inText : Bool
deriving DecidableEq, Repr

namespace Written

/-- Whether a line begins behind a character: a line feed of a value ends none. -/
def endsLine (w : Written) : Bool :=
  w.inText && w.char == '\n'

/-- Whether a line begins behind characters. -/
def begunAfter (begun : Bool) (ws : List Written) : Bool :=
  (ws.getLast?.map endsLine).getD begun

/-- Characters with an indentation before the first one if it begins a line, and before each one
that stands directly behind a line feed of template text. -/
def spread (indent : List Char) (begun : Bool) (ws : List Written) : List Char :=
  ((begun :: ws.map endsLine).zip ws).flatMap fun (begins, w) =>
    (if begins then indent else []) ++ [w.char]

variable (indent : List Char) (begun : Bool)

@[simp] theorem begunAfter_nil : begunAfter begun [] = begun := rfl

@[simp] theorem begunAfter_cons (w : Written) (ws : List Written) :
    begunAfter begun (w :: ws) = begunAfter w.endsLine ws := by
  cases ws <;> simp [begunAfter, List.getLast?_cons]

@[simp] theorem spread_nil : spread indent begun [] = [] := rfl

@[simp] theorem spread_cons (w : Written) (ws : List Written) :
    spread indent begun (w :: ws) =
      (if begun then indent else []) ++ w.char :: spread indent w.endsLine ws := by
  simp [spread]

theorem begunAfter_append (first second : List Written) :
    begunAfter begun (first ++ second) = begunAfter (begunAfter begun first) second := by
  induction first generalizing begun with
  | nil => rfl
  | cons w rest ih => rw [List.cons_append, begunAfter_cons, begunAfter_cons, ih]

theorem spread_append (first second : List Written) :
    spread indent begun (first ++ second) =
      spread indent begun first ++ spread indent (begunAfter begun first) second := by
  induction first generalizing begun with
  | nil => rfl
  | cons w rest ih =>
    rw [List.cons_append, spread_cons, spread_cons, begunAfter_cons, ih, List.append_assoc,
      List.cons_append]

def ofText (s : String) : List Written :=
  s.toList.map (⟨·, true⟩)

def ofValue (s : String) : List Written :=
  s.toList.map (⟨·, false⟩)

private theorem begunAfter_ofText (s : String) :
    begunAfter begun (ofText s) = Output.lineStartAfter begun s.toList := by
  unfold ofText
  induction s.toList generalizing begun with
  | nil => rfl
  | cons c rest ih =>
    rw [List.map_cons, begunAfter_cons, ih, Output.lineStartAfter]
    rfl

private theorem spread_ofText (s : String) :
    spread indent begun (ofText s) = Output.indentLines indent begun s.toList := by
  unfold ofText
  induction s.toList generalizing begun with
  | nil => rfl
  | cons c rest ih =>
    rw [List.map_cons, spread_cons, ih, Output.indentLines]
    rfl

theorem ofValue_inside (s : List Char) :
    begunAfter false (s.map (⟨·, false⟩)) = false ∧
      spread indent false (s.map (⟨·, false⟩)) = s := by
  induction s with
  | nil => exact ⟨rfl, rfl⟩
  | cons c rest ih =>
    obtain ⟨begins, same⟩ := ih
    rw [List.map_cons, begunAfter_cons, spread_cons]
    exact ⟨begins, congrArg (c :: ·) same⟩

end Written

namespace Piece

/-- The characters that a piece writes, if it is no region. -/
def written : Piece → List Written
  | text s => Written.ofText s
  | value s => Written.ofValue s
  | region _ _ => []
  | lookup _ => []

def isWrite : Piece → Bool
  | region _ _ => false
  | _ => true

end Piece

namespace Output

/-- The output with more characters, of which those that begin a line are indented. -/
def put (out : Output) (ws : List Written) : Output :=
  { out with
    buffer := out.buffer ++ String.ofList (Written.spread out.indent.toList out.lineStart ws)
    lineStart := Written.begunAfter out.lineStart ws }

@[simp] theorem put_nil (out : Output) : out.put [] = out := by
  simp [put]

theorem put_append (out : Output) (first second : List Written) :
    out.put (first ++ second) = (out.put first).put second := by
  simp only [put, Written.spread_append, Written.begunAfter_append, String.ofList_append,
    String.append_assoc]

private theorem writeText_eq_put (out : Output) (s : String) :
    out.writeText s = out.put (Written.ofText s) := by
  rw [put, Written.begunAfter_ofText, Written.spread_ofText]
  rfl

private theorem writeValue_eq_put (out : Output) (s : String) :
    out.writeValue s = out.put (Written.ofValue s) := by
  unfold writeValue Written.ofValue
  cases chars : s.toList with
  | nil => simp [String.toList_eq_nil_iff.mp chars]
  | cons c rest =>
    have some : s ≠ "" := fun none => by simp [none] at chars
    obtain ⟨begins, same⟩ := Written.ofValue_inside out.indent.toList rest
    have text : s = String.ofList (c :: rest) := by rw [← chars, String.ofList_toList]
    rw [if_neg (by simpa using some), put, List.map_cons, Written.begunAfter_cons,
      Written.spread_cons]
    simp only [Written.endsLine, Bool.false_and, begins, same, text]
    cases out.lineStart <;> simp [String.ofList_append, String.append_assoc]

theorem writeValue_append (out : Output) (s t : String) :
    out.writeValue (s ++ t) = (out.writeValue s).writeValue t := by
  simp only [writeValue_eq_put, Written.ofValue, String.toList_append, List.map_append, put_append]

theorem write_eq_put (out : Output) {piece : Piece} (plain : piece.isWrite = true) :
    out.write piece = out.put piece.written := by
  cases piece with
  | text s => exact out.writeText_eq_put s
  | value s => exact out.writeValue_eq_put s
  | region indent pieces => cases plain
  | lookup name => exact out.put_nil.symm

theorem writeAll_eq_put (out : Output) {pieces : List Piece}
    (plain : ∀ p ∈ pieces, p.isWrite = true) :
    out.writeAll pieces = out.put (pieces.flatMap Piece.written) := by
  induction pieces generalizing out with
  | nil => exact out.put_nil.symm
  | cons piece rest ih =>
    obtain ⟨first, others⟩ := List.forall_mem_cons.mp plain
    rw [writeAll, write_eq_put out first, ih _ others, List.flatMap_cons, put_append]

/-- A region writes the characters of its texts and values with all indentation before those that
begin a line: the first one if the region begins a line, and those behind a line feed of a text.
Other texts and values with these characters write the same. -/
theorem write_region (out : Output) (indent : String) {pieces : List Piece}
    (plain : ∀ p ∈ pieces, p.isWrite = true) :
    let written := pieces.flatMap Piece.written
    let after := out.write (.region indent pieces)
    after.buffer.toList = out.buffer.toList ++
        Written.spread (out.indent ++ indent).toList (out.lineStart || !indent.isEmpty) written ∧
      after.indent = out.indent ∧
      ∀ others : List Piece, (∀ p ∈ others, p.isWrite = true) →
        others.flatMap Piece.written = written → out.write (.region indent others) = after := by
  intro written after
  have inside {others : List Piece} (plain : ∀ p ∈ others, p.isWrite = true) :
      out.write (.region indent others) =
        ((out.enter indent).put (others.flatMap Piece.written)).leave out.indent := by
    rw [write, writeAll_eq_put _ plain]
  have same : after = ((out.enter indent).put written).leave out.indent := inside plain
  refine ⟨?_, by rw [same]; rfl, ?_⟩
  · rw [same]
    simp [leave, put, enter]
  · intro others plainOthers cut
    rw [same, inside plainOthers, cut]

/-- A blank line, a value with a line feed, and a text and a value that are cut in two. -/
theorem write_region_rows :
    let out : Output := ⟨"top\n", " ", true⟩
    let pieces : List Piece := [.text "a\n\nb", .value "x\ny", .text "\n"]
    let others : List Piece := [.text "a\n", .text "\nb", .value "x\n", .value "y", .text "\n"]
    (∀ p ∈ pieces, p.isWrite = true) ∧ (∀ p ∈ others, p.isWrite = true) ∧
      (out.write (.region " " pieces)).buffer.toList = "top\n  a\n  \n  bx\ny\n".toList ∧
      out.write (.region " " others) = out.write (.region " " pieces) := by
  intro out pieces others
  have plain : ∀ p ∈ pieces, p.isWrite = true := by decide
  have plainOthers : ∀ p ∈ others, p.isWrite = true := by decide
  obtain ⟨written, -, cut⟩ := write_region out " " plain
  refine ⟨plain, plainOthers, ?_, cut others plainOthers (by decide)⟩
  rw [written]
  decide

end Output

end Mustache
