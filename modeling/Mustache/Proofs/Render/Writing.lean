import Mustache.Proofs.Render.Runs

namespace Mustache

/-- The lines of a text, each with the line feed that ends it. -/
def Text.lines : List Char → List (List Char)
  | [] => []
  | c :: s =>
    if c = '\n' then [c] :: lines s
    else
      match lines s with
      | [] => [[c]]
      | first :: rest => (c :: first) :: rest

@[simp] theorem Text.lines_eq_nil_iff (s : List Char) : Text.lines s = [] ↔ s = [] := by
  cases s with
  | nil => simp [lines]
  | cons c s =>
    unfold lines
    split
    · simp
    · split <;> simp

namespace Output

theorem indentLines_append (indent : List Char) (lineStart : Bool) (s t : List Char) :
    indentLines indent lineStart (s ++ t) =
      indentLines indent lineStart s ++ indentLines indent (lineStartAfter lineStart s) t := by
  induction s generalizing lineStart with
  | nil => rfl
  | cons c s ih => simp only [List.cons_append, indentLines, lineStartAfter, ih, List.append_assoc]

theorem lineStartAfter_append (lineStart : Bool) (s t : List Char) :
    lineStartAfter lineStart (s ++ t) = lineStartAfter (lineStartAfter lineStart s) t := by
  induction s generalizing lineStart with
  | nil => rfl
  | cons c s ih => exact ih (c == '\n')

theorem indentLines_nil (lineStart : Bool) (s : List Char) : indentLines [] lineStart s = s := by
  induction s generalizing lineStart with
  | nil => rfl
  | cons c s ih => simp only [indentLines, ih, ite_self, List.nil_append]

/-- Indentation does not change how a text ends. -/
theorem lineStartAfter_indentLines (indent : List Char) (fresh lineStart : Bool) (s : List Char) :
    lineStartAfter lineStart (indentLines indent fresh s) = lineStartAfter lineStart s := by
  induction s generalizing fresh lineStart with
  | nil => rfl
  | cons c s ih => rw [indentLines, lineStartAfter_append, lineStartAfter, lineStartAfter, ih]

theorem lineStartAfter_mono {before after : Bool} (implies : before = true → after = true)
    (s : List Char) (ends : lineStartAfter before s = true) : lineStartAfter after s = true := by
  cases s with
  | nil => exact implies ends
  | cons c s => exact ends

/-- A line begins at the start and behind a line feed. -/
theorem lineStartAfter_true_iff (s : List Char) :
    lineStartAfter true s = true ↔ s = [] ∨ s.getLast? = some '\n' := by
  rcases s.eq_nil_or_concat with rfl | ⟨before, c, rfl⟩
  · simp [lineStartAfter]
  · simp [lineStartAfter_append, lineStartAfter]

/-- Lines with an indentation before each, and before the first one if it begins a line. -/
def indented (indent : List Char) (lineStart : Bool) : List (List Char) → List Char
  | [] => []
  | first :: rest => (if lineStart then indent else []) ++ first ++ rest.flatMap (indent ++ ·)

private theorem indented_true (indent : List Char) (lines : List (List Char)) :
    indented indent true lines = lines.flatMap (indent ++ ·) := by
  cases lines <;> simp [indented]

/-- Every line has the indentation before it exactly if the first one begins a line, unless there
is no indentation or no line. -/
theorem indented_eq_flatMap_iff (indent : List Char) (lineStart : Bool) (lines : List (List Char)) :
    indented indent lineStart lines = lines.flatMap (indent ++ ·) ↔
      lineStart = true ∨ indent = [] ∨ lines = [] := by
  cases lines with
  | nil => simp [indented]
  | cons first rest =>
    cases lineStart with
    | true => simp [indented]
    | false => simp [indented]

/-- Writing a text is writing its lines. -/
theorem indentLines_eq_indented (indent : List Char) (lineStart : Bool) (s : List Char) :
    indentLines indent lineStart s = indented indent lineStart (Text.lines s) := by
  induction s generalizing lineStart with
  | nil => rfl
  | cons c s ih =>
    rw [indentLines, ih, Text.lines]
    by_cases ends : c = '\n'
    · subst ends
      rw [if_pos rfl, beq_self_eq_true, indented_true, indented, List.append_assoc]
      rfl
    · cases Text.lines s <;> simp [ends, indented]

theorem writeText_append (out : Output) (s t : String) :
    out.writeText (s ++ t) = (out.writeText s).writeText t := by
  simp only [writeText, String.toList_append, indentLines_append, lineStartAfter_append,
    String.ofList_append, String.append_assoc]

theorem writeAll_append (out : Output) (first second : List Piece) :
    out.writeAll (first ++ second) = (out.writeAll first).writeAll second := by
  induction first generalizing out with
  | nil => rfl
  | cons piece rest ih => exact ih (out.write piece)

@[simp] theorem indent_write (out : Output) (piece : Piece) :
    (out.write piece).indent = out.indent := by
  cases piece with
  | value s =>
    simp only [write, writeValue]
    split <;> rfl
  | _ => rfl

@[simp] theorem indent_writeAll (out : Output) (pieces : List Piece) :
    (out.writeAll pieces).indent = out.indent := by
  induction pieces generalizing out with
  | nil => rfl
  | cons piece rest ih => rw [writeAll, ih, indent_write]

/-- Outputs that go on alike, the second with more text before. Whether a line begins counts
only where there is indentation. -/
structure Alike (before : String) (out more : Output) : Prop where
  buffer : more.buffer = before ++ out.buffer
  indent : more.indent = out.indent
  lineStart : out.indent = "" ∨ more.lineStart = out.lineStart

variable {before : String} {out more : Output}

theorem Alike.writeText (alike : Alike before out more) (s : String) :
    Alike before (out.writeText s) (more.writeText s) := by
  obtain ⟨buffer, indent, lineStart⟩ := alike
  refine ⟨?_, indent, ?_⟩
  · rcases lineStart with none | same
    · simp [Output.writeText, buffer, indent, none, indentLines_nil, String.append_assoc]
    · simp [Output.writeText, buffer, indent, same, String.append_assoc]
  · refine lineStart.imp_right fun same => ?_
    simp [Output.writeText, same]

theorem Alike.writeValue (alike : Alike before out more) (s : String) :
    Alike before (out.writeValue s) (more.writeValue s) := by
  unfold Output.writeValue
  split
  · exact alike
  · obtain ⟨buffer, indent, lineStart⟩ := alike
    refine ⟨?_, indent, .inr rfl⟩
    rcases lineStart with none | same
    · simp [buffer, indent, none, String.append_assoc]
    · simp [buffer, indent, same, String.append_assoc]

theorem Alike.enter (alike : Alike before out more) (indent : String) :
    Alike before (out.enter indent) (more.enter indent) := by
  refine ⟨alike.buffer, congrArg (· ++ indent) alike.indent, ?_⟩
  cases empty : indent.isEmpty with
  | true =>
    simp only [Output.enter, empty, Bool.not_true, Bool.or_false]
    rw [String.isEmpty_iff.mp empty, String.append_empty]
    exact alike.lineStart
  | false => exact .inr (by simp only [Output.enter, empty, Bool.not_false, Bool.or_true])

/-- Leaving a region, what was written in it is still written alike. -/
theorem Alike.leave {inner outer : Output} (alike : Alike before inner outer) {indent : String}
    (deeper : indent = "" ∨ inner.indent ≠ "") :
    Alike before (inner.leave indent) (outer.leave indent) := by
  refine ⟨alike.buffer, rfl, ?_⟩
  rcases deeper with none | deeper
  · exact .inl none
  · exact .inr (alike.lineStart.resolve_left deeper)

mutual

theorem Alike.write {out more : Output} (alike : Alike before out more) (piece : Piece) :
    Alike before (out.write piece) (more.write piece) := by
  cases piece with
  | text s => exact alike.writeText s
  | value s => exact alike.writeValue s
  | region indent pieces =>
    have inside := (alike.enter indent).writeAll pieces
    rw [Output.write, Output.write, alike.indent]
    apply inside.leave
    by_cases none : out.indent = ""
    · exact .inl none
    · refine .inr ?_
      simp [Output.enter, none]
  | lookup name => exact alike
termination_by structural piece

theorem Alike.writeAll {out more : Output} (alike : Alike before out more) (pieces : List Piece) :
    Alike before (out.writeAll pieces) (more.writeAll pieces) := by
  cases pieces with
  | nil => exact alike
  | cons piece rest => exact (alike.write piece).writeAll rest
termination_by structural pieces

end

/-- Pieces that are written one after the other without indentation give their texts one
after the other. -/
theorem buffer_writeAll_append (first second : List Piece) :
    (({} : Output).writeAll (first ++ second)).buffer =
      (({} : Output).writeAll first).buffer ++ (({} : Output).writeAll second).buffer := by
  have start : Alike (({} : Output).writeAll first).buffer {} (({} : Output).writeAll first) :=
    ⟨by simp, by simp, .inl rfl⟩
  rw [writeAll_append]
  exact (start.writeAll second).buffer

end Output

namespace Run

variable {ε : Type}

/-- Runs that write the same, whatever was written before, and end with the same error. -/
structure WritesAs (r s : Run ε) : Prop where
  written : ∀ out : Output, out.writeAll r.pieces = out.writeAll s.pieces
  error : r.error = s.error

theorem WritesAs.refl (r : Run ε) : r.WritesAs r :=
  ⟨fun _ => rfl, rfl⟩

theorem WritesAs.trans {r s u : Run ε} (first : r.WritesAs s) (second : s.WritesAs u) :
    r.WritesAs u :=
  ⟨fun out => (first.written out).trans (second.written out), first.error.trans second.error⟩

theorem WritesAs.andThen {r s : Run ε} (first : r.WritesAs s) {next other : Unit → Run ε}
    (second : (next ()).WritesAs (other ())) : (r.andThen next).WritesAs (s.andThen other) := by
  obtain ⟨pieces, error⟩ := r
  obtain ⟨others, failed⟩ := s
  obtain rfl : error = failed := first.error
  cases error with
  | some e => exact first
  | none =>
    refine ⟨?_, second.error⟩
    intro out
    have before : out.writeAll pieces = out.writeAll others := first.written out
    simp only [Run.andThen, Output.writeAll_append, before, second.written]

theorem WritesAs.region {r s : Run ε} (same : r.WritesAs s) (indent : String) :
    (r.region indent).WritesAs (s.region indent) := by
  refine ⟨?_, same.error⟩
  intro out
  simp only [Run.region, Output.writeAll, Output.write, same.written]

theorem writesAs_lookup (name : String) (next : Unit → Run ε) :
    ((piece (.lookup name)).andThen next).WritesAs (next ()) :=
  ⟨fun _ => rfl, rfl⟩

/-- A region without indentation writes what is in it. -/
theorem writesAs_region_empty (r : Run ε) : (r.region "").WritesAs r := by
  refine ⟨?_, rfl⟩
  intro out
  have entered : out.enter "" = out := by
    have nothing : "".isEmpty = true := rfl
    simp only [Output.enter, String.append_empty, nothing, Bool.not_true, Bool.or_false]
  have left : (out.writeAll r.pieces).leave out.indent = out.writeAll r.pieces := by
    simp only [Output.leave, ← Output.indent_writeAll out r.pieces]
  rw [Run.region, Output.writeAll, Output.writeAll, Output.write, entered, left]

theorem WritesAs.text_eq {r s : Run ε} (same : r.WritesAs s) : r.text = s.text := by
  simp only [text, same.error, same.written]

end Run

end Mustache
