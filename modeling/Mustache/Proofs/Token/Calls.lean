import Mustache.Proofs.Token.Reading

/-!
The states of a reader. Main statement: in every state that a reader of a source comes to, a call
takes out only parts of the source that are there, and goes on in it unless it gives the tag behind
a text or the source has ended. So there is an end of the calls; they give what the scan of the
source gives, and nothing behind a fault.
-/

namespace Mustache

open Text (Boundary cut find? size slice?)

/-- The offsets of a tag are offsets of the source, in order, and the tag is not empty. -/
structure TagPlace.Within (place : TagPlace) (source : List Char) : Prop where
  textEnd : Boundary source place.textEnd
  start : Boundary source place.start
  stop : Boundary source place.stop
  next : Boundary source place.next
  indent : place.textEnd ≤ place.start
  tag : place.start < place.stop
  trailing : place.stop ≤ place.next
  length : place.next ≤ size source

private theorem Tag.within_placeBehind {t : Tag} (nonempty : t.lexeme.toList ≠ [])
    (before behind : List Char) :
    (t.placeBehind before).Within (before ++ t.region ++ behind) where
  textEnd := by
    rw [List.append_assoc]
    exact Text.boundary_size before _
  start := by
    have whole : before ++ t.region ++ behind =
        before ++ t.indent.toList ++ (t.lexeme.toList ++ t.trailing ++ behind) := by
      simp only [Tag.region, List.append_assoc]
    rw [whole]
    exact Text.boundary_size _ _
  stop := by
    have whole : before ++ t.region ++ behind =
        before ++ t.indent.toList ++ t.lexeme.toList ++ (t.trailing ++ behind) := by
      simp only [Tag.region, List.append_assoc]
    rw [whole]
    exact Text.boundary_size _ _
  next := Text.boundary_size _ behind
  indent := Text.size_le_append _ _
  tag := by
    have positive : 0 < size t.lexeme.toList := Text.utf8ByteSize_pos nonempty
    simp only [placeBehind, Text.size_append]
    omega
  trailing := by
    simp only [placeBehind, Tag.region, Text.size_append]
    omega
  length := Text.size_le_append _ behind

/-- How a call uses the source, and how far it goes on in it. -/
inductive Reading.Sound (r : Reader) : Reading → Reader → Prop where
  | ended (given : r.pending = none) (left : size r.source ≤ r.offset) : Sound r .ended r
  | pending {tag : Tag} (given : r.pending = some tag) :
      Sound r (.pending tag) { r with pending := none }
  | rest {text : List Char} (given : r.pending = none) (left : r.offset < size r.source)
      (taken : slice? r.source r.offset (size r.source) = some text) :
      Sound r (.rest text) { r with offset := size r.source }
  | fault {next : Reader} {start : Nat} {error : SyntaxError} (given : r.pending = none)
      (behind : r.offset ≤ start) (counted : r.counted ≤ start) (left : start < size r.source)
      (boundary : Boundary r.source start) (source : next.source = r.source)
      (offset : next.offset = size r.source) (pending : next.pending = none) :
      Sound r (.fault start error) next
  | tag {next : Reader} {place : TagPlace} {text : List Char} {tag : Tag} (given : r.pending = none)
      (behind : r.offset ≤ place.textEnd) (counted : r.counted ≤ place.start)
      (within : place.Within r.source) (taken : slice? r.source r.offset place.textEnd = some text)
      (source : next.source = r.source) (offset : next.offset = place.next)
      (pending : next.pending = if text.isEmpty then none else some tag) :
      Sound r (.tag place text tag) next

private theorem Reading.Sound.onward {r next : Reader} {reading : Reading}
    (sound : reading.Sound r next) :
    (∃ tag, r.pending = some tag ∧ reading = .pending tag) ∨ reading = .ended ∨
      r.offset < next.offset := by
  cases sound with
  | ended => exact .inr (.inl rfl)
  | @pending tag given => exact .inl ⟨tag, given, rfl⟩
  | rest given left => exact .inr (.inr left)
  | fault given behind counted left boundary source offset =>
    rw [offset]
    exact .inr (.inr (Nat.lt_of_le_of_lt behind left))
  | tag given behind counted within taken source offset =>
    have indent := within.indent
    have tag := within.tag
    have trailing := within.trailing
    rw [offset]
    exact .inr (.inr (by omega))

/-- Nothing comes behind the end and behind a fault. -/
inductive Reading.Final : Reading → Prop where
  | ended : Final .ended
  | fault {start : Nat} {error : SyntaxError} : Final (.fault start error)

theorem isDelimiter_iff {s : List Char} :
    isDelimiter s = true ↔ s ≠ [] ∧ ∀ c ∈ s, Text.isBlank c = false ∧ c ≠ '=' := by
  simp [isDelimiter]

/-- The tokens of a scan, and its fault behind them. -/
def Scan.items (scan : Scan) : List (Except SyntaxError Token) :=
  scan.tokens.map .ok ++ scan.error.toList.map .error

def Scanner.atEnd (d : Delimiters) (source : List Char) : Scanner :=
  ⟨[], .behind source, true, d⟩

private theorem Scanner.hasRead_atEnd (d : Delimiters) (source : List Char) :
    (atEnd d source).HasRead source where
  position := rfl
  fresh := fun _ => .inl rfl
  begun := fun begun => by cases begun

private theorem Scanner.rest_ne_nil_of_cut {s : Scanner} {raw inner : List Char}
    (opener : cut s.delimiters.opener.toList s.rest = some (raw, inner)) : s.rest ≠ [] := by
  have shorter := Text.length_lt_of_cut s.delimiters.opener_ne_nil opener
  exact List.ne_nil_of_length_pos (Nat.zero_lt_of_lt shorter)

namespace Reader

/-- What holds of a reader in every state. -/
structure Safe (r : Reader) : Prop where
  opener : r.opener ≠ [] ∧ ∀ c ∈ r.opener, Text.isBlank c = false ∧ c ≠ '='
  closer : r.closer ≠ [] ∧ ∀ c ∈ r.closer, Text.isBlank c = false ∧ c ≠ '='
  line : Boundary r.source r.lineStart ∧ r.lineStart ≤ r.counted
  counted : Boundary r.source r.counted ∧ r.counted ≤ r.offset
  offset : Boundary r.source r.offset ∧ r.offset ≤ size r.source
  /-- There is a result, so nothing was taken out that is not there. The call gives the tag that was
  kept, or ends, or goes on in the source. -/
  call : ∃ reading next, r.read = some (reading, next) ∧ reading.Sound r next ∧
    ((∃ tag, r.pending = some tag ∧ reading = .pending tag) ∨ reading = .ended ∨
      r.offset < next.offset)

/-- A reader is where a scanner is that has read the start of the source. The lines of some text
were counted. -/
structure Tracks (r : Reader) (s : Scanner) (done seen : List Char) : Prop where
  source : r.source = done ++ s.rest
  opener : r.opener = s.delimiters.opener.toList
  closer : r.closer = s.delimiters.closer.toList
  offset : r.offset = size done
  read : s.HasRead done
  counted : r.Counted seen

theorem tracks_start (d : Delimiters) (source : String) :
    (start d source).Tracks (.start d source) [] [] where
  source := rfl
  opener := rfl
  closer := rfl
  offset := rfl
  read := Scanner.hasRead_start d source
  counted := ⟨rfl, rfl, rfl⟩

section Delimiters

variable (r : Reader) (kind : TagKind)

@[simp] theorem source_withDelimiters : (r.withDelimiters kind).source = r.source := by
  cases kind <;> rfl

@[simp] theorem offset_withDelimiters : (r.withDelimiters kind).offset = r.offset := by
  cases kind <;> rfl

theorem Counted.withDelimiters {r : Reader} {seen : List Char} (counted : r.Counted seen) :
    (r.withDelimiters kind).Counted seen := by
  cases kind <;> exact ⟨counted.counted, counted.line, counted.lineStart⟩

private theorem opener_withDelimiters {r : Reader} {d : Delimiters}
    (opener : r.opener = d.opener.toList) :
    (r.withDelimiters kind).opener = (Scanner.delimitersAfter d kind).opener.toList := by
  cases kind <;> first | rfl | exact opener

private theorem closer_withDelimiters {r : Reader} {d : Delimiters}
    (closer : r.closer = d.closer.toList) :
    (r.withDelimiters kind).closer = (Scanner.delimitersAfter d kind).closer.toList := by
  cases kind <;> first | rfl | exact closer

end Delimiters

namespace Tracks

variable {r : Reader} {s next : Scanner} {done seen raw inner text : List Char} {tag : Tag}

private theorem atEnd (tracks : r.Tracks s done seen) :
    Tracks { r with offset := size r.source } (.atEnd s.delimiters (done ++ s.rest))
      (done ++ s.rest) seen where
  source := tracks.source.trans (List.append_nil _).symm
  opener := tracks.opener
  closer := tracks.closer
  offset := congrArg size tracks.source
  read := Scanner.hasRead_atEnd s.delimiters (done ++ s.rest)
  counted := ⟨tracks.counted.counted, tracks.counted.line, tracks.counted.lineStart⟩

theorem exists_positionAt (tracks : r.Tracks s done seen) (within : seen <+: done)
    (whole : s.rest = raw ++ inner) :
    ∃ moved, r.positionAt (size (done ++ raw)) = some (s.position.advance raw, moved) ∧
      moved.Tracks s done (done ++ raw) ∧ moved.pending = r.pending := by
  obtain ⟨later, rfl⟩ := within
  have source : r.source = seen ++ (later ++ raw) ++ inner := by simp [tracks.source, whole]
  obtain ⟨line, lineStart, found, counted⟩ := Reader.exists_positionAt tracks.counted source
  have place : s.position.advance raw = .behind (seen ++ later ++ raw) := by
    rw [tracks.read.position, ← Position.advance_start, ← Position.advance_append,
      Position.advance_start]
  rw [← List.append_assoc, ← place] at found
  rw [← List.append_assoc] at counted
  exact ⟨_, found,
    ⟨tracks.source, tracks.opener, tracks.closer, tracks.offset, tracks.read, counted⟩, rfl⟩

theorem exists_extent (tracks : r.Tracks s done seen) (within : seen <+: done)
    (opener : cut s.delimiters.opener.toList s.rest = some (raw, inner)) :
    ∃ moved, r.positionAt (size (done ++ raw)) = some (s.position.advance raw, moved) ∧
      moved.Tracks s done (done ++ raw) ∧ moved.pending = r.pending ∧
      moved.extent (size (done ++ raw)) =
        some ((TagBody.read s.delimiters inner).map fun body => ⟨body.kind, body.content,
          size (done ++ raw ++ (s.delimiters.opener.toList ++ body.span))⟩) := by
  have whole := Text.eq_append_of_cut opener
  rw [List.append_assoc] at whole
  obtain ⟨moved, position, moving, pending⟩ := tracks.exists_positionAt within whole
  have source : moved.source = done ++ raw ++ s.delimiters.opener.toList ++ inner := by
    simp [moving.source, whole]
  have extent := extent_eq moving.opener moving.closer source
  refine ⟨moved, position, moving, pending, ?_⟩
  simpa only [Text.size_append, Nat.add_assoc] using extent

private theorem offset_lt (tracks : r.Tracks s done seen) (left : s.rest ≠ []) :
    r.offset < size r.source := by
  have positive : 0 < size s.rest := Text.utf8ByteSize_pos left
  rw [tracks.source, tracks.offset, Text.size_append]
  omega

private theorem slice?_rest (tracks : r.Tracks s done seen) :
    slice? r.source r.offset (size r.source) = some s.rest := by
  rw [tracks.source, tracks.offset]
  exact Text.slice?_behind done s.rest

private theorem counted_le (tracks : r.Tracks s done seen) (within : seen <+: done)
    (text : List Char) : r.counted ≤ size (done ++ text) := by
  obtain ⟨later, rfl⟩ := within
  rw [tracks.counted.counted, List.append_assoc]
  exact Text.size_le_append seen _

theorem read_rest (tracks : r.Tracks s done seen) (given : r.pending = none) (left : s.rest ≠ [])
    (miss : cut s.delimiters.opener.toList s.rest = none) :
    r.read = some (.rest s.rest, { r with offset := size r.source }) := by
  have onward := tracks.offset_lt left
  simp only [Reader.read, given, if_neg (Nat.not_le.mpr onward), tracks.slice?_rest, find?,
    tracks.opener, miss, Option.bind_eq_bind, Option.bind_some, Option.map_none]
  rfl

theorem read_eq_readTag (tracks : r.Tracks s done seen) (given : r.pending = none)
    (opener : cut s.delimiters.opener.toList s.rest = some (raw, inner)) :
    r.read = r.readTag (size (done ++ raw)) := by
  have left := tracks.offset_lt (Scanner.rest_ne_nil_of_cut opener)
  simp only [Reader.read, given, if_neg (Nat.not_le.mpr left), tracks.slice?_rest, find?,
    tracks.opener, opener, Option.bind_eq_bind, Option.bind_some, Option.map_some]
  rw [tracks.offset, Text.size_append]

private theorem exists_fault {e : SyntaxError} (tracks : r.Tracks s done seen)
    (within : seen <+: done) (given : r.pending = none) (step : s.step = .fault e) :
    ∃ start next seen, r.read = some (.fault start e, next) ∧
      (Reading.fault start e).Sound r next ∧ seen <+: done ++ s.rest ∧
      next.Tracks (.atEnd s.delimiters (done ++ s.rest)) (done ++ s.rest) seen := by
  obtain ⟨raw, inner, cause, opener, read, rfl⟩ := Scanner.exists_read_of_fault step
  obtain ⟨moved, position, moving, pending, extent⟩ := tracks.exists_extent within opener
  have whole : s.rest = raw ++ (s.delimiters.opener.toList ++ inner) := by
    rw [Text.eq_append_of_cut opener, List.append_assoc]
  have source : r.source = done ++ raw ++ (s.delimiters.opener.toList ++ inner) := by
    rw [tracks.source, whole, List.append_assoc]
  have same : moved.source = r.source := moving.source.trans tracks.source.symm
  rw [read] at extent
  refine ⟨size (done ++ raw), _, done ++ raw, ?_, ?_, ?_, moving.atEnd⟩
  · rw [tracks.read_eq_readTag given opener]
    simp only [readTag, position, extent, Option.bind_eq_bind, Option.bind_some, Except.map]
    rfl
  · have tag : 0 < size s.delimiters.opener.toList :=
      Text.utf8ByteSize_pos s.delimiters.opener_ne_nil
    refine .fault given ?_ (tracks.counted_le within raw) ?_ ?_ same (congrArg size same)
      (pending.trans given)
    · rw [tracks.offset]
      exact Text.size_le_append done raw
    · rw [source, Text.size_append (done ++ raw), Text.size_append s.delimiters.opener.toList]
      omega
    · rw [source]
      exact Text.boundary_size _ _
  · rw [whole, ← List.append_assoc]
    exact List.prefix_append _ _

private theorem source_of_found (tracks : r.Tracks s done seen) (found : s.Found text tag next) :
    r.source = done ++ text ++ tag.region ++ next.rest := by
  rw [tracks.source, found.whole]
  simp only [List.append_assoc]

private theorem slice?_text (tracks : r.Tracks s done seen) (found : s.Found text tag next) :
    slice? r.source r.offset (size (done ++ text)) = some text := by
  rw [tracks.offset]
  refine Text.slice?_between (tag.region ++ next.rest) ?_
  rw [tracks.source_of_found found, List.append_assoc]

/-- What is found is behind what was read and in front of what is left. -/
theorem sound_tag {later : Reader} (tracks : r.Tracks s done seen) (within : seen <+: done)
    (given : r.pending = none) (found : s.Found text tag next) (source : later.source = r.source)
    (offset : later.offset = size (done ++ text ++ tag.region))
    (pending : later.pending = if text.isEmpty then none else some tag) :
    (Reading.tag (tag.placeBehind (done ++ text)) text tag).Sound r later := by
  have nonempty : tag.lexeme.toList ≠ [] := by
    obtain ⟨c, first, -⟩ := Scanner.exists_head?_lexeme found.read
    intro empty
    rw [empty] at first
    cases first
  refine .tag given ?_ ?_ ?_ (tracks.slice?_text found) source offset pending
  · rw [tracks.offset]
    exact Text.size_le_append done text
  · rw [Tag.placeBehind, List.append_assoc]
    exact tracks.counted_le within _
  · rw [tracks.source_of_found found]
    exact Tag.within_placeBehind nonempty _ _

private theorem exists_tag (tracks : r.Tracks s done seen) (within : seen <+: done)
    (given : r.pending = none) (step : s.step = .tag text tag next) :
    ∃ later, r.read = some (.tag (tag.placeBehind (done ++ text)) text tag, later) ∧
      (Reading.tag (tag.placeBehind (done ++ text)) text tag).Sound r later ∧
      later.Tracks next (done ++ text ++ tag.region) (done ++ text ++ tag.indent.toList) := by
  have found := Scanner.found_of_step step
  obtain ⟨raw, inner, body, opener, read, placed⟩ := Scanner.exists_read_of_tag step
  obtain ⟨indented, is⟩ := Scanner.tag_of_place placed
  obtain ⟨moved, position, moving, -, extent⟩ := tracks.exists_extent within opener
  rw [read, Except.map] at extent
  have source : (moved.withDelimiters body.kind).source =
      done ++ raw ++ (s.delimiters.opener.toList ++ body.span) ++ body.rest := by
    rw [source_withDelimiters, moving.source, Text.eq_append_of_cut opener,
      (TagBody.span_of_read read).1]
    simp only [List.append_assoc]
  have offset : (moved.withDelimiters body.kind).offset = size done := by
    rw [offset_withDelimiters, moving.offset]
  have place := place_eq tracks.read (Scanner.rest_ne_nil_of_cut opener) offset source placed
  have before := moving.slice?_text found
  rw [← source_withDelimiters moved body.kind, ← offset_withDelimiters moved body.kind] at before
  have lexeme := Text.slice?_between body.rest source
  refine ⟨{ moved.withDelimiters body.kind with
    offset := size (done ++ text ++ tag.region)
    pending := if text.isEmpty then none else some tag }, ?_, ?_, ?_⟩
  · rw [tracks.read_eq_readTag given opener]
    simp only [readTag, position, extent, place, Tag.placeBehind, before, lexeme,
      Option.bind_eq_bind, Option.bind_some]
    rw [← is]
    rfl
  · refine tracks.sound_tag within given found ?_ rfl rfl
    exact (source_withDelimiters _ _).trans (moving.source.trans tracks.source.symm)
  · have counted := moving.counted.withDelimiters body.kind
    rw [indented, ← List.append_assoc] at counted
    exact
      { source := (source_withDelimiters _ _).trans (moving.source_of_found found)
        opener := by
          rw [found.delimiters, is]
          exact opener_withDelimiters body.kind moving.opener
        closer := by
          rw [found.delimiters, is]
          exact closer_withDelimiters body.kind moving.closer
        offset := rfl
        read := tracks.read.next step
        counted := ⟨counted.counted, counted.line, counted.lineStart⟩ }

end Tracks

def left (r : Reader) (s : Scanner) : List (Except SyntaxError Token) :=
  r.pending.toList.map (fun tag => .ok (.tag tag)) ++ (Scan.ofScanner s).items

/-- A reader is in the scan of its source, and has still to give some items. -/
inductive Gives (r : Reader) : List (Except SyntaxError Token) → Prop where
  | here {s : Scanner} {done seen : List Char} (tracks : r.Tracks s done seen)
      (within : seen <+: done) : Gives r (r.left s)

theorem gives_start (d : Delimiters) (source : String) :
    (start d source).Gives (Scan.ofSource d source).items :=
  .here (tracks_start d source) List.prefix_rfl

theorem left_of_rest_eq_nil {r : Reader} {s : Scanner} (given : r.pending = none)
    (ended : s.rest = []) : r.left s = [] := by
  simp [left, given, Scan.items, Scan.ofScanner_of_done (Scanner.step_of_rest_eq_nil ended),
    Scan.ofText]

private theorem read_of_ended {r : Reader} (given : r.pending = none)
    (ended : size r.source ≤ r.offset) : r.read = some (.ended, r) := by
  simp only [read, given, if_pos ended]

theorem Gives.exists_read {r : Reader} {items : List (Except SyntaxError Token)}
    (gives : r.Gives items) :
    ∃ reading next behind, r.read = some (reading, next) ∧ reading.Sound r next ∧
      next.Gives behind ∧ items = reading.item?.toList ++ behind := by
  obtain ⟨tracks, within⟩ := gives
  rename_i s done seen
  cases given : r.pending with
  | some tag =>
    refine ⟨.pending tag, { r with pending := none }, _, by rw [read, given], .pending given,
      .here (s := s) ⟨tracks.source, tracks.opener, tracks.closer, tracks.offset, tracks.read,
        tracks.counted.counted, tracks.counted.line, tracks.counted.lineStart⟩ within, ?_⟩
    simp [left, given, Reading.item?]
  | none =>
    cases step : s.step with
    | done text =>
      obtain ⟨miss, rfl⟩ := Scanner.cut_of_done step
      by_cases ended : s.rest = []
      · have all : size r.source ≤ r.offset := by
          rw [tracks.source, tracks.offset, ended, List.append_nil]
        refine ⟨.ended, r, _, read_of_ended given all, .ended given all, .here tracks within, ?_⟩
        rfl
      · refine ⟨.rest s.rest, _, _, tracks.read_rest given ended miss,
          .rest given (tracks.offset_lt ended) tracks.slice?_rest, .here tracks.atEnd
          (within.trans (List.prefix_append _ _)), ?_⟩
        have none : Reader.pending { r with offset := size r.source } = Option.none := given
        rw [left_of_rest_eq_nil none rfl]
        simp [left, given, Scan.items, Scan.ofScanner_of_done step, Scan.ofText, ended,
          Reading.item?]
    | fault e =>
      obtain ⟨start, next, seen, found, sound, within, ended⟩ :=
        tracks.exists_fault within given step
      have none : next.pending = Option.none := by
        cases sound
        assumption
      refine ⟨_, next, _, found, sound, .here ended within, ?_⟩
      rw [left_of_rest_eq_nil none rfl]
      simp [left, given, Scan.items, Scan.ofScanner_of_fault step, Reading.item?]
    | tag text tag next =>
      obtain ⟨later, found, sound, tracking⟩ := tracks.exists_tag within given step
      have pending : later.pending = if text.isEmpty then none else some tag := by
        cases sound
        assumption
      refine ⟨_, later, _, found, sound, .here tracking ?_, ?_⟩
      · rw [Tag.region, ← List.append_assoc, ← List.append_assoc, List.append_assoc (_ ++ _)]
        exact List.prefix_append _ _
      · cases empty : text.isEmpty
        all_goals
          simp [left, given, pending, empty, Scan.items, Scan.ofScanner_of_tag step, Scan.ofText,
            Reading.item?]

theorem Gives.safe {r : Reader} {items : List (Except SyntaxError Token)} (gives : r.Gives items) :
    r.Safe := by
  obtain ⟨reading, next, behind, call, sound, -, -⟩ := gives.exists_read
  obtain ⟨tracks, within⟩ := gives
  rename_i s done seen
  obtain ⟨later, rfl⟩ := within
  have source := tracks.source
  have counted := tracks.counted
  obtain ⟨line, split, -⟩ := Text.exists_lastLine seen
  exact
    { opener := by
        rw [tracks.opener]
        exact isDelimiter_iff.mp s.delimiters.opener_valid
      closer := by
        rw [tracks.closer]
        exact isDelimiter_iff.mp s.delimiters.closer_valid
      line := by
        have sizes := congrArg size split
        have starts := counted.lineStart
        rw [Text.size_append] at sizes
        have here : r.lineStart = size line := by omega
        rw [source, here, counted.counted, split]
        refine ⟨?_, Text.size_le_append _ _⟩
        simp only [List.append_assoc]
        exact Text.boundary_size line _
      counted := by
        rw [source, counted.counted, tracks.offset, List.append_assoc]
        exact ⟨Text.boundary_size _ _, Text.size_le_append _ _⟩
      offset := by
        rw [source, tracks.offset]
        exact ⟨Text.boundary_size _ _, Text.size_le_append _ _⟩
      call := ⟨reading, next, call, sound, sound.onward⟩ }

/-- Twice what is behind the offset, and the tag that is kept. -/
def remaining (r : Reader) : Nat :=
  2 * (size r.source - r.offset) + r.pending.toList.length

private theorem remaining_lt {r next : Reader} {reading : Reading} (sound : reading.Sound r next)
    (goesOn : reading ≠ .ended) : next.remaining < r.remaining := by
  cases sound with
  | ended => exact absurd rfl goesOn
  | pending given => simp [remaining, given]
  | rest given left =>
    simp only [remaining, given, Option.toList_none, List.length_nil]
    omega
  | fault given behind counted left boundary source offset pending =>
    simp only [remaining, given, source, offset, pending, Option.toList_none, List.length_nil]
    omega
  | @tag _ place text tag given behind counted within taken source offset pending =>
    have kept : (if text.isEmpty then none else some tag).toList.length ≤ 1 := by
      split <;> simp
    have indent := within.indent
    have onward := within.tag
    have trailing := within.trailing
    have length := within.length
    simp only [remaining, given, source, offset, pending, Option.toList_none, List.length_nil]
    omega

/-- What was given and what has still to be given is what there was to give. -/
theorem Gives.calls {r last : Reader} {readings : List Reading}
    {items : List (Except SyntaxError Token)} (gives : r.Gives items)
    (calls : r.Calls readings last) :
    ∃ behind, last.Gives behind ∧ items = readings.filterMap Reading.item? ++ behind := by
  induction calls generalizing items with
  | here => exact ⟨items, gives, rfl⟩
  | @call r next last reading readings read behind ih =>
    obtain ⟨_, _, left, found, -, giving, rfl⟩ := gives.exists_read
    obtain ⟨rfl, rfl⟩ := Prod.mk.inj (Option.some.inj (read.symm.trans found))
    obtain ⟨rest, ending, rfl⟩ := ih giving
    refine ⟨rest, ending, ?_⟩
    cases item : reading.item? <;> simp [item]

private theorem Gives.eq_nil_of_ended {r : Reader} {items : List (Except SyntaxError Token)}
    (gives : r.Gives items) (ended : r.read = some (.ended, r)) : items = [] := by
  obtain ⟨reading, next, behind, call, sound, -, -⟩ := gives.exists_read
  obtain ⟨rfl, rfl⟩ := Prod.mk.inj (Option.some.inj (ended.symm.trans call))
  cases sound with
  | ended given left =>
    obtain ⟨tracks, within⟩ := gives
    rw [tracks.source, tracks.offset, Text.size_append] at left
    exact left_of_rest_eq_nil given (Text.eq_nil_of_size (by omega))

/-- The calls come to an end, as each one leaves less. -/
theorem Gives.exists_calls {r : Reader} {items : List (Except SyntaxError Token)}
    (gives : r.Gives items) :
    ∃ readings last, r.Calls readings last ∧ last.read = some (.ended, last) := by
  induction measure : r.remaining using Nat.strong_induction_on generalizing r items with
  | h n ih =>
    obtain ⟨reading, next, behind, call, sound, giving, -⟩ := gives.exists_read
    by_cases ended : reading = .ended
    · subst ended
      cases sound
      exact ⟨[], r, .here, call⟩
    · obtain ⟨readings, last, calls, ending⟩ :=
        ih next.remaining (measure ▸ remaining_lt sound ended) giving rfl
      exact ⟨reading :: readings, last, .call call calls, ending⟩

theorem Calls.eq_ended {r last : Reader} {readings : List Reading} (calls : r.Calls readings last)
    (ended : r.read = some (.ended, r)) : ∀ reading ∈ readings, reading = .ended := by
  induction calls with
  | here => simp
  | call read behind ih =>
    obtain ⟨rfl, rfl⟩ := Prod.mk.inj (Option.some.inj (read.symm.trans ended))
    exact List.forall_mem_cons.mpr ⟨rfl, ih ended⟩

private theorem read_of_final {r next : Reader} {reading : Reading} (sound : reading.Sound r next)
    (final : reading.Final) : next.read = some (.ended, next) := by
  cases final with
  | ended =>
    cases sound with
    | ended given left => exact read_of_ended given left
  | fault =>
    cases sound with
    | fault given behind counted left boundary source offset pending =>
      exact read_of_ended pending (by rw [source, offset])

theorem Gives.pairwise {r last : Reader} {readings : List Reading}
    {items : List (Except SyntaxError Token)} (gives : r.Gives items)
    (calls : r.Calls readings last) :
    readings.Pairwise fun earlier later => earlier.Final → later = .ended := by
  induction calls generalizing items with
  | here => exact .nil
  | call read behind ih =>
    obtain ⟨reading, next, left, found, sound, giving, -⟩ := gives.exists_read
    obtain ⟨rfl, rfl⟩ := Prod.mk.inj (Option.some.inj (read.symm.trans found))
    refine .cons (fun later member final => ?_) (ih giving)
    exact behind.eq_ended (read_of_final sound final) later member

/-- All states of a reader are safe, its calls come to an end, and they give what the scan of the
source gives. -/
theorem reads_source (d : Delimiters) (source : String) :
    (∀ readings r, (start d source).Calls readings r → r.Safe ∧
      readings.Pairwise (fun earlier later => earlier.Final → later = .ended) ∧
      readings.filterMap Reading.item? <+: (Scan.ofSource d source).items) ∧
    ∃ readings last, (start d source).Calls readings last ∧ last.read = some (.ended, last) ∧
      readings.filterMap Reading.item? = (Scan.ofSource d source).items := by
  have gives := gives_start d source
  constructor
  · intro readings r calls
    obtain ⟨behind, giving, items⟩ := gives.calls calls
    exact ⟨giving.safe, gives.pairwise calls, behind, items.symm⟩
  · obtain ⟨readings, last, calls, ended⟩ := gives.exists_calls
    obtain ⟨behind, giving, items⟩ := gives.calls calls
    refine ⟨readings, last, calls, ended, ?_⟩
    rw [items, giving.eq_nil_of_ended ended, List.append_nil]

/-- A letter of two bytes before each tag, the second of which is on two lines between delimiters
that the first one sets, and then a tag without an end. -/
theorem reads_source_twoBytes :
    let source := "é\n  \x7b\x7b=| |=\x7d\x7d\r\né|#x\n|é|y"
    let change : Tag := ⟨.delimiters ⟨"|", "|", rfl, rfl⟩, "| |", ⟨2, 3, 5⟩,
      "\x7b\x7b=| |=\x7d\x7d", some ⟨"  ", "\r\n"⟩⟩
    let tag : Tag := ⟨.sect false, "x", ⟨3, 2, 18⟩, "|#x\n|", none⟩
    ∃ readings last, (start .braces source).Calls readings last ∧ last.Safe ∧
      last.read = some (.ended, last) ∧ readings.filterMap Reading.item? =
        [.ok (.text "é\n"), .ok (.tag change), .ok (.text "é"), .ok (.tag tag),
          .error ⟨.unclosedTag, ⟨4, 3, 25⟩⟩] := by
  intro source change tag
  obtain ⟨states, readings, last, calls, ended, items⟩ := reads_source .braces source
  have scanned : Scan.ofSource .braces source =
      ⟨[.text "é\n", .tag change, .text "é", .tag tag], some ⟨.unclosedTag, ⟨4, 3, 25⟩⟩⟩ := by
    decide +kernel
  rw [scanned] at items
  exact ⟨readings, last, calls, (states readings last calls).1, ended, items⟩

end Reader

end Mustache
