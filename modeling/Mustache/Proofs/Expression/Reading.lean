import Mustache.Proofs.Expression.Grammar

/-!
The readers of expressions accept the grammar and nothing else. For each reader there are
two lemmas: what it takes off a text is spelled right, and what is spelled right it takes off
a text that ends there.
-/

namespace Mustache.Expression

open Text (Stops trimStart stops_cons takeWhile_run dropWhile_run takeWhile_of_stops)

theorem takeIdentifier_append {name rest : List Char} (identifier : IsIdentifier name)
    (stops : Stops isIdentifierChar rest) : takeIdentifier (name ++ rest) = name :=
  takeWhile_run identifier.chars stops

theorem dropIdentifier_append {name rest : List Char} (identifier : IsIdentifier name)
    (stops : Stops isIdentifierChar rest) : dropIdentifier (name ++ rest) = rest :=
  dropWhile_run identifier.chars stops

private theorem takeIdentifier_append_dropIdentifier (s : List Char) :
    takeIdentifier s ++ dropIdentifier s = s :=
  List.takeWhile_append_dropWhile

private theorem isIdentifier_takeIdentifier {s : List Char} (nonempty : takeIdentifier s ≠ []) :
    IsIdentifier (takeIdentifier s) :=
  ⟨nonempty, fun _ => List.mem_takeWhile_imp⟩

/-! Paths. -/

private theorem spells_of_members {s rest : List Char} {names : List Component}
    (read : members s = .ok (names, rest)) :
    ∃ text, s = text ++ rest ∧ SpellsMembers text names := by
  induction names generalizing s with
  | nil =>
    obtain ⟨-, rfl, -⟩ | ⟨_, _, -, -, -, same⟩ := members_cases read
    · exact ⟨[], rfl, .nil⟩
    · simp at same
  | cons first others ih =>
    obtain ⟨none, -⟩ | ⟨tail, behind, rfl, nonempty, step, same⟩ := members_cases read
    · simp at none
    · obtain ⟨rfl, rfl⟩ := List.cons_eq_cons.mp same
      obtain ⟨text, split, spelled⟩ := ih step
      refine ⟨'.' :: (takeIdentifier tail ++ text), ?_,
        .cons (isIdentifier_takeIdentifier nonempty) spelled⟩
      rw [List.cons_append, List.append_assoc, ← split, takeIdentifier_append_dropIdentifier]

theorem SpellsMembers.stops {text rest : List Char} {names : List Component}
    (spelled : SpellsMembers text names) (ends : Ends rest) :
    Stops isIdentifierChar (text ++ rest) := by
  cases spelled with
  | nil => exact ends.identifier
  | cons _ _ => exact stops_cons.mpr (by decide)

theorem members_append {text rest : List Char} {names : List Component}
    (spelled : SpellsMembers text names) (ends : Ends rest) :
    members (text ++ rest) = .ok (names, rest) := by
  induction spelled with
  | nil =>
    rw [List.nil_append]
    unfold members
    split
    · exact absurd ends.point (by simp)
    · rfl
  | @cons name text others identifier behind ih =>
    rw [List.cons_append, List.append_assoc]
    unfold members
    simp only
    rw [takeIdentifier_append identifier (behind.stops ends),
      dropIdentifier_append identifier (behind.stops ends), ih]
    split
    · exact absurd rfl identifier.nonempty
    · rfl

private theorem names_ne_nil_of_members {tail rest : List Char} {names : List Component}
    (read : members ('.' :: tail) = .ok (names, rest)) : names ≠ [] := by
  obtain ⟨-, -, other⟩ | ⟨_, _, -, -, -, rfl⟩ := members_cases read
  · exact absurd rfl (other tail)
  · simp

private theorem spells_of_readPath {s rest : List Char} {path : List Component}
    (read : readPath s = .ok (path, rest)) :
    ∃ text, s = text ++ rest ∧ SpellsPath text path := by
  unfold readPath at read
  split at read
  · simp at read
  · split at read
    · obtain ⟨rfl, rfl⟩ := Prod.mk.inj (Except.ok.inj read)
      exact ⟨['.'], rfl, .scope⟩
    · split at read
      · simp at read
      · rename_i names behind step
        obtain ⟨rfl, rfl⟩ := Prod.mk.inj (Except.ok.inj read)
        obtain ⟨text, split, spelled⟩ := spells_of_members step
        exact ⟨text, split, .relative spelled (names_ne_nil_of_members step)⟩
  · split at read
    · simp at read
    · rename_i nonempty
      split at read
      · simp at read
      · rename_i names behind step
        obtain ⟨rfl, rfl⟩ := Prod.mk.inj (Except.ok.inj read)
        obtain ⟨text, split, spelled⟩ := spells_of_members step
        refine ⟨takeIdentifier s ++ text, ?_,
          .absolute (isIdentifier_takeIdentifier nonempty) spelled⟩
        rw [List.append_assoc, ← split, takeIdentifier_append_dropIdentifier]

theorem readPath_append {text rest : List Char} {path : List Component}
    (spelled : SpellsPath text path) (ends : Ends rest) :
    readPath (text ++ rest) = .ok (path, rest) := by
  cases spelled with
  | scope =>
    rw [List.singleton_append]
    unfold readPath
    split
    · rename_i same
      obtain ⟨-, rfl⟩ := List.cons_eq_cons.mp same
      exact absurd ends.point (by simp)
    · rename_i same
      obtain ⟨-, rfl⟩ := List.cons_eq_cons.mp same
      have none : takeIdentifier rest = [] := takeWhile_of_stops ends.identifier
      rw [none]
    · rename_i other
      exact absurd rfl (other rest)
  | @relative _ names spelled nonempty =>
    have read := members_append spelled ends
    cases spelled with
    | nil => exact absurd rfl nonempty
    | @cons name text others identifier behind =>
      obtain ⟨c, more, rfl, char⟩ := identifier.exists_head
      have taken := takeIdentifier_append identifier (behind.stops ends)
      rw [List.cons_append, List.append_assoc] at read ⊢
      unfold readPath
      split
      · rename_i same
        obtain ⟨-, tail⟩ := List.cons_eq_cons.mp same
        obtain ⟨rfl, -⟩ := List.cons_eq_cons.mp tail
        exact absurd char (by decide)
      · rename_i same
        obtain ⟨-, tail⟩ := List.cons_eq_cons.mp same
        rw [read, ← tail, taken]
      · rename_i other
        exact absurd rfl (other _)
  | @absolute name text others identifier behind =>
    obtain ⟨c, more, rfl, char⟩ := identifier.exists_head
    have taken := takeIdentifier_append identifier (behind.stops ends)
    have dropped := dropIdentifier_append identifier (behind.stops ends)
    have read := members_append behind ends
    have different : c ≠ '.' := by
      rintro rfl
      exact absurd char (by decide)
    unfold readPath
    split
    · rename_i same
      exact absurd (List.cons_eq_cons.mp same).1 different
    · rename_i same
      exact absurd (List.cons_eq_cons.mp same).1 different
    · rw [List.append_assoc, taken, dropped, read]

theorem SpellsPath.unique {text : List Char} {path other : List Component}
    (spelled : SpellsPath text path) (same : SpellsPath text other) : path = other := by
  have ends : Ends [] := fun c first => by simp at first
  have read := readPath_append spelled ends
  rw [readPath_append same ends] at read
  exact (Prod.mk.inj (Except.ok.inj read)).1.symm

/-! Arguments. -/

private theorem spellsPath_word {word : String} (identifier : IsIdentifier word.toList) :
    SpellsPath word.toList [.identifier word] := by
  have spelled := SpellsPath.absolute identifier .nil
  rwa [List.append_nil, String.ofList_toList] at spelled

private theorem spellsPath_true : SpellsPath "true".toList [.identifier "true"] :=
  spellsPath_word ⟨by decide, List.all_eq_true.mp (by decide)⟩

private theorem spellsPath_false : SpellsPath "false".toList [.identifier "false"] :=
  spellsPath_word ⟨by decide, List.all_eq_true.mp (by decide)⟩

/-- A path in the place of an argument spells one, unless it starts like a number. -/
theorem SpellsPath.argument {text : List Char} {path : List Component}
    (spelled : SpellsPath text path) (start : Stops isNumberStart text) :
    SpellsArgument text (Argument.ofPath path) := by
  unfold Argument.ofPath
  split
  · rw [← spelled.pathText_eq]
    exact .truth
  · rw [← spelled.pathText_eq]
    exact .falsehood
  · rename_i other different
    refine .path spelled start ?_ ?_
    · rintro rfl
      exact other (spelled.unique spellsPath_true)
    · rintro rfl
      exact different (spelled.unique spellsPath_false)

private theorem spells_of_readString {s value rest : List Char}
    (read : readString s = some (value, rest)) :
    ∃ text, s = text ++ '"' :: rest ∧ SpellsString text value := by
  fun_induction readString s generalizing value rest with
  | case1 => simp at read
  | case2 tail =>
    obtain ⟨rfl, rfl⟩ := Prod.mk.inj (Option.some.inj read)
    exact ⟨[], rfl, .nil⟩
  | case3 c tail ih =>
    obtain ⟨⟨inner, behind⟩, step, same⟩ := Option.map_eq_some_iff.mp read
    obtain ⟨rfl, rfl⟩ := Prod.mk.inj same
    obtain ⟨text, rfl, spelled⟩ := ih step
    exact ⟨'\\' :: c :: text, rfl, .escaped c spelled⟩
  | case4 => simp at read
  | case5 c tail unquoted unescaped alone ih =>
    obtain ⟨⟨inner, behind⟩, step, same⟩ := Option.map_eq_some_iff.mp read
    obtain ⟨rfl, rfl⟩ := Prod.mk.inj same
    obtain ⟨text, rfl, spelled⟩ := ih step
    refine ⟨c :: text, rfl, .plain unquoted ?_ spelled⟩
    intro backslash
    obtain ⟨d, more, tail⟩ := List.exists_cons_of_ne_nil (alone backslash)
    exact unescaped d more backslash tail

theorem readString_append {text value : List Char} (spelled : SpellsString text value)
    (rest : List Char) : readString (text ++ '"' :: rest) = some (value, rest) := by
  induction spelled with
  | nil => simp [readString]
  | plain unquoted unescaped _ ih =>
    rw [List.cons_append, readString, ih]
    · rfl
    · exact unquoted
    · exact fun _ _ backslash => absurd backslash unescaped
    · exact fun backslash => absurd backslash unescaped
  | escaped c _ ih =>
    rw [List.cons_append, List.cons_append, readString, ih]
    rfl

private theorem spells_of_readArgument {s rest : List Char} {a : Argument}
    (read : readArgument s = .ok (a, rest)) :
    ∃ text, s = text ++ rest ∧ SpellsArgument text a := by
  unfold readArgument at read
  split at read
  · simp at read
  · rename_i c tail
    split at read
    · simp at read
    · split at read
      · rename_i quote
        obtain rfl := beq_iff_eq.mp quote
        split at read
        · simp at read
        · rename_i value behind step
          obtain ⟨rfl, rfl⟩ := Prod.mk.inj (Except.ok.inj read)
          obtain ⟨text, rfl, spelled⟩ := spells_of_readString step
          exact ⟨'"' :: (text ++ ['"']), by simp, .string spelled⟩
      · split at read
        · dsimp only at read
          split at read
          · simp at read
          · rename_i n step
            obtain ⟨rfl, rfl⟩ := Prod.mk.inj (Except.ok.inj read)
            obtain ⟨l, spelled, value⟩ := Number.read?_eq_some_iff.mp step
            exact ⟨_, List.takeWhile_append_dropWhile.symm, .number spelled value⟩
        · rename_i other
          split at read
          · simp at read
          · rename_i path behind step
            obtain ⟨rfl, rfl⟩ := Prod.mk.inj (Except.ok.inj read)
            obtain ⟨text, split, spelled⟩ := spells_of_readPath step
            refine ⟨text, split, spelled.argument ?_⟩
            obtain ⟨d, more, rfl, -⟩ := spelled.exists_head
            obtain ⟨rfl, -⟩ := List.cons_eq_cons.mp split
            exact stops_cons.mpr (by simpa [isNumberStart] using other)

private theorem ne_of_unmarked {p : Char → Bool} {c : Char} (char : p c = true)
    {marks : List Char} (unmarked : marks.all (fun d => !p d) = true) : ∀ d ∈ marks, c ≠ d := by
  rintro d mark rfl
  have other := List.all_eq_true.mp unmarked c mark
  simp [char] at other

private theorem readArgument_path {text rest : List Char} {path : List Component}
    (spelled : SpellsPath text path) (start : Stops isNumberStart text) (ends : Ends rest) :
    readArgument (text ++ rest) = .ok (Argument.ofPath path, rest) := by
  have read := readPath_append spelled ends
  obtain ⟨c, more, rfl, first⟩ := spelled.exists_head
  have unmarked : ∀ d ∈ ['|', ',', '"'], c ≠ d := by
    rcases first with rfl | char
    · simp
    · exact ne_of_unmarked char (by decide)
  have letter : isNumberStart c = false := stops_cons.mp start
  unfold isNumberStart at letter
  unfold readArgument
  simp only [List.cons_append] at read ⊢
  rw [if_neg (by simp [unmarked]), if_neg (by simp [unmarked]), if_neg (by simp [letter]), read]

theorem readArgument_append {text rest : List Char} {a : Argument}
    (spelled : SpellsArgument text a) (ends : Ends rest) :
    readArgument (text ++ rest) = .ok (a, rest) := by
  cases spelled with
  | string quoted =>
    have read := readString_append quoted rest
    unfold readArgument
    simp [read]
  | number literal value =>
    have run := isNumberChar_of_spells literal
    have read := Number.read?_eq_some_iff.mpr ⟨_, literal, value⟩
    have taken := takeWhile_run run ends.number
    have dropped := dropWhile_run run ends.number
    obtain ⟨c, more, rfl, first⟩ := literal.exists_head
    have start : (c == '-' || c.isDigit) = true := by
      simpa using first
    have unmarked : ∀ d ∈ ['|', ',', '"'], c ≠ d :=
      ne_of_unmarked (run c (by simp)) (by decide)
    unfold readArgument
    simp only [List.cons_append] at taken dropped ⊢
    rw [if_neg (by simp [unmarked]), if_neg (by simp [unmarked]), if_pos start, taken, dropped,
      read]
  | truth => exact readArgument_path spellsPath_true (stops_cons.mpr rfl) ends
  | falsehood => exact readArgument_path spellsPath_false (stops_cons.mpr rfl) ends
  | @path _ components spelled start other different =>
    rw [readArgument_path spelled start ends]
    unfold Argument.ofPath
    split
    · exact absurd spelled.pathText_eq.symm other
    · exact absurd spelled.pathText_eq.symm different
    · rfl

/-! Pipelines. -/

private theorem spells_of_readArguments {s rest : List Char} {args : List Argument}
    (read : readArguments s = .ok (args, rest)) :
    ∃ pieces, SpellsArguments pieces args ∧
      ∀ behind, Spaced behind rest → Spaced (pieces ++ behind) s := by
  fun_induction readArguments s generalizing args rest with
  | case1 => simp at read
  | case2 => simp at read
  | case3 s argument tail first more comma others last step ih =>
    obtain ⟨rfl, rfl⟩ := Prod.mk.inj (Except.ok.inj read)
    obtain ⟨text, split, spelled⟩ := spells_of_readArgument first
    obtain ⟨pieces, list, spaced⟩ := ih step
    refine ⟨text :: [','] :: pieces, .more spelled list, ?_⟩
    intro behind follows
    rw [List.cons_append, spaced_cons_iff spelled.visible]
    refine ⟨tail, split, ?_⟩
    rw [List.cons_append, spaced_cons_iff ⟨',', [], rfl, by decide⟩]
    exact ⟨more, comma, spaced behind follows⟩
  | case4 s argument tail first =>
    obtain ⟨rfl, rfl⟩ := Prod.mk.inj (Except.ok.inj read)
    obtain ⟨text, split, spelled⟩ := spells_of_readArgument first
    refine ⟨[text], .last spelled, ?_⟩
    intro behind follows
    rw [List.singleton_append, spaced_cons_iff spelled.visible]
    exact ⟨tail, split, follows.of_trimStart⟩

private theorem spells_of_readFilter {s rest : List Char} {call : FilterCall}
    (read : readFilter s = .ok (call, rest)) :
    ∃ pieces, SpellsCall pieces call ∧
      ∀ behind, Spaced behind rest → Spaced (pieces ++ behind) s := by
  have split := takeIdentifier_append_dropIdentifier (trimStart s)
  unfold readFilter at read
  dsimp only at read
  split at read
  · simp at read
  · rename_i nonempty
    have identifier := isIdentifier_takeIdentifier nonempty
    split at read
    · rename_i tail colon
      split at read
      · simp at read
      · rename_i args behind step
        obtain ⟨rfl, rfl⟩ := Prod.mk.inj (Except.ok.inj read)
        obtain ⟨pieces, list, spaced⟩ := spells_of_readArguments step
        refine ⟨takeIdentifier (trimStart s) :: [':'] :: pieces, .applied identifier list, ?_⟩
        intro behind follows
        rw [List.cons_append, spaced_cons_iff identifier.visible]
        refine ⟨dropIdentifier (trimStart s), split.symm, ?_⟩
        rw [List.cons_append, spaced_cons_iff ⟨':', [], rfl, by decide⟩]
        exact ⟨tail, colon, spaced behind follows⟩
    · obtain ⟨rfl, rfl⟩ := Prod.mk.inj (Except.ok.inj read)
      refine ⟨[takeIdentifier (trimStart s)], .bare identifier, ?_⟩
      intro behind follows
      rw [List.singleton_append, spaced_cons_iff identifier.visible]
      exact ⟨dropIdentifier (trimStart s), split.symm, follows.of_trimStart⟩

private theorem spells_of_readFilters {s : List Char} {calls : List FilterCall}
    (read : readFilters s = .ok calls) :
    ∃ pieces, SpellsFilters pieces calls ∧ Spaced pieces s := by
  fun_induction readFilters s generalizing calls with
  | case1 s none =>
    obtain rfl := Except.ok.inj read
    exact ⟨[], .nil, spaced_nil_iff.mpr none⟩
  | case2 => simp at read
  | case3 => simp at read
  | case4 s more bar call behind first others step ih =>
    obtain rfl := Except.ok.inj read
    obtain ⟨given, spelled, spaced⟩ := spells_of_readFilter first
    obtain ⟨pieces, list, follows⟩ := ih step
    refine ⟨['|'] :: (given ++ pieces), .cons spelled list, ?_⟩
    rw [spaced_cons_iff ⟨'|', [], rfl, by decide⟩]
    exact ⟨more, bar, spaced pieces follows⟩
  | case5 => simp at read

theorem SpellsFilters.spaced_trimStart {pieces : List (List Char)} {calls : List FilterCall}
    (spelled : SpellsFilters pieces calls) {s : List Char} (spaced : Spaced pieces s) :
    Spaced pieces (trimStart s) := by
  cases spelled with
  | nil =>
    rw [spaced_nil_iff.mp spaced]
    exact .nil Text.blanks_nil
  | cons _ _ =>
    obtain ⟨text, same, behind⟩ := (spaced_cons_iff ⟨'|', [], rfl, by decide⟩).mp spaced
    rw [same]
    exact .cons Text.blanks_nil behind

private theorem SpellsFilters.trimStart_ne {pieces : List (List Char)} {calls : List FilterCall}
    (spelled : SpellsFilters pieces calls) {s : List Char} (spaced : Spaced pieces s)
    {c : Char} (other : c ≠ '|') (tail : List Char) : trimStart s ≠ c :: tail := by
  intro same
  cases spelled with
  | nil =>
    rw [spaced_nil_iff.mp spaced] at same
    simp at same
  | cons _ _ =>
    obtain ⟨text, bar, -⟩ := (spaced_cons_iff ⟨'|', [], rfl, by decide⟩).mp spaced
    rw [bar] at same
    exact other (List.cons_eq_cons.mp same).1.symm

private theorem readArguments_spaced {pieces behind : List (List Char)} {args : List Argument}
    {calls : List FilterCall} (spelled : SpellsArguments pieces args)
    (pipeline : SpellsFilters behind calls) {s : List Char} (spaced : Spaced (pieces ++ behind) s) :
    ∃ rest, readArguments s = .ok (args, rest) ∧ Spaced behind rest := by
  induction spelled generalizing s with
  | @last text a argument =>
    rw [List.singleton_append] at spaced
    obtain ⟨tail, split, follows⟩ := (spaced_cons_iff argument.visible).mp spaced
    have read := readArgument_append argument (pipeline.ends follows)
    refine ⟨trimStart tail, ?_, pipeline.spaced_trimStart follows⟩
    unfold readArguments
    rw [split, read]
    dsimp only
    split
    · rename_i more comma
      exact absurd comma (pipeline.trimStart_ne follows (by decide) more)
    · rfl
  | @more text a pieces others argument _ ih =>
    rw [List.cons_append, List.cons_append] at spaced
    obtain ⟨tail, split, follows⟩ := (spaced_cons_iff argument.visible).mp spaced
    obtain ⟨more, comma, given⟩ := (spaced_cons_iff ⟨',', [], rfl, by decide⟩).mp follows
    have read := readArgument_append argument (follows.ends_of_mark (by simp))
    obtain ⟨rest, step, left⟩ := ih given
    refine ⟨rest, ?_, left⟩
    unfold readArguments
    rw [split, read]
    dsimp only
    split
    · rename_i found same
      obtain ⟨-, rfl⟩ := List.cons_eq_cons.mp (same.symm.trans comma)
      rw [step]
    · rename_i other
      exact absurd comma (other more)

private theorem readFilter_spaced {given behind : List (List Char)} {call : FilterCall}
    {calls : List FilterCall} (spelled : SpellsCall given call)
    (pipeline : SpellsFilters behind calls) {s : List Char} (spaced : Spaced (given ++ behind) s) :
    ∃ rest, readFilter s = .ok (call, rest) ∧ Spaced behind rest := by
  cases spelled with
  | @bare name identifier =>
    rw [List.singleton_append] at spaced
    obtain ⟨tail, split, follows⟩ := (spaced_cons_iff identifier.visible).mp spaced
    have stops := (pipeline.ends follows).identifier
    refine ⟨trimStart tail, ?_, pipeline.spaced_trimStart follows⟩
    unfold readFilter
    dsimp only
    rw [split, takeIdentifier_append identifier stops, dropIdentifier_append identifier stops]
    split
    · exact absurd rfl identifier.nonempty
    · split
      · rename_i more colon
        exact absurd colon (pipeline.trimStart_ne follows (by decide) more)
      · rfl
  | @applied name pieces args identifier arguments =>
    rw [List.cons_append, List.cons_append] at spaced
    obtain ⟨tail, split, follows⟩ := (spaced_cons_iff identifier.visible).mp spaced
    have stops := (follows.ends_of_mark (by simp)).identifier
    obtain ⟨more, colon, list⟩ := (spaced_cons_iff ⟨':', [], rfl, by decide⟩).mp follows
    obtain ⟨rest, read, left⟩ := readArguments_spaced arguments pipeline list
    refine ⟨rest, ?_, left⟩
    unfold readFilter
    dsimp only
    rw [split, takeIdentifier_append identifier stops, dropIdentifier_append identifier stops,
      colon]
    split
    · exact absurd rfl identifier.nonempty
    · simp only [List.singleton_append]
      rw [read]

private theorem readFilters_spaced {pieces : List (List Char)} {calls : List FilterCall}
    (spelled : SpellsFilters pieces calls) {s : List Char} (spaced : Spaced pieces s) :
    readFilters s = .ok calls := by
  induction spelled generalizing s with
  | nil =>
    unfold readFilters
    rw [spaced_nil_iff.mp spaced]
  | @cons call given pieces others first behind ih =>
    obtain ⟨more, bar, follows⟩ := (spaced_cons_iff ⟨'|', [], rfl, by decide⟩).mp spaced
    obtain ⟨rest, read, left⟩ := readFilter_spaced first behind follows
    unfold readFilters
    rw [bar]
    simp only [List.singleton_append]
    rw [read]
    dsimp only
    rw [ih left]

/-- The contents of tags that are expressions, and the expressions that they are. -/
theorem parse_eq_ok_iff {content : String} {e : Expression} :
    parse content = .ok e ↔ Spells content.toList e := by
  constructor
  · intro read
    unfold parse at read
    split at read
    · simp at read
    · rename_i path rest first
      split at read
      · simp at read
      · rename_i filters step
        obtain rfl := Except.ok.inj read
        obtain ⟨text, split, spelled⟩ := spells_of_readPath first
        obtain ⟨pieces, pipeline, spaced⟩ := spells_of_readFilters step
        refine ⟨text :: pieces, .mk spelled pipeline, ?_⟩
        rw [spaced_cons_iff spelled.visible]
        exact ⟨rest, split, spaced⟩
  · rintro ⟨pieces, composed, spaced⟩
    cases composed with
    | mk first pipeline =>
      obtain ⟨rest, split, follows⟩ := (spaced_cons_iff first.visible).mp spaced
      unfold parse
      rw [split, readPath_append first (pipeline.ends follows)]
      dsimp only
      rw [readFilters_spaced pipeline follows]

end Mustache.Expression
