import FieldPlan.Proofs.Yaml.Plain

/-! Tokens of the entries of a mapping that stand one on a line, each a word with a plain
scalar. -/
namespace FieldPlan.Yaml.Scan
variable {s t : Scan} {c : Cursor} {n : Nat} {ch : Char} {word value line rest : List Char}

/-! ### Steps that change nothing -/

def IsText (c : Cursor) : Prop :=
  c.rest = [] ∨ ∃ ch rest, c.rest = ch :: rest ∧ ch ≠ ' ' ∧ ch ≠ '#' ∧ isBreak ch = false

theorem IsText.peek_ne (text : IsText c) : c.peek ≠ some ' ' ∧ c.peek ≠ some '#' := by
  obtain empty | ⟨ch, rest, here, not_space, not_hash, -⟩ := text
  · rw [Cursor.peek, empty]
    exact ⟨(Option.some_ne_none _).symm, (Option.some_ne_none _).symm⟩
  · rw [Cursor.peek, here]
    exact ⟨fun same => not_space (Option.some.inj same),
      fun same => not_hash (Option.some.inj same)⟩

theorem IsText.lineBreak?_none (text : IsText c) : c.lineBreak? = none := by
  obtain empty | ⟨ch, rest, here, -, -, inline⟩ := text
  · exact Cursor.lineBreak?_of_nil empty
  · exact Cursor.lineBreak?_of_rest here inline

theorem toNext_of_text (text : IsText s.cursor) : toNext (n + 1) s = s := by
  obtain ⟨not_space, not_hash⟩ := text.peek_ne
  rw [toNext]
  simp only [Cursor.skipSpaces_of_peek not_space, Cursor.skipComment_of_peek not_hash,
    text.lineBreak?_none]

theorem toNext_spaces {spaces : List Char} (here : s.cursor.rest = spaces ++ ch :: rest)
    (all_spaces : ∀ b ∈ spaces, b = ' ') (not_space : ch ≠ ' ')
    (not_hash : ch ≠ '#') (inline : isBreak ch = false) :
    toNext (n + 1) s = { s with cursor := s.cursor.skip spaces.length } := by
  have left : (s.cursor.skip spaces.length).rest = ch :: rest := Cursor.skip_of_rest here
  have text : IsText (s.cursor.skip spaces.length) :=
    .inr ⟨ch, rest, left, not_space, not_hash, inline⟩
  have skipped : s.cursor.skipSpaces = s.cursor.skip spaces.length := by
    have run : s.cursor.span (· = ' ') = (spaces, s.cursor.skip spaces.length) := by
      apply Cursor.span_run here
      · simpa using all_spaces
      · simpa using not_space
    rw [Cursor.skipSpaces, run]
  rw [toNext]
  simp only [skipped, Cursor.skipComment_of_peek text.peek_ne.2, text.lineBreak?_none]

theorem isText_of_small {line : List Char} (small : BeginsSmall line) (here : c.rest = line) :
    IsText c := by
  cases line with
  | nil => exact .inl here
  | cons first more =>
    have plain := isBlank_of_isLower (small first more rfl)
    have apart : first ∉ ['#'] := not_mark_of_isLower (small first more rfl) _ (by decide)
    rw [isBlank, isSpace, Bool.or_eq_false_iff, Bool.or_eq_false_iff,
      decide_eq_false_iff_not] at plain
    exact .inr ⟨first, more, here, plain.1.1, by simpa using apart, plain.2⟩

theorem run_past_line {blanks note line : List Char} (n : Nat) (block : s.flow = 0)
    (here : s.cursor.rest = blanks ++ (note ++ '\n' :: line)) (spaces : ∀ b ∈ blanks, b = ' ')
    (inline : note = [] ∨ ∃ comment, note = '#' :: comment ∧ ∀ ch ∈ comment, isBreak ch = false)
    (small : BeginsSmall line) :
    ∃ d : Cursor, d.rest = line ∧ d.column = 0 ∧
      run (n + 1) s = run (n + 1) { s with cursor := d, keyAllowed := true } := by
  have not_space : (note ++ '\n' :: line).head? ≠ some ' ' := by
    obtain rfl | ⟨comment, rfl, -⟩ := inline <;> simp
  have skipped : s.cursor.skipSpaces = s.cursor.skip blanks.length := by
    have taken : s.cursor.span (· = ' ') = (blanks, s.cursor.skip blanks.length) := by
      apply Cursor.span_run here
      · simpa using spaces
      · intro ch first
        rw [first] at not_space
        simpa using not_space
    rw [Cursor.skipSpaces, taken]
  have at_note : (s.cursor.skip blanks.length).rest = note ++ '\n' :: line :=
    Cursor.skip_of_rest here
  have passed : (s.cursor.skip blanks.length).skipComment =
      (s.cursor.skip blanks.length).skip note.length := by
    generalize s.cursor.skip blanks.length = e at *
    obtain rfl | ⟨comment, rfl, inline⟩ := inline
    · apply Cursor.skipComment_of_peek
      rw [Cursor.peek, at_note]
      simp
    · have hash : e.peek = some '#' := by
        rw [Cursor.peek, at_note]
        rfl
      have taken : e.span (fun ch => !isBreak ch) =
          ('#' :: comment, e.skip ('#' :: comment).length) := by
        apply Cursor.span_run at_note
        · exact List.forall_mem_cons.mpr ⟨rfl, fun ch mem => by rw [inline ch mem, Bool.not_false]⟩
        · rintro ch first
          obtain rfl := Option.some.inj first
          rfl
      rw [Cursor.skipComment, if_pos hash, taken]
  have at_end : ((s.cursor.skip blanks.length).skip note.length).rest = '\n' :: line :=
    Cursor.skip_of_rest at_note
  generalize (s.cursor.skip blanks.length).skip note.length = e at *
  have next : e.advance.rest = line := Cursor.advance_of_rest at_end
  have text : IsText e.advance := isText_of_small small next
  have not_in_flow : s.inFlow = false := by
    rw [inFlow, block]
    rfl
  have turn : toNext (s.cursor.rest.length + 1) s =
      { s with cursor := e.advance, keyAllowed := true } := by
    obtain ⟨m, some_left⟩ : ∃ m, s.cursor.rest.length = m + 1 := by
      rw [here, List.length_append, List.length_append, List.length_cons]
      exact ⟨blanks.length + (note.length + line.length), rfl⟩
    rw [toNext]
    simp only [skipped, passed, Cursor.lineBreak?_of_newline at_end, not_in_flow, Bool.not_false,
      Bool.or_true]
    rw [some_left]
    exact toNext_of_text (s := { s with cursor := e.advance, keyAllowed := true }) text
  refine ⟨e.advance, next, ?_, ?_⟩
  · rw [Cursor.advance_newline at_end]
  · have stays := toNext_of_text (n := e.advance.rest.length)
      (s := { s with cursor := e.advance, keyAllowed := true }) text
    rw [run, run, turn, stays]

theorem unwind_of_le {column : Int} (h : s.indent ≤ column) : s.unwind column = s := by
  have same : ∀ outer tokens,
      unwindFrom column s.indent outer tokens = (s.indent, outer, tokens) := by
    intro outer tokens
    cases outer with
    | nil => rfl
    | cons => rw [unwindFrom, if_neg (Int.not_lt.mpr h)]
  rw [unwind, same]
  exact ite_self s

theorem run_token (next : (toNext (s.cursor.rest.length + 1) s).dropStale = some t)
    (indented : t.indent ≤ t.column) (here : t.cursor.peek = some ch) :
    run (n + 1) s = (t.token ch).bind (run n) := by
  rw [run]
  simp only [next, Option.bind_eq_bind, Option.bind_some, unwind_of_le indented, here]

/-! ### Plain scalars -/

def PlainHere (c : Cursor) (ch : Char) : Prop :=
  isBlank ch = false ∧ ch ∉ indicators ∨
    ch ∈ ['-', '?', ':'] ∧ endsWord (c.peekAt 1) = false

theorem token_marks (no_indicator : ch ∉ indicators) :
    ch ≠ '%' ∧ ch ≠ '[' ∧ ch ≠ '\x7b' ∧ ch ≠ ']' ∧ ch ≠ '\x7d' ∧ ch ≠ ',' ∧ ch ≠ '-' ∧
      ch ≠ '?' ∧ ch ≠ ':' ∧ ch ≠ '*' ∧ ch ≠ '&' ∧ ch ≠ '!' ∧ ch ≠ '|' ∧ ch ≠ '>' ∧
      ch ≠ '\'' ∧ ch ≠ '"' := by
  have apart : ∀ mark ∈ indicators, ch ≠ mark := fun mark mem same => no_indicator (same ▸ mem)
  refine ⟨?_, ?_, ?_, ?_, ?_, ?_, ?_, ?_, ?_, ?_, ?_, ?_, ?_, ?_, ?_, ?_⟩ <;>
    exact apart _ (by decide)

theorem token_plain (plain : PlainHere s.cursor ch) (block : s.flow = 0)
    (no_mark : s.cursor.column = 0 → s.cursor.isSeparator = false) :
    s.token ch = s.plainScalar := by
  have not_in_flow : s.inFlow = false := by
    rw [inFlow, block]
    rfl
  have no_marker : ∀ mark, mark = '-' ∨ mark = '.' →
      (s.cursor.column == 0 && s.cursor.isMarker mark) = false := by
    intro mark which
    rw [Bool.and_eq_false_iff]
    by_cases start : s.cursor.column = 0
    · right
      have neither := no_mark start
      rw [Cursor.isSeparator, Bool.or_eq_false_iff] at neither
      rcases which with rfl | rfl
      · exact neither.1
      · exact neither.2
    · left
      rwa [beq_eq_false_iff_ne]
  have begins : s.beginsPlain ch = true := by
    rw [beginsPlain, not_in_flow]
    obtain ⟨not_blank, no_indicator⟩ | ⟨indicator, goes_on⟩ := plain
    · rw [isBlank] at not_blank
      simp [not_blank, no_indicator]
    · simp only [List.mem_cons, List.not_mem_nil, or_false] at indicator
      rcases indicator with rfl | rfl | rfl <;> simp [goes_on]
  obtain ⟨-, no_indicator⟩ | ⟨indicator, goes_on⟩ := plain
  · have apart := token_marks no_indicator
    unfold token
    simp [apart, no_marker, not_in_flow, begins]
  · simp only [List.mem_cons, List.not_mem_nil, or_false] at indicator
    unfold token
    rcases indicator with rfl | rfl | rfl <;>
      simp [no_marker, not_in_flow, begins, goes_on]

/-! ### Entries -/

structure IsWord (word : List Char) : Prop where
  begins : ∃ ch more, word = ch :: more ∧ ch.isLower = true
  goes_on : ∀ ch ∈ word, ch.isLower = true ∨ ch = '-'
  short : word.length ≤ 1024

theorem isWord_iff {word : List Char} :
    (word.head?.any Char.isLower = true ∧ word.all (fun ch => ch.isLower || ch == '-') = true ∧
      word.length ≤ 1024) ↔ IsWord word := by
  have begins : word.head?.any Char.isLower = true ↔
      ∃ ch more, word = ch :: more ∧ ch.isLower = true := by
    cases word <;> simp
  rw [begins, List.all_eq_true]
  simp only [Bool.or_eq_true, beq_iff_eq]
  exact ⟨fun ⟨first, all, short⟩ => ⟨first, all, short⟩, fun h => ⟨h.begins, h.goes_on, h.short⟩⟩

instance IsWord.decidable : DecidablePred IsWord := fun _ => decidable_of_iff _ isWord_iff

/-- Between two entries of the outermost mapping, or before its first one. -/
def between (c : Cursor) (tokens : List Token) (indent : Int) (outer : List Int) : Scan :=
  ⟨c, tokens.toArray, 0, indent, outer, true, []⟩

/-- After the word from `c` to `d`, which a colon can make a key of. -/
def afterWord (c d : Cursor) (tokens : List Token) (word : Token) (indent : Int)
    (outer : List Int) : Scan :=
  ⟨d, (tokens ++ [word]).toArray, 0, indent, outer, false,
    [⟨0, tokens.length, indent == 0, c.index, c.line, c.column⟩]⟩

def afterKey (c : Cursor) (tokens : List Token) (outer : List Int) : Scan :=
  ⟨c, tokens.toArray, 0, 0, outer, false, []⟩

/-- The first key opens the mapping. -/
def opened (indent : Int) (outer : List Int) : List Token × List Int :=
  if indent < 0 then ([.blockMapping], indent :: outer) else ([], outer)

theorem IsWord.not_blank (is_word : IsWord word) :
    ∀ ch ∈ word, isBlank ch = false ∧ ch ≠ ':' ∧ ch ≠ '#' := by
  intro ch mem
  obtain small | rfl := is_word.goes_on ch mem
  · have apart : ch ∉ [':', '#'] := not_mark_of_isLower small _ (by decide)
    simp only [List.mem_cons, List.not_mem_nil, or_false, not_or] at apart
    exact ⟨isBlank_of_isLower small, apart⟩
  · decide

theorem IsWord.beginsSmall (is_word : IsWord word) (begins : line = word ++ rest) :
    BeginsSmall line := by
  obtain ⟨first, more, shape, small⟩ := is_word.begins
  intro ch others same
  rw [begins, shape] at same
  obtain ⟨rfl, -⟩ := List.cons.inj same
  exact small

theorem insert_between (front back : List Token) (t : Token) :
    (front ++ back).toArray.insertIdxIfInBounds front.length t =
      (front ++ t :: back).toArray := by
  have placed : (front ++ back).insertIdx front.length t = front ++ t :: back := by
    induction front with
    | nil => rfl
    | cons first front ih =>
      rw [List.cons_append, List.length_cons, List.insertIdx_succ_cons, ih, List.cons_append]
  have within : front.length ≤ (front ++ back).toArray.size := by
    rw [List.size_toArray, List.length_append]
    exact Nat.le_add_right _ _
  rw [Array.insertIdxIfInBounds, dif_pos within, List.insertIdx_toArray, placed]

variable {tokens : List Token} {indent : Int} {outer : List Int}

theorem isText_of_isWord (is_word : IsWord word) (here : c.rest = word ++ rest) : IsText c := by
  obtain ⟨first, more, shape, -⟩ := is_word.begins
  have plain := is_word.not_blank first (by rw [shape]; exact List.mem_cons_self)
  rw [isBlank, isSpace, Bool.or_eq_false_iff, Bool.or_eq_false_iff,
    decide_eq_false_iff_not] at plain
  exact .inr ⟨first, more ++ rest, by rw [here, shape, List.cons_append], plain.1.1.1, plain.2.2,
    plain.1.2⟩

theorem run_word (is_word : IsWord word) (here : c.rest = word ++ ':' :: ' ' :: rest)
    (start : c.column = 0) (indented : indent ≤ 0) :
    run (n + 1) (between c tokens indent outer) =
      run n (afterWord c (c.skip word.length) tokens (.scalar (String.ofList word) true) indent
        outer) := by
  obtain ⟨first, more, shape, small⟩ := is_word.begins
  have whole : c.rest = first :: (more ++ ':' :: ' ' :: rest) := by
    rw [here, shape, List.cons_append]
  have begins : BeginsSmall c.rest := by
    intro ch others same
    obtain ⟨rfl, -⟩ := List.cons.inj (whole.symm.trans same)
    exact small
  have stays : (toNext (c.rest.length + 1) (between c tokens indent outer)).dropStale =
      some (between c tokens indent outer) := by
    rw [toNext_of_text (s := between c tokens indent outer) (isText_of_isWord is_word here)]
    rfl
  have in_place :
      (between c tokens indent outer).indent ≤ (between c tokens indent outer).column := by
    show indent ≤ (c.column : Int)
    rwa [start]
  have peeked : (between c tokens indent outer).cursor.peek = some first := by
    show c.rest.head? = some first
    rw [whole, List.head?_cons]
  have plain : PlainHere c first :=
    .inl ⟨isBlank_of_isLower small, not_mark_of_isLower small _ (by decide)⟩
  have read : (between c tokens indent outer).token first =
      (between c tokens indent outer).plainScalar :=
    token_plain plain rfl fun _ => begins.not_separator rfl
  have scalar : Scalar.plain false (indent + 1) (c.rest.length + 1) [] [] false c =
      (word.reverse ++ ([] ++ []), false, c.skip word.length) :=
    Scalar.plain_word is_word.not_blank (by rw [shape]; exact List.cons_ne_nil _ _) here
  rw [run_token stays in_place peeked, read]
  simp [plainScalar, saveKey, dropKey, between, afterWord, scalar, inFlow, column, start, textOf,
    push, allowKey]

/-- The colon after a word: the mark of the key goes to the kept place, and the first key opens
the mapping there. -/
theorem run_colon (is_word : IsWord word) (here : c.rest = word ++ ':' :: ' ' :: rest)
    (start : c.column = 0) (indented : indent ≤ 0) (t : Token) :
    run (n + 1) (afterWord c (c.skip word.length) tokens t indent outer) =
      run n (afterKey (c.skip (word.length + 1))
        (tokens ++ (opened indent outer).1 ++ [.key, t, .value]) (opened indent outer).2) := by
  have at_colon : (c.skip word.length).rest = ':' :: ' ' :: rest := Cursor.skip_of_rest here
  have on_line : ∀ ch ∈ word, isBreak ch = false := by
    intro ch mem
    have plain := (is_word.not_blank ch mem).1
    rw [isBlank, Bool.or_eq_false_iff] at plain
    exact plain.2
  obtain ⟨index, same_line, -⟩ := Cursor.skip_inline here on_line
  rw [← Cursor.skip_add word.length 1]
  generalize c.skip word.length = d at *
  have stays : toNext (d.rest.length + 1) (afterWord c d tokens t indent outer) =
      afterWord c d tokens t indent outer :=
    toNext_of_text (.inr ⟨':', ' ' :: rest, at_colon, by decide, by decide, by decide⟩)
  have fresh : (afterWord c d tokens t indent outer).dropStale =
      some (afterWord c d tokens t indent outer) := by
    have near : ¬1024 < d.index - c.index := by
      have short := is_word.short
      omega
    simp [dropStale, afterWord, same_line, near]
  have peeked : (afterWord c d tokens t indent outer).cursor.peek = some ':' := by
    show d.rest.head? = some ':'
    rw [at_colon, List.head?_cons]
  have read : (afterWord c d tokens t indent outer).token ':' = some (afterKey (d.skip 1)
      (tokens ++ (opened indent outer).1 ++ [.key, t, .value]) (opened indent outer).2) := by
    have is_value : (afterWord c d tokens t indent outer).token ':' =
        (afterWord c d tokens t indent outer).value := by
      have ends : endsWord (d.peekAt 1) = true := by
        rw [Cursor.peekAt, at_colon]
        rfl
      have no_marker : ∀ mark, mark ≠ ':' → d.isMarker mark = false := by
        intro mark other
        simp [Cursor.isMarker, at_colon, other.symm]
      unfold token
      simp [afterWord, ends, no_marker]
    rw [is_value, value, afterWord]
    have marked := insert_between tokens [t] .key
    have opening := insert_between tokens [.key, t] .blockMapping
    by_cases first : indent < 0
    · simp [inFlow, openBlock, start, first, marked, opening, opened, afterKey, take, push,
        allowKey]
    · have at_start : indent = 0 := Int.le_antisymm indented (Int.not_lt.mp first)
      simp [inFlow, openBlock, start, at_start, marked, opened, afterKey, take, push, allowKey]
  have next : (toNext ((afterWord c d tokens t indent outer).cursor.rest.length + 1)
      (afterWord c d tokens t indent outer)).dropStale =
        some (afterWord c d tokens t indent outer) := by
    rw [show (afterWord c d tokens t indent outer).cursor = d from rfl, stays, fresh]
  rw [run_token next (Int.le_trans indented (Int.natCast_nonneg _)) peeked, read]
  rfl

theorem plainHere_of_begins (begins : BeginsPlain (ch :: value)) (on_line : OnLine (ch :: value))
    (here : c.rest = ch :: value ++ rest) : PlainHere c ch := by
  obtain ⟨first, more, shape, how⟩ := begins
  obtain ⟨rfl, rfl⟩ := List.cons.inj shape
  obtain ⟨not_space, no_indicator⟩ | ⟨indicator, d, others, rfl, not_space⟩ := how
  · obtain ⟨-, not_tab, not_break⟩ := on_line ch List.mem_cons_self
    left
    exact ⟨by simp [isBlank, isSpace, not_space, not_tab, not_break], no_indicator⟩
  · obtain ⟨-, not_tab, not_break⟩ := on_line d (List.mem_cons_of_mem _ List.mem_cons_self)
    right
    refine ⟨indicator, ?_⟩
    rw [Cursor.peekAt, here]
    simp [endsWord, isSpace, not_space, not_tab, not_break]

/-- What can follow a plain scalar on its line: blanks, and a comment after a blank. -/
def IsTrailing (after : List Char) : Prop :=
  ∃ blanks note, after = blanks ++ note ∧ (∀ b ∈ blanks, b = ' ') ∧ (note = [] ∨
    blanks ≠ [] ∧ ∃ comment, note = '#' :: comment ∧
      ∀ ch ∈ comment, isAllowed ch = true ∧ isBreak ch = false)

/-- A value as it is written after its key: a plain scalar between blanks, perhaps with a comment
behind it. -/
def Writes (content value : List Char) : Prop :=
  IsPlainLine value ∧ ∃ before after, content = before ++ (value ++ after) ∧
    (∀ b ∈ before, b = ' ') ∧ IsTrailing after

theorem writes_self (plain : IsPlainLine value) : Writes value value :=
  ⟨plain, [], [], (List.append_nil value).symm, nofun, [], [], rfl, nofun, .inl rfl⟩

variable {before after : List Char}

theorem plainPart_trailing (trailing : IsTrailing after) (line : List Char) :
    Scalar.plainPart false (after ++ '\n' :: line) = [] := by
  obtain ⟨blanks, note, rfl, all_spaces, rest⟩ := trailing
  cases blanks with
  | nil =>
    obtain rfl | ⟨some_blank, -⟩ := rest
    · rfl
    · exact absurd rfl some_blank
  | cons b blanks =>
    obtain rfl := all_spaces b List.mem_cons_self
    rfl

/-- The end of a line after a plain scalar, from which the next line is read on. -/
theorem run_trailing {d : Cursor} (n : Nat) (tokens : List Token) (outer : List Int)
    (trailing : IsTrailing after) (here : d.rest = after ++ '\n' :: line)
    (small : BeginsSmall line) :
    ∃ more crossed e, Scalar.plainBlanks d = (more, crossed, e) ∧
      (more = [] ∨ e.peek = some '#' ∨ e.column < (1 : Int)) ∧
      ∃ f : Cursor, f.rest = line ∧ f.column = 0 ∧
        run (n + 1) { between e tokens 0 outer with keyAllowed := crossed } =
          run (n + 1) (between f tokens 0 outer) := by
  obtain ⟨blanks, note, rfl, all_spaces, rfl | ⟨some_blank, comment, rfl, inline⟩⟩ := trailing
  · rw [List.append_nil] at here
    have ended : (d.skip blanks.length).rest = '\n' :: line := Cursor.skip_of_rest here
    have next := Cursor.advance_newline ended
    refine ⟨_, _, _, Scalar.plainBlanks_newline here all_spaces small, .inr (.inr ?_),
      (d.skip blanks.length).advance, ?_, ?_, rfl⟩
    · rw [next]
      exact Int.one_pos
    · rw [next]
    · rw [next]
  · rw [List.append_assoc] at here
    have at_hash : (d.skip blanks.length).rest = [] ++ ('#' :: comment ++ '\n' :: line) :=
      Cursor.skip_of_rest here
    obtain ⟨f, left, start, passed⟩ := run_past_line n
      (s := { between (d.skip blanks.length) tokens 0 outer with keyAllowed := false }) rfl at_hash
      nofun (.inr ⟨comment, rfl, fun ch mem => (inline ch mem).2⟩) small
    refine ⟨_, _, _, Scalar.plainBlanks_inline here all_spaces (by decide) (by decide),
      .inr (.inl ?_), f, left, start, passed⟩
    rw [Cursor.peek, at_hash]
    rfl

/-- The way from a key to a plain scalar on its line. -/
theorem run_to_plain (n : Nat) (tokens : List Token) (outer : List Int)
    (here : c.rest = ' ' :: (before ++ (ch :: value ++ rest))) (spaces : ∀ b ∈ before, b = ' ')
    (begins : BeginsPlain (ch :: value)) (on_line : OnLine (ch :: value)) :
    ∃ d : Cursor, d.rest = ch :: value ++ rest ∧ (1 : Int) ≤ d.column ∧
      run (n + 1) (afterKey c tokens outer) =
        (afterKey d tokens outer).plainScalar.bind (run n) := by
  obtain ⟨not_space, not_hash⟩ := begins.first
  have spaced : c.advance.rest = before ++ (ch :: value ++ rest) := Cursor.advance_of_rest here
  have blank_inline : ∀ ch ∈ before, isBreak ch = false := by
    intro ch mem
    rw [spaces ch mem]
    rfl
  obtain ⟨-, -, farther⟩ := Cursor.skip_inline spaced blank_inline
  have further : c.advance.column = c.column + 1 := by
    rw [Cursor.advance_inline here (by decide)]
    rfl
  have at_value := Cursor.skip_of_rest spaced
  have next : (toNext (c.rest.length + 1) (afterKey c tokens outer)).dropStale =
      some (afterKey (c.advance.skip before.length) tokens outer) := by
    have from_key : (afterKey c tokens outer).cursor.rest =
        (' ' :: before) ++ ch :: (value ++ rest) := here
    rw [toNext_spaces from_key (List.forall_mem_cons.mpr ⟨rfl, spaces⟩) not_space not_hash
      (on_line ch List.mem_cons_self).2.2]
    rfl
  have inside : (1 : Int) ≤ (c.advance.skip before.length).column := by omega
  generalize c.advance.skip before.length = d at *
  have peeked : (afterKey d tokens outer).cursor.peek = some ch := by
    show d.rest.head? = some ch
    rw [at_value, List.cons_append, List.head?_cons]
  have read : (afterKey d tokens outer).token ch = (afterKey d tokens outer).plainScalar := by
    apply token_plain (plainHere_of_begins begins on_line at_value) rfl
    intro start
    rw [show (afterKey d tokens outer).cursor = d from rfl] at start
    rw [start] at inside
    exact absurd inside (by decide)
  exact ⟨d, at_value, inside, by rw [run_token next (Int.natCast_nonneg _) peeked, read]⟩

/-- What is on the line of a key after its colon, and the tokens that it comes to. -/
structure ReadsAs (content : List Char) (values : List Token) : Prop where
  allowed : ∀ ch ∈ content, isAllowed ch = true
  runs : ∀ (n : Nat) (c : Cursor) (tokens : List Token) (outer : List Int) (line : List Char),
    c.rest = ' ' :: (content ++ '\n' :: line) → BeginsSmall line →
      ∃ m ≥ n, ∃ d : Cursor, d.rest = line ∧ d.column = 0 ∧
        run (n + 2) (afterKey c tokens outer) =
          run (m + 1) (between d (tokens ++ values) 0 outer)

theorem isAllowed_of_spaces {blanks : List Char} (spaces : ∀ b ∈ blanks, b = ' ') :
    ∀ b ∈ blanks, isAllowed b = true := by
  intro b mem
  rw [spaces b mem]
  rfl

theorem IsTrailing.allowed (trailing : IsTrailing after) : ∀ ch ∈ after, isAllowed ch = true := by
  obtain ⟨blanks, note, rfl, spaces, rfl | ⟨-, comment, rfl, inline⟩⟩ := trailing
  · simpa using isAllowed_of_spaces spaces
  · simp only [List.forall_mem_append, List.forall_mem_cons]
    exact ⟨isAllowed_of_spaces spaces, rfl, fun ch mem => (inline ch mem).1⟩

theorem readsAs_of_writes {content : List Char} (writes : Writes content value) :
    ReadsAs content [.scalar (String.ofList value) true] := by
  obtain ⟨plain, before, after, rfl, spaces, trailing⟩ := writes
  constructor
  · simp only [List.forall_mem_append]
    exact ⟨isAllowed_of_spaces spaces, fun ch mem => (plain.allowed ch mem).1, trailing.allowed⟩
  · intro n c tokens outer line here small
    obtain ⟨first, more, rfl, -⟩ := plain.begins
    rw [List.append_assoc, List.append_assoc] at here
    obtain ⟨e, at_value, inside, turn⟩ :=
      run_to_plain (n + 1) tokens outer here spaces plain.begins plain.allowed
    have at_end : (e.skip (first :: more).length).rest = after ++ '\n' :: line :=
      Cursor.skip_of_rest at_value
    obtain ⟨blanks, crossed, d, blank, ends, f, left, start, passed⟩ := run_trailing n
      (tokens ++ [.scalar (String.ofList (first :: more)) true]) outer trailing at_end small
    have scalar : Scalar.plain false 1 (e.rest.length + 1) [] [] false e =
        ((first :: more).reverse ++ ([] ++ []), crossed, d) :=
      Scalar.plain_inline plain.toIsInline ⟨first, more, rfl, plain.begins.first⟩
        (plainPart_trailing trailing line) at_value inside
        (by rw [at_value, List.length_append]; omega) blank ends
    refine ⟨n, Nat.le_refl n, f, left, start, ?_⟩
    rw [← passed, turn]
    simp [plainScalar, saveKey, between, afterKey, scalar, inFlow, textOf, push, allowKey]

theorem readsAs_of_nothing {content : List Char} (nothing : IsTrailing (' ' :: content)) :
    ReadsAs content [] := by
  constructor
  · exact (List.forall_mem_cons.mp nothing.allowed).2
  · intro n c tokens outer line here small
    obtain ⟨blanks, note, split, spaces, rest⟩ := nothing
    have inline : note = [] ∨
        ∃ comment, note = '#' :: comment ∧ ∀ ch ∈ comment, isBreak ch = false := by
      obtain rfl | ⟨-, comment, rfl, inline⟩ := rest
      · exact .inl rfl
      · exact .inr ⟨comment, rfl, fun ch mem => (inline ch mem).2⟩
    rw [← List.cons_append, split, List.append_assoc] at here
    obtain ⟨d, left, start, passed⟩ :=
      run_past_line (n + 1) (s := afterKey c tokens outer) rfl here spaces inline small
    refine ⟨n + 1, Nat.le_succ n, d, left, start, ?_⟩
    rw [List.append_nil]
    exact passed

theorem run_entry {content : List Char} {values : List Token} (n : Nat) (tokens : List Token)
    (outer : List Int) (is_word : IsWord word) (reads : ReadsAs content values)
    (here : c.rest = word ++ ':' :: ' ' :: (content ++ '\n' :: line)) (start : c.column = 0)
    (indented : indent ≤ 0) (small : BeginsSmall line) :
    ∃ m ≥ n, ∃ d : Cursor, d.rest = line ∧ d.column = 0 ∧
      run (n + 4) (between c tokens indent outer) =
        run (m + 1) (between d (tokens ++ (opened indent outer).1 ++
          (.key :: .scalar (String.ofList word) true :: .value :: values)) 0
          (opened indent outer).2) := by
  have after_key : (c.skip (word.length + 1)).rest = ' ' :: (content ++ '\n' :: line) := by
    rw [Cursor.rest_skip, here, ← List.drop_drop]
    simp
  obtain ⟨m, more, d, left, line_start, turn⟩ := reads.runs n _ (tokens ++
    (opened indent outer).1 ++ [.key, .scalar (String.ofList word) true, .value])
    (opened indent outer).2 line after_key small
  refine ⟨m, more, d, left, line_start, ?_⟩
  rw [run_word is_word here start indented, run_colon is_word here start indented, turn]
  simp only [List.append_assoc, List.cons_append, List.nil_append]

theorem run_comment (n : Nat) (tokens : List Token) (indent : Int) (outer : List Int)
    {comment : List Char} (here : c.rest = '#' :: comment ++ '\n' :: line)
    (inline : ∀ ch ∈ comment, isBreak ch = false) (small : BeginsSmall line) :
    ∃ d : Cursor, d.rest = line ∧ d.column = 0 ∧
      run (n + 1) (between c tokens indent outer) =
        run (n + 1) (between d tokens indent outer) := by
  have start : (between c tokens indent outer).cursor.rest =
      [] ++ ('#' :: comment ++ '\n' :: line) := here
  exact run_past_line n rfl start nofun (.inr ⟨comment, rfl, inline⟩) small

theorem run_end (here : c.rest = []) (start : c.column = 0) :
    run (n + 1) (between c tokens 0 [-1]) =
      some (tokens ++ [Token.blockEnd, .streamEnd]).toArray := by
  have stays : toNext (c.rest.length + 1) (between c tokens 0 [-1]) = between c tokens 0 [-1] :=
    toNext_of_text (.inl here)
  have peeked : c.peek = none := by
    rw [Cursor.peek, here, List.head?_nil]
  rw [run]
  simp [between] at stays
  simp [between, stays, dropStale, unwind, unwindFrom, inFlow, column, start, peeked, dropKey]

/-! ### Texts of entries -/

def entryText (e : String × String) : List Char :=
  e.1.toList ++ ':' :: ' ' :: (e.2.toList ++ ['\n'])

def entryTokens (e : String × String) : List Token :=
  [.key, .scalar e.1 true, .value, .scalar e.2 true]

structure IsEntry (e : String × String) : Prop where
  word : IsWord e.1.toList
  value : IsPlainLine e.2.toList

variable {e : String × String} {entries : List (String × String)}

theorem beginsSmall_entries (all : ∀ e ∈ entries, IsEntry e) :
    BeginsSmall (entries.flatMap entryText) := by
  cases entries with
  | nil => nofun
  | cons e entries =>
    apply (all e List.mem_cons_self).word.beginsSmall
    rw [List.flatMap_cons, entryText, List.append_assoc]

variable {name content text : String}

theorem run_first {values : List Token} (n : Nat) (tokens : List Token) (outer : List Int)
    (is_word : IsWord name.toList) (reads : ReadsAs content.toList values)
    (all : ∀ e ∈ entries, IsEntry e)
    (here : c.rest = ((name, content) :: entries).flatMap entryText) (start : c.column = 0)
    (indented : indent ≤ 0) :
    ∃ m ≥ n, ∃ d : Cursor, d.rest = entries.flatMap entryText ∧ d.column = 0 ∧
      run (n + 4) (between c tokens indent outer) =
        run (m + 1) (between d (tokens ++ (opened indent outer).1 ++
          (.key :: .scalar name true :: .value :: values)) 0 (opened indent outer).2) := by
  have shape : c.rest = name.toList ++ ':' :: ' ' ::
      (content.toList ++ '\n' :: entries.flatMap entryText) := by
    rw [here, List.flatMap_cons, entryText]
    simp only [List.append_assoc, List.cons_append, List.nil_append]
  have read := run_entry n tokens outer is_word reads shape start indented
    (beginsSmall_entries all)
  rwa [String.ofList_toList] at read

theorem run_entries (all : ∀ e ∈ entries, IsEntry e) (here : c.rest = entries.flatMap entryText)
    (start : c.column = 0) (fuel : 3 * entries.length < n) :
    run n (between c tokens 0 [-1]) =
      some (tokens ++ entries.flatMap entryTokens ++ [Token.blockEnd, .streamEnd]).toArray := by
  induction entries generalizing c tokens n with
  | nil =>
    obtain ⟨n, rfl⟩ := Nat.exists_eq_succ_of_ne_zero (Nat.ne_of_gt fuel)
    rw [List.flatMap_nil, List.append_nil]
    exact run_end here start
  | cons e entries ih =>
    obtain ⟨is_entry, others⟩ := List.forall_mem_cons.mp all
    rw [List.length_cons] at fuel
    obtain ⟨n, rfl⟩ := Nat.exists_eq_add_of_le' (show 4 ≤ n by omega)
    have reads := readsAs_of_writes (writes_self is_entry.value)
    rw [String.ofList_toList] at reads
    obtain ⟨m, more, d, left, line_start, turns⟩ :=
      run_first n tokens [-1] is_entry.word reads others here start (Int.le_refl 0)
    have same : (opened 0 [-1]) = ([], [-1]) := rfl
    rw [turns, same, ih others left line_start (by omega), List.append_nil, List.flatMap_cons,
      entryTokens]
    simp only [List.append_assoc]

theorem isAllowed_of_isWord (is_word : IsWord word) : ∀ ch ∈ word, isAllowed ch = true := by
  intro ch mem
  obtain small | rfl := is_word.goes_on ch mem
  · have bounds : 97 ≤ ch.toNat ∧ ch.toNat ≤ 122 := by
      have within : (decide (ch.val ≥ 97) && decide (ch.val ≤ 122)) = true := small
      simpa [UInt32.le_iff_toNat_le] using within
    simp [isAllowed]
    omega
  · decide

theorem isAllowed_entryText {e : String × String} (is_word : IsWord e.1.toList)
    (allowed : ∀ ch ∈ e.2.toList, isAllowed ch = true) :
    ∀ ch ∈ entryText e, isAllowed ch = true := by
  simp only [entryText, List.forall_mem_append, List.forall_mem_cons]
  exact ⟨isAllowed_of_isWord is_word, rfl, rfl, allowed, rfl, nofun⟩

end FieldPlan.Yaml.Scan

namespace FieldPlan.Yaml
open Scan

theorem three_mul_length_le (entries : List (String × String)) :
    3 * entries.length ≤ (entries.flatMap entryText).length := by
  induction entries with
  | nil => exact Nat.zero_le _
  | cons e entries ih =>
    rw [List.flatMap_cons, List.length_append, List.length_cons, entryText]
    simp only [List.length_append, List.length_cons]
    omega

theorem tokens?_eq {text : String} {first : Char} {rest : List Char}
    (shape : text.toList = first :: rest) (no_mark : first ≠ '\uFEFF') :
    tokens? text = if text.toList.all isAllowed then
      (run (text.toList.length + 1) (between ⟨text.toList, 0, 0, 0⟩ [] (-1) [])).map Array.toList
      else none := by
  unfold tokens?
  split
  · split
    · next same =>
      obtain ⟨rfl, -⟩ := List.cons.inj (shape.symm.trans same)
      exact absurd rfl no_mark
    · rfl
  · rfl

def entriesText (comment : String) (entries : List (String × String)) : String :=
  String.ofList ('#' :: comment.toList ++ '\n' :: entries.flatMap entryText)

def IsComment (comment : String) : Prop :=
  ∀ ch ∈ comment.toList, isAllowed ch = true ∧ isBreak ch = false

variable {comment name content value : String} {entries : List (String × String)}

theorem toList_entriesText (comment : String) (entries : List (String × String)) :
    (entriesText comment entries).toList =
      '#' :: comment.toList ++ '\n' :: entries.flatMap entryText :=
  String.toList_ofList

theorem tokens?_entriesText (is_comment : IsComment comment) (is_word : IsWord name.toList)
    (allowed : ∀ ch ∈ content.toList, isAllowed ch = true) (others : ∀ e ∈ entries, IsEntry e) :
    ∃ n ≥ 3 * entries.length, ∃ d : Cursor,
      d.rest = ((name, content) :: entries).flatMap entryText ∧ d.column = 0 ∧
        tokens? (entriesText comment ((name, content) :: entries)) =
          (run (n + 4) (between d [] (-1) [])).map Array.toList := by
  have shape := toList_entriesText comment ((name, content) :: entries)
  generalize entriesText comment ((name, content) :: entries) = text at *
  have all_allowed : text.toList.all isAllowed = true := by
    rw [shape, List.all_eq_true]
    simp only [List.forall_mem_append, List.forall_mem_cons, List.flatMap_cons]
    refine ⟨⟨rfl, fun ch mem => (is_comment ch mem).1⟩, rfl,
      isAllowed_entryText is_word allowed, ?_⟩
    intro ch mem
    obtain ⟨entry, among, mem⟩ := List.mem_flatMap.mp mem
    have is_entry := others entry among
    exact isAllowed_entryText is_entry.word (fun ch mem => (is_entry.value.allowed ch mem).1) ch mem
  have long := three_mul_length_le ((name, content) :: entries)
  obtain ⟨n, fuel⟩ : ∃ n, text.toList.length + 1 = n + 3 * entries.length + 3 + 1 := by
    refine ⟨text.toList.length - (3 * entries.length + 3), ?_⟩
    have whole := congrArg List.length shape
    rw [List.length_append, List.length_cons, List.length_cons] at whole
    rw [List.length_cons] at long
    omega
  have begin_line : BeginsSmall (((name, content) :: entries).flatMap entryText) := by
    apply is_word.beginsSmall
    rw [List.flatMap_cons, entryText, List.append_assoc]
  obtain ⟨d, left, start, passed⟩ := run_comment (c := ⟨text.toList, 0, 0, 0⟩)
    (n + 3 * entries.length + 3) [] (-1) [] shape (fun ch mem => (is_comment ch mem).2) begin_line
  refine ⟨n + 3 * entries.length, Nat.le_add_left _ n, d, left, start, ?_⟩
  rw [tokens?_eq shape (by decide), if_pos all_allowed, fuel, passed]

theorem tokens?_entries {values : List Token} (is_comment : IsComment comment)
    (is_word : IsWord name.toList) (reads : ReadsAs content.toList values)
    (others : ∀ e ∈ entries, IsEntry e) :
    tokens? (entriesText comment ((name, content) :: entries)) =
      some (.blockMapping :: .key :: .scalar name true :: .value :: (values ++
        (entries.flatMap entryTokens ++ [.blockEnd, .streamEnd]))) := by
  obtain ⟨n, enough, d, left, start, scanned⟩ :=
    tokens?_entriesText is_comment is_word reads.allowed others
  obtain ⟨m, more, d', left', start', first⟩ := run_first n [] [] is_word reads others left start
    (show (-1 : Int) ≤ 0 by decide)
  have opening : opened (-1) [] = ([.blockMapping], [-1]) := rfl
  rw [scanned, first, opening, run_entries others left' start' (by omega)]
  simp only [Option.map_some, List.append_assoc, List.cons_append, List.nil_append]

end FieldPlan.Yaml
