import FieldPlan.Proofs.Yaml.Scalar

/-! How much of the text a plain scalar keeps: all of it only if the text is one line that a plain
scalar can have. -/
namespace FieldPlan.Yaml.Scalar
variable {inFlow ended ended' crossed : Bool} {indent : Int} {n : Nat}
variable {done done' blanks more breaks : Reversed} {c d next : Cursor} {b k : Char}
variable {line chars : List Char}

/-! ### Blanks -/

theorem plainBreaks_leads {found : Option Reversed} (h : plainBreaks n done c = (found, d)) :
    c.Leads d := by
  induction n generalizing done c with
  | zero =>
    obtain ⟨-, rfl⟩ := Prod.mk.inj h
    exact Cursor.Leads.refl c
  | succ n ih =>
    have spaces := Cursor.skipSpaces_leads c
    rw [plainBreaks] at h
    split at h
    · next broken =>
      have taken := spaces.trans (Cursor.lineBreak?_leads broken)
      split at h
      · obtain ⟨-, rfl⟩ := Prod.mk.inj h
        exact taken
      · exact taken.trans (ih h)
    · obtain ⟨-, rfl⟩ := Prod.mk.inj h
      exact spaces

theorem plainBreaks_induction {P : Reversed → Cursor → Prop} (start : P done c)
    (space : ∀ done c, P done c → P done c.skipSpaces)
    (broken : ∀ done c b next, P done c → c.lineBreak? = some (b, next) → P (b :: done) next)
    (h : plainBreaks n done c = (some breaks, d)) : P breaks d := by
  induction n generalizing done c with
  | zero =>
    obtain ⟨same, rfl⟩ := Prod.mk.inj h
    exact Option.some.inj same ▸ start
  | succ n ih =>
    rw [plainBreaks] at h
    split at h
    · next found =>
      split at h
      · cases (Prod.mk.inj h).1
      · exact ih (broken _ _ _ _ (space _ _ start) found) h
    · obtain ⟨same, rfl⟩ := Prod.mk.inj h
      exact Option.some.inj same ▸ space _ _ start

theorem plainBreaks_blank (h : plainBreaks n [] c = (some breaks, d)) :
    ∀ b ∈ breaks, isBlank b = true := by
  refine plainBreaks_induction (P := fun breaks _ => ∀ b ∈ breaks, isBlank b = true) ?_ ?_ ?_ h
  · exact fun b mem => absurd mem List.not_mem_nil
  · exact fun _ _ all => all
  · intro done c b next all broken
    exact List.forall_mem_cons.mpr
      ⟨isBlank_of_isBreak (Cursor.lineBreak?_some broken).1, all⟩

theorem plainBreaks_stays (small : BeginsSmall line)
    (h : plainBreaks n done c = (some breaks, d)) : Stays line c d done breaks := by
  refine plainBreaks_induction (P := fun breaks d => Stays line c d done breaks) ?_ ?_ ?_ h
  · exact .refl c done
  · exact fun _ _ stays => stays.trans (.skipSpaces small)
  · exact fun _ _ _ _ stays broken => stays.trans (.of_break small broken)

theorem skipSpaces_cases (c : Cursor) :
    c.skipSpaces = c ∨ c.skipSpaces.rest.length < c.rest.length := by
  have split := congrArg List.length (Cursor.span_append (· = ' ') c)
  rw [List.length_append] at split
  cases taken : c.rest.takeWhile (· = ' ') with
  | nil =>
    left
    rw [Cursor.skipSpaces, Cursor.span_eq, taken]
    rfl
  | cons first more =>
    right
    have some_taken : (c.span (· = ' ')).1.length = more.length + 1 := by
      rw [Cursor.span_eq, taken, List.length_cons]
    rw [Cursor.skipSpaces]
    omega

theorem plainBreaks_loses (start : c.column = 0)
    (h : plainBreaks n [] c = (some breaks, d)) (inside : d.column ≠ 0) :
    breaks.length + d.rest.length < c.rest.length := by
  have both : breaks.length + d.rest.length ≤ c.rest.length ∧
      (d.column ≠ 0 → breaks.length + d.rest.length < c.rest.length) := by
    refine plainBreaks_induction (P := fun breaks d =>
      breaks.length + d.rest.length ≤ c.rest.length ∧
        (d.column ≠ 0 → breaks.length + d.rest.length < c.rest.length)) ?_ ?_ ?_ h
    · exact ⟨by simp, fun inside => absurd start inside⟩
    · rintro done e ⟨fits, loses⟩
      obtain same | shorter := skipSpaces_cases e
      · rw [same]
        exact ⟨fits, loses⟩
      · exact ⟨by omega, fun _ => by omega⟩
    · rintro done e b next ⟨fits, -⟩ broken
      have shorter := Cursor.length_lineBreak? broken
      rw [List.length_cons]
      exact ⟨by omega, fun inside => absurd (Cursor.column_lineBreak? broken) inside⟩
  exact both.2 inside

theorem spaces_of_span (h : c.span (· = ' ') = (more, d)) : ∀ b ∈ more, b = ' ' := by
  rw [Cursor.span_eq] at h
  intro b mem
  rw [← (Prod.mk.inj h).1] at mem
  simpa using List.mem_takeWhile_imp mem

theorem span_on_line (here : c.rest = chars ++ '\n' :: line)
    (h : c.span (· = ' ') = (more, d)) :
    ∃ after, chars = more ++ after ∧ d.rest = after ++ '\n' :: line := by
  have between : more ++ d.rest = chars ++ '\n' :: line := by
    rw [← here, ← Cursor.span_append (· = ' ') c, h]
  apply before_newline between
  intro mem
  cases spaces_of_span h '\n' mem

/-- The blanks after a part are those on its line, or they reach into another line, or there is a
separator of documents after them and none of them count. -/
theorem plainBlanks_cases (h : plainBlanks c = (more, crossed, d)) :
    c.Leads d ∧ (c.span (· = ' ') = (more, d) ∨ more = [] ∨
      ∃ first next breaks, (c.span (· = ' ')).2.lineBreak? = some (first, next) ∧
        plainBreaks (next.rest.length + 1) [] next = (some breaks, d) ∧
        more = folded first breaks) := by
  have spaces : c.Leads (c.span (· = ' ')).2 := Cursor.span_leads _ c
  unfold plainBlanks at h
  dsimp only at h
  split at h
  · simp only [Prod.mk.injEq] at h
    obtain ⟨rfl, -, rfl⟩ := h
    exact ⟨spaces, .inl rfl⟩
  · next first next broken =>
    have taken := spaces.trans (Cursor.lineBreak?_leads broken)
    split at h
    · simp only [Prod.mk.injEq] at h
      obtain ⟨rfl, -, rfl⟩ := h
      exact ⟨taken, .inr (.inl rfl)⟩
    · split at h
      · next read =>
        simp only [Prod.mk.injEq] at h
        obtain ⟨rfl, -, rfl⟩ := h
        exact ⟨taken.trans (plainBreaks_leads read), .inr (.inl rfl)⟩
      · next read =>
        simp only [Prod.mk.injEq] at h
        obtain ⟨rfl, -, rfl⟩ := h
        exact ⟨taken.trans (plainBreaks_leads read),
          .inr (.inr ⟨first, next, _, broken, read, rfl⟩)⟩

theorem plainBlanks_blank (h : plainBlanks c = (more, crossed, d)) :
    ∀ b ∈ more, isBlank b = true := by
  obtain ⟨-, spaces | rfl | ⟨first, next, breaks, broken, read, rfl⟩⟩ := plainBlanks_cases h
  · intro b mem
    rw [spaces_of_span spaces b mem]
    rfl
  · exact fun b mem => absurd mem List.not_mem_nil
  · have all := plainBreaks_blank read
    have is_break := isBlank_of_isBreak (Cursor.lineBreak?_some broken).1
    intro b mem
    unfold folded at mem
    split at mem
    · obtain among | last := List.mem_append.mp mem
      · exact all b among
      · rw [List.mem_singleton.mp last]
        exact is_break
    · split at mem
      · rw [List.mem_singleton.mp mem]
        rfl
      · exact all b mem

theorem plainBlanks_loses (h : plainBlanks c = (more, crossed, d)) (some_blank : more ≠ [])
    (broken : c.span (· = ' ') ≠ (more, d)) (inside : d.column ≠ 0) :
    more.length + d.rest.length < c.rest.length := by
  obtain ⟨-, spaces | rfl | ⟨first, next, breaks, found, read, rfl⟩⟩ := plainBlanks_cases h
  · exact absurd spaces broken
  · exact absurd rfl some_blank
  · have lost := plainBreaks_loses (Cursor.column_lineBreak? found) read inside
    have shorter := Cursor.length_lineBreak? found
    have before := (Cursor.span_leads (· = ' ') c).length_le
    have fewer := folded_length first breaks
    omega

theorem plainBlanks_above (small : BeginsSmall line) (above : Above line c)
    (h : plainBlanks c = (more, crossed, d)) (some_blank : more ≠ []) : Above line d := by
  have spaces : Above line (c.span (· = ' ')).2 := above.skipSpaces small
  obtain ⟨-, same | rfl | ⟨first, next, breaks, found, read, rfl⟩⟩ := plainBlanks_cases h
  · rwa [same] at spaces
  · exact absurd rfl some_blank
  · exact (plainBreaks_stays small read).above (spaces.lineBreak small found)

/-! ### Parts -/

/-- A plain scalar ends before its next part, or after it, or goes on with the blanks after it. -/
theorem plain_cases (h : plain inFlow indent n done blanks ended c = (done', ended', d)) :
    (done' = done ∧ d = c) ∨
      ∃ m part more crossed e, n = m + 1 ∧ plainPart inFlow c.rest = part ∧ part ≠ [] ∧
        c.peek ≠ some '#' ∧ plainBlanks (c.skip part.length) = (more, crossed, e) ∧
        (done' = part.reverse ++ (blanks ++ done) ∧ d = e ∨
          more ≠ [] ∧ e.peek ≠ some '#' ∧ (inFlow = false → indent ≤ e.column) ∧
          plain inFlow indent m (part.reverse ++ (blanks ++ done)) more crossed e =
            (done', ended', d)) := by
  cases n with
  | zero =>
    simp only [plain, Prod.mk.injEq] at h
    exact .inl ⟨h.1.symm, h.2.2.symm⟩
  | succ m =>
    rw [plain] at h
    dsimp only at h
    split at h
    · simp only [Prod.mk.injEq] at h
      exact .inl ⟨h.1.symm, h.2.2.symm⟩
    · next goes =>
      right
      obtain ⟨hash, some_part⟩ : c.peek ≠ some '#' ∧ plainPart inFlow c.rest ≠ [] := by
        simpa using goes
      refine ⟨m, _, _, _, _, rfl, rfl, some_part, hash, rfl, ?_⟩
      split at h
      · simp only [Prod.mk.injEq] at h
        exact .inl ⟨h.1.symm, h.2.2.symm⟩
      · next on =>
        simp only [Bool.or_eq_true, List.isEmpty_iff, decide_eq_true_eq, Bool.and_eq_true,
          Bool.not_eq_true', not_or, not_and, Int.not_lt] at on
        exact .inr ⟨on.1.1, on.1.2, on.2, h⟩

theorem plain_leads (h : plain inFlow indent n done blanks ended c = (done', ended', d)) :
    c.Leads d := by
  induction n generalizing done blanks ended c with
  | zero =>
    obtain ⟨-, rfl⟩ | ⟨m, part, more, crossed, e, some_fuel, -⟩ := plain_cases h
    · exact Cursor.Leads.refl _
    · cases some_fuel
  | succ n ih =>
    obtain ⟨-, rfl⟩ | ⟨m, part, more, crossed, e, same, -, -, -, blank, next⟩ := plain_cases h
    · exact Cursor.Leads.refl _
    · obtain rfl := Nat.succ.inj same
      have passed := (Cursor.Leads.skip part.length c).trans (plainBlanks_cases blank).1
      obtain ⟨-, rfl⟩ | ⟨-, -, -, rest⟩ := next
      · exact passed
      · exact passed.trans (ih rest)

theorem skip_part {part : List Char} (is_part : plainPart inFlow c.rest = part) :
    c.rest = part ++ (c.skip part.length).rest := by
  obtain ⟨rest, split, -⟩ := plainPart_spec inFlow c.rest
  rw [is_part] at split
  rw [Cursor.skip_of_rest split]
  exact split

/-- Characters other than blanks are only taken from the text. -/
theorem plain_count (not_blank : isBlank k = false)
    (h : plain inFlow indent n done blanks ended c = (done', ended', d)) :
    done'.count k ≤ done.count k + blanks.count k + c.rest.count k := by
  have no_blank : ∀ blanks : Reversed, (∀ b ∈ blanks, isBlank b = true) → blanks.count k = 0 := by
    intro blanks all
    apply List.count_eq_zero_of_not_mem
    intro mem
    have blank := all k mem
    rw [not_blank] at blank
    cases blank
  induction n generalizing done blanks ended c with
  | zero =>
    obtain ⟨rfl, -⟩ | ⟨m, part, more, crossed, e, some_fuel, -⟩ := plain_cases h
    · omega
    · cases some_fuel
  | succ n ih =>
    obtain ⟨rfl, -⟩ | ⟨m, part, more, crossed, e, same, is_part, -, -, blank, next⟩ := plain_cases h
    · omega
    · obtain rfl := Nat.succ.inj same
      have whole := congrArg (List.count k) (skip_part is_part)
      rw [List.count_append] at whole
      have after := (plainBlanks_cases blank).1.suffix.sublist.count_le k
      obtain ⟨rfl, -⟩ | ⟨-, -, -, rest⟩ := next
      · simp only [List.count_append, List.count_reverse]
        omega
      · have further := ih rest
        rw [no_blank more (plainBlanks_blank blank)] at further
        simp only [List.count_append, List.count_reverse] at further
        omega

/-! ### Lines -/

/-- A character that a plain scalar on a line can have before the next one. -/
def goesBefore (c : Char) (next : Option Char) : Bool :=
  c != '\t' && !isBreak c && (c != ':' || next.any (· != ' ')) && (c != ' ' || next.any (· != '#'))

/-- A line that a plain scalar can have as a whole. -/
def isGoing : List Char → Bool
  | [] => true
  | c :: rest => goesBefore c rest.head? && isGoing rest

theorem isGoing_part (h : isGoing chars = true) {part : List Char}
    (is_part : plainPart false (part ++ chars ++ '\n' :: line) = part) :
    isGoing (part ++ chars) = true := by
  induction part with
  | nil => exact h
  | cons ch part ih =>
    rw [List.cons_append, List.cons_append, plainPart] at is_part
    split at is_part
    · cases is_part
    · next goes =>
      rw [List.cons_append, isGoing, ih (List.cons.inj is_part).2, Bool.and_true]
      cases after : part ++ chars with
      | nil =>
        rw [after] at goes
        simp [stopsPlain, endsWord, isSpace, isBreak] at goes
        simp [goesBefore, isBreak, goes]
      | cons next others =>
        rw [after] at goes
        simp [stopsPlain, endsWord, isSpace] at goes
        simp [goesBefore, goes]
        by_cases colon : ch = ':'
        · exact .inr (goes.2 colon).1.1
        · exact .inl colon

theorem isGoing_spaces {spaces : List Char} {ch : Char} (h : isGoing (ch :: chars) = true)
    (no_comment : ch ≠ '#') (all : ∀ b ∈ spaces, b = ' ') :
    isGoing (spaces ++ ch :: chars) = true := by
  induction spaces with
  | nil => exact h
  | cons b spaces ih =>
    obtain ⟨rfl, others⟩ := List.forall_mem_cons.mp all
    rw [List.cons_append, isGoing, ih others, Bool.and_true]
    cases spaces with
    | nil => simp [goesBefore, isBreak, no_comment]
    | cons d spaces =>
      rw [(List.forall_mem_cons.mp others).1]
      rfl

/-- On a line a plain scalar has at most the characters of the line, and all of them only if it
can have the line as a whole. -/
theorem plain_line_text (small : BeginsSmall line) (positive : 0 < indent)
    (here : c.rest = chars ++ '\n' :: line)
    (h : plain false indent n done blanks ended c = (done', ended', d)) :
    done'.length ≤ done.length + blanks.length + chars.length ∧
      (done'.length = done.length + blanks.length + chars.length →
        isGoing chars = true ∧ (blanks ≠ [] → chars ≠ [])) := by
  have stopped : ∀ {done blanks : Reversed} {chars : List Char},
      done.length ≤ done.length + blanks.length + chars.length ∧
        (done.length = done.length + blanks.length + chars.length →
          isGoing chars = true ∧ (blanks ≠ [] → chars ≠ [])) := by
    intro done blanks chars
    refine ⟨by omega, fun whole => ?_⟩
    have no_chars : chars = [] := List.length_eq_zero_iff.mp (by omega)
    have no_blanks : blanks = [] := List.length_eq_zero_iff.mp (by omega)
    rw [no_chars]
    exact ⟨rfl, fun some_blank => absurd no_blanks some_blank⟩
  induction n generalizing done blanks ended c chars with
  | zero =>
    obtain ⟨rfl, -⟩ | ⟨m, part, more, crossed, e, some_fuel, -⟩ := plain_cases h
    · exact stopped
    · cases some_fuel
  | succ n ih =>
    obtain ⟨rfl, -⟩ | ⟨m, part, more, crossed, e, same, is_part, some_part, -, blank, next⟩ :=
      plain_cases h
    · exact stopped
    · obtain rfl := Nat.succ.inj same
      have split := (skip_part is_part).symm.trans here
      obtain ⟨back, rfl, left⟩ := before_newline split
        (is_part ▸ newline_not_mem_plainPart false c.rest)
      rw [here] at is_part
      obtain ⟨rfl, -⟩ | ⟨some_blank, no_comment, column, rest⟩ := next
      · simp only [List.length_append, List.length_reverse]
        refine ⟨by omega, fun whole => ?_⟩
        have no_back : back = [] := List.length_eq_zero_iff.mp (by omega)
        rw [no_back] at is_part ⊢
        exact ⟨isGoing_part rfl is_part, fun _ => List.append_ne_nil_of_left_ne_nil some_part _⟩
      · have inside : e.column ≠ 0 := by
          have far := column rfl
          omega
        have above := plainBlanks_above small (.inl ⟨back, left⟩) blank some_blank
        obtain ⟨after, ahead⟩ : Ahead line e := by
          obtain ahead | ⟨-, start⟩ := above
          · exact ahead
          · exact absurd start inside
        obtain ⟨fits, all⟩ := ih ahead rest
        simp only [List.length_append, List.length_reverse] at fits all ⊢
        by_cases same_line : (c.skip part.length).span (· = ' ') = (more, e)
        · obtain ⟨after', rfl, ahead'⟩ := span_on_line left same_line
          obtain rfl : after = after' := List.append_cancel_right (ahead.symm.trans ahead')
          simp only [List.length_append]
          refine ⟨by omega, fun whole => ?_⟩
          obtain ⟨going, some_after⟩ := all (by omega)
          obtain ⟨ch, others, rfl⟩ := List.exists_cons_of_ne_nil (some_after some_blank)
          have not_hash : ch ≠ '#' := by
            rw [Cursor.peek, ahead] at no_comment
            simpa using no_comment
          exact ⟨isGoing_part (isGoing_spaces going not_hash (spaces_of_span same_line)) is_part,
            fun _ => List.append_ne_nil_of_left_ne_nil some_part _⟩
        · have lost := plainBlanks_loses blank some_blank same_line inside
          rw [left, ahead] at lost
          simp only [List.length_append, List.length_cons] at lost
          exact ⟨by omega, fun whole => by omega⟩

end FieldPlan.Yaml.Scalar
