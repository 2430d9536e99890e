import FieldPlan.Proofs.Yaml.Plain

/-! How much text the scalars have: never more than is read for them. -/
namespace FieldPlan.Yaml.Scalar
variable {n : Nat} {done done' more : Reversed} {c d e next : Cursor} {b : Char} {text : String}

theorem length_textOf (done : Reversed) : (textOf done).toList.length = done.length := by
  rw [textOf, String.toList_ofList, List.length_reverse]

theorem folded_length (first : Char) (breaks : Reversed) :
    (folded first breaks).length ≤ breaks.length + 1 := by
  unfold folded
  split
  · rw [List.length_append, List.length_singleton]
  · split
    · rw [List.length_singleton]
      omega
    · omega

/-- Reading from `c` to `d` makes `done'` of `done` with no more characters than it takes. -/
structure Shrinks (c d : Cursor) (done done' : Reversed) : Prop where
  leads : c.Leads d
  length : done'.length + d.rest.length ≤ done.length + c.rest.length

namespace Shrinks

theorem of_leads (h : c.Leads d) : Shrinks c d done done :=
  ⟨h, Nat.add_le_add_left h.length_le _⟩

theorem trans {done'' : Reversed} (h : Shrinks c d done done') (h' : Shrinks d e done' done'') :
    Shrinks c e done done'' :=
  ⟨h.leads.trans h'.leads, h'.length.trans h.length⟩

theorem of_break (h : c.lineBreak? = some (b, next)) : Shrinks c next done (b :: done) := by
  have shorter := Cursor.length_lineBreak? h
  refine ⟨Cursor.lineBreak?_leads h, ?_⟩
  rw [List.length_cons]
  omega

theorem append (h : Shrinks c d [] more) : Shrinks c d done (more ++ done) := by
  have length := h.length
  refine ⟨h.leads, ?_⟩
  rw [List.length_append]
  rw [List.length_nil] at length
  omega

theorem span {p : Char → Bool} : Shrinks c (c.span p).2 [] (c.span p).1 := by
  have split := congrArg List.length (Cursor.span_append p c)
  rw [List.length_append] at split
  refine ⟨Cursor.span_leads p c, ?_⟩
  rw [List.length_nil]
  omega

theorem reverse (h : Shrinks c d done done') : Shrinks c d done done'.reverse :=
  ⟨h.leads, by rw [List.length_reverse]; exact h.length⟩

/-- A line break that is folded is a blank or disappears, and several are one less. -/
theorem folded {breaks : Reversed} (h : c.lineBreak? = some (b, next))
    (h' : Shrinks next d [] breaks) : Shrinks c d [] (folded b breaks) := by
  have shorter := Cursor.length_lineBreak? h
  have fewer := folded_length b breaks
  have length := h'.length
  refine ⟨(Cursor.lineBreak?_leads h).trans h'.leads, ?_⟩
  rw [List.length_nil] at *
  omega

end Shrinks

/-! ### Quoted scalars -/

theorem quotedBreaks_shrinks (h : quotedBreaks n done c = some (done', d)) :
    Shrinks c d done done' := by
  induction n generalizing done c with
  | zero => cases h
  | succ n ih =>
    have spaces := Cursor.span_leads isSpace c
    rw [quotedBreaks] at h
    split at h
    · cases h
    · dsimp only at h
      split at h
      · next broken =>
        exact (Shrinks.of_leads spaces).trans ((Shrinks.of_break broken).trans (ih h))
      · obtain ⟨rfl, rfl⟩ := Prod.mk.inj (Option.some.inj h)
        exact .of_leads spaces

theorem quotedBlanks_shrinks (h : quotedBlanks c = some (more, d)) : Shrinks c d [] more := by
  unfold quotedBlanks at h
  dsimp only at h
  split at h
  · cases h
  · obtain ⟨rfl, rfl⟩ := Prod.mk.inj (Option.some.inj h)
    exact Shrinks.span.reverse
  · next first next broken _ =>
    simp only [Option.bind_eq_bind, Option.bind_eq_some_iff, Option.pure_def, Option.some_inj,
      Prod.exists, Prod.mk.injEq] at h
    obtain ⟨breaks, place, read, rfl, rfl⟩ := h
    exact (Shrinks.of_leads (Cursor.span_leads isSpace c)).trans
      (Shrinks.folded broken (quotedBreaks_shrinks read))

theorem length_skip_lt {ch : Char} (peeked : c.peek = some ch) (n : Nat) :
    (c.skip (n + 1)).rest.length < c.rest.length := by
  obtain ⟨rest, shape⟩ := List.head?_eq_some_iff.mp peeked
  rw [Cursor.rest_skip, shape, List.drop_succ_cons, List.length_drop, List.length_cons]
  omega

theorem Shrinks.one {ch : Char} (peeked : c.peek = some ch) (n : Nat) (b : Char) :
    Shrinks c (c.skip (n + 1)) done (b :: done) := by
  have shorter := length_skip_lt peeked n
  refine ⟨Cursor.Leads.skip _ c, ?_⟩
  rw [List.length_cons]
  omega

theorem escape_shrinks (h : escape c = some (more, d)) : Shrinks c d [] more := by
  unfold escape at h
  split at h
  · next broken =>
    exact (Shrinks.of_leads (Cursor.lineBreak?_leads broken)).trans (quotedBreaks_shrinks h)
  · simp only [Option.bind_eq_bind, Option.bind_eq_some_iff] at h
    obtain ⟨mark, peeked, h⟩ := h
    split at h
    · obtain ⟨rfl, rfl⟩ := Prod.mk.inj (Option.some.inj h)
      exact Shrinks.one peeked 0 _
    · next n _ _ =>
      split at h
      · simp only [Option.bind_eq_some_iff, Option.pure_def, Option.some_inj, Prod.mk.injEq] at h
        obtain ⟨code, -, rfl, rfl⟩ := h
        exact Shrinks.one peeked n _
      · cases h
    · cases h

/-- A quoted scalar from `c` on ends with its closing mark before `d`, and has fewer characters
than are read for it. -/
structure Closes (quote : Char) (done : Reversed) (c : Cursor) (text : String) (d : Cursor) :
    Prop where
  leads : c.Leads d
  mark : quote :: d.rest <:+ c.rest
  shorter : text.toList.length + d.rest.length + 1 ≤ done.length + c.rest.length

theorem Shrinks.closes {quote : Char} (h : Shrinks c e done done')
    (h' : Closes quote done' e text d) : Closes quote done c text d :=
  ⟨h.leads.trans h'.leads, h'.mark.trans h.leads.suffix, h'.shorter.trans h.length⟩

theorem quoted_closes {quote : Char} (h : quoted quote n done c = some (text, d)) :
    Closes quote done c text d := by
  induction n generalizing done c with
  | zero => cases h
  | succ n ih =>
    rw [quoted] at h
    simp only [Option.bind_eq_bind, Option.bind_eq_some_iff] at h
    obtain ⟨ch, peeked, h⟩ := h
    split at h
    · next closing =>
      split at h
      · exact (Shrinks.one peeked 1 _).closes (ih h)
      · obtain ⟨rfl, rfl⟩ := Prod.mk.inj (Option.some.inj h)
        obtain ⟨rest, shape⟩ := List.head?_eq_some_iff.mp peeked
        refine ⟨Cursor.Leads.advance c, ?_, ?_⟩
        · rw [Cursor.advance_of_rest shape, ← closing, shape]
        · rw [Cursor.advance_of_rest shape, length_textOf, shape, List.length_cons, Nat.add_assoc]
    · split at h
      · simp only [Option.bind_eq_some_iff, Prod.exists] at h
        obtain ⟨more, e, read, h⟩ := h
        exact (quotedBlanks_shrinks read).append.closes (ih h)
      · split at h
        · simp only [Option.bind_eq_some_iff, Prod.exists] at h
          obtain ⟨more, e, read, h⟩ := h
          have passed : Shrinks c c.advance done done := .of_leads (Cursor.Leads.advance c)
          exact (passed.trans (escape_shrinks read).append).closes (ih h)
        · exact (Shrinks.one peeked 0 _).closes (ih h)

/-! ### Above a line -/

def Ahead (line : List Char) (c : Cursor) : Prop := ∃ chars, c.rest = chars ++ '\n' :: line

/-- The line break before `line` is still ahead, or it is the last that has been read. -/
def Above (line : List Char) (c : Cursor) : Prop :=
  Ahead line c ∨ c.rest = line ∧ c.column = 0

variable {line : List Char}

theorem Ahead.span {p : Char → Bool} (h : Ahead line c) (stops : p '\n' = false) :
    Ahead line (c.span p).2 := by
  obtain ⟨chars, here⟩ := h
  rw [Ahead, Cursor.span_rest, here, List.dropWhile_append]
  split
  · refine ⟨[], ?_⟩
    rw [List.dropWhile_cons_of_neg (by rw [stops]; exact Bool.false_ne_true)]
    rfl
  · exact ⟨_, rfl⟩

theorem Ahead.advance {ch : Char} (h : Ahead line c) (peeked : c.peek = some ch)
    (inline : ch ≠ '\n') : Ahead line c.advance := by
  obtain ⟨chars, here⟩ := h
  rw [Cursor.peek, here] at peeked
  cases chars with
  | nil => exact absurd (Option.some.inj peeked).symm inline
  | cons first chars => exact ⟨chars, Cursor.advance_of_rest here⟩

theorem Above.length_le (h : Above line c) : line.length ≤ c.rest.length := by
  obtain ⟨chars, here⟩ | ⟨here, -⟩ := h
  · rw [here, List.length_append, List.length_cons]
    omega
  · rw [here]

theorem Above.skip_spaces {front : List Char} (small : BeginsSmall line) (h : Above line c)
    (is_front : front <+: c.rest) (spaces : ∀ b ∈ front, b = ' ') :
    Above line (c.skip front.length) := by
  obtain ⟨back, split⟩ := is_front
  have left : (c.skip front.length).rest = back := Cursor.skip_of_rest split.symm
  obtain ⟨chars, here⟩ | ⟨here, start⟩ := h
  · left
    rw [Ahead, left]
    have no_newline : '\n' ∉ front := by
      intro mem
      have space := spaces '\n' mem
      cases space
    obtain ⟨middle, -, rest⟩ := before_newline (split.trans here) no_newline
    exact ⟨middle, rest⟩
  · cases front with
    | nil => exact .inr ⟨here, start⟩
    | cons b front =>
      have blank := isBlank_of_isLower (small b (front ++ back) (here.symm.trans split.symm))
      obtain rfl := spaces b List.mem_cons_self
      cases blank

theorem Above.skipSpaces (small : BeginsSmall line) (h : Above line c) :
    Above line c.skipSpaces := by
  apply h.skip_spaces small (List.takeWhile_prefix _)
  intro b mem
  simpa using List.mem_takeWhile_imp mem

theorem Above.indentTo (small : BeginsSmall line) (h : Above line c) (column : Nat) :
    Above line (indentTo column c) := by
  apply h.skip_spaces small ((List.takeWhile_prefix _).trans (List.take_prefix _ _))
  intro b mem
  simpa using List.mem_takeWhile_imp mem

/-- A line break ahead is taken as a whole. -/
theorem Above.lineBreak (small : BeginsSmall line) (h : Above line c)
    (broken : c.lineBreak? = some (b, next)) : Above line next := by
  obtain ⟨chars, here⟩ | ⟨here, start⟩ := h
  · obtain ⟨-, used, some_used, breaks, split, -⟩ := Cursor.lineBreak?_some broken
    rw [here] at split
    obtain ⟨beyond, shape, rest⟩ | ⟨middle, -, rest⟩ := List.append_eq_append_iff.mp split
    · cases beyond with
      | nil => exact .inl ⟨[], rest.symm⟩
      | cons first beyond =>
        right
        cases beyond with
        | nil => exact ⟨(List.cons.inj rest).2.symm, Cursor.column_lineBreak? broken⟩
        | cons second beyond =>
          have blank :=
            isBlank_of_isLower (small second (beyond ++ next.rest) (List.cons.inj rest).2)
          have is_break := breaks second (by rw [shape]; simp)
          rw [isBlank_of_isBreak is_break] at blank
          cases blank
    · exact .inl ⟨middle, rest⟩
  · rw [small.lineBreak?_none here] at broken
    cases broken

/-! ### Blocks -/

/-- Text is read that does not go beyond the start of `line`. -/
structure Stays (line : List Char) (c d : Cursor) (done done' : Reversed) : Prop
    extends Shrinks c d done done' where
  above : Above line c → Above line d

namespace Stays
variable {done'' : Reversed}

theorem refl (c : Cursor) (done : Reversed) : Stays line c c done done :=
  ⟨.of_leads (Cursor.Leads.refl c), id⟩

theorem trans (h : Stays line c d done done') (h' : Stays line d e done' done'') :
    Stays line c e done done'' :=
  ⟨h.toShrinks.trans h'.toShrinks, fun above => h'.above (h.above above)⟩

theorem append {more : Reversed} (h : Stays line c d [] more) :
    Stays line c d done (more ++ done) :=
  ⟨h.toShrinks.append, h.above⟩

theorem of_length_le (h : Stays line c d done done') (fewer : done''.length ≤ done'.length) :
    Stays line c d done done'' :=
  ⟨⟨h.leads, (Nat.add_le_add_right fewer _).trans h.length⟩, h.above⟩

theorem skipSpaces (small : BeginsSmall line) : Stays line c c.skipSpaces done done :=
  ⟨.of_leads (Cursor.skipSpaces_leads c), fun above => above.skipSpaces small⟩

theorem indentTo (small : BeginsSmall line) (column : Nat) :
    Stays line c (indentTo column c) done done :=
  ⟨.of_leads (Cursor.Leads.skip _ c), fun above => above.indentTo small column⟩

theorem of_break (small : BeginsSmall line) (h : c.lineBreak? = some (b, next)) :
    Stays line c next done (b :: done) :=
  ⟨.of_break h, fun above => above.lineBreak small h⟩

end Stays

theorem blankLines_stays (small : BeginsSmall line) {column : Nat}
    (h : blankLines column n done c = (done', d)) : Stays line c d done done' := by
  induction n generalizing done c with
  | zero =>
    obtain ⟨rfl, rfl⟩ := Prod.mk.inj h
    exact .refl c done
  | succ n ih =>
    rw [blankLines] at h
    split at h
    · next broken =>
      exact (Stays.indentTo small column).trans ((Stays.of_break small broken).trans (ih h))
    · obtain ⟨rfl, rfl⟩ := Prod.mk.inj h
      exact .indentTo small column

theorem leadingLines_stays (small : BeginsSmall line) {widest widest' : Nat}
    (h : leadingLines n widest done c = (widest', done', d)) : Stays line c d done done' := by
  induction n generalizing widest done c with
  | zero =>
    obtain ⟨-, rest⟩ := Prod.mk.inj h
    obtain ⟨rfl, rfl⟩ := Prod.mk.inj rest
    exact .refl c done
  | succ n ih =>
    rw [leadingLines] at h
    split at h
    · next broken =>
      exact (Stays.skipSpaces small).trans ((Stays.of_break small broken).trans (ih h))
    · obtain ⟨-, rest⟩ := Prod.mk.inj h
      obtain ⟨rfl, rfl⟩ := Prod.mk.inj rest
      exact .skipSpaces small

/-- One line of a block with the blank lines after it: its text is put to `done`, and then at
most as much as its line break has. -/
theorem lines_turn {isFolded : Bool} {column : Nat} {breaks : Reversed}
    {result : Reversed × Reversed × Reversed × Cursor}
    (here : (c.column = column && c.peek.isSome) = true)
    (h : lines isFolded column (n + 1) done breaks c = result) :
    ∃ first blanks f g, ((∃ b, first = [b] ∧
          (c.span fun ch => !isBreak ch).2.lineBreak? = some (b, f)) ∨
        first = [] ∧ f = (c.span fun ch => !isBreak ch).2) ∧
      blankLines column (f.rest.length + 1) [] f = (blanks, g) ∧
      ((∃ joint : Reversed, joint.length ≤ first.length ∧
          lines isFolded column n (joint ++ ((c.span fun ch => !isBreak ch).1.reverse ++
            (breaks ++ done))) blanks g = result) ∨
        result = ((c.span fun ch => !isBreak ch).1.reverse ++ (breaks ++ done), first, blanks,
          g)) := by
  rw [lines, if_pos here] at h
  have fewer : ∀ (first : Reversed) (joins : Bool) (empty : Bool),
      (joins = true → first = ['\n']) →
      (if joins = true then (if empty = true then [' '] else []) else first).length ≤
        first.length := by
    intro first joins empty single
    cases joins with
    | false => exact Nat.le_refl _
    | true =>
      rw [single rfl]
      cases empty <;> decide
  cases broken : (c.span fun ch => !isBreak ch).2.lineBreak? with
  | none =>
    simp only [broken] at h
    refine ⟨[], _, _, _, .inr ⟨rfl, rfl⟩, rfl, ?_⟩
    split at h
    · refine .inl ⟨_, fewer _ _ _ ?_, h⟩
      simp only [Bool.and_eq_true, decide_eq_true_eq]
      exact fun joins => joins.1.1.2
    · exact .inr h.symm
  | some found =>
    obtain ⟨b, f⟩ := found
    simp only [broken] at h
    refine ⟨[b], _, f, _, .inl ⟨b, rfl, rfl⟩, rfl, ?_⟩
    split at h
    · refine .inl ⟨_, fewer _ _ _ ?_, h⟩
      simp only [Bool.and_eq_true, decide_eq_true_eq]
      exact fun joins => joins.1.1.2
    · exact .inr h.symm

theorem lines_stays (small : BeginsSmall line) {isFolded : Bool} {column : Nat}
    (indented : 0 < column) {breaks last breaks' : Reversed}
    (h : lines isFolded column n done breaks c = (done', last, breaks', d)) :
    Stays line c d (breaks ++ done) (breaks' ++ (last ++ done')) := by
  induction n generalizing done breaks c with
  | zero =>
    simp only [lines, Prod.mk.injEq] at h
    obtain ⟨rfl, rfl, rfl, rfl⟩ := h
    exact .refl c _
  | succ n ih =>
    by_cases here : (c.column = column && c.peek.isSome) = true
    · obtain ⟨first, blanks, f, g, ended, read, continued⟩ := lines_turn here h
      have in_place : c.column = column := by
        rw [Bool.and_eq_true, decide_eq_true_eq] at here
        exact here.1
      have text : Stays line c (c.span fun ch => !isBreak ch).2 (breaks ++ done)
          ((c.span fun ch => !isBreak ch).1.reverse ++ (breaks ++ done)) := by
        refine ⟨Shrinks.span.reverse.append, ?_⟩
        rintro (ahead | ⟨-, start⟩)
        · exact .inl (ahead.span (by decide))
        · exact absurd (in_place.symm.trans start) (Nat.ne_of_gt indented)
      have line_end : ∀ done,
          Stays line (c.span fun ch => !isBreak ch).2 f done (first ++ done) := by
        intro done
        obtain ⟨b, rfl, broken⟩ | ⟨rfl, rfl⟩ := ended
        · exact .of_break small broken
        · exact .refl _ done
      have below := (text.trans (line_end _)).trans (blankLines_stays small read).append
      obtain ⟨joint, fewer, others⟩ | stopped := continued
      · refine (below.of_length_le ?_).trans (ih others)
        simp only [List.length_append]
        omega
      · simp only [Prod.mk.injEq] at stopped
        obtain ⟨rfl, rfl, rfl, rfl⟩ := stopped
        exact below
    · rw [lines, if_neg here] at h
      simp only [Prod.mk.injEq] at h
      obtain ⟨rfl, rfl, rfl, rfl⟩ := h
      exact .refl c _

theorem restOfLine?_above (small : BeginsSmall line) (ahead : Ahead line c)
    (h : c.restOfLine? = some d) : d.rest.length < c.rest.length ∧ Above line d := by
  have ahead_spaces : Ahead line c.skipSpaces := ahead.span (by decide)
  have ahead_comment : Ahead line c.skipSpaces.skipComment := by
    unfold Cursor.skipComment
    split
    · exact ahead_spaces.span (by decide)
    · exact ahead_spaces
  have before : c.skipSpaces.skipComment.rest.length ≤ c.rest.length :=
    ((Cursor.skipSpaces_leads c).trans (Cursor.skipComment_leads _)).length_le
  unfold Cursor.restOfLine? at h
  dsimp only at h
  generalize c.skipSpaces.skipComment = e at *
  split at h
  · next ends =>
    obtain rfl := Option.some.inj h
    split
    · next broken =>
      exact ⟨(Cursor.length_lineBreak? broken).trans_le before,
        Above.lineBreak small (.inl ahead_comment) broken⟩
    · next unbroken =>
      obtain ⟨chars, shape⟩ := ahead_comment
      obtain ⟨ch, rest, some_left⟩ : ∃ ch rest, e.rest = ch :: rest := by
        rw [shape]
        cases chars with
        | nil => exact ⟨_, _, rfl⟩
        | cons first chars => exact ⟨_, _, rfl⟩
      have plain := Cursor.lineBreak?_none unbroken ch rest some_left
      rw [Cursor.peek, some_left, List.head?_cons, endsLine, Option.all_some, plain] at ends
      cases ends
  · cases h

def IsMark (o : Option Char) : Prop := (chomp? o).isSome ∨ (increment? o).isSome

theorem IsMark.inline {o : Option Char} (mark : IsMark o) : ∃ ch, o = some ch ∧ ch ≠ '\n' := by
  cases o with
  | none => simp [IsMark, chomp?, increment?] at mark
  | some ch =>
    refine ⟨ch, rfl, ?_⟩
    rintro rfl
    revert mark
    unfold IsMark
    decide

theorem header_marks {chomp : Chomp} {increment : Option Nat}
    (h : header c = some (chomp, increment, d)) :
    increment ≠ some 0 ∧ ∃ e, e.restOfLine? = some d ∧ (e = c ∨
      IsMark c.peek ∧ (e = c.advance ∨ IsMark (c.peekAt 1) ∧ e = c.skip 2)) := by
  have finished : ∀ {e : Cursor} {chomp' : Chomp} {increment' : Option Nat},
      (if (increment' = some 0 || !endsPart e.peek) = true then none
        else e.restOfLine?.map fun e => (chomp', increment', e)) = some (chomp, increment, d) →
      increment ≠ some 0 ∧ e.restOfLine? = some d := by
    intro e chomp' increment' h
    split at h
    · cases h
    · next proper =>
      obtain ⟨f, rest, same⟩ := Option.map_eq_some_iff.mp h
      simp only [Prod.mk.injEq] at same
      obtain ⟨rfl, rfl, rfl⟩ := same
      refine ⟨?_, rest⟩
      rintro rfl
      exact proper rfl
  unfold header at h
  cases chomps : chomp? c.peek with
  | some chomp' =>
    have first : IsMark c.peek := .inl (by rw [chomps]; rfl)
    cases increments : increment? (c.peekAt 1) with
    | some n =>
      have second : IsMark (c.peekAt 1) := .inr (by rw [increments]; rfl)
      simp only [chomps, increments] at h
      obtain ⟨proper, rest⟩ := finished h
      exact ⟨proper, _, rest, .inr ⟨first, .inr ⟨second, rfl⟩⟩⟩
    | none =>
      simp only [chomps, increments] at h
      obtain ⟨proper, rest⟩ := finished h
      exact ⟨proper, _, rest, .inr ⟨first, .inl rfl⟩⟩
  | none =>
    cases increments : increment? c.peek with
    | some n =>
      have first : IsMark c.peek := .inr (by rw [increments]; rfl)
      cases chomps' : chomp? (c.peekAt 1) with
      | some chomp' =>
        have second : IsMark (c.peekAt 1) := .inl (by rw [chomps']; rfl)
        simp only [chomps, increments, chomps'] at h
        obtain ⟨proper, rest⟩ := finished h
        exact ⟨proper, _, rest, .inr ⟨first, .inr ⟨second, rfl⟩⟩⟩
      | none =>
        simp only [chomps, increments, chomps'] at h
        obtain ⟨proper, rest⟩ := finished h
        exact ⟨proper, _, rest, .inr ⟨first, .inl rfl⟩⟩
    | none =>
      simp only [chomps, increments] at h
      obtain ⟨proper, rest⟩ := finished h
      exact ⟨proper, _, rest, .inl rfl⟩

theorem header_above (small : BeginsSmall line) (ahead : Ahead line c) {chomp : Chomp}
    {increment : Option Nat} (h : header c = some (chomp, increment, d)) :
    increment ≠ some 0 ∧ c.Leads d ∧ d.rest.length < c.rest.length ∧ Above line d := by
  obtain ⟨proper, e, rest, marks⟩ := header_marks h
  have past : c.Leads e ∧ Ahead line e := by
    obtain rfl | ⟨mark, rfl | ⟨mark', rfl⟩⟩ := marks
    · exact ⟨Cursor.Leads.refl e, ahead⟩
    · obtain ⟨ch, peeked, inline⟩ := mark.inline
      exact ⟨Cursor.Leads.advance c, ahead.advance peeked inline⟩
    · obtain ⟨ch, peeked, inline⟩ := mark.inline
      obtain ⟨ch', peeked', inline'⟩ := mark'.inline
      have second : c.advance.peek = some ch' := by
        rw [← peeked', Cursor.peek, Cursor.rest_advance, Cursor.peekAt, List.head?_tail]
      exact ⟨Cursor.Leads.skip 2 c, (ahead.advance peeked inline).advance second inline'⟩
  obtain ⟨leads, ahead_marks⟩ := past
  obtain ⟨shorter, above⟩ := restOfLine?_above small ahead_marks rest
  exact ⟨proper, leads.trans (Cursor.restOfLine?_leads rest), shorter.trans_le leads.length_le,
    above⟩

theorem chomp_stays (small : BeginsSmall line) {isFolded : Bool} {column : Nat}
    (indented : 0 < column) {breaks last breaks' : Reversed} (first : Stays line c e [] breaks)
    (h : lines isFolded column n [] breaks e = (done, last, breaks', d)) (chomp : Chomp) :
    Stays line c d [] (match chomp with
      | .strip => done
      | .clip => last ++ done
      | .keep => breaks' ++ (last ++ done)) := by
  have whole := lines_stays small indented h
  rw [List.append_nil] at whole
  apply (first.trans whole).of_length_le
  cases chomp <;> simp only [List.length_append] <;> omega

theorem block_short (small : BeginsSmall line) {isFolded : Bool} {indent : Int} {chars : List Char}
    (here : c.rest = chars ++ '\n' :: line) (h : block isFolded indent c = some (text, d)) :
    c.Leads d ∧ text.toList.length ≤ chars.length := by
  have ahead : Ahead line c := ⟨chars, here⟩
  unfold block at h
  simp only [Option.bind_eq_bind, Option.bind_eq_some_iff, Prod.exists] at h
  obtain ⟨chomp, increment, e, is_header, h⟩ := h
  obtain ⟨not_zero, leads, shorter, above⟩ := header_above small ahead is_header
  have least : 1 ≤ max 1 (indent + 1).toNat := Nat.le_max_left _ _
  obtain ⟨done, stays, is_text⟩ : ∃ done, Stays line e d [] done ∧ text = textOf done := by
    cases increment with
    | none =>
      generalize read : leadingLines (e.rest.length + 1) 0 [] e = result at h
      obtain ⟨widest, breaks, f⟩ := result
      generalize read' : lines isFolded (max (max 1 (indent + 1).toNat) widest)
        (f.rest.length + 1) [] breaks f = result' at h
      obtain ⟨done, last, breaks', g⟩ := result'
      simp only [Option.pure_def, Option.some_inj, Prod.mk.injEq] at h
      obtain ⟨rfl, rfl⟩ := h
      exact ⟨_, chomp_stays small (by omega) (leadingLines_stays small read) read' chomp, rfl⟩
    | some n =>
      dsimp only at h
      generalize read : blankLines (max 1 (indent + 1).toNat + n - 1) (e.rest.length + 1) [] e =
        result at h
      obtain ⟨breaks, f⟩ := result
      generalize read' : lines isFolded (max 1 (indent + 1).toNat + n - 1)
        (f.rest.length + 1) [] breaks f = result' at h
      obtain ⟨done, last, breaks', g⟩ := result'
      simp only [Option.pure_def, Option.some_inj, Prod.mk.injEq] at h
      obtain ⟨rfl, rfl⟩ := h
      have positive : n ≠ 0 := fun zero => not_zero (by rw [zero])
      exact ⟨_, chomp_stays small (by omega) (blankLines_stays small read) read' chomp, rfl⟩
  have fits := stays.length
  have left := (stays.above above).length_le
  rw [here, List.length_append, List.length_cons] at shorter
  rw [List.length_nil] at fits
  refine ⟨leads.trans stays.leads, ?_⟩
  rw [is_text, length_textOf]
  omega

end FieldPlan.Yaml.Scalar
