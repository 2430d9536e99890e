import FieldPlan.Proofs.Yaml.Entry
import FieldPlan.Proofs.Yaml.Scan

/-! A text that is pasted as the value of an entry and is not a plain line is no scalar of the
document. As long as the outer mapping is open it would have to be one plain scalar, which ends
before the next line. Once a flow collection, a directive or another document begins, a mark of
the text is used up that the lines below cannot make good. -/
namespace FieldPlan.Yaml

theorem isGoing_inline {chars : List Char} (going : Scalar.isGoing chars = true)
    (allowed : ∀ c ∈ chars, isAllowed c = true) : IsInline chars := by
  induction chars with
  | nil => exact ⟨nofun, by simp, by simp, by simp⟩
  | cons c chars ih =>
    obtain ⟨allowed_first, allowed_rest⟩ := List.forall_mem_cons.mp allowed
    rw [Scalar.isGoing, Bool.and_eq_true] at going
    obtain ⟨before, rest⟩ := going
    have inline := ih rest allowed_rest
    simp only [Scalar.goesBefore, Bool.and_eq_true, Bool.or_eq_true, bne_iff_ne, Bool.not_eq_true']
      at before
    obtain ⟨⟨⟨not_tab, not_break⟩, colon⟩, space⟩ := before
    constructor
    · exact List.forall_mem_cons.mpr ⟨⟨allowed_first, not_tab, not_break⟩, inline.allowed⟩
    · rw [List.infix_cons_iff]
      rintro (⟨more, shape⟩ | found)
      · obtain ⟨rfl, rfl⟩ := List.cons.inj shape
        simp at colon
      · exact inline.no_key found
    · rw [List.infix_cons_iff]
      rintro (⟨more, shape⟩ | found)
      · obtain ⟨rfl, rfl⟩ := List.cons.inj shape
        simp at space
      · exact inline.no_comment found
    · cases chars with
      | nil => simpa using And.intro space colon
      | cons d chars =>
        rw [List.getLast?_cons_cons]
        exact inline.last

/-- The lines below a value: they begin with a word, have few of the marks that lead out of the
mapping, and every part of them is a plain line up to a colon or the end of its line. -/
structure PlainTail (tail : List Char) : Prop where
  small : BeginsSmall tail
  few : tail.count '-' ≤ 2 ∧ tail.count '.' ≤ 2
  no_mark : ∀ k ∈ ['%', '[', '\x7b', '"', '\'', '|', '>'], k ∉ tail
  parts : ∀ rest, rest <:+ tail → Scalar.plainPart false rest = [] ∨
    IsPlainLine (Scalar.plainPart false rest) ∧
      ∃ after, rest = Scalar.plainPart false rest ++ after ∧
        ((∃ more, after = ':' :: more) ∨ ∃ line, after = '\n' :: line ∧ BeginsSmall line)

/-- Whether what begins here is no part of a plain scalar, or one that is a plain line up to a
colon or the end of its line. -/
def endsWell (rest : List Char) : Bool :=
  let part := Scalar.plainPart false rest
  let after := rest.drop part.length
  part.isEmpty || (decide (IsPlainLine part) &&
    (after.head? == some ':' ||
      (after.head? == some '\n' && (after.drop 1).head?.all Char.isLower)))

theorem beginsSmall_of_head {line : List Char} (small : line.head?.all Char.isLower = true) :
    BeginsSmall line := by
  rintro c rest rfl
  exact small

theorem parts_of_endsWell {rest : List Char} (well : endsWell rest = true) :
    Scalar.plainPart false rest = [] ∨ IsPlainLine (Scalar.plainPart false rest) ∧
      ∃ after, rest = Scalar.plainPart false rest ++ after ∧
        ((∃ more, after = ':' :: more) ∨ ∃ line, after = '\n' :: line ∧ BeginsSmall line) := by
  obtain ⟨after, split, -⟩ := Scalar.plainPart_spec false rest
  have left : rest.drop (Scalar.plainPart false rest).length = after :=
    (congrArg (List.drop _) split).trans List.drop_left
  rw [endsWell, Bool.or_eq_true, Bool.and_eq_true, Bool.or_eq_true, Bool.and_eq_true,
    List.isEmpty_iff, decide_eq_true_eq, beq_iff_eq, beq_iff_eq, left] at well
  obtain none | ⟨plain, colon | ⟨newline, small⟩⟩ := well
  · exact .inl none
  · exact .inr ⟨plain, after, split, .inl (List.head?_eq_some_iff.mp colon)⟩
  · obtain ⟨line, rfl⟩ := List.head?_eq_some_iff.mp newline
    exact .inr ⟨plain, _, split, .inr ⟨line, rfl, beginsSmall_of_head small⟩⟩

namespace Scan
variable {value tail : List Char} {s s' t : Scan} {n : Nat}

/-- The marks with which a directive, another document or a flow collection begins. -/
def leavingMarks : List Char := ['%', '-', '.', '[', '\x7b']

theorem not_blank_of_leaving {k : Char} (mark : k ∈ leavingMarks) : isBlank k = false := by
  revert mark
  simp only [leavingMarks, List.mem_cons, List.not_mem_nil, or_false]
  rintro (rfl | rfl | rfl | rfl | rfl) <;> decide

/-- No scalar so far has the text `value`, and what is left to read cannot give it either. -/
structure Unread (value tail : List Char) (s : Scan) : Prop where
  scalars : ∀ text isPlain, Token.scalar text isPlain ∈ s.tokens → text.toList ≠ value
  left : s.cursor.rest <:+ ' ' :: (value ++ '\n' :: tail)
  place : s.flow = 0 ∧ Rooted (s.indent :: s.outer) ∨
    ∃ k ∈ leavingMarks, s.cursor.rest.count k < value.count k

theorem Unread.keeps (h : Unread value tail s)
    (kept : Keeps (fun text => text.toList ≠ value) s t) : Unread value tail t := by
  constructor
  · exact kept.all h.scalars
  · exact kept.leads.suffix.trans h.left
  · obtain ⟨block, rooted⟩ | ⟨k, mark, fewer⟩ := h.place
    · exact .inl ⟨kept.block block, kept.rooted rooted⟩
    · exact .inr ⟨k, mark, (kept.leads.suffix.sublist.count_le k).trans_lt fewer⟩

/-- A step that takes more of a mark than the lines below can make good. -/
theorem Unread.leaves (h : Unread value tail s)
    (reads : Reads (fun text => text.toList ≠ value) s t) {k : Char}
    (mark : k ∈ leavingMarks) {front rest : List Char}
    (here : s.cursor.rest = front ++ rest) (passed : t.cursor.rest <:+ rest)
    (more : tail.count k < front.count k) : Unread value tail t := by
  refine ⟨reads.all h.scalars, reads.leads.suffix.trans h.left, .inr ⟨k, mark, ?_⟩⟩
  have not_blank := not_blank_of_leaving mark
  have not_space : ' ' ≠ k := by
    rintro rfl
    cases not_blank
  have not_newline : '\n' ≠ k := by
    rintro rfl
    cases not_blank
  have whole := h.left.sublist.count_le k
  rw [here, List.count_append, List.count_cons_of_ne not_space, List.count_append,
    List.count_cons_of_ne not_newline] at whole
  have left := passed.sublist.count_le k
  omega

theorem Unread.flowStart (below : PlainTail tail) (h : Unread value tail s) {ch : Char} {t : Token}
    (no_text : NoText t) (mark : ch = '[' ∨ ch = '\x7b') (peeked : s.cursor.peek = some ch)
    (step : s.flowStart t = some s') : Unread value tail s' := by
  obtain ⟨rest, here⟩ := List.head?_eq_some_iff.mp peeked
  unfold Scan.flowStart at step
  simp only [Option.bind_eq_bind, Option.bind_eq_some_iff] at step
  obtain ⟨u, saved, same⟩ := step
  obtain ⟨keys, rfl⟩ := saveKey_eq saved
  have opened : Reads (fun text => text.toList ≠ value) s s' :=
    Option.some.inj same ▸ .push no_text.fresh rfl (Cursor.Leads.skip 1 _)
  refine h.leaves opened (k := ch) ?_ (show s.cursor.rest = [ch] ++ rest from here) ?_ ?_
  · rcases mark with rfl | rfl <;> decide
  · rw [← Option.some.inj same]
    show (s.cursor.skip 1).rest <:+ rest
    rw [Cursor.rest_skip, here]
    exact List.suffix_rfl
  · have absent := below.no_mark ch (by rcases mark with rfl | rfl <;> decide)
    rw [List.count_eq_zero_of_not_mem absent, List.count_singleton_self]
    exact Nat.one_pos

theorem unwind_cursor (s : Scan) (column : Int) : (s.unwind column).cursor = s.cursor := by
  unfold unwind
  split <;> rfl

theorem Unread.marker (below : PlainTail tail) (h : Unread value tail s) {ch : Char} {t : Token}
    (no_text : NoText t) (mark : ch = '-' ∨ ch = '.') (is_marker : s.cursor.isMarker ch = true)
    (step : s.marker 3 t = some s') : Unread value tail s' := by
  obtain ⟨rest, here⟩ : ∃ rest, s.cursor.rest = [ch, ch, ch] ++ rest := by
    rw [Cursor.isMarker, Bool.and_eq_true, beq_iff_eq] at is_marker
    refine ⟨s.cursor.rest.drop 3, ?_⟩
    rw [← is_marker.1, List.take_append_drop]
  unfold Scan.marker at step
  simp only [Option.bind_eq_bind, Option.bind_eq_some_iff] at step
  obtain ⟨u, dropped, same⟩ := step
  obtain ⟨keys, rfl⟩ := dropKey_eq dropped
  have taken : Reads (fun text => text.toList ≠ value) s s' :=
    Option.some.inj same ▸ (unwind_reads s (-1)).trans
      (.push (fun text isPlain same => absurd same (no_text text isPlain)) rfl
        (Cursor.Leads.skip 3 _))
  refine h.leaves taken (k := ch) ?_ here ?_ ?_
  · rcases mark with rfl | rfl <;> decide
  · have cursor : s'.cursor = s.cursor.skip 3 := by
      rw [← Option.some.inj same, ← unwind_cursor s (-1)]
      rfl
    rw [cursor, Cursor.rest_skip, here]
    exact List.suffix_rfl
  · have three : [ch, ch, ch].count ch = 3 := by simp
    rw [three]
    rcases mark with rfl | rfl
    · exact Nat.lt_succ_of_le below.few.1
    · exact Nat.lt_succ_of_le below.few.2

theorem Unread.directive (below : PlainTail tail) (h : Unread value tail s)
    (peeked : s.cursor.peek = some '%') {u : Scan} {t : Token} {next : Cursor}
    (dropped : (s.unwind (-1)).dropKey = some u) (read : directive? u.cursor = some (t, next)) :
    Unread value tail { (u.push t).allowKey false with cursor := next } := by
  obtain ⟨rest, here⟩ := List.head?_eq_some_iff.mp peeked
  obtain ⟨keys, rfl⟩ := dropKey_eq dropped
  obtain ⟨leads, no_text⟩ := directive?_leads read
  have pushed : Reads (fun text => text.toList ≠ value) s
      { (({ s.unwind (-1) with keys := keys } : Scan).push t).allowKey false with
        cursor := next } :=
    (unwind_reads s (-1)).trans (.push no_text.fresh rfl ((Cursor.Leads.advance _).trans leads))
  refine h.leaves pushed (k := '%') (by decide)
    (show s.cursor.rest = ['%'] ++ rest from here) ?_ ?_
  · have passed := leads.suffix
    dsimp only at passed
    rwa [unwind_cursor, Cursor.advance_of_rest here] at passed
  · rw [List.count_eq_zero_of_not_mem (below.no_mark '%' (by decide)), List.count_singleton_self]
    exact Nat.one_pos

/-! ### Scalars -/

theorem suffix_cases {rest : List Char} (front : List Char) (h : rest <:+ front ++ '\n' :: tail) :
    (∃ chars, rest = chars ++ '\n' :: tail ∧ chars <:+ front) ∨ rest <:+ tail := by
  obtain ⟨before, split⟩ := h
  obtain ⟨chars, shape, same⟩ | ⟨beyond, -, same⟩ := List.append_eq_append_iff.mp split
  · exact .inl ⟨chars, same, before, shape.symm⟩
  · cases beyond with
    | nil => exact .inl ⟨[], same.symm, List.nil_suffix⟩
    | cons first beyond => exact .inr ⟨beyond, (List.cons.inj same).2.symm⟩

theorem beginsPlain_of_blank (s : Scan) {ch : Char} (blank : isBlank ch = true) :
    s.beginsPlain ch = false := by
  have apart : ch ∉ ['-', '?', ':'] := by
    intro mem
    revert blank
    simp only [List.mem_cons, List.not_mem_nil, or_false] at mem
    rcases mem with rfl | rfl | rfl <;> decide
  simp only [List.mem_cons, List.not_mem_nil, or_false, not_or] at apart
  rw [isBlank] at blank
  simp [beginsPlain, blank, apart]

/-- What begins like a plain scalar and may have the rest of its line is a plain line. -/
theorem isPlainLine_of_going {ch : Char} {chars : List Char}
    (here : s.cursor.rest = ch :: chars ++ '\n' :: tail) (begins : s.beginsPlain ch = true)
    (inline : IsInline (ch :: chars)) : IsPlainLine (ch :: chars) := by
  refine ⟨inline, ch, chars, rfl, ?_⟩
  simp only [beginsPlain, Bool.or_eq_true, Bool.and_eq_true, Bool.not_eq_true',
    Bool.or_eq_false_iff, decide_eq_true_eq] at begins
  obtain ⟨⟨not_space, -⟩, not_mark⟩ | ⟨goes_on, mark⟩ := begins
  · left
    constructor
    · rintro rfl
      cases not_space
    · simpa using not_mark
  · right
    refine ⟨by rcases mark with rfl | ⟨-, rfl | rfl⟩ <;> decide, ?_⟩
    cases chars with
    | nil =>
      rw [Cursor.peekAt, here] at goes_on
      cases goes_on
    | cons d more =>
      refine ⟨d, more, rfl, ?_⟩
      rintro rfl
      rw [Cursor.peekAt, here] at goes_on
      cases goes_on

theorem plain_below (below : PlainTail tail) {indent : Int} (positive : 0 < indent) {c d : Cursor}
    (left : c.rest <:+ tail) {ended ended' : Bool} {done : Reversed}
    (read : Scalar.plain false indent n [] [] ended c = (done, ended', d)) :
    done = [] ∨ IsPlainLine done.reverse := by
  obtain ⟨rfl, -⟩ | ⟨m, part, more, crossed, e, -, is_part, some_part, -, blank, next⟩ :=
    Scalar.plain_cases read
  · exact .inl rfl
  · right
    obtain none | ⟨plain, after, split, stop⟩ := below.parts c.rest left
    · exact absurd (is_part.symm.trans none) some_part
    · rw [is_part] at plain split
      have at_stop : (c.skip part.length).rest = after := Cursor.skip_of_rest split
      obtain ⟨rfl, -⟩ | ⟨some_blank, -, column, -⟩ := next
      · simpa using plain
      · obtain ⟨others, rfl⟩ | ⟨line, rfl, small⟩ := stop
        · have colon : (c.skip part.length).rest = [] ++ ':' :: others := at_stop
          have nothing := Scalar.plainBlanks_inline colon nofun (by decide) (by decide)
          rw [nothing] at blank
          exact absurd (Prod.mk.inj blank).1.symm some_blank
        · have newline : (c.skip part.length).rest = [] ++ '\n' :: line := at_stop
          rw [Scalar.plainBlanks_newline newline nofun small] at blank
          obtain ⟨-, -, rfl⟩ : _ ∧ _ ∧ _ := by simpa using blank
          have far := column rfl
          rw [Cursor.skip, Cursor.advance_newline at_stop] at far
          exact absurd far (Int.not_le.mpr positive)

structure Improper (value tail : List Char) : Prop where
  below : PlainTail tail
  some_value : value ≠ []
  allowed : ∀ c ∈ value, isAllowed c = true
  not_plain : ¬IsPlainLine value

/-- While the outer mapping is open, a plain scalar is not the value: on the line of the value it
would have to be all of it, and below it is a plain line. -/
theorem Improper.plain_ne_open (improper : Improper value tail) (block : s.flow = 0)
    (rooted : Rooted (s.indent :: s.outer))
    (left : s.cursor.rest <:+ ' ' :: (value ++ '\n' :: tail)) {ch : Char}
    (peeked : s.cursor.peek = some ch) (begins : s.beginsPlain ch = true) {done : Reversed}
    {ended : Bool} {d : Cursor}
    (read : Scalar.plain s.inFlow (s.indent + 1) n [] [] false s.cursor = (done, ended, d)) :
    done.reverse ≠ value := by
  have no_flow : s.inFlow = false := by
    rw [inFlow, block]
    rfl
  have positive : 0 < s.indent + 1 := Int.lt_add_one_of_le rooted.inside
  have no_blank : isBlank ch = false := by
    by_contra blank
    rw [beginsPlain_of_blank s (Bool.not_eq_false _ ▸ blank)] at begins
    cases begins
  rw [no_flow] at read
  obtain ⟨chars, here, within⟩ | left := suffix_cases (' ' :: value) left
  · obtain ⟨fits, going⟩ := Scalar.plain_line_text improper.below.small positive here read
    simp only [List.length_nil, Nat.zero_add] at fits going
    rw [Cursor.peek, here] at peeked
    obtain ⟨others, rfl⟩ : ∃ others, chars = ch :: others := by
      cases chars with
      | nil =>
        obtain rfl := Option.some.inj peeked
        cases no_blank
      | cons first others => exact ⟨others, by rw [Option.some.inj peeked]⟩
    intro same
    obtain spaced | within := List.suffix_cons_iff.mp within
    · rw [(List.cons.inj spaced).1] at no_blank
      cases no_blank
    · have long : done.length = value.length := by rw [← same, List.length_reverse]
      have short := within.length_le
      have whole := within.eq_of_length (by omega)
      have inline := isGoing_inline (going (by rw [long, whole])).1 (whole ▸ improper.allowed)
      exact improper.not_plain (whole ▸ isPlainLine_of_going here begins inline)
  · obtain rfl | plain := plain_below improper.below positive left read
    · exact improper.some_value.symm
    · rintro rfl
      exact improper.not_plain plain

/-- A plain scalar has no more of a mark than is left. -/
theorem plain_ne_of_fewer {k : Char} (mark : k ∈ leavingMarks) {c d : Cursor}
    (fewer : c.rest.count k < value.count k) {inFlow ended ended' : Bool} {indent : Int}
    {done : Reversed} (read : Scalar.plain inFlow indent n [] [] ended c = (done, ended', d)) :
    done.reverse ≠ value := by
  have taken := Scalar.plain_count (not_blank_of_leaving mark) read
  rintro rfl
  rw [List.count_reverse] at fewer
  simp only [List.count_nil] at taken
  omega

theorem Improper.plain_ne (improper : Improper value tail) (h : Unread value tail s) {ch : Char}
    (peeked : s.cursor.peek = some ch) (begins : s.beginsPlain ch = true) {done : Reversed}
    {ended : Bool} {d : Cursor}
    (read : Scalar.plain s.inFlow (s.indent + 1) n [] [] false s.cursor = (done, ended, d)) :
    done.reverse ≠ value := by
  obtain ⟨block, rooted⟩ | ⟨k, mark, fewer⟩ := h.place
  · exact improper.plain_ne_open block rooted h.left peeked begins read
  · exact plain_ne_of_fewer mark fewer read

theorem Unread.plainScalar (improper : Improper value tail) (h : Unread value tail s) {ch : Char}
    (peeked : s.cursor.peek = some ch) (begins : s.beginsPlain ch = true)
    (step : s.plainScalar = some s') : Unread value tail s' := by
  unfold Scan.plainScalar at step
  simp only [Option.bind_eq_bind, Option.bind_eq_some_iff] at step
  obtain ⟨u, saved, same⟩ := step
  generalize read : Scalar.plain u.inFlow (u.indent + 1) (u.cursor.rest.length + 1) [] [] false
    u.cursor = result at same
  obtain ⟨done, ended, d⟩ := result
  obtain ⟨keys, rfl⟩ := saveKey_eq saved
  have other : (textOf done).toList ≠ value := by
    rw [textOf, String.toList_ofList]
    exact improper.plain_ne h peeked begins read
  apply h.keeps
  refine Option.some.inj same ▸ (keys_keeps s keys).trans
    (.of_reads (.push ?_ rfl (Scalar.plain_leads read)) rfl rfl rfl)
  rintro text isPlain ⟨⟩
  exact other

/-- Before a mark that the lines below have not, the value has not ended. -/
theorem inside_of_mark {rest : List Char} {mark : Char} (absent : mark ∉ '\n' :: tail)
    (not_space : mark ≠ ' ') (h : mark :: rest <:+ ' ' :: (value ++ '\n' :: tail)) :
    ∃ chars, rest = chars ++ '\n' :: tail ∧ mark :: chars <:+ value := by
  obtain ⟨chars, shape, within⟩ | below := suffix_cases (' ' :: value) h
  · cases chars with
    | nil =>
      rw [(List.cons.inj shape).1] at absent
      exact absurd List.mem_cons_self absent
    | cons first chars =>
      obtain ⟨rfl, rest⟩ := List.cons.inj shape
      refine ⟨chars, rest, ?_⟩
      obtain spaced | within := List.suffix_cons_iff.mp within
      · exact absurd (List.cons.inj spaced).1 not_space
      · exact within
  · exact absurd (List.mem_cons_of_mem _ (below.mem List.mem_cons_self)) absent

theorem Unread.quotedScalar (improper : Improper value tail) (h : Unread value tail s)
    {quote : Char} (mark : quote = '\'' ∨ quote = '"') (peeked : s.cursor.peek = some quote)
    (step : s.quotedScalar quote = some s') : Unread value tail s' := by
  obtain ⟨rest, here⟩ := List.head?_eq_some_iff.mp peeked
  have absent : quote ∉ '\n' :: tail := by
    rw [List.mem_cons, not_or]
    exact ⟨by rcases mark with rfl | rfl <;> decide,
      improper.below.no_mark quote (by rcases mark with rfl | rfl <;> decide)⟩
  have not_space : quote ≠ ' ' := by rcases mark with rfl | rfl <;> decide
  apply h.keeps
  refine keyable_keeps ?_ step
  intro t d read
  simp only [Option.bind_eq_bind, Option.bind_eq_some_iff, Option.pure_def, Option.some_inj,
    Prod.exists, Prod.mk.injEq] at read
  obtain ⟨text, e, quoted, rfl, rfl⟩ := read
  have closes := Scalar.quoted_closes quoted
  have left := h.left
  rw [here] at left
  obtain ⟨chars, opening, within⟩ := inside_of_mark absent not_space left
  have mark_left := closes.mark
  rw [Cursor.advance_of_rest here] at mark_left
  obtain ⟨after, closing, -⟩ := inside_of_mark absent not_space
    (mark_left.trans ((List.suffix_cons quote rest).trans left))
  refine ⟨(Cursor.Leads.advance _).trans closes.leads, ?_⟩
  rintro text' isPlain ⟨⟩ same
  have shorter := closes.shorter
  have fits := within.length_le
  rw [same, Cursor.advance_of_rest here, opening, closing] at shorter
  simp only [List.length_append, List.length_cons, List.length_nil] at shorter fits
  omega

theorem Unread.blockScalar (improper : Improper value tail) (h : Unread value tail s)
    {mark : Char} (block : mark = '|' ∨ mark = '>') (peeked : s.cursor.peek = some mark)
    {isFolded : Bool} (step : s.blockScalar isFolded = some s') : Unread value tail s' := by
  obtain ⟨rest, here⟩ := List.head?_eq_some_iff.mp peeked
  have absent : mark ∉ '\n' :: tail := by
    rw [List.mem_cons, not_or]
    exact ⟨by rcases block with rfl | rfl <;> decide,
      improper.below.no_mark mark (by rcases block with rfl | rfl <;> decide)⟩
  have left := h.left
  rw [here] at left
  obtain ⟨chars, opening, within⟩ :=
    inside_of_mark absent (by rcases block with rfl | rfl <;> decide) left
  unfold Scan.blockScalar at step
  simp only [Option.bind_eq_bind, Option.bind_eq_some_iff, Prod.exists] at step
  obtain ⟨u, dropped, text, d, read, same⟩ := step
  obtain ⟨keys, rfl⟩ := dropKey_eq dropped
  obtain ⟨leads, short⟩ := Scalar.block_short improper.below.small
    ((Cursor.advance_of_rest here).trans opening) read
  apply h.keeps
  have kept : Keeps (fun text => text.toList ≠ value) s { s.allowKey true with keys := keys } :=
    (allowKey_keeps s true).trans (keys_keeps _ keys)
  refine Option.some.inj same ▸ kept.trans
    (.of_reads (.push ?_ rfl ((Cursor.Leads.advance _).trans leads)) rfl rfl rfl)
  rintro text' isPlain ⟨⟩ same
  have fits := within.length_le
  rw [← same, List.length_cons] at fits
  omega

/-! ### All tokens -/

theorem anchorName_keeps {make : String → Token} (no_text : ∀ name, NoText (make name))
    {fresh : String → Prop}
    (step : s.keyable (fun c => (anchorName? c).map fun r => (make r.1, r.2)) = some s') :
    Keeps fresh s s' := by
  refine keyable_keeps ?_ step
  intro t d read
  obtain ⟨found, named, same⟩ := Option.map_eq_some_iff.mp read
  obtain ⟨rfl, rfl⟩ := Prod.mk.inj same
  exact ⟨anchorName?_leads named, (no_text found.1).fresh⟩

theorem Unread.token (improper : Improper value tail) (h : Unread value tail s) {ch : Char}
    (peeked : s.cursor.peek = some ch) (step : s.token ch = some s') : Unread value tail s' := by
  have below := improper.below
  unfold Scan.token at step
  obtain ⟨mark, step⟩ | ⟨-, step⟩ := ite_eq_iff.mp step
  · simp only [Option.bind_eq_bind, Option.bind_eq_some_iff, Prod.exists] at step
    obtain ⟨u, dropped, t, next, read, same⟩ := step
    rw [Bool.and_eq_true, decide_eq_true_eq] at mark
    exact Option.some.inj same ▸ h.directive below (mark.1 ▸ peeked) dropped read
  obtain ⟨mark, step⟩ | ⟨-, step⟩ := ite_eq_iff.mp step
  · rw [Bool.and_eq_true] at mark
    exact h.marker below (by nofun) (.inl rfl) mark.2 step
  obtain ⟨mark, step⟩ | ⟨-, step⟩ := ite_eq_iff.mp step
  · rw [Bool.and_eq_true] at mark
    exact h.marker below (by nofun) (.inr rfl) mark.2 step
  obtain ⟨mark, step⟩ | ⟨-, step⟩ := ite_eq_iff.mp step
  · exact h.flowStart below (by nofun) (.inl mark) peeked step
  obtain ⟨mark, step⟩ | ⟨-, step⟩ := ite_eq_iff.mp step
  · exact h.flowStart below (by nofun) (.inr mark) peeked step
  obtain ⟨-, step⟩ | ⟨-, step⟩ := ite_eq_iff.mp step
  · exact h.keeps (flowEnd_keeps (by nofun) step)
  obtain ⟨-, step⟩ | ⟨-, step⟩ := ite_eq_iff.mp step
  · exact h.keeps (flowEnd_keeps (by nofun) step)
  obtain ⟨-, step⟩ | ⟨-, step⟩ := ite_eq_iff.mp step
  · simp only [Option.bind_eq_bind, Option.bind_eq_some_iff] at step
    obtain ⟨u, dropped, same⟩ := step
    obtain ⟨keys, rfl⟩ := dropKey_eq dropped
    exact Option.some.inj same ▸ h.keeps ((allowKey_keeps s true).trans
      ((keys_keeps _ keys).trans (take_keeps _ 1 (by nofun))))
  obtain ⟨-, step⟩ | ⟨-, step⟩ := ite_eq_iff.mp step
  · exact h.keeps (blockEntry_keeps step)
  obtain ⟨-, step⟩ | ⟨-, step⟩ := ite_eq_iff.mp step
  · exact h.keeps (key_keeps step)
  obtain ⟨-, step⟩ | ⟨-, step⟩ := ite_eq_iff.mp step
  · exact h.keeps (value_keeps step)
  obtain ⟨-, step⟩ | ⟨-, step⟩ := ite_eq_iff.mp step
  · exact h.keeps (anchorName_keeps (by nofun) step)
  obtain ⟨-, step⟩ | ⟨-, step⟩ := ite_eq_iff.mp step
  · exact h.keeps (anchorName_keeps (by nofun) step)
  obtain ⟨-, step⟩ | ⟨-, step⟩ := ite_eq_iff.mp step
  · refine h.keeps (keyable_keeps ?_ step)
    intro t d read
    obtain ⟨leads, no_text⟩ := tag?_leads read
    exact ⟨leads, no_text.fresh⟩
  obtain ⟨mark, step⟩ | ⟨-, step⟩ := ite_eq_iff.mp step
  · rw [Bool.and_eq_true, decide_eq_true_eq] at mark
    exact h.blockScalar improper (.inl mark.1) peeked step
  obtain ⟨mark, step⟩ | ⟨-, step⟩ := ite_eq_iff.mp step
  · rw [Bool.and_eq_true, decide_eq_true_eq] at mark
    exact h.blockScalar improper (.inr mark.1) peeked step
  obtain ⟨mark, step⟩ | ⟨-, step⟩ := ite_eq_iff.mp step
  · exact h.quotedScalar improper (.inl rfl) (mark ▸ peeked) step
  obtain ⟨mark, step⟩ | ⟨-, step⟩ := ite_eq_iff.mp step
  · exact h.quotedScalar improper (.inr rfl) (mark ▸ peeked) step
  obtain ⟨begins, step⟩ | ⟨-, step⟩ := ite_eq_iff.mp step
  · exact h.plainScalar improper peeked begins step
  · cases step

theorem Unread.run (improper : Improper value tail) (h : Unread value tail s)
    {tokens : Array Token} (read : run n s = some tokens) :
    ∀ text isPlain, Token.scalar text isPlain ∈ tokens → text.toList ≠ value := by
  induction n generalizing s with
  | zero => cases read
  | succ n ih =>
    rw [Scan.run] at read
    simp only [Option.bind_eq_bind, Option.bind_eq_some_iff] at read
    obtain ⟨t, fresh, read⟩ := read
    have kept : Keeps (fun text => text.toList ≠ value) s (t.unwind t.column) :=
      (toNext_keeps _ s).trans
        ((dropStale_keeps fresh).trans (unwind_keeps t (Int.natCast_nonneg _)))
    have before := h.keeps kept
    generalize t.unwind t.column = u at *
    cases peeked : u.cursor.peek with
    | none =>
      simp only [peeked, Option.bind_eq_some_iff] at read
      obtain ⟨v, dropped, same⟩ := read
      obtain ⟨keys, rfl⟩ := dropKey_eq dropped
      have closed : Reads (fun text => text.toList ≠ value) u (u.unwind (-1)) := unwind_reads u (-1)
      intro text isPlain mem
      rw [← Option.some.inj same, Array.mem_push] at mem
      obtain mem | wrong := mem
      · exact closed.all before.scalars text isPlain mem
      · cases wrong
    | some ch =>
      simp only [peeked, Option.bind_eq_some_iff] at read
      obtain ⟨v, step, rest⟩ := read
      exact ih (before.token improper peeked step) rest

end Scan
open Scan in
/-- A value that is no plain line is no scalar of a text in which it is the first value. -/
theorem tokens?_unread {text : String} {comment word value tail : List Char}
    (inline : ∀ ch ∈ comment, isBreak ch = false) (is_word : IsWord word)
    (other : word ≠ value) (below : PlainTail tail) (some_value : value ≠ [])
    (not_plain : ¬IsPlainLine value)
    (shape : text.toList =
      '#' :: comment ++ '\n' :: (word ++ ':' :: ' ' :: (value ++ '\n' :: tail)))
    {tokens : List Token} (read : tokens? text = some tokens) :
    ∀ text isPlain, Token.scalar text isPlain ∈ tokens → text.toList ≠ value := by
  rw [tokens?_eq shape (by decide)] at read
  obtain ⟨allowed, read⟩ | ⟨-, none⟩ := ite_eq_iff.mp read
  · obtain ⟨found, run_text, rfl⟩ := Option.map_eq_some_iff.mp read
    have allowed_value : ∀ ch ∈ value, isAllowed ch = true := by
      intro ch mem
      apply List.all_eq_true.mp allowed
      rw [shape]
      simp [mem]
    have improper : Improper value tail := ⟨below, some_value, allowed_value, not_plain⟩
    obtain ⟨n, fuel⟩ : ∃ n, text.toList.length + 1 = n + 1 + 1 := by
      refine ⟨text.toList.length - 1, ?_⟩
      have whole := congrArg List.length shape
      rw [List.length_append, List.length_cons, List.length_cons] at whole
      omega
    obtain ⟨d, left, start, passed⟩ := run_comment (c := ⟨text.toList, 0, 0, 0⟩) (n + 1) [] (-1) []
      shape inline (is_word.beginsSmall rfl)
    have before_root : (-1 : Int) ≤ 0 := by decide
    have opening : opened (-1) [] = ([.blockMapping], [-1]) := rfl
    rw [fuel, passed, run_word is_word left start before_root,
      run_colon is_word left start before_root, opening] at run_text
    have after_key : (d.skip (word.length + 1)).rest = ' ' :: (value ++ '\n' :: tail) := by
      rw [Cursor.rest_skip, left, ← List.drop_drop]
      simp
    intro text isPlain mem
    refine Unread.run improper (s := afterKey _ _ _) ⟨?_, ?_, ?_⟩ run_text text isPlain
      (Array.mem_toList_iff.mp mem)
    · intro text isPlain mem
      have among : Token.scalar text isPlain = .scalar (String.ofList word) true := by
        simpa [afterKey] using mem
      obtain ⟨rfl, -⟩ := Token.scalar.inj among
      rwa [String.toList_ofList]
    · show (d.skip (word.length + 1)).rest <:+ _
      rw [after_key]
    · exact .inl ⟨rfl, [], [-1], rfl, fun column mem => absurd mem List.not_mem_nil⟩
  · cases none

end FieldPlan.Yaml
