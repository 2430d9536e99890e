import FieldPlan.Yaml.Cursor
import Mathlib.Data.List.Infix
import Mathlib.Data.List.TakeWhile
import Mathlib.Tactic.Cases

/-! How a place in a text moves. It only goes forward, and after a line break it is at the start
of a line. -/
namespace FieldPlan.Yaml

def isBlank (c : Char) : Bool := isSpace c || isBreak c

theorem isBlank_of_isBreak {c : Char} (h : isBreak c = true) : isBlank c = true := by
  rw [isBlank, h, Bool.or_true]

namespace Cursor
variable {c d e : Cursor}

/-! ### Going forward -/

theorem rest_advance (c : Cursor) : c.advance.rest = c.rest.tail := by
  unfold advance
  split
  · next nothing => rw [nothing, List.tail_nil]
  · next more => rw [more, List.tail_cons]; split <;> rfl

theorem rest_skip (n : Nat) (c : Cursor) : (c.skip n).rest = c.rest.drop n := by
  induction n generalizing c with
  | zero => rfl
  | succ n ih => rw [skip, ih, rest_advance, List.drop_tail]

theorem skip_add (m n : Nat) (c : Cursor) : (c.skip m).skip n = c.skip (m + n) := by
  induction m generalizing c with
  | zero => rw [Nat.zero_add, skip]
  | succ m ih => rw [Nat.succ_add, skip, ih, skip]

def Leads (c d : Cursor) : Prop := ∃ n, d = c.skip n

namespace Leads

theorem refl (c : Cursor) : c.Leads c := ⟨0, rfl⟩

theorem trans (h : c.Leads d) (h' : d.Leads e) : c.Leads e := by
  obtain ⟨m, rfl⟩ := h
  obtain ⟨n, rfl⟩ := h'
  exact ⟨m + n, skip_add m n c⟩

theorem skip (n : Nat) (c : Cursor) : c.Leads (c.skip n) := ⟨n, rfl⟩

theorem advance (c : Cursor) : c.Leads c.advance := ⟨1, rfl⟩

theorem suffix (h : c.Leads d) : d.rest <:+ c.rest := by
  obtain ⟨n, rfl⟩ := h
  rw [rest_skip]
  exact List.drop_suffix n c.rest

theorem length_le (h : c.Leads d) : d.rest.length ≤ c.rest.length := h.suffix.length_le

end Leads

theorem advance_of_rest {first : Char} {rest : List Char} (h : c.rest = first :: rest) :
    c.advance.rest = rest := by
  rw [rest_advance, h, List.tail_cons]

theorem skip_of_rest {front rest : List Char} (h : c.rest = front ++ rest) :
    (c.skip front.length).rest = rest := by
  rw [rest_skip, h, List.drop_left]

/-! ### Runs of characters -/

theorem span_eq (p : Char → Bool) (c : Cursor) :
    c.span p = (c.rest.takeWhile p, c.skip (c.rest.takeWhile p).length) := rfl

theorem span_leads (p : Char → Bool) (c : Cursor) : c.Leads (c.span p).2 := Leads.skip _ c

theorem span_rest (p : Char → Bool) (c : Cursor) : (c.span p).2.rest = c.rest.dropWhile p := by
  rw [span_eq]
  apply skip_of_rest
  exact List.takeWhile_append_dropWhile.symm

theorem span_append (p : Char → Bool) (c : Cursor) :
    (c.span p).1 ++ (c.span p).2.rest = c.rest := by
  rw [span_rest, span_eq]
  exact List.takeWhile_append_dropWhile

theorem span_run {p : Char → Bool} {front rest : List Char} (here : c.rest = front ++ rest)
    (all : ∀ ch ∈ front, p ch = true) (stop : ∀ ch, rest.head? = some ch → p ch = false) :
    c.span p = (front, c.skip front.length) := by
  have taken : c.rest.takeWhile p = front := by
    rw [here, List.takeWhile_append_of_pos all]
    cases rest with
    | nil => rw [List.takeWhile_nil, List.append_nil]
    | cons ch rest =>
      rw [List.takeWhile_cons_of_neg, List.append_nil]
      rw [stop ch rfl]
      exact Bool.false_ne_true
  rw [span_eq, taken]

theorem skipSpaces_of_peek (other : c.peek ≠ some ' ') : c.skipSpaces = c := by
  have none : c.span (· = ' ') = ([], c) := by
    apply span_run (show c.rest = [] ++ c.rest from rfl) (List.forall_mem_nil _)
    intro ch first
    rw [decide_eq_false_iff_not]
    rintro rfl
    exact other first
  rw [skipSpaces, none]

theorem skipComment_of_peek (other : c.peek ≠ some '#') : c.skipComment = c := by
  rw [skipComment, if_neg other]

theorem skipSpaces_leads (c : Cursor) : c.Leads c.skipSpaces := span_leads _ c

theorem skipComment_leads (c : Cursor) : c.Leads c.skipComment := by
  unfold skipComment
  split
  · exact span_leads _ c
  · exact Leads.refl c

/-! ### Line breaks -/

theorem lineBreak?_none (h : c.lineBreak? = none) : ∀ b rest, c.rest = b :: rest →
    isBreak b = false := by
  intro b rest here
  unfold lineBreak? at h
  split at h
  · cases h
  · next ch others shape =>
    obtain ⟨rfl, rfl⟩ := List.cons.inj (here.symm.trans shape)
    split at h
    · cases h
    · split at h
      · cases h
      · next plain => simpa using plain
  · next nothing =>
    rw [nothing] at here
    cases here

theorem lineBreak?_of_rest {b : Char} {rest : List Char} (h : c.rest = b :: rest)
    (plain : isBreak b = false) : c.lineBreak? = none := by
  cases read : c.lineBreak? with
  | none => rfl
  | some found =>
    unfold lineBreak? at read
    split at read
    · next shape =>
      obtain ⟨rfl, -⟩ := List.cons.inj (h.symm.trans shape)
      cases plain
    · next shape =>
      obtain ⟨rfl, -⟩ := List.cons.inj (h.symm.trans shape)
      split at read
      · next wide =>
        rw [Bool.or_eq_true, decide_eq_true_iff, decide_eq_true_iff] at wide
        rcases wide with rfl | rfl <;> cases plain
      · rw [plain] at read
        cases read
    · cases read

theorem lineBreak?_of_nil (h : c.rest = []) : c.lineBreak? = none := by
  unfold lineBreak?
  rw [h]

theorem lineBreak?_of_newline {rest : List Char} (h : c.rest = '\n' :: rest) :
    c.lineBreak? = some ('\n', c.advance) := by
  unfold lineBreak?
  rw [h]
  rfl

theorem lineBreak?_some {b : Char} {next : Cursor} (h : c.lineBreak? = some (b, next)) :
    isBreak b = true ∧ ∃ used, used ≠ [] ∧ (∀ ch ∈ used, isBreak ch = true) ∧
      c.rest = used ++ next.rest ∧ next = c.skip used.length := by
  unfold lineBreak? at h
  split at h
  · next more shape =>
    obtain ⟨rfl, rfl⟩ := Prod.mk.inj (Option.some.inj h)
    refine ⟨rfl, ['\r', '\n'], nofun, by simp [isBreak], ?_, rfl⟩
    rw [rest_skip, shape, List.drop_succ_cons, List.drop_succ_cons, List.drop_zero]
    rfl
  · next ch more _ shape =>
    have left : c.advance.rest = more := advance_of_rest shape
    split at h
    · next wide =>
      obtain ⟨rfl, rfl⟩ := Prod.mk.inj (Option.some.inj h)
      rw [Bool.or_eq_true, decide_eq_true_iff, decide_eq_true_iff] at wide
      have isB : isBreak ch = true := by rcases wide with rfl | rfl <;> rfl
      refine ⟨isB, [ch], nofun, ?_, ?_, rfl⟩
      · intro other mem
        rwa [List.mem_singleton.mp mem]
      · rw [left, shape]
        rfl
    · split at h
      · next isB =>
        obtain ⟨rfl, rfl⟩ := Prod.mk.inj (Option.some.inj h)
        refine ⟨rfl, [ch], nofun, ?_, ?_, rfl⟩
        · intro other mem
          rwa [List.mem_singleton.mp mem]
        · rw [left, shape]
          rfl
      · cases h
  · cases h

theorem lineBreak?_leads {b : Char} {next : Cursor} (h : c.lineBreak? = some (b, next)) :
    c.Leads next := by
  obtain ⟨-, used, -, -, -, rfl⟩ := lineBreak?_some h
  exact Leads.skip _ c

theorem length_lineBreak? {b : Char} {next : Cursor} (h : c.lineBreak? = some (b, next)) :
    next.rest.length < c.rest.length := by
  obtain ⟨-, used, some_used, -, split, -⟩ := lineBreak?_some h
  have positive := List.length_pos_iff.mpr some_used
  rw [split, List.length_append]
  omega

theorem restOfLine?_leads (h : c.restOfLine? = some d) : c.Leads d := by
  have before : c.Leads c.skipSpaces.skipComment :=
    (skipSpaces_leads c).trans (skipComment_leads _)
  unfold restOfLine? at h
  dsimp only at h
  split at h
  · obtain rfl := Option.some.inj h
    split
    · next broken => exact before.trans (lineBreak?_leads broken)
    · exact before
  · cases h

/-! ### Places on a line -/

theorem advance_inline {ch : Char} {rest : List Char} (h : c.rest = ch :: rest)
    (inline : isBreak ch = false) :
    c.advance = ⟨rest, c.index + 1, c.line,
      if ch = '\uFEFF' then c.column else c.column + 1⟩ := by
  unfold advance
  rw [h]
  simp only [inline, Bool.false_and, Bool.false_eq_true, if_false]

theorem advance_newline {rest : List Char} (h : c.rest = '\n' :: rest) :
    c.advance = ⟨rest, c.index + 1, c.line + 1, 0⟩ := by
  unfold advance
  rw [h]
  rfl

theorem column_advance_of_break {ch : Char} {rest : List Char} (h : c.rest = ch :: rest)
    (breaks : isBreak ch = true) (single : ¬(ch = '\r' ∧ rest.head? = some '\n')) :
    c.advance.column = 0 := by
  have ends : (isBreak ch && !(ch = '\r' && rest.head? = some '\n')) = true := by
    rw [breaks, Bool.true_and, Bool.not_eq_true']
    simpa using single
  unfold advance
  rw [h]
  simp only [ends, if_true]

theorem column_lineBreak? {b : Char} {next : Cursor} (h : c.lineBreak? = some (b, next)) :
    next.column = 0 := by
  unfold lineBreak? at h
  split at h
  · next more shape =>
    obtain ⟨rfl, rfl⟩ := Prod.mk.inj (Option.some.inj h)
    have left : c.advance.rest = '\n' :: more := advance_of_rest shape
    show c.advance.advance.column = 0
    rw [advance_newline left]
  · next ch more other shape =>
    have single : ¬(ch = '\r' ∧ more.head? = some '\n') := by
      rintro ⟨rfl, next_newline⟩
      obtain ⟨rest, rfl⟩ := List.head?_eq_some_iff.mp next_newline
      exact other rest rfl rfl
    split at h
    · next wide =>
      obtain ⟨rfl, rfl⟩ := Prod.mk.inj (Option.some.inj h)
      rw [Bool.or_eq_true, decide_eq_true_iff, decide_eq_true_iff] at wide
      exact column_advance_of_break shape (by rcases wide with rfl | rfl <;> rfl) single
    · split at h
      · next breaks =>
        obtain ⟨rfl, rfl⟩ := Prod.mk.inj (Option.some.inj h)
        exact column_advance_of_break shape breaks single
      · cases h
  · cases h

theorem column_le_advance {ch : Char} {rest : List Char} (h : c.rest = ch :: rest)
    (inline : isBreak ch = false) : c.column ≤ c.advance.column := by
  rw [advance_inline h inline]
  split
  · exact le_refl _
  · exact Nat.le_succ _

theorem skip_inline {front rest : List Char} (h : c.rest = front ++ rest)
    (inline : ∀ ch ∈ front, isBreak ch = false) :
    (c.skip front.length).index = c.index + front.length ∧
      (c.skip front.length).line = c.line ∧ c.column ≤ (c.skip front.length).column := by
  induction front generalizing c with
  | nil => exact ⟨rfl, rfl, le_refl _⟩
  | cons ch front ih =>
    have plain := inline ch List.mem_cons_self
    have step := advance_inline h plain
    have left : c.advance.rest = front ++ rest := advance_of_rest h
    obtain ⟨index, line, column⟩ := ih left fun d mem => inline d (List.mem_cons_of_mem _ mem)
    have start := column_le_advance h plain
    rw [List.length_cons, skip]
    refine ⟨?_, ?_, start.trans column⟩
    · rw [index, step, Nat.add_assoc, Nat.add_comm 1]
    · rw [line, step]

end Cursor
end FieldPlan.Yaml
