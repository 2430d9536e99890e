import FieldPlan.Proofs.Yaml.Node

/-! A colon before a blank in the value of a key. What is before it would be a key on the line of
another one, so that the text is not well formed. -/
namespace FieldPlan.Yaml

theorem exists_spaces (chars : List Char) : ∃ spaces rest, chars = spaces ++ rest ∧
    (∀ b ∈ spaces, b = ' ') ∧ ∀ ch more, rest = ch :: more → ch ≠ ' ' := by
  refine ⟨chars.takeWhile (· = ' '), chars.dropWhile (· = ' '), List.takeWhile_append_dropWhile.symm,
    fun b mem => by simpa using List.mem_takeWhile_imp mem, ?_⟩
  intro ch more left
  have first := List.head?_dropWhile_not (· = ' ') chars
  rw [left] at first
  simpa using first

namespace Scalar
variable {chars back : List Char} {c : Cursor} {n : Nat} {indent : Int} {done blanks : Reversed}

theorem plainPart_colon (ends : endsWord back.head? = true)
    (inline : ∀ ch ∈ chars, ch ≠ '\t' ∧ isBreak ch = false) :
    ∃ front behind, chars = front ++ behind ∧ plainPart false (chars ++ ':' :: back) = front ∧
      ((∃ more, behind = ' ' :: more) ∨
        ∃ more, behind ++ ':' :: back = ':' :: more ∧ endsWord more.head? = true) := by
  induction chars with
  | nil =>
    refine ⟨[], [], rfl, ?_, .inr ⟨back, rfl, ends⟩⟩
    rw [List.nil_append, plainPart, if_pos (by simp [stopsPlain, ends])]
  | cons ch chars ih =>
    obtain ⟨⟨not_tab, not_break⟩, others⟩ := List.forall_mem_cons.mp inline
    by_cases stops : stopsPlain false ch (chars ++ ':' :: back).head? = true
    · refine ⟨[], ch :: chars, rfl, by rw [List.cons_append, plainPart, if_pos stops], ?_⟩
      have which : ch = ' ' ∨ ch = ':' ∧ endsWord (chars ++ ':' :: back).head? = true := by
        simpa [stopsPlain, isSpace, not_tab, not_break] using stops
      rcases which with rfl | ⟨rfl, ends⟩
      · exact .inl ⟨chars, rfl⟩
      · exact .inr ⟨chars ++ ':' :: back, rfl, ends⟩
    · obtain ⟨front, behind, split, is_part, next⟩ := ih others
      refine ⟨ch :: front, behind, by rw [split, List.cons_append], ?_, next⟩
      rw [List.cons_append, plainPart, if_neg stops, is_part]

/-- What can be before a colon on the line of a plain scalar, from a part of the scalar on. -/
structure BeforeColon (chars : List Char) : Prop where
  inline : ∀ ch ∈ chars, ch ≠ '\t' ∧ isBreak ch = false
  no_comment : ¬[' ', '#'] <:+: chars
  begins : ∀ ch more, chars = ch :: more → ch ≠ ' ' ∧ ch ≠ '#'

theorem BeforeColon.next (before : BeforeColon chars) (back : List Char) : ∃ ch more,
    chars ++ ':' :: back = ch :: more ∧ ch ≠ ' ' ∧ ch ≠ '#' ∧ isBreak ch = false := by
  cases chars with
  | nil => exact ⟨':', back, rfl, by decide, by decide, by decide⟩
  | cons ch more =>
    obtain ⟨not_space, not_hash⟩ := before.begins ch more rfl
    exact ⟨ch, _, rfl, not_space, not_hash, (before.inline ch List.mem_cons_self).2⟩

theorem BeforeColon.after_spaces {front spaces rest : List Char}
    (before : BeforeColon (front ++ (spaces ++ rest))) (all_spaces : ∀ b ∈ spaces, b = ' ')
    (some_space : spaces ≠ []) (next : ∀ ch more, rest = ch :: more → ch ≠ ' ') :
    BeforeColon rest where
  inline ch mem := before.inline ch (List.mem_append_right _ (List.mem_append_right _ mem))
  no_comment found := before.no_comment (found.trans ⟨front ++ spaces, [], by simp⟩)
  begins := by
    rintro ch more rfl
    refine ⟨next ch more rfl, ?_⟩
    rintro rfl
    obtain ⟨blanks, last, rfl⟩ := (List.eq_nil_or_concat spaces).resolve_left some_space
    obtain rfl := all_spaces last (by simp)
    exact before.no_comment ⟨front ++ blanks, more, by simp⟩

theorem colon_cases (before : BeforeColon chars) (ends : endsWord back.head? = true) :
    (∃ front behind more, chars = front ++ behind ∧
      plainPart false (chars ++ ':' :: back) = front ∧ behind ++ ':' :: back = ':' :: more ∧
      endsWord more.head? = true) ∨
    ∃ front spaces rest, chars = front ++ (spaces ++ rest) ∧
      plainPart false (chars ++ ':' :: back) = front ∧ front ≠ [] ∧ spaces ≠ [] ∧
      (∀ b ∈ spaces, b = ' ') ∧ BeforeColon rest := by
  obtain ⟨front, behind, split, is_part, ⟨more, rfl⟩ | ⟨more, colon, ends⟩⟩ :=
    plainPart_colon ends before.inline
  · right
    obtain ⟨spaces, rest, same, all_spaces, after⟩ := exists_spaces (' ' :: more)
    have some_space : spaces ≠ [] := by
      rintro rfl
      exact after ' ' more same.symm rfl
    have some_part : front ≠ [] := by
      rintro rfl
      exact (before.begins ' ' more split).1 rfl
    rw [same] at split
    exact ⟨front, spaces, rest, split, is_part, some_part, some_space, all_spaces,
      (split ▸ before).after_spaces all_spaces some_space after⟩
  · exact .inl ⟨front, behind, more, split, is_part, colon, ends⟩

theorem plain_colon (before : BeforeColon chars) (ends : endsWord back.head? = true)
    (here : c.rest = chars ++ ':' :: back) (column : indent ≤ c.column) (fuel : chars.length < n) :
    ∃ done' d more, plain false indent n done blanks false c = (done', false, d) ∧
      d.rest = ':' :: more ∧ endsWord more.head? = true := by
  -- Every further part begins later on the line, so that the fuel stays above what is left of it.
  induction n generalizing chars done blanks c with
  | zero => exact absurd fuel (Nat.not_lt_zero _)
  | succ n ih =>
    have hash : c.peek ≠ some '#' := by
      obtain ⟨ch, more, shape, -, not_hash, -⟩ := before.next back
      rw [Cursor.peek, here, shape]
      simpa using not_hash
    obtain ⟨front, behind, more, split, is_part, colon, ends⟩ | ⟨front, spaces, rest, split,
      is_part, some_part, some_space, all_spaces, others⟩ := colon_cases before ends
    · rw [← here] at is_part
      have left : (c.skip front.length).rest = [] ++ ':' :: more := by
        apply Cursor.skip_of_rest
        rw [here, split, List.append_assoc, colon, List.nil_append]
      by_cases some_part : front = []
      · refine ⟨done, c, more, ?_, ?_, ends⟩
        · rw [plain]
          simp only [is_part, some_part, List.isEmpty_nil, Bool.or_true, if_true]
        · rwa [some_part] at left
      · have blank := plainBlanks_inline left (List.forall_mem_nil _) (by decide) (by decide)
        refine ⟨front.reverse ++ (blanks ++ done), c.skip front.length, more, ?_, left, ends⟩
        rw [plain_step hash is_part some_part blank]
        rfl
    · rw [← here] at is_part
      rw [split, List.append_assoc, List.append_assoc] at here
      have left := Cursor.skip_of_rest here
      have at_rest := Cursor.skip_of_rest left
      obtain ⟨ch, more, shape, not_space, not_hash, not_break⟩ := others.next back
      have blank : plainBlanks (c.skip front.length) =
          (spaces, false, (c.skip front.length).skip spaces.length) :=
        plainBlanks_inline (left.trans (by rw [shape])) all_spaces not_space not_break
      have farther : c.column ≤ ((c.skip front.length).skip spaces.length).column := by
        have on_line : ∀ ch ∈ front ++ spaces, isBreak ch = false := by
          intro ch mem
          apply And.right
          apply before.inline ch
          rw [split, ← List.append_assoc]
          exact List.mem_append_left _ mem
        rw [← List.append_assoc] at here
        rw [Cursor.skip_add, ← List.length_append]
        exact (Cursor.skip_inline here on_line).2.2
      have shorter : rest.length < n := by
        have some_length := List.length_pos_iff.mpr some_part
        rw [split, List.length_append, List.length_append] at fuel
        omega
      obtain ⟨done', d, more', read, colon, ends⟩ := ih others at_rest (by omega) shorter
      refine ⟨done', d, more', ?_, colon, ends⟩
      have goes_on : ¬(spaces.isEmpty ||
          ((c.skip front.length).skip spaces.length).peek = some '#' ||
          (!false && ((c.skip front.length).skip spaces.length).column < indent)) = true := by
        simp [some_space, Cursor.peek, at_rest, shape, not_hash]
        omega
      rw [plain_step hash is_part some_part blank, if_neg goes_on, read]

end Scalar

namespace Scan
variable {front back content : List Char} {c d : Cursor} {n : Nat} {s : Scan}

theorem run_lone_colon (block : s.flow = 0) (root : s.indent = 0) (no_keys : s.keys = [])
    (no_key : s.keyAllowed = false) (here : s.cursor.rest = ':' :: back)
    (ends : endsWord back.head? = true) : run n s = none := by
  cases n with
  | zero => rfl
  | succ n =>
    have stays : toNext (s.cursor.rest.length + 1) s = s :=
      toNext_of_text (.inr ⟨':', back, here, by decide, by decide, by decide⟩)
    have fresh : s.dropStale = some s := by
      cases s
      simp only at no_keys
      subst no_keys
      rfl
    have peeked : s.cursor.peek = some ':' := by
      rw [Cursor.peek, here, List.head?_cons]
    have not_in_flow : s.inFlow = false := by
      rw [inFlow, block]
      rfl
    have no_marker : ∀ mark, mark ≠ ':' → s.cursor.isMarker mark = false := by
      intro mark other
      simp [Cursor.isMarker, here, other.symm]
    have at_end : endsWord (s.cursor.peekAt 1) = true := by
      rwa [Cursor.peekAt, here, List.getElem?_cons_succ, ← List.head?_eq_getElem?]
    have step : s.token ':' = none := by
      have is_value : s.token ':' = s.value := by
        unfold token
        simp [at_end, no_marker]
      rw [is_value, value, no_keys]
      simp [openHere, not_in_flow, no_key]
    rw [run_token (by rw [stays, fresh]) (by rw [root]; exact Int.natCast_nonneg _) peeked, step]
    rfl

/-- A colon before a blank or the end of the line, and no comment before the colon. -/
structure HasColon (content : List Char) : Prop where
  on_line : OnLine content
  key : ∃ before front back, content = before ++ (front ++ ':' :: back) ∧
    (∀ b ∈ before, b = ' ') ∧ BeginsPlain (front ++ ':' :: back) ∧ ¬[' ', '#'] <:+: front ∧
    ∀ ch more, back = ch :: more → ch = ' '

theorem run_colon_value {line : List Char} (n : Nat) (tokens : List Token) (outer : List Int)
    (colon : HasColon content) (here : c.rest = ' ' :: (content ++ '\n' :: line)) :
    run (n + 1) (afterKey c tokens outer) = none := by
  obtain ⟨before, front, back, rfl, spaces, begins, no_comment, next⟩ := colon.key
  have on_line : OnLine (front ++ ':' :: back) := fun ch mem =>
    colon.on_line ch (List.mem_append_right _ mem)
  have ends : endsWord (back ++ '\n' :: line).head? = true := by
    cases back with
    | nil => rfl
    | cons ch more =>
      obtain rfl := next ch more rfl
      rfl
  obtain ⟨first, more, shape⟩ : ∃ first more, front ++ ':' :: back = first :: more :=
    List.exists_cons_of_ne_nil (by simp)
  rw [shape] at begins on_line here
  rw [List.append_assoc] at here
  obtain ⟨e, at_value, inside, turn⟩ := run_to_plain n tokens outer here spaces begins on_line
  rw [← shape, List.append_assoc, List.cons_append] at at_value
  have before_colon : Scalar.BeforeColon front := by
    refine ⟨fun ch mem => (on_line ch (shape ▸ List.mem_append_left _ mem)).2, no_comment, ?_⟩
    rintro ch rest rfl
    obtain ⟨rfl, -⟩ := List.cons.inj shape
    exact begins.first
  obtain ⟨done, d, left, scalar, at_colon, colon_ends⟩ : ∃ done d left,
      Scalar.plain false 1 (e.rest.length + 1) [] [] false e = (done, false, d) ∧
        d.rest = ':' :: left ∧ endsWord left.head? = true :=
    Scalar.plain_colon before_colon ends at_value inside
      (by rw [at_value, List.length_append]; omega)
  have after : (afterKey e tokens outer).plainScalar = some { between d
      (tokens ++ [.scalar (textOf done) true]) 0 outer with keyAllowed := false } := by
    simp [plainScalar, saveKey, afterKey, between, scalar, inFlow, push, allowKey]
  rw [turn, after, Option.bind_some]
  exact run_lone_colon rfl rfl rfl rfl at_colon colon_ends

end Scan

theorem tokens?_colon {comment name content : String} {entries : List (String × String)}
    (is_comment : IsComment comment) (is_word : Scan.IsWord name.toList)
    (colon : Scan.HasColon content.toList) (others : ∀ e ∈ entries, Scan.IsEntry e) :
    tokens? (entriesText comment ((name, content) :: entries)) = none := by
  obtain ⟨n, -, d, here, start, scanned⟩ := tokens?_entriesText is_comment is_word
    (fun ch mem => (colon.on_line ch mem).1) others
  have shape : d.rest = name.toList ++ ':' :: ' ' ::
      (content.toList ++ '\n' :: entries.flatMap Scan.entryText) := by
    rw [here, List.flatMap_cons, Scan.entryText]
    simp only [List.append_assoc, List.cons_append, List.nil_append]
  have after_key : (d.skip (name.toList.length + 1)).rest =
      ' ' :: (content.toList ++ '\n' :: entries.flatMap Scan.entryText) := by
    rw [Cursor.rest_skip, shape, ← List.drop_drop]
    simp
  have indented : (-1 : Int) ≤ 0 := by decide
  rw [scanned, Scan.run_word is_word shape start indented,
    Scan.run_colon is_word shape start indented, Scan.run_colon_value _ _ _ colon after_key]
  rfl

end FieldPlan.Yaml
