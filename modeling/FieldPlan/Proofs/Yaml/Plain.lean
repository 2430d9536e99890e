import FieldPlan.Proofs.Yaml.Cursor
import FieldPlan.Yaml.Token

/-! Plain scalars that stand on one line. -/
namespace FieldPlan.Yaml

/-- A part of one line without tabs. -/
def OnLine (chars : List Char) : Prop :=
  ∀ c ∈ chars, isAllowed c = true ∧ c ≠ '\t' ∧ isBreak c = false

/-- What a plain scalar begins with outside of flow collections. Most marks begin something else,
and a few of them do so only before a blank. -/
def BeginsPlain (chars : List Char) : Prop :=
  ∃ c rest, chars = c :: rest ∧
    (c ≠ ' ' ∧ c ∉ Scan.indicators ∨
      c ∈ ['-', '?', ':'] ∧ ∃ d more, rest = d :: more ∧ d ≠ ' ')

/-- What a plain scalar can have on one line outside of flow collections. A blank after a colon
makes a key of what is before it, and a number sign after a blank begins a comment. -/
structure IsInline (chars : List Char) : Prop where
  allowed : OnLine chars
  no_key : ¬[':', ' '] <:+: chars
  no_comment : ¬[' ', '#'] <:+: chars
  last : chars.getLast? ≠ some ' ' ∧ chars.getLast? ≠ some ':'

/-- A text that is one plain scalar where it stands alone at the end of a line. -/
structure IsPlainLine (chars : List Char) : Prop extends IsInline chars where
  begins : BeginsPlain chars

instance OnLine.decidable : DecidablePred OnLine := fun chars => List.decidableBAll _ chars

theorem beginsPlain_cons {c : Char} {rest : List Char} :
    (c ≠ ' ' ∧ c ∉ Scan.indicators ∨ c ∈ ['-', '?', ':'] ∧ rest ≠ [] ∧ rest.head? ≠ some ' ') ↔
      BeginsPlain (c :: rest) := by
  have goes_on : (∃ d more, rest = d :: more ∧ d ≠ ' ') ↔ rest ≠ [] ∧ rest.head? ≠ some ' ' := by
    cases rest <;> simp
  constructor
  · intro begins
    exact ⟨c, rest, rfl, begins.imp_right (And.imp_right goes_on.mpr)⟩
  · rintro ⟨first, more, shape, begins⟩
    obtain ⟨rfl, rfl⟩ := List.cons.inj shape
    exact begins.imp_right (And.imp_right goes_on.mp)

instance BeginsPlain.decidable : DecidablePred BeginsPlain
  | [] => isFalse fun ⟨_, _, shape, _⟩ => nomatch shape
  | _ :: _ => decidable_of_iff _ beginsPlain_cons

instance IsInline.decidable : DecidablePred IsInline := fun chars =>
  decidable_of_iff (OnLine chars ∧ ¬[':', ' '] <:+: chars ∧ ¬[' ', '#'] <:+: chars ∧
      chars.getLast? ≠ some ' ' ∧ chars.getLast? ≠ some ':')
    ⟨fun ⟨allowed, no_key, no_comment, last⟩ => ⟨allowed, no_key, no_comment, last⟩,
      fun h => ⟨h.allowed, h.no_key, h.no_comment, h.last⟩⟩

instance IsPlainLine.decidable : DecidablePred IsPlainLine := fun chars =>
  decidable_of_iff (IsInline chars ∧ BeginsPlain chars)
    ⟨fun ⟨inline, begins⟩ => ⟨inline, begins⟩, fun h => ⟨h.toIsInline, h.begins⟩⟩

theorem BeginsPlain.first {c : Char} {rest : List Char} (begins : BeginsPlain (c :: rest)) :
    c ≠ ' ' ∧ c ≠ '#' := by
  obtain ⟨not_space, no_indicator⟩ | ⟨indicator, -⟩ := beginsPlain_cons.mpr begins
  · refine ⟨not_space, ?_⟩
    rintro rfl
    exact no_indicator (by decide)
  · constructor <;>
    · rintro rfl
      revert indicator
      decide

def BeginsSmall (line : List Char) : Prop := ∀ c rest, line = c :: rest → c.isLower = true

theorem isInline_nil : IsInline [] := ⟨nofun, by simp, by simp, by simp⟩

theorem IsInline.of_suffix {front chars : List Char} (h : IsInline (front ++ chars))
    (some_left : chars ≠ []) : IsInline chars := by
  have within : chars <:+: front ++ chars := (List.suffix_append front chars).isInfix
  have last : (front ++ chars).getLast? = chars.getLast? :=
    List.getLast?_append_of_ne_nil front some_left
  constructor
  · exact fun c mem => h.allowed c (List.mem_append_right front mem)
  · exact fun found => h.no_key (found.trans within)
  · exact fun found => h.no_comment (found.trans within)
  · rw [← last]
    exact h.last

/-! ### Small letters -/

theorem not_mark_of_isLower {c : Char} (small : c.isLower = true) (marks : List Char)
    (others : marks.all (fun mark => !mark.isLower) = true) : c ∉ marks := by
  intro mem
  have other := List.all_eq_true.mp others c mem
  rw [small] at other
  cases other

theorem isBlank_of_isLower {c : Char} (small : c.isLower = true) : isBlank c = false := by
  have apart : c ∉ [' ', '\t', '\n', '\r', '\x85', '\u2028', '\u2029'] :=
    not_mark_of_isLower small _ (by decide)
  simpa [isBlank, isSpace, isBreak, and_assoc] using apart

namespace BeginsSmall
variable {line : List Char} {c : Cursor}

theorem peek_ne (small : BeginsSmall line) (here : c.rest = line) {mark : Char}
    (other : mark.isLower = false) : c.peek ≠ some mark := by
  intro found
  rw [Cursor.peek, here] at found
  obtain ⟨rest, shape⟩ := List.head?_eq_some_iff.mp found
  have is_small := small mark rest shape
  rw [other] at is_small
  cases is_small

theorem not_separator (small : BeginsSmall line) (here : c.rest = line) :
    c.isSeparator = false := by
  have not_marker : ∀ mark : Char, mark.isLower = false → c.isMarker mark = false := by
    intro mark other
    by_contra found
    rw [Bool.not_eq_false, Cursor.isMarker, Bool.and_eq_true, beq_iff_eq] at found
    apply small.peek_ne here other
    have taken := congrArg List.head? found.1
    rwa [List.head?_take, if_neg (Nat.succ_ne_zero 2)] at taken
  rw [Cursor.isSeparator, not_marker '-' rfl, not_marker '.' rfl, Bool.false_or]

theorem lineBreak?_none (small : BeginsSmall line) (here : c.rest = line) :
    c.lineBreak? = none := by
  cases shape : line with
  | nil => exact Cursor.lineBreak?_of_nil (here.trans shape)
  | cons ch rest =>
    apply Cursor.lineBreak?_of_rest (here.trans shape)
    have plain := isBlank_of_isLower (small ch rest shape)
    rw [isBlank, Bool.or_eq_false_iff] at plain
    exact plain.2

theorem skipSpaces_eq (small : BeginsSmall line) (here : c.rest = line) : c.skipSpaces = c :=
  Cursor.skipSpaces_of_peek (small.peek_ne here rfl)

end BeginsSmall

namespace Scalar
variable {inFlow ended : Bool} {indent : Int} {n : Nat} {done blanks : Reversed} {c : Cursor}
variable {chars stop word line rest : List Char}

/-! ### Parts without blanks -/

theorem isBlank_of_stopsPlain {ch : Char} {next : Option Char}
    (h : stopsPlain inFlow ch next = false) : isBlank ch = false := by
  rw [stopsPlain, Bool.or_assoc, Bool.or_eq_false_iff] at h
  exact h.1

/-- A part is what stands before the first place where a plain scalar has to stop. -/
theorem plainPart_spec (inFlow : Bool) (chars : List Char) :
    ∃ rest, chars = plainPart inFlow chars ++ rest ∧
      (∀ ch ∈ plainPart inFlow chars, isBlank ch = false) ∧
      ∀ ch more, rest = ch :: more → stopsPlain inFlow ch more.head? = true := by
  induction chars with
  | nil => exact ⟨[], rfl, nofun, nofun⟩
  | cons ch more ih =>
    rw [plainPart]
    by_cases stops : stopsPlain inFlow ch more.head? = true
    · rw [if_pos stops]
      refine ⟨ch :: more, rfl, nofun, ?_⟩
      intro d others same
      obtain ⟨rfl, rfl⟩ := List.cons.inj same
      exact stops
    · rw [if_neg stops]
      obtain ⟨rest, split, plain, stop⟩ := ih
      refine ⟨rest, ?_, ?_, stop⟩
      · rw [List.cons_append, ← split]
      · intro d mem
        rcases List.mem_cons.mp mem with rfl | mem
        · exact isBlank_of_stopsPlain (Bool.not_eq_true _ ▸ stops)
        · exact plain d mem

theorem plainPart_append (goes : ∀ ch ∈ word, isBlank ch = false ∧ ch ≠ ':') :
    plainPart false (word ++ rest) = word ++ plainPart false rest := by
  induction word with
  | nil => rfl
  | cons ch word ih =>
    obtain ⟨not_blank, not_colon⟩ := goes ch List.mem_cons_self
    have goes_on : stopsPlain false ch (word ++ rest).head? = false := by
      rw [isBlank] at not_blank
      simp [stopsPlain, not_blank, not_colon]
    rw [List.cons_append, plainPart, goes_on, if_neg Bool.false_ne_true,
      ih fun d mem => goes d (List.mem_cons_of_mem _ mem), List.cons_append]

theorem before_newline {front back : List Char} (split : front ++ back = chars ++ '\n' :: line)
    (no_newline : '\n' ∉ front) :
    ∃ middle, chars = front ++ middle ∧ back = middle ++ '\n' :: line := by
  obtain h | ⟨beyond, shape, left⟩ := List.append_eq_append_iff.mp split
  · exact h
  · cases beyond with
    | nil =>
      rw [List.append_nil] at shape
      exact ⟨[], by rw [shape, List.append_nil], left.symm⟩
    | cons first beyond =>
      obtain ⟨rfl, -⟩ := List.cons.inj left
      rw [shape] at no_newline
      exact absurd (List.mem_append_right _ List.mem_cons_self) no_newline

theorem newline_not_mem_plainPart (inFlow : Bool) (chars : List Char) :
    '\n' ∉ plainPart inFlow chars := by
  obtain ⟨-, -, plain, -⟩ := plainPart_spec inFlow chars
  intro mem
  have blank := plain '\n' mem
  rw [isBlank_of_isBreak rfl] at blank
  cases blank

theorem plainPart_line (inline : IsInline chars) (stops : plainPart false stop = []) :
    ∃ front back, chars = front ++ back ∧ plainPart false (chars ++ stop) = front ∧
      ∀ ch more, back = ch :: more → ch = ' ' := by
  induction chars with
  | nil => exact ⟨[], [], rfl, stops, nofun⟩
  | cons ch chars ih =>
    obtain ⟨-, not_tab, not_break⟩ := inline.allowed ch List.mem_cons_self
    by_cases space : ch = ' '
    · refine ⟨[], ch :: chars, rfl, ?_, fun d more same => (List.cons.inj same).1 ▸ space⟩
      rw [List.cons_append, plainPart, if_pos (by simp [stopsPlain, isSpace, space])]
    · have goes : stopsPlain false ch (chars ++ stop).head? = false := by
        have not_key : ch = ':' → endsWord (chars ++ stop).head? = false := by
          rintro rfl
          cases chars with
          | nil => exact absurd rfl inline.last.2
          | cons d chars =>
            obtain ⟨-, d_not_tab, d_not_break⟩ :=
              inline.allowed d (List.mem_cons_of_mem _ List.mem_cons_self)
            have not_blank : d ≠ ' ' := by
              rintro rfl
              exact inline.no_key ⟨[], chars, rfl⟩
            simp [endsWord, isSpace, not_blank, d_not_tab, d_not_break]
        simpa [stopsPlain, isSpace, space, not_tab, not_break] using not_key
      have rest : IsInline chars := by
        cases chars with
        | nil => exact isInline_nil
        | cons d chars =>
          have whole : IsInline ([ch] ++ d :: chars) := inline
          exact whole.of_suffix (List.cons_ne_nil d chars)
      obtain ⟨front, back, split, is_part, stop⟩ := ih rest
      refine ⟨ch :: front, back, by rw [split, List.cons_append], ?_, stop⟩
      rw [List.cons_append, plainPart, goes, if_neg Bool.false_ne_true, is_part]

/-! ### Lines -/

theorem after_blanks {front back : List Char} (inline : IsInline (front ++ ' ' :: back)) :
    ∃ spaces ch more, ' ' :: back = ' ' :: spaces ++ ch :: more ∧
      (∀ b ∈ spaces, b = ' ') ∧ ch ≠ ' ' ∧ ch ≠ '#' := by
  induction back generalizing front with
  | nil => exact absurd List.getLast?_concat inline.last.1
  | cons d back ih =>
    by_cases space : d = ' '
    · rw [space, List.append_cons] at inline
      obtain ⟨spaces, ch, more, split, all_spaces, begins⟩ := ih inline
      refine ⟨' ' :: spaces, ch, more, ?_, ?_, begins⟩
      · rw [space, split]
        rfl
      · exact List.forall_mem_cons.mpr ⟨rfl, all_spaces⟩
    · refine ⟨[], d, back, rfl, nofun, space, ?_⟩
      rintro rfl
      exact inline.no_comment ⟨front, back, by rw [List.append_assoc]; rfl⟩

/-- Blanks that do not reach the end of their line. -/
theorem plainBlanks_inline {ch : Char} (here : c.rest = blanks ++ ch :: rest)
    (spaces : ∀ b ∈ blanks, b = ' ') (not_space : ch ≠ ' ') (inline : isBreak ch = false) :
    plainBlanks c = (blanks, false, c.skip blanks.length) := by
  have taken : c.span (· = ' ') = (blanks, c.skip blanks.length) := by
    apply Cursor.span_run here
    · simpa using spaces
    · simpa using not_space
  have left : (c.skip blanks.length).rest = ch :: rest := Cursor.skip_of_rest here
  unfold plainBlanks
  rw [taken]
  simp only [Cursor.lineBreak?_of_rest left inline]

/-- The end of a line, before one that begins with a small letter or the end of the text. -/
theorem plainBlanks_newline (here : c.rest = blanks ++ '\n' :: line)
    (spaces : ∀ b ∈ blanks, b = ' ') (small : BeginsSmall line) :
    plainBlanks c = ([' '], true, (c.skip blanks.length).advance) := by
  have taken : c.span (· = ' ') = (blanks, c.skip blanks.length) := by
    apply Cursor.span_run here
    · simpa using spaces
    · simp
  have ended : (c.skip blanks.length).rest = '\n' :: line := Cursor.skip_of_rest here
  have left : (c.skip blanks.length).advance.rest = line := Cursor.advance_of_rest ended
  unfold plainBlanks
  rw [taken]
  simp only [Cursor.lineBreak?_of_newline ended,
    small.not_separator left, plainBreaks, small.skipSpaces_eq left, small.lineBreak?_none left]
  rfl

theorem plain_step {part more : List Char} {crossed : Bool} {d : Cursor}
    (hash : c.peek ≠ some '#') (is_part : plainPart inFlow c.rest = part) (some_part : part ≠ [])
    (blank : plainBlanks (c.skip part.length) = (more, crossed, d)) :
    plain inFlow indent (n + 1) done blanks ended c =
      if more.isEmpty || d.peek = some '#' || (!inFlow && d.column < indent) then
        (part.reverse ++ (blanks ++ done), crossed, d)
      else plain inFlow indent n (part.reverse ++ (blanks ++ done)) more crossed d := by
  have goes : ¬(c.peek = some '#' || part.isEmpty) = true := by
    simpa using ⟨hash, some_part⟩
  rw [plain]
  simp only [is_part, if_neg goes, blank]

def BeginsPart (chars : List Char) : Prop :=
  ∃ ch more, chars = ch :: more ∧ ch ≠ ' ' ∧ ch ≠ '#'

theorem line_cases (inline : IsInline chars) (begins : BeginsPart chars)
    (stops : plainPart false stop = []) :
    plainPart false (chars ++ stop) = chars ∨
      ∃ front spaces back, chars = front ++ spaces ++ back ∧
        plainPart false (chars ++ stop) = front ∧ front ≠ [] ∧ spaces ≠ [] ∧
        (∀ b ∈ spaces, b = ' ') ∧ BeginsPart back := by
  obtain ⟨front, back, split, is_part, stop⟩ := plainPart_line inline stops
  cases back with
  | nil =>
    left
    rw [is_part, split, List.append_nil]
  | cons space back =>
    right
    obtain rfl := stop space back rfl
    rw [split] at inline
    obtain ⟨spaces, ch, more, between, all_spaces, next⟩ := after_blanks inline
    refine ⟨front, ' ' :: spaces, ch :: more, ?_, is_part, ?_, List.cons_ne_nil _ _,
      List.forall_mem_cons.mpr ⟨rfl, all_spaces⟩, ch, more, rfl, next⟩
    · rw [split, between, List.append_assoc]
    · rintro rfl
      obtain ⟨first, others, shape, not_space, -⟩ := begins
      exact not_space (stop first others (split.symm.trans shape))

/-- A line is read up to where a plain scalar stops, as long as it is indented far enough. -/
theorem plain_inline (inline : IsInline chars) (begins : BeginsPart chars)
    (stops : plainPart false stop = []) (here : c.rest = chars ++ stop)
    (column : indent ≤ c.column) (fuel : chars.length < n) {more : List Char} {crossed : Bool}
    {d : Cursor} (after : plainBlanks (c.skip chars.length) = (more, crossed, d))
    (ends : more = [] ∨ d.peek = some '#' ∨ d.column < indent) :
    plain false indent n done blanks ended c =
      (chars.reverse ++ (blanks ++ done), crossed, d) := by
  induction n generalizing chars done blanks ended c with
  | zero => exact absurd fuel (Nat.not_lt_zero _)
  | succ n ih =>
    have hash : c.peek ≠ some '#' := by
      obtain ⟨first, others, shape, -, not_hash⟩ := begins
      rw [Cursor.peek, here, shape]
      simpa using not_hash
    obtain is_part | ⟨front, spaces, back, split, is_part, some_part, some_space, all_spaces,
      next⟩ := line_cases inline begins stops
    all_goals rw [← here] at is_part
    · have some_part : chars ≠ [] := by
        obtain ⟨first, others, rfl, -⟩ := begins
        exact List.cons_ne_nil _ _
      have ends : (more.isEmpty || d.peek = some '#' || (!false && d.column < indent)) = true := by
        simpa [or_assoc] using ends
      rw [plain_step hash is_part some_part after, if_pos ends]
    · obtain ⟨ch, others, rfl, not_space, not_hash⟩ := next
      have whole : c.rest = front ++ spaces ++ (ch :: (others ++ stop)) := by
        rw [here, split, List.append_assoc, List.cons_append]
      have at_blank : (c.skip front.length).rest = spaces ++ ch :: (others ++ stop) := by
        apply Cursor.skip_of_rest
        rw [whole, List.append_assoc]
      have at_next := Cursor.skip_of_rest whole
      have blank := plainBlanks_inline at_blank all_spaces not_space
        (inline.allowed ch (by rw [split]; simp)).2.2
      rw [Cursor.skip_add, ← List.length_append] at blank
      obtain ⟨-, -, farther⟩ := Cursor.skip_inline whole fun d mem =>
        (inline.allowed d (by rw [split]; exact List.mem_append_left _ mem)).2.2
      rw [split, List.length_append, ← Cursor.skip_add] at after
      generalize c.skip (front ++ spaces).length = e at *
      have goes_on : ¬(spaces.isEmpty || e.peek = some '#' || (!false && e.column < indent)) =
          true := by
        rw [Cursor.peek, at_next]
        simp [some_space, not_hash]
        omega
      rw [split] at inline
      have shorter : (ch :: others).length < n := by
        have some_length := List.length_pos_iff.mpr some_part
        rw [split, List.length_append, List.length_append] at fuel
        omega
      rw [plain_step hash is_part some_part blank, if_neg goes_on,
        ih (inline.of_suffix (List.cons_ne_nil _ _)) ⟨ch, others, rfl, not_space, not_hash⟩
          at_next (by omega) shorter after, split]
      have same : spaces.reverse = spaces := by
        rw [List.eq_replicate_of_mem all_spaces, List.reverse_replicate]
      simp only [List.reverse_append, List.append_assoc, same]

theorem plain_word (goes : ∀ ch ∈ word, isBlank ch = false ∧ ch ≠ ':' ∧ ch ≠ '#')
    (some_word : word ≠ []) (here : c.rest = word ++ ':' :: ' ' :: rest) :
    plain false indent (n + 1) done blanks ended c =
      (word.reverse ++ (blanks ++ done), false, c.skip word.length) := by
  have is_part : plainPart false c.rest = word := by
    have colon : plainPart false (':' :: ' ' :: rest) = [] := rfl
    rw [here, plainPart_append fun ch mem => ⟨(goes ch mem).1, (goes ch mem).2.1⟩, colon,
      List.append_nil]
  have hash : c.peek ≠ some '#' := by
    obtain ⟨first, others, rfl⟩ := List.exists_cons_of_ne_nil some_word
    rw [Cursor.peek, here]
    simpa using (goes first List.mem_cons_self).2.2
  have left : (c.skip word.length).rest = [] ++ ':' :: ' ' :: rest := Cursor.skip_of_rest here
  have blank := plainBlanks_inline left nofun (by decide) (by decide)
  rw [plain_step hash is_part some_word blank]
  rfl

end Scalar
end FieldPlan.Yaml
