import FieldPlan.Proofs.Naming.Plain

/-! Which names come back from the convention of the clients. An underscore is written again
before a capital that follows a small letter or a digit. So it has to stand between such a
character and a small letter, and the character before it must not have become a capital. -/
namespace FieldPlan.Name

/-- After these characters an underscore can be written again: the last one is a small letter
or a digit and does not become a capital. -/
def isOpen (front : List Char) : Bool :=
  front.getLast?.any isSmall && front.dropLast.getLast? != some '_'

/-- Every underscore of the characters, which follow `front`, can be written again where it is
and has a small letter after it. -/
def Restored (front chars : List Char) : Prop :=
  ∀ init rest, chars = init ++ '_' :: rest →
    isOpen (front ++ init) = true ∧ rest.head?.any Char.isLower = true

/-- The characters come back; `before` says that an underscore could be written again here. -/
def comesBack (before : Bool) : List Char → Bool
  | [] => true
  | '_' :: c :: rest => before && c.isLower && comesBack false rest
  | c :: rest => c != '_' && !c.isUpper && comesBack (isSmall c) rest

def capitalChars (chars : List Char) : List Char := (Text.split '_' chars).flatMap capitalize

/-! ### One character at a time -/

variable {before : Bool} {c p : Char} {rest chars : List Char}

theorem camelChars_separator (rest : List Char) :
    camelChars ('_' :: rest) = capitalChars rest := rfl

theorem capitalChars_separator (rest : List Char) :
    capitalChars ('_' :: rest) = capitalChars rest := rfl

theorem camelChars_cons (h : c ≠ '_') : camelChars (c :: rest) = c :: camelChars rest := by
  obtain ⟨part, others, parts⟩ := List.exists_cons_of_ne_nil (Text.split_ne_nil '_' rest)
  rw [camelChars, camelChars, Text.split, if_neg h, parts]
  rfl

theorem capitalChars_cons (h : c ≠ '_') (ascii : c.toNat < 0x80) :
    capitalChars (c :: rest) = c.toUpper :: camelChars rest := by
  obtain ⟨part, others, parts⟩ := List.exists_cons_of_ne_nil (Text.split_ne_nil '_' rest)
  rw [capitalChars, camelChars, Text.split, if_neg h, parts]
  rw [List.flatMap_cons, capitalize, Text.upper, if_pos ascii]
  rfl

theorem separate_cons_cons (p c : Char) (rest : List Char) :
    separate (p :: c :: rest) =
      p :: ((if startsWord p c then ['_'] else []) ++ separate (c :: rest)) := by
  rw [separate]
  split <;> rfl

theorem startsWord_lowered (h : isLowered c = true) : startsWord p c = false := by
  rw [startsWord, (lowered_facts h).2.1, Bool.and_false]

theorem toUpper_of_not_lower (h : c.isLower = false) : c.toUpper = c := by
  apply Char.toUpper_eq_of_not_isLower
  rw [h]
  exact Bool.false_ne_true

/-! ### Lengths -/

theorem length_separate (lowered : ∀ d ∈ chars, isLowered d = true) (p : Char) :
    (separate (p :: camelChars chars)).length ≤ chars.length + 1 ∧
      (separate (p :: capitalChars chars)).length ≤ chars.length + 2 := by
  induction chars generalizing p with
  | nil => exact ⟨Nat.le_refl 1, Nat.le_succ 1⟩
  | cons c rest ih =>
    obtain ⟨here, later⟩ := List.forall_mem_cons.1 lowered
    by_cases separator : c = '_'
    · subst separator
      rw [camelChars_separator, capitalChars_separator]
      have short := (ih later p).2
      simp only [List.length_cons]
      omega
    · have plain := (ih later c).1
      have capital := (ih later c.toUpper).1
      rw [camelChars_cons separator, capitalChars_cons separator (lowered_facts here).1,
        separate_cons_cons, separate_cons_cons, startsWord_lowered here]
      constructor
      · simp only [List.length_cons, Bool.false_eq_true, if_false, List.nil_append]
        omega
      · simp only [List.length_cons, List.length_append]
        have mark : (if startsWord p c.toUpper then ['_'] else []).length ≤ 1 := by
          split <;> simp
        omega

/-! ### What comes back -/

theorem comesBack_cons (h : c ≠ '_') :
    comesBack before (c :: rest) = (!c.isUpper && comesBack (isSmall c) rest) := by
  have apart : (c != '_') = true := bne_iff_ne.2 h
  rw [comesBack, apart, Bool.true_and]
  intro _ _ same
  exact absurd same h

theorem comesBack_separator :
    comesBack before ('_' :: c :: rest) = (before && c.isLower && comesBack false rest) := by
  rw [comesBack]

theorem separate_head (c : Char) (rest : List Char) :
    ∃ more, separate (c :: rest) = c :: more := by
  cases rest with
  | nil => exact ⟨[], rfl⟩
  | cons d rest => exact ⟨_, separate_cons_cons c d rest⟩

theorem separate_plain_iff (lowered : isLowered c = true) {more : List Char} :
    (separate (p :: c :: more)).map Char.toLower = p.toLower :: c :: rest ↔
      (separate (c :: more)).map Char.toLower = c.toLower :: rest := by
  rw [separate_cons_cons, startsWord_lowered lowered, if_neg Bool.false_ne_true,
    List.nil_append, List.map_cons, List.cons_inj_right, (lowered_facts lowered).2.2]

theorem isSmall_toUpper (lower : c.isLower = true) : isSmall c.toUpper = false := by
  cases small : isSmall c.toUpper with
  | false => rfl
  | true =>
    have lowered := (lowered_facts (small_facts small).1).2.1
    rw [(capital_facts lower).2.1] at lowered
    exact lowered

/-- An underscore is written before a capital only, and only after a small character. -/
theorem separate_capital_iff (lowered : isLowered c = true) (h : c ≠ '_') {more : List Char} :
    (separate (p :: c.toUpper :: more)).map Char.toLower = p.toLower :: '_' :: c :: rest ↔
      (isSmall p = true ∧ c.isLower = true) ∧
        (separate (c.toUpper :: more)).map Char.toLower = c :: rest := by
  obtain ⟨-, -, kept⟩ := lowered_facts lowered
  obtain ⟨others, head⟩ := separate_head c.toUpper more
  have uncapped : c.toUpper.toLower = c := by rw [Char.toLower_toUpper_eq_toLower, kept]
  have mark : ('_' : Char).toLower = '_' := by decide
  rw [separate_cons_cons, head]
  cases lower : c.isLower with
  | false =>
    rw [toUpper_of_not_lower lower, startsWord_lowered lowered]
    simp [kept, h]
  | true =>
    have starts : startsWord p c.toUpper = isSmall p := by
      rw [startsWord, (capital_facts lower).2.1, Bool.and_true, isSmall]
    rw [starts]
    cases isSmall p with
    | true => simp [mark, uncapped]
    | false => simp [uncapped, h]

/-- What is written after `p`, for characters that follow it directly and for some that an
underscore parts from it. -/
theorem separate_camelChars_iff (lowered : ∀ d ∈ chars, isLowered d = true) (p : Char) :
    ((separate (p :: camelChars chars)).map Char.toLower = p.toLower :: chars ↔
        comesBack (isSmall p) chars = true) ∧
      ((separate (p :: capitalChars chars)).map Char.toLower = p.toLower :: '_' :: chars ↔
        comesBack (isSmall p) ('_' :: chars) = true) := by
  induction chars generalizing p with
  | nil =>
    have nothing : capitalChars [] = [] := rfl
    constructor
    · exact iff_of_true rfl rfl
    · rw [nothing, separate]
      exact iff_of_false (by simp) Bool.false_ne_true
  | cons c rest ih =>
    obtain ⟨here, later⟩ := List.forall_mem_cons.1 lowered
    obtain ⟨ascii, noCapital, kept⟩ := lowered_facts here
    by_cases separator : c = '_'
    · subst separator
      refine ⟨(ih later p).2, ?_⟩
      rw [capitalChars_separator, comesBack_separator]
      apply iff_of_false
      · -- of two underscores in a row no more than one is written again
        intro same
        have short := (length_separate later p).2
        have long := congrArg List.length same
        rw [List.length_map, List.length_cons, List.length_cons, List.length_cons] at long
        omega
      · have mark : Char.isLower '_' = false := by decide
        rw [mark, Bool.and_false, Bool.false_and]
        exact Bool.false_ne_true
    · constructor
      · rw [camelChars_cons separator, separate_plain_iff here, (ih later c).1,
          comesBack_cons separator, noCapital, Bool.not_false, Bool.true_and]
      · rw [capitalChars_cons separator ascii, separate_capital_iff here separator,
          comesBack_separator, Bool.and_eq_true, Bool.and_eq_true]
        apply and_congr_right
        intro capital
        have step := (ih later c.toUpper).1
        rw [(capital_facts capital.2).2.2, isSmall_toUpper capital.2] at step
        exact step

/-! ### Position by position -/

theorem comesBack_lowered (h : comesBack before chars = true) :
    ∀ d ∈ chars, d.isUpper = false := by
  have mark : Char.isUpper '_' = false := by decide
  induction before, chars using comesBack.induct with
  | case1 => exact fun _ member => absurd member List.not_mem_nil
  | case2 before c rest ih =>
    rw [comesBack_separator, Bool.and_eq_true, Bool.and_eq_true] at h
    have small : isSmall c = true := by rw [isSmall, h.1.2, Bool.true_or]
    have own := (lowered_facts (small_facts small).1).2.1
    exact List.forall_mem_cons.2 ⟨mark, List.forall_mem_cons.2 ⟨own, ih h.2⟩⟩
  | case3 before c rest apart ih =>
    rw [comesBack, Bool.and_eq_true, Bool.and_eq_true, Bool.not_eq_true'] at h
    · exact List.forall_mem_cons.2 ⟨h.1.2, ih h.2⟩
    · exact apart

theorem isOpen_concat (front : List Char) (c : Char) :
    isOpen (front ++ [c]) = (isSmall c && front.getLast? != some '_') := by
  rw [isOpen, List.getLast?_concat, List.dropLast_concat, Option.any_some]

theorem restored_nil (front : List Char) : Restored front [] := by
  intro init rest same
  exact absurd same (by simp)

theorem restored_cons {front : List Char} (h : c ≠ '_') :
    Restored front (c :: rest) ↔ Restored (front ++ [c]) rest := by
  constructor
  · intro all init later same
    rw [List.append_assoc]
    apply all (c :: init) later
    rw [same]
    rfl
  · intro all init later same
    cases init with
    | nil => exact absurd (List.cons.inj same).1 h
    | cons d init =>
      obtain ⟨rfl, same'⟩ := List.cons.inj same
      have there := all init later same'
      rwa [List.append_assoc] at there

theorem restored_separator {front : List Char} :
    Restored front ('_' :: rest) ↔
      (isOpen front = true ∧ rest.head?.any Char.isLower = true) ∧
        Restored (front ++ ['_']) rest := by
  constructor
  · intro all
    have here := all [] rest rfl
    rw [List.append_nil] at here
    refine ⟨here, ?_⟩
    intro init later same
    rw [List.append_assoc]
    apply all ('_' :: init) later
    rw [same]
    rfl
  · intro all init later same
    cases init with
    | nil =>
      rw [List.append_nil, ← (List.cons.inj same).2]
      exact all.1
    | cons d init =>
      obtain ⟨rfl, same'⟩ := List.cons.inj same
      have there := all.2 init later same'
      rwa [List.append_assoc] at there

theorem comesBack_iff {front : List Char} (ends : front.getLast? ≠ some '_') :
    comesBack (isOpen front) chars = true ↔
      (∀ d ∈ chars, d.isUpper = false) ∧ Restored front chars := by
  have mark : Char.isUpper '_' = false := by decide
  generalize state : isOpen front = before
  induction before, chars using comesBack.induct generalizing front with
  | case1 => exact iff_of_true rfl ⟨fun _ member => absurd member List.not_mem_nil, restored_nil _⟩
  | case2 before c rest ih =>
    rw [comesBack_separator, restored_separator, state, Bool.and_eq_true, Bool.and_eq_true,
      List.head?_cons, Option.any_some, List.forall_mem_cons, List.forall_mem_cons]
    cases lower : c.isLower with
    | false => simp
    | true =>
      have small : isSmall c = true := by rw [isSmall, lower, Bool.true_or]
      obtain ⟨lowered, apart⟩ := small_facts small
      have closed : isOpen (front ++ ['_'] ++ [c]) = false := by
        rw [isOpen_concat, List.getLast?_concat]
        simp
      have ends' : (front ++ ['_'] ++ [c]).getLast? ≠ some '_' := by
        rw [List.getLast?_concat]
        simpa using apart
      have later : comesBack false rest = true ↔ (∀ d ∈ rest, d.isUpper = false) ∧
          Restored (front ++ ['_'] ++ [c]) rest := ih ends' closed
      rw [later, restored_cons apart]
      simp [mark, (lowered_facts lowered).2.1, and_left_comm]
  | case3 before c rest apart ih =>
    by_cases separator : c = '_'
    · subst separator
      have nothing : rest = [] := by
        cases rest with
        | nil => rfl
        | cons d rest => exact (apart d rest rfl rfl).elim
      rw [nothing, restored_separator]
      exact iff_of_false (by simp [comesBack]) (by simp)
    · have goesOn : isOpen (front ++ [c]) = isSmall c := by
        rw [isOpen_concat, bne_iff_ne.2 ends, Bool.and_true]
      have ends' : (front ++ [c]).getLast? ≠ some '_' := by
        rw [List.getLast?_concat]
        simpa using separator
      have later : comesBack (isSmall c) rest = true ↔ (∀ d ∈ rest, d.isUpper = false) ∧
          Restored (front ++ [c]) rest := ih ends' goesOn
      rw [comesBack_cons separator, restored_cons separator, Bool.and_eq_true,
        Bool.not_eq_true', later, List.forall_mem_cons, and_assoc]

/-! ### Whole names -/

theorem camelChars_ascii (ascii : ∀ d ∈ chars, d.toNat < 0x80) :
    (∀ d ∈ camelChars chars, d.toNat < 0x80) ∧ ∀ d ∈ capitalChars chars, d.toNat < 0x80 := by
  induction chars with
  | nil => exact ⟨by simp [camelChars, Text.split], by simp [capitalChars, Text.split, capitalize]⟩
  | cons c rest ih =>
    obtain ⟨here, later⟩ := List.forall_mem_cons.1 ascii
    by_cases separator : c = '_'
    · subst separator
      exact ⟨(ih later).2, (ih later).2⟩
    · rw [camelChars_cons separator, capitalChars_cons separator here]
      have capital : c.toUpper.toNat < 0x80 := by
        cases lower : c.isLower with
        | true => exact (capital_facts lower).1
        | false => rwa [toUpper_of_not_lower lower]
      exact ⟨List.forall_mem_cons.2 ⟨here, (ih later).1⟩,
        List.forall_mem_cons.2 ⟨capital, (ih later).1⟩⟩

theorem separate_ascii (ascii : ∀ d ∈ chars, d.toNat < 0x80) :
    ∀ d ∈ separate chars, d.toNat < 0x80 := by
  have mark : ('_' : Char).toNat < 0x80 := by decide
  induction chars using separate.induct with
  | case1 => exact ascii
  | case2 c => exact ascii
  | case3 a b rest starts ih =>
    obtain ⟨here, later⟩ := List.forall_mem_cons.1 ascii
    rw [separate, if_pos starts]
    exact List.forall_mem_cons.2 ⟨here, List.forall_mem_cons.2 ⟨mark, ih later⟩⟩
  | case4 a b rest starts ih =>
    obtain ⟨here, later⟩ := List.forall_mem_cons.1 ascii
    rw [separate, if_neg starts]
    exact List.forall_mem_cons.2 ⟨here, ih later⟩

theorem lower_ascii (ascii : ∀ d ∈ chars, d.toNat < 0x80) :
    Text.lower chars = chars.map Char.toLower := by
  have whole : Text.lowerFrom [] (chars ++ []) =
      chars.map Char.toLower ++ Text.lowerFrom (chars.reverse ++ []) [] :=
    Text.lowerFrom_ascii ascii []
  rwa [List.append_nil, Text.lowerFrom, List.append_nil] at whole

theorem snakeChars_camelChars (ascii : ∀ d ∈ chars, d.toNat < 0x80) :
    snakeChars (camelChars chars) = (separate (camelChars chars)).map Char.toLower := by
  rw [snakeChars, lower_ascii (separate_ascii (camelChars_ascii ascii).1)]

/-- Nothing is written again right after a blank, so that one may stand before a whole name. -/
theorem separate_blank (chars : List Char) : separate (' ' :: chars) = ' ' :: separate chars := by
  cases chars with
  | nil => rfl
  | cons c rest =>
    have stays : startsWord ' ' c = false := by
      have blank : (Char.isLower ' ' || Char.isDigit ' ') = false := by decide
      rw [startsWord, blank, Bool.false_and]
    rw [separate_cons_cons, stays, if_neg Bool.false_ne_true, List.nil_append]

theorem snakeChars_camelChars_iff (ascii : ∀ d ∈ chars, d.toNat < 0x80) :
    snakeChars (camelChars chars) = chars ↔ comesBack false chars = true := by
  rw [snakeChars_camelChars ascii]
  by_cases noCapital : ∀ d ∈ chars, d.isUpper = false
  · have lowered : ∀ d ∈ chars, isLowered d = true := by
      intro d member
      simp [isLowered, ascii d member, noCapital d member]
    have afterBlank := (separate_camelChars_iff lowered ' ').1
    have blank : isSmall ' ' = false := by decide
    rw [separate_blank, List.map_cons, List.cons_inj_right, blank] at afterBlank
    exact afterBlank
  · apply iff_of_false
    · intro same
      apply noCapital
      rw [← same]
      intro d member
      obtain ⟨e, -, rfl⟩ := List.mem_map.1 member
      exact Char.isUpper_toLower_eq_false e
    · intro back
      exact noCapital (comesBack_lowered back)

theorem isOpen_iff {front : List Char} :
    isOpen front = true ↔ ∃ init last, front = init ++ [last] ∧
      (last.isLower || last.isDigit) = true ∧ init.getLast? ≠ some '_' := by
  constructor
  · intro ready
    obtain rfl | ⟨init, last, rfl⟩ := List.eq_nil_or_concat' front
    · exact absurd ready Bool.false_ne_true
    · rw [isOpen_concat, Bool.and_eq_true, bne_iff_ne] at ready
      exact ⟨init, last, rfl, ready⟩
  · intro ready
    obtain ⟨init, last, rfl, small, apart⟩ := ready
    rw [isOpen_concat, Bool.and_eq_true, bne_iff_ne]
    exact ⟨small, apart⟩

theorem head?_isLower_iff {rest : List Char} :
    rest.head?.any Char.isLower = true ↔
      ∃ next more, rest = next :: more ∧ next.isLower = true := by
  cases rest <;> simp

/-- A name of the plain alphabet comes back from the convention of the clients just if it has no
capital and each of its underscores stands before a small letter and after a small letter or
digit that follows no underscore itself. -/
theorem fromCamel_toCamel_iff (name : String) (ascii : ∀ c ∈ name.toList, c.toNat < 0x80) :
    fromCamel (toCamel name) = name ↔
      (∀ c ∈ name.toList, c.isUpper = false) ∧
        ∀ front rest, name.toList = front ++ '_' :: rest →
          (∃ init last, front = init ++ [last] ∧ (last.isLower || last.isDigit) = true ∧
            init.getLast? ≠ some '_') ∧
          ∃ next more, rest = next :: more ∧ next.isLower = true := by
  have chars : fromCamel (toCamel name) = name ↔
      snakeChars (camelChars name.toList) = name.toList := by
    rw [fromCamel, toCamel, String.toList_ofList, ← String.toList_inj, String.toList_ofList]
  have start : List.getLast? ([] : List Char) ≠ some '_' := (Option.some_ne_none _).symm
  have walked : comesBack (isOpen []) name.toList = true ↔
      (∀ d ∈ name.toList, d.isUpper = false) ∧ Restored [] name.toList := comesBack_iff start
  rw [chars, snakeChars_camelChars_iff ascii]
  refine walked.trans (and_congr_right fun _ => ?_)
  apply forall_congr'
  intro front
  apply forall_congr'
  intro rest
  rw [List.nil_append, isOpen_iff, head?_isLower_iff]

/-- Two underscores come back, the second one after a digit. -/
theorem page_size_returns :
    (∀ c ∈ "page_size2_max".toList, c.toNat < 0x80) ∧
      fromCamel (toCamel "page_size2_max") = "page_size2_max" ∧
      ∀ front rest, "page_size2_max".toList = front ++ '_' :: rest →
        (∃ init last, front = init ++ [last] ∧ (last.isLower || last.isDigit) = true ∧
          init.getLast? ≠ some '_') ∧
        ∃ next more, rest = next :: more ∧ next.isLower = true := by
  have ascii : ∀ c ∈ "page_size2_max".toList, c.toNat < 0x80 := by simp
  have returns : fromCamel (toCamel "page_size2_max") = "page_size2_max" := by decide +kernel
  exact ⟨ascii, returns, ((fromCamel_toCamel_iff _ ascii).1 returns).2⟩

/-- A word of one letter between two underscores becomes a capital, after which no other word
starts: small letters on both sides of every underscore are not enough. -/
theorem single_letter_lost :
    ¬ ∀ name : String, (∀ c ∈ name.toList, c.toNat < 0x80) →
      (fromCamel (toCamel name) = name ↔
        (∀ c ∈ name.toList, c.isUpper = false) ∧
          ∀ front rest, name.toList = front ++ '_' :: rest →
            (∃ init last, front = init ++ [last] ∧ (last.isLower || last.isDigit) = true) ∧
            ∃ next more, rest = next :: more ∧ next.isLower = true) := by
  intro all
  have ascii : ∀ c ∈ "a_b_c".toList, c.toNat < 0x80 := by simp
  have joined : fromCamel (toCamel "a_b_c") = "a_bc" := by decide +kernel
  have noCapital : ∀ c ∈ "a_b_c".toList, c.isUpper = false := by simp
  have lost : fromCamel (toCamel "a_b_c") ≠ "a_b_c" := by
    rw [joined]
    decide
  apply lost
  refine (all "a_b_c" ascii).2 ⟨noCapital, ?_⟩
  intro front rest parts
  have chars : "a_b_c".toList = ['a', '_', 'b', '_', 'c'] := by rfl
  rw [chars] at parts
  -- the underscores are the second and the fourth of the five characters
  rcases front with _ | ⟨a, _ | ⟨b, _ | ⟨c, _ | ⟨d, _ | ⟨e, front⟩⟩⟩⟩⟩ <;> simp at parts
  · obtain ⟨rfl, rfl⟩ := parts
    exact ⟨⟨[], 'a', rfl, by decide⟩, 'b', _, rfl, by decide⟩
  · obtain ⟨rfl, rfl, rfl, rfl⟩ := parts
    exact ⟨⟨['a', '_'], 'b', rfl, by decide⟩, 'c', _, rfl, by decide⟩

end FieldPlan.Name
