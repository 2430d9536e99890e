import FieldPlan.Name
import Mathlib

/-! Names that every convention keeps. The words of a plain name are small letters and digits
after a letter, and as a capital starts a word only after one of these, a word of one letter
can only be the last. Such a name can be read off all of its formatted forms. -/
namespace FieldPlan

namespace Text

theorem split_ne_nil (separator : Char) (chars : List Char) : split separator chars ≠ [] := by
  cases chars with
  | nil => simp [split]
  | cons c rest =>
    rw [split]
    split
    · exact List.cons_ne_nil _ _
    · split <;> exact List.cons_ne_nil _ _

theorem split_absent {separator : Char} {chars : List Char} (h : separator ∉ chars) :
    split separator chars = [chars] := by
  induction chars with
  | nil => rfl
  | cons c rest ih =>
    rw [List.mem_cons, not_or] at h
    rw [split, if_neg (Ne.symm h.1), ih h.2]

theorem intercalate_split (separator : Char) (chars : List Char) :
    List.intercalate [separator] (split separator chars) = chars := by
  induction chars with
  | nil => rfl
  | cons c rest ih =>
    obtain ⟨part, others, parts⟩ := List.exists_cons_of_ne_nil (split_ne_nil separator rest)
    rw [parts] at ih
    rw [split, parts]
    split
    · next same => rw [List.intercalate_cons_cons, ih, same]; rfl
    · cases others with
      | nil => rw [List.intercalate_singleton, ← ih, List.intercalate_singleton]
      | cons other others =>
        rw [List.intercalate_cons_cons, ← ih, List.intercalate_cons_cons]; rfl

theorem lowerFrom_ascii {before word : List Char} (ascii : ∀ c ∈ word, c.toNat < 0x80)
    (after : List Char) :
    lowerFrom before (word ++ after) =
      word.map Char.toLower ++ lowerFrom (word.reverse ++ before) after := by
  induction word generalizing before with
  | nil => rfl
  | cons c rest ih =>
    obtain ⟨here, later⟩ := List.forall_mem_cons.1 ascii
    rw [List.cons_append, lowerFrom, lowerIn, if_pos here, ih later]
    simp

end Text

namespace Name

def isSmall (c : Char) : Bool := c.isLower || c.isDigit

def isWord : List Char → Bool
  | [] => false
  | c :: rest => c.isLower && rest.all isSmall

def areWords : List (List Char) → Bool
  | [] => false
  | [word] => isWord word
  | word :: others => isWord word && decide (1 < word.length) && areWords others

def isPlain (name : String) : Bool := areWords (Text.split '_' name.toList)

def isLowered (c : Char) : Bool := decide (c.toNat < 0x80) && !c.isUpper

theorem lowered_facts {c : Char} (lowered : isLowered c = true) :
    c.toNat < 0x80 ∧ c.isUpper = false ∧ c.toLower = c := by
  rw [isLowered, Bool.and_eq_true, decide_eq_true_eq, Bool.not_eq_true'] at lowered
  have noCapital : ¬ c.isUpper = true := by
    rw [lowered.2]
    exact Bool.false_ne_true
  exact ⟨lowered.1, lowered.2, Char.toLower_eq_of_not_isUpper noCapital⟩

theorem small_facts {c : Char} (small : isSmall c = true) :
    isLowered c = true ∧ c ≠ '_' := by
  have all : ∀ n : Fin 128, isSmall (Char.ofNat n) = true →
      (Char.ofNat n).isUpper = false ∧ Char.ofNat n ≠ '_' := by decide
  have ascii : c.toNat < 128 := by
    simp only [isSmall, Char.isLower, Char.isDigit, Bool.or_eq_true, Bool.and_eq_true,
      decide_eq_true_eq, UInt32.le_iff_toNat_le, ge_iff_le] at small
    have code : c.toNat = c.val.toNat := rfl
    have last : 'z'.val.toNat = 122 := rfl
    have nine : '9'.val.toNat = 57 := rfl
    omega
  have facts := all ⟨c.toNat, ascii⟩
  rw [Char.ofNat_toNat] at facts
  obtain ⟨noCapital, apart⟩ := facts small
  exact ⟨by simp [isLowered, ascii, noCapital], apart⟩

theorem capital_facts {c : Char} (lower : c.isLower = true) :
    c.toUpper.toNat < 0x80 ∧ c.toUpper.isUpper = true ∧ c.toUpper.toLower = c := by
  have small : isSmall c = true := by rw [isSmall, lower, Bool.true_or]
  obtain ⟨ascii, -, kept⟩ := lowered_facts (small_facts small).1
  refine ⟨?_, ?_, ?_⟩
  · rw [Char.toUpper_eq_of_isLower lower, Char.toNat_ofNat]
    split <;> omega
  · rw [Char.isUpper_toUpper_eq_isAlpha, Char.isAlpha, lower, Bool.or_true]
  · rw [Char.toLower_toUpper_eq_toLower, kept]

theorem isWord_cases {word : List Char} (h : isWord word = true) :
    ∃ c rest, word = c :: rest ∧ c.isLower = true ∧ ∀ d ∈ rest, isSmall d = true := by
  cases word with
  | nil => cases h
  | cons c rest =>
    rw [isWord, Bool.and_eq_true, List.all_eq_true] at h
    exact ⟨c, rest, rfl, h.1, h.2⟩

theorem isWord_small {word : List Char} (h : isWord word = true) :
    ∀ d ∈ word, isSmall d = true := by
  obtain ⟨c, rest, rfl, lower, small⟩ := isWord_cases h
  intro d member
  rcases List.mem_cons.1 member with rfl | later
  · rw [isSmall, lower, Bool.true_or]
  · exact small d later

theorem areWords_all {words : List (List Char)} (h : areWords words = true) :
    ∀ word ∈ words, isWord word = true := by
  induction words with
  | nil => exact fun _ member => absurd member List.not_mem_nil
  | cons word others ih =>
    cases others with
    | nil => exact fun _ member => List.mem_singleton.1 member ▸ h
    | cons other others =>
      simp only [areWords, Bool.and_eq_true] at h
      exact List.forall_mem_cons.2 ⟨h.1.1, ih h.2⟩

theorem capitalize_word {c : Char} (lower : c.isLower = true) (rest : List Char) :
    capitalize (c :: rest) = c.toUpper :: rest := by
  have small : isSmall c = true := by rw [isSmall, lower, Bool.true_or]
  rw [capitalize, Text.upper, if_pos (lowered_facts (small_facts small).1).1]
  rfl

theorem separate_append {front rest : List Char} {last capital : Char}
    (starts : startsWord last capital = true) :
    separate (front ++ last :: capital :: rest) =
      separate (front ++ [last]) ++ '_' :: separate (capital :: rest) := by
  induction front with
  | nil => simp [separate, starts]
  | cons c front ih =>
    cases front with
    | nil =>
      rw [List.nil_append, List.nil_append] at ih
      simp only [List.cons_append, List.nil_append, separate]
      split <;> simp_all [separate]
    | cons d front =>
      simp only [List.cons_append] at ih ⊢
      rw [separate, separate, ih]
      split <;> simp

theorem separate_lowered {c : Char} {rest : List Char}
    (lowered : ∀ d ∈ rest, isLowered d = true) : separate (c :: rest) = c :: rest := by
  induction rest generalizing c with
  | nil => rfl
  | cons d rest ih =>
    obtain ⟨here, later⟩ := List.forall_mem_cons.1 lowered
    rw [separate, ih later, startsWord, (lowered_facts here).2.1, Bool.and_false]
    rfl

theorem separate_words {front : List Char} {last : Char} {words : List (List Char)}
    (small : isSmall last = true) (plain : areWords words = true) :
    separate (front ++ [last] ++ words.flatMap capitalize) =
      separate (front ++ [last]) ++ '_' :: separate (words.flatMap capitalize) := by
  rw [List.append_assoc, List.singleton_append]
  cases words with
  | nil => cases plain
  | cons word others =>
    obtain ⟨c, rest, rfl, lower, -⟩ := isWord_cases (areWords_all plain _ List.mem_cons_self)
    rw [List.flatMap_cons, capitalize_word lower]
    refine separate_append ?_
    rw [startsWord, (capital_facts lower).2.1, Bool.and_true]
    exact small

theorem lowerFrom_lowered {chars : List Char} (lowered : ∀ d ∈ chars, isLowered d = true)
    (before after : List Char) :
    Text.lowerFrom before (chars ++ after) =
      chars ++ Text.lowerFrom (chars.reverse ++ before) after := by
  have ascii : ∀ d ∈ chars, d.toNat < 0x80 :=
    fun d member => (lowered_facts (lowered d member)).1
  have kept : chars.map Char.toLower = chars := by
    refine (List.map_congr_left ?_).trans (List.map_id chars)
    exact fun d member => (lowered_facts (lowered d member)).2.2
  rw [Text.lowerFrom_ascii ascii, kept]

private theorem lowerFrom_separator (before after : List Char) :
    Text.lowerFrom before ('_' :: after) = '_' :: Text.lowerFrom ('_' :: before) after := rfl

/-- Words are what capitals bring apart again. -/
theorem lower_separate {words : List (List Char)} (plain : areWords words = true)
    (before : List Char) :
    Text.lowerFrom before (separate (words.flatMap capitalize)) =
      List.intercalate ['_'] words := by
  induction words generalizing before with
  | nil => cases plain
  | cons word others ih =>
    obtain ⟨c, rest, rfl, lower, small⟩ := isWord_cases (areWords_all plain _ List.mem_cons_self)
    obtain ⟨ascii, -, uncapped⟩ := capital_facts lower
    have lowered : ∀ d ∈ rest, isLowered d = true :=
      fun d member => (small_facts (small d member)).1
    have spelled (after : List Char) : Text.lowerFrom before (c.toUpper :: rest ++ after) =
        c :: rest ++ Text.lowerFrom (rest.reverse ++ c.toUpper :: before) after := by
      rw [List.cons_append, Text.lowerFrom, Text.lowerIn, if_pos ascii, uncapped,
        lowerFrom_lowered lowered]
      rfl
    rw [List.flatMap_cons, capitalize_word lower]
    cases others with
    | nil =>
      rw [List.flatMap_nil, List.append_nil, separate_lowered lowered, List.intercalate_singleton]
      have alone := spelled []
      rwa [List.append_nil, Text.lowerFrom, List.append_nil] at alone
    | cons other others =>
      simp only [areWords, Bool.and_eq_true, decide_eq_true_eq] at plain
      -- a second character, so that the next capital does not follow a capital
      obtain rfl | ⟨init, last, rfl⟩ := List.eq_nil_or_concat' rest
      · exact absurd plain.1.2 (by simp)
      have parted := @separate_words (c.toUpper :: init) last _ (small last (by simp)) plain.2
      rw [List.cons_append, separate_lowered lowered] at parted
      rw [parted, spelled, lowerFrom_separator, ih plain.2, List.intercalate_cons_cons,
        List.append_assoc]
      rfl

/-! ### Plain names -/

variable {name : String}

theorem areWords_lowered {words : List (List Char)} (plain : areWords words = true) :
    ∀ d ∈ List.intercalate ['_'] words, isLowered d = true := by
  induction words with
  | nil => cases plain
  | cons word others ih =>
    have own : ∀ d ∈ word, isLowered d = true := by
      intro d member
      exact (small_facts (isWord_small (areWords_all plain _ List.mem_cons_self) d member)).1
    cases others with
    | nil => rwa [List.intercalate_singleton]
    | cons other others =>
      simp only [areWords, Bool.and_eq_true] at plain
      intro d member
      rw [List.intercalate_cons_cons, List.mem_append, List.mem_append] at member
      rcases member with (here | separator) | later
      · exact own d here
      · rw [List.mem_singleton.1 separator]
        decide
      · exact ih plain.2 d later

private theorem lower_lowered {chars : List Char} (lowered : ∀ d ∈ chars, isLowered d = true) :
    Text.lower chars = chars := by
  have kept := lowerFrom_lowered lowered [] []
  rwa [List.append_nil, Text.lowerFrom, List.append_nil] at kept

private theorem separate_self {chars : List Char} (lowered : ∀ d ∈ chars, isLowered d = true) :
    separate chars = chars := by
  cases chars with
  | nil => rfl
  | cons c rest => exact separate_lowered (List.forall_mem_cons.1 lowered).2

theorem snakeChars_words {word : List Char} {others : List (List Char)}
    (plain : areWords (word :: others) = true) :
    snakeChars (word ++ others.flatMap capitalize) = List.intercalate ['_'] (word :: others) := by
  have first : isWord word = true := areWords_all plain _ List.mem_cons_self
  have lowered : ∀ d ∈ word, isLowered d = true :=
    fun d member => (small_facts (isWord_small first d member)).1
  cases others with
  | nil =>
    rw [List.flatMap_nil, List.append_nil, List.intercalate_singleton, snakeChars,
      separate_self lowered, lower_lowered lowered]
  | cons other others =>
    obtain rfl | ⟨init, last, rfl⟩ := List.eq_nil_or_concat' word
    · cases first
    have small : isSmall last = true := isWord_small first last (by simp)
    simp only [areWords, Bool.and_eq_true] at plain
    rw [snakeChars, separate_words small plain.2, separate_self lowered, Text.lower,
      lowerFrom_lowered lowered, lowerFrom_separator, lower_separate plain.2,
      List.intercalate_cons_cons, List.append_cons]

theorem fromCamel_plain (plain : isPlain name = true) : fromCamel name = name := by
  have lowered : ∀ d ∈ name.toList, isLowered d = true := by
    have all := areWords_lowered plain
    rwa [Text.intercalate_split] at all
  rw [fromCamel, snakeChars, separate_self lowered, lower_lowered lowered, String.ofList_toList]

theorem isPlain_words (plain : isPlain name = true) :
    ∃ word others, Text.split '_' name.toList = word :: others ∧
      areWords (word :: others) = true ∧
      name = String.ofList (List.intercalate ['_'] (word :: others)) := by
  obtain ⟨word, others, parts⟩ :=
    List.exists_cons_of_ne_nil (Text.split_ne_nil '_' name.toList)
  refine ⟨word, others, parts, ?_, ?_⟩
  · rwa [isPlain, parts] at plain
  · rw [← parts, Text.intercalate_split, String.ofList_toList]

theorem camelChars_plain {word : List Char} {others : List (List Char)}
    (parts : Text.split '_' name.toList = word :: others) :
    camelChars name.toList = word ++ others.flatMap capitalize := by
  rw [camelChars, parts]

theorem pascalChars_plain {word : List Char} {others : List (List Char)}
    (parts : Text.split '_' name.toList = word :: others)
    (plain : areWords (word :: others) = true) :
    capitalize (camelChars name.toList) = (word :: others).flatMap capitalize := by
  obtain ⟨c, rest, rfl, lower, -⟩ := isWord_cases (areWords_all plain _ List.mem_cons_self)
  rw [camelChars_plain parts, List.flatMap_cons, List.cons_append, capitalize_word lower,
    capitalize_word lower, List.cons_append]

theorem capitalized_no_separator {words : List (List Char)}
    (each : ∀ word ∈ words, isWord word = true) : '_' ∉ words.flatMap capitalize := by
  intro member
  obtain ⟨word, held, member⟩ := List.mem_flatMap.1 member
  obtain ⟨c, rest, rfl, lower, small⟩ := isWord_cases (each word held)
  rw [capitalize_word lower, List.mem_cons] at member
  rcases member with capital | later
  · have upper := (capital_facts lower).2.1
    rw [← capital] at upper
    exact absurd upper (by decide)
  · exact (small_facts (small _ later)).2 rfl

theorem toCamel_absent (h : '_' ∉ name.toList) : toCamel name = name := by
  rw [toCamel, camelChars, Text.split_absent h]
  simp

/-- Every form of a plain name leads back to it. -/
theorem fromCamel_format (plain : isPlain name = true) (formatter : Formatter) :
    fromCamel (formatter.format name) = name := by
  obtain ⟨word, others, parts, all, same⟩ := isPlain_words plain
  cases formatter with
  | camelCase =>
    rw [Formatter.format, fromCamel, toCamel, String.toList_ofList, camelChars_plain parts,
      snakeChars_words all, ← same]
  | snakeCase => rw [Formatter.format, fromCamel_plain plain, fromCamel_plain plain]
  | pascalCase =>
    rw [Formatter.format, fromCamel, String.toList_ofList, pascalChars_plain parts all,
      snakeChars, Text.lower, lower_separate all, ← same]

theorem toCamel_format (plain : isPlain name = true) (formatter : Formatter) :
    formatter.format name = name ∨
      toCamel (formatter.format name) = formatter.format name := by
  obtain ⟨word, others, parts, all, -⟩ := isPlain_words plain
  obtain ⟨own, each⟩ := List.forall_mem_cons.1 (areWords_all all)
  cases formatter with
  | snakeCase => exact Or.inl (fromCamel_plain plain)
  | camelCase =>
    refine Or.inr (toCamel_absent ?_)
    rw [Formatter.format, toCamel, String.toList_ofList, camelChars_plain parts,
      List.mem_append, not_or]
    refine ⟨?_, capitalized_no_separator each⟩
    exact fun member => (small_facts (isWord_small own _ member)).2 rfl
  | pascalCase =>
    refine Or.inr (toCamel_absent ?_)
    rw [Formatter.format, String.toList_ofList, pascalChars_plain parts all]
    exact capitalized_no_separator (areWords_all all)

end Name
end FieldPlan
