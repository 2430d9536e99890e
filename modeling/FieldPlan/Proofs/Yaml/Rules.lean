import FieldPlan.Load
import FieldPlan.Proofs.Yaml.Colon
import FieldPlan.Proofs.Yaml.Failure
import FieldPlan.Proofs.Yaml.Texts

/-! What YAML says of a text of entries, each a word with a plain scalar on its line. A reader
may keep to this or not; the reader of this library does. -/
namespace FieldPlan

namespace Yaml.Scan
variable {chars content : List Char}

/-- What begins as a plain scalar or as a comment, perhaps after blanks, or blanks alone. -/
structure IsUnmarked (content : List Char) : Prop where
  on_line : OnLine content
  begins : ∃ blanks rest, content = blanks ++ rest ∧ (∀ b ∈ blanks, b = ' ') ∧
    (rest = [] ∨ (∃ comment, rest = '#' :: comment) ∨ BeginsPlain rest)

theorem IsUnmarked.of_plain (plain : IsPlainLine chars) : IsUnmarked chars :=
  ⟨plain.allowed, [], chars, rfl, nofun, .inr (.inr plain.begins)⟩

/-- The first colon with a blank after it, where no comment comes before. -/
def CutByColon (chars : List Char) : Prop :=
  ∃ front back, chars = front ++ ':' :: back ∧ ¬[' ', '#'] <:+: front ∧
    ∀ ch more, back = ch :: more → ch = ' '

theorem isInline_cons {ch : Char} (inline : IsInline chars) (on_line : OnLine (ch :: chars))
    (no_key : ch = ':' → ∃ d more, chars = d :: more ∧ d ≠ ' ')
    (no_comment : ch = ' ' → ∃ d more, chars = d :: more ∧ d ≠ '#') : IsInline (ch :: chars) := by
  constructor
  · exact on_line
  · rw [List.infix_cons_iff, List.cons_prefix_cons]
    rintro (⟨rfl, found⟩ | found)
    · obtain ⟨d, more, rfl, not_space⟩ := no_key rfl
      exact not_space (List.cons_prefix_cons.mp found).1.symm
    · exact inline.no_key found
  · rw [List.infix_cons_iff, List.cons_prefix_cons]
    rintro (⟨rfl, found⟩ | found)
    · obtain ⟨d, more, rfl, not_hash⟩ := no_comment rfl
      exact not_hash (List.cons_prefix_cons.mp found).1.symm
    · exact inline.no_comment found
  · cases chars with
    | nil =>
      rw [List.getLast?_singleton]
      constructor
      · rintro same
        obtain ⟨d, more, nothing, -⟩ := no_comment (Option.some.inj same)
        cases nothing
      · rintro same
        obtain ⟨d, more, nothing, -⟩ := no_key (Option.some.inj same)
        cases nothing
    | cons d more => exact inline.last

theorem IsTrailing.first (trailing : IsTrailing chars) :
    ∀ ch more, chars = ch :: more → ch = ' ' := by
  rintro ch more rfl
  obtain ⟨blanks, note, split, spaces, rest⟩ := trailing
  cases blanks with
  | nil =>
    obtain rfl | ⟨some_blank, -⟩ := rest
    · cases split
    · exact absurd rfl some_blank
  | cons b blanks =>
    obtain ⟨rfl, -⟩ := List.cons.inj split
    exact spaces ch List.mem_cons_self

theorem IsTrailing.cons (trailing : IsTrailing chars) : IsTrailing (' ' :: chars) := by
  obtain ⟨blanks, note, rfl, spaces, rest⟩ := trailing
  exact ⟨' ' :: blanks, note, rfl, List.forall_mem_cons.mpr ⟨rfl, spaces⟩,
    rest.imp_right fun ⟨_, comment⟩ => ⟨List.cons_ne_nil _ _, comment⟩⟩

/-- A line either has such a colon, or it is one plain scalar with blanks and a comment. -/
theorem cut_line (on_line : OnLine chars) : CutByColon chars ∨
    ∃ value after, chars = value ++ after ∧ IsInline value ∧ IsTrailing after := by
  induction chars with
  | nil => exact .inr ⟨[], [], rfl, isInline_nil, [], [], rfl, nofun, .inl rfl⟩
  | cons ch chars ih =>
    have others : OnLine chars := (List.forall_mem_cons.mp on_line).2
    -- The two marks that end a scalar each take two characters, so they are looked for first.
    by_cases colon : ch = ':' ∧ ∀ d more, chars = d :: more → d = ' '
    · obtain ⟨rfl, next⟩ := colon
      exact .inl ⟨[], chars, rfl, by simp, next⟩
    by_cases hash : ch = ' ' ∧ ∃ comment, chars = '#' :: comment
    · obtain ⟨rfl, comment, rfl⟩ := hash
      refine .inr ⟨[], _, rfl, isInline_nil, [' '], '#' :: comment, rfl, by simp,
        .inr ⟨by simp, comment, rfl, fun d mem => ?_⟩⟩
      obtain ⟨allowed, -, inline⟩ := others d (List.mem_cons_of_mem _ mem)
      exact ⟨allowed, inline⟩
    obtain ⟨front, back, rfl, no_comment, next⟩ | ⟨value, after, rfl, inline, trailing⟩ := ih others
    · refine .inl ⟨ch :: front, back, rfl, ?_, next⟩
      rw [List.infix_cons_iff, List.cons_prefix_cons]
      rintro (⟨rfl, more, rfl⟩ | found)
      · exact hash ⟨rfl, _, rfl⟩
      · exact no_comment found
    · by_cases blank : value = [] ∧ ch = ' '
      · obtain ⟨rfl, rfl⟩ := blank
        exact .inr ⟨[], ' ' :: after, rfl, isInline_nil, trailing.cons⟩
      · refine .inr ⟨ch :: value, after, rfl, isInline_cons inline ?_ ?_ ?_, trailing⟩
        · exact fun d mem => on_line d (List.mem_append_left after mem)
        · rintro rfl
          cases value with
          | nil => exact absurd ⟨rfl, trailing.first⟩ colon
          | cons d more =>
            refine ⟨d, more, rfl, ?_⟩
            rintro rfl
            exact colon ⟨rfl, fun e others same => (List.cons.inj same).1.symm⟩
        · rintro rfl
          cases value with
          | nil => exact absurd ⟨rfl, rfl⟩ blank
          | cons d more =>
            refine ⟨d, more, rfl, ?_⟩
            rintro rfl
            exact hash ⟨rfl, _, rfl⟩

theorem beginsPlain_before {value after : List Char} (begins : BeginsPlain (value ++ after))
    (trailing : IsTrailing after) : BeginsPlain value := by
  obtain ⟨ch, rest, shape, how⟩ := begins
  cases value with
  | nil =>
    obtain rfl := trailing.first ch rest shape
    obtain ⟨not_space, -⟩ | ⟨mark, -⟩ := how
    · exact absurd rfl not_space
    · exact absurd mark (by decide)
  | cons first value =>
    obtain ⟨rfl, rfl⟩ := List.cons.inj shape
    refine ⟨first, value, rfl, how.imp_right fun ⟨mark, d, more, split, not_space⟩ => ⟨mark, ?_⟩⟩
    cases value with
    | nil => exact absurd (trailing.first d more split) not_space
    | cons e value =>
      obtain ⟨rfl, -⟩ := List.cons.inj split
      exact ⟨e, value, rfl, not_space⟩

/-- What is on the line of a key is nothing, too much or one plain scalar. -/
theorem IsUnmarked.cases (unmarked : IsUnmarked content) :
    IsTrailing (' ' :: content) ∨ HasColon content ∨ ∃ value, Writes content value := by
  obtain ⟨blanks, rest, rfl, spaces, rfl | ⟨comment, rfl⟩ | begins⟩ := unmarked.begins
  · exact .inl ⟨' ' :: blanks, [], by simp, List.forall_mem_cons.mpr ⟨rfl, spaces⟩, .inl rfl⟩
  · refine .inl ⟨' ' :: blanks, '#' :: comment, rfl, List.forall_mem_cons.mpr ⟨rfl, spaces⟩,
      .inr ⟨List.cons_ne_nil _ _, comment, rfl, fun ch mem => ?_⟩⟩
    obtain ⟨allowed, -, inline⟩ := unmarked.on_line ch (by simp [mem])
    exact ⟨allowed, inline⟩
  · have on_line : OnLine rest := fun ch mem =>
      unmarked.on_line ch (List.mem_append_right blanks mem)
    obtain ⟨front, back, rfl, no_comment, next⟩ | ⟨value, after, rfl, inline, trailing⟩ :=
      cut_line on_line
    · exact .inr (.inl ⟨unmarked.on_line, blanks, front, back, rfl, spaces, begins, no_comment,
        next⟩)
    · exact .inr (.inr ⟨value, ⟨inline, beginsPlain_before begins trailing⟩, blanks, after, rfl,
        spaces, trailing⟩)

end Yaml.Scan

namespace Yaml
variable {comment name content value : String} {entries : List (String × String)}

/-- A key, and below it entries that are texts. -/
structure KeyedTexts (name : String) (entries : List (String × String)) : Prop where
  word : Scan.IsWord name.toList
  key : Tag.ofPlain name = .str
  others : ∀ e ∈ entries, Scan.IsEntry e ∧ Tag.ofPlain e.1 = .str ∧ Tag.ofPlain e.2 = .str
  distinct : (name :: entries.map (·.1)).Nodup

def keyed (name : String) (v : Value) (entries : List (String × String)) : Value :=
  .mapping ((.str name, v) :: entries.map fun e => (.str e.1, .str e.2))

end Yaml

open Yaml in
/-- The rules for plain scalars and comments. A plain scalar is a text unless it has the shape of
something else. Blanks around it and a comment say nothing, and where there is nothing else the
value is null. A colon before a blank would make a key of it, where no key can be. -/
structure Load.ReadsPlain (load : Load) : Prop where
  text {comment name value : String} {entries : List (String × String)} :
    IsComment comment → KeyedTexts name entries → IsPlainLine value.toList →
      Tag.ofPlain value = .str →
      load (entriesText comment ((name, value) :: entries)) = .ok (keyed name (.str value) entries)
  other {comment name value : String} {entries : List (String × String)} {document : Value} :
    IsComment comment → KeyedTexts name entries → IsPlainLine value.toList →
      Tag.ofPlain value ≠ .str →
      load (entriesText comment ((name, value) :: entries)) = .ok document →
      ∃ v, v.str? = none ∧ document = keyed name v entries
  around {comment name content value : String} {entries : List (String × String)} :
    IsComment comment → KeyedTexts name entries → Scan.Writes content.toList value.toList →
      load (entriesText comment ((name, content) :: entries)) =
        load (entriesText comment ((name, value) :: entries))
  nothing {comment name content : String} {entries : List (String × String)} :
    IsComment comment → KeyedTexts name entries → Scan.IsTrailing (' ' :: content.toList) →
      load (entriesText comment ((name, content) :: entries)) = .ok (keyed name .null entries)
  colon {comment name content : String} {entries : List (String × String)} :
    IsComment comment → KeyedTexts name entries → Scan.HasColon content.toList →
      load (entriesText comment ((name, content) :: entries)) = .error .malformed

namespace Yaml
variable {comment name content value : String} {entries : List (String × String)}

namespace Node

theorem entries?_texts
    (texts : ∀ e ∈ entries, Tag.ofPlain e.1 = .str ∧ Tag.ofPlain e.2 = .str) :
    entries? (entries.map fun e => (plain e.1, plain e.2)) =
      some ⟨[], entries.map fun e => (.str e.1, .str e.2)⟩ := by
  induction entries with
  | nil => rw [List.map_nil, entries?, List.map_nil]
  | cons e entries ih =>
    obtain ⟨⟨key, text⟩, others⟩ := List.forall_mem_cons.mp texts
    have shape : plain e.1 = .scalar .str e.1 ∧ plain e.2 = .scalar .str e.2 := by
      rw [plain, plain, key, text]
      exact ⟨rfl, rfl⟩
    have read : ∀ text, Tag.str.value? text = some (.str text) := fun _ => rfl
    simp [entries?, ih others, shape, isMerge, key?, value?, read, isKey]

theorem value?_keyed (texts : KeyedTexts name entries) (node : Node) :
    value? (.mapping .map ((plain name, node) :: entries.map fun e => (plain e.1, plain e.2))) =
      node.value?.map fun v => keyed name v entries := by
  have read : ∀ text, Tag.str.value? text = some (.str text) := fun _ => rfl
  have apart : ∀ v, Value.ofPairs ((.str name, v) :: entries.map fun e => (.str e.1, .str e.2)) =
      keyed name v entries := by
    intro v
    have distinct := texts.distinct
    rw [List.nodup_cons, List.Nodup, List.pairwise_map] at distinct
    rw [Value.ofPairs, Table.ofListBy_of_pairwise, keyed]
    rw [List.pairwise_cons, List.forall_mem_map, List.pairwise_map]
    constructor
    · intro e mem
      have other : name ≠ e.1 := fun same => distinct.1 (same ▸ List.mem_map_of_mem mem)
      simpa [Value.sameKey] using other
    · exact distinct.2.imp fun other => by simpa [Value.sameKey] using other
  have others := entries?_texts fun e mem => (texts.others e mem).2
  rw [value?, if_pos rfl, entries?, others]
  cases node.value? <;>
    simp [plain, texts.key, isMerge, key?, value?, read, isKey, apart, Entries.all]

end Node

variable {written : Option String}

theorem parse?_keyed (is_comment : IsComment comment) (texts : KeyedTexts name entries)
    (reads : Scan.ReadsAs content.toList (Node.heldTokens written)) :
    Node.parse? (entriesText comment ((name, content) :: entries)) =
      some (.mapping .map ((Node.plain name, Node.held written) ::
        entries.map fun e => (Node.plain e.1, Node.plain e.2))) :=
  Node.parse?_entries is_comment texts.word reads fun e mem => (texts.others e mem).1

theorem load_keyed_iff (is_comment : IsComment comment) (texts : KeyedTexts name entries)
    (reads : Scan.ReadsAs content.toList (Node.heldTokens written)) {document : Value} :
    load (entriesText comment ((name, content) :: entries)) = .ok document ↔
      ∃ v, (Node.held written).value? = some v ∧ keyed name v entries = document := by
  simp only [load_eq_ok_iff, parse?_keyed is_comment texts reads, Option.some_inj,
    exists_eq_left', Node.value?_keyed texts, Option.map_eq_some_iff]

theorem readsAs_held (writes : Scan.Writes content.toList value.toList) :
    Scan.ReadsAs content.toList (Node.heldTokens (some value)) := by
  have reads := Scan.readsAs_of_writes writes
  rwa [String.ofList_toList] at reads

theorem readsAs_of_plain (plain : IsPlainLine value.toList) :
    Scan.ReadsAs value.toList (Node.heldTokens (some value)) :=
  readsAs_held (Scan.writes_self plain)

theorem load_readsPlain : Load.ReadsPlain load where
  text is_comment texts plain is_text := by
    refine (load_keyed_iff is_comment texts (readsAs_of_plain plain)).mpr ⟨_, ?_, rfl⟩
    rw [Node.held, Option.elim_some, Node.plain, Node.value?]
    exact Node.value?_eq_str_iff.mpr ⟨is_text, rfl⟩
  other is_comment texts plain no_text read := by
    obtain ⟨v, value, rfl⟩ := (load_keyed_iff is_comment texts (readsAs_of_plain plain)).mp read
    refine ⟨v, ?_, rfl⟩
    cases v with
    | str text =>
      rw [Node.held, Option.elim_some, Node.plain, Node.value?, Node.value?_eq_str_iff] at value
      exact absurd value.1 no_text
    | _ => rfl
  around is_comment texts writes := by
    have content_read := parse?_keyed is_comment texts (readsAs_held writes)
    have value_read := parse?_keyed is_comment texts (readsAs_of_plain writes.1)
    unfold load read
    rw [content_read, value_read]
  nothing is_comment texts nothing := by
    have reads : Scan.ReadsAs _ (Node.heldTokens none) := Scan.readsAs_of_nothing nothing
    refine (load_keyed_iff is_comment texts reads).mpr ⟨.null, ?_, rfl⟩
    rw [Node.held, Option.elim_none, Node.nothing, Node.value?]
    rfl
  colon is_comment texts colon := by
    have unscanned := tokens?_colon is_comment texts.word colon fun e mem => (texts.others e mem).1
    rw [load, read, Node.parse?, unscanned]
    rfl

end Yaml

end FieldPlan
