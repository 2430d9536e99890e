import FieldPlan.Descent.Weight
import FieldPlan.Project.Config
import FieldPlan.Proofs.Document
import Mathlib.Logic.Basic

/-! Which texts are configurations, and which of the others are told why not, whatever reads
their documents. -/
namespace FieldPlan

/-! ### Values with a common order -/

namespace Value
variable {v : Value} {values : List Value}

inductive Order where
  | text
  | bytes
  | number
  | moment (kind : Moment.Kind)

def order? : Value → Option Order
  | .bool _ => some .number
  | .int _ => some .number
  | .float _ => some .number
  | .str _ => some .text
  | .bytes _ => some .bytes
  | .stamp m => some (.moment m.kind)
  | _ => none

def Comparable (v w : Value) : Prop := ∃ order, v.order? = some order ∧ w.order? = some order

theorem isSome_spelling? : (spelling? v).isSome ↔ v.order? = some .text := by
  cases v <;> simp [spelling?, order?]

theorem isSome_bytes? : (bytes? v).isSome ↔ v.order? = some .bytes := by
  cases v <;> simp [bytes?, order?]

theorem isSome_extended? : (extended? v).isSome ↔ v.order? = some .number := by
  cases v with
  | float x =>
    simp only [extended?, order?, iff_true]
    split <;> rfl
  | _ => simp [extended?, order?]

theorem isSome_instant? {kind : Moment.Kind} :
    (instant? kind v).isSome ↔ v.order? = some (.moment kind) := by
  cases v with
  | stamp m =>
    simp only [instant?, order?, Option.some.injEq, Order.moment.injEq]
    split <;> simp_all
  | _ => simp [instant?, order?]

theorem isSome_sortedBy? {κ : Type} {key? : Value → Option κ} {le : κ → κ → Bool} :
    (sortedBy? key? le values).isSome ↔ ∀ v ∈ values, (key? v).isSome := by
  rw [sortedBy?, Option.isSome_map]
  induction values with
  | nil => simp
  | cons v rest ih =>
    rw [List.mapM_cons, List.forall_mem_cons, ← ih]
    cases key? v with
    | none => simp
    | some key =>
      cases rest.mapM fun v => (key? v).map fun key => (key, v) <;> simp

theorem isSome_sorted?_of_two (two : ¬ values.length ≤ 1) :
    (sorted? values).isSome ↔ ∃ order, ∀ v ∈ values, v.order? = some order := by
  rw [sorted?, if_neg two, Option.isSome_or, Bool.or_eq_true, Option.isSome_or, Bool.or_eq_true,
    Option.isSome_or, Bool.or_eq_true, List.findSome?_isSome_iff]
  simp only [isSome_sortedBy?, isSome_spelling?, isSome_bytes?, isSome_extended?, isSome_instant?]
  constructor
  · rintro (texts | all_bytes | numbers | ⟨kind, -, moments⟩)
    · exact ⟨.text, texts⟩
    · exact ⟨.bytes, all_bytes⟩
    · exact ⟨.number, numbers⟩
    · exact ⟨.moment kind, moments⟩
  · rintro ⟨order, all⟩
    cases order with
    | text => exact .inl all
    | bytes => exact .inr (.inl all)
    | number => exact .inr (.inr (.inl all))
    | moment kind => exact .inr (.inr (.inr ⟨kind, by cases kind <;> simp, all⟩))

/-- Values can be listed in their order just if any two of them can be compared. -/
theorem isSome_sorted? : (sorted? values).isSome ↔ values.Pairwise Comparable := by
  match values with
  | [] => simp [sorted?]
  | [v] => simp [sorted?]
  | first :: second :: rest =>
    rw [isSome_sorted?_of_two (by simp)]
    constructor
    · rintro ⟨order, all⟩
      exact List.pairwise_of_forall_mem_list fun v here w there =>
        ⟨order, all v here, all w there⟩
    · intro compared
      obtain ⟨others, -⟩ := List.pairwise_cons.mp compared
      obtain ⟨order, place, -⟩ := others second List.mem_cons_self
      refine ⟨order, List.forall_mem_cons.mpr ⟨place, fun v member => ?_⟩⟩
      obtain ⟨order', place', there⟩ := others v member
      rw [there, ← place', place]

end Value

/-! ### Configurations -/

namespace Config
variable {entries : List (Value × Value)} {c : Config}

theorem textOf_eq_ok_iff (key : String) {text : String} {v : Value} :
    textOf key v = .ok text ↔ v = .str text ∧ text ≠ "" := by
  cases v with
  | str given =>
    by_cases empty : given = ""
    · simp only [textOf, empty, beq_self_eq_true, if_true, reduceCtorEq, false_iff, Value.str.injEq,
        not_and, not_not]
      exact Eq.symm
    · simp only [textOf, beq_iff_eq, empty, if_false, Except.ok.injEq, Value.str.injEq]
      constructor
      · rintro rfl
        exact ⟨rfl, empty⟩
      · exact And.left
  | _ => simp [textOf]

/-- The mapping has the keys of a configuration only, and values of the right kinds for them. -/
structure IsValid (entries : List (Value × Value)) : Prop where
  known : ∀ entry ∈ entries, ∃ name ∈ knownKeys, entry.1 = .str name
  catalog : ∃ text, Value.lookup entries "catalog" = some (.str text) ∧ text ≠ ""
  output : ∀ v, Value.lookup entries "output" = some v → ∃ text, v = .str text ∧ text ≠ ""
  formatter : ∀ v, Value.lookup entries "field-formatter" = some v →
    ∃ f : Formatter, v = .str f.label
  resources : ∀ v, Value.lookup entries "resources" = some v →
    ∃ names : List String, v = .list (names.map .str)

/-- The configuration is what stands under the keys, and the usual under those that are left
out. -/
structure Describes (entries : List (Value × Value)) (c : Config) : Prop where
  catalog : Value.lookup entries "catalog" = some (.str c.catalog)
  output : (Value.lookup entries "output").getD (.str defaultOutput) = .str c.output
  formatter : (Value.lookup entries "field-formatter").getD (.str Formatter.camelCase.label) =
    .str c.formatter.label
  resources : (Value.lookup entries "resources").getD (.list []) = .list (c.resources.map .str)

theorem unknownKeys_eq_nil_iff :
    unknownKeys entries = [] ↔ ∀ entry ∈ entries, ∃ name ∈ knownKeys, entry.1 = .str name := by
  simp only [unknownKeys, List.filter_eq_nil_iff, List.forall_mem_map, Bool.not_eq_true',
    Bool.not_eq_false]
  apply forall₂_congr
  intro entry _
  cases entry.1 <;> simp [isKnown]

theorem checkKeys_eq_ok_iff : checkKeys entries = .ok () ↔ unknownKeys entries = [] := by
  unfold checkKeys
  split
  · next none => simp [none]
  · next some => exact iff_of_false nofun some

theorem requiredText_eq_ok_iff {key text : String} :
    requiredText entries key = .ok text ↔
      Value.lookup entries key = some (.str text) ∧ text ≠ "" := by
  unfold requiredText
  split
  · next v found => rw [textOf_eq_ok_iff, found, Option.some_inj]
  · next absent => simp [absent]

theorem optionalText_eq_ok_iff {key fallback text : String} (usual : fallback ≠ "") :
    optionalText entries key fallback = .ok text ↔
      (Value.lookup entries key).getD (.str fallback) = .str text ∧ text ≠ "" := by
  unfold optionalText
  split
  · next v found => rw [textOf_eq_ok_iff, found, Option.getD_some]
  · next absent =>
    simp only [absent, Option.getD_none, Except.ok.injEq, Value.str.injEq, iff_self_and]
    rintro rfl
    exact usual

theorem ofLabel?_eq_some_iff {label : String} {f : Formatter} :
    Formatter.ofLabel? label = some f ↔ label = f.label := by
  constructor
  · intro found
    have same := List.find?_some found
    exact (beq_iff_eq.mp same).symm
  · rintro rfl
    cases f <;> rfl

theorem formatterOf_eq_ok_iff {f : Formatter} :
    formatterOf entries = .ok f ↔ (Value.lookup entries "field-formatter").getD
      (.str Formatter.camelCase.label) = .str f.label := by
  have named : f.label ≠ "" := by cases f <;> decide
  constructor
  · intro read
    obtain ⟨label, given, read⟩ := Outcome.bind_ok read
    split at read
    · next f' found =>
      obtain rfl := Except.ok.inj read
      obtain rfl := ofLabel?_eq_some_iff.mp found
      exact ((optionalText_eq_ok_iff (by decide)).mp given).1
    · cases read
  · intro given
    have label := (optionalText_eq_ok_iff (by decide)).mpr ⟨given, named⟩
    have found := ofLabel?_eq_some_iff.mpr (rfl : f.label = f.label)
    simp only [formatterOf, label, bind, Except.bind, found]
    rfl

theorem mapM_str?_eq_some_iff {items : List Value} {names : List String} :
    items.mapM Value.str? = some names ↔ items = names.map .str := by
  constructor
  · intro read
    induction items generalizing names with
    | nil =>
      obtain rfl := Option.some.inj read
      rfl
    | cons item rest ih =>
      rw [List.mapM_cons] at read
      obtain ⟨name, spelled, read⟩ := Option.bind_eq_some_iff.mp read
      obtain ⟨others, read_rest, same⟩ := Option.bind_eq_some_iff.mp read
      obtain rfl := Option.some.inj same
      cases item with
      | str text =>
        obtain rfl := Option.some.inj spelled
        rw [List.map_cons, ← ih read_rest]
      | _ => cases spelled
  · rintro rfl
    exact Plan.mapM_back Value.str? Value.str (fun _ => rfl) names

theorem resourcesOf_eq_ok_iff {names : List String} :
    resourcesOf entries = .ok names ↔
      (Value.lookup entries "resources").getD (.list []) = .list (names.map .str) := by
  unfold resourcesOf
  split
  · next absent => simp [absent, eq_comm]
  · next items found =>
    rw [found, Option.getD_some, Value.list.injEq, ← mapM_str?_eq_some_iff]
    cases items.mapM Value.str? <;> simp
  · next v other found =>
    rw [found, Option.getD_some]
    refine iff_of_false nofun ?_
    rintro rfl
    exact other _ rfl

theorem ofDocument_checks : ofDocument (.mapping entries) = .ok c ↔
    checkKeys entries = .ok () ∧ requiredText entries "catalog" = .ok c.catalog ∧
      optionalText entries "output" defaultOutput = .ok c.output ∧
      formatterOf entries = .ok c.formatter ∧ resourcesOf entries = .ok c.resources := by
  constructor
  · intro read
    obtain ⟨⟨⟩, checked, read⟩ := Outcome.bind_ok read
    obtain ⟨catalog, required, read⟩ := Outcome.bind_ok read
    obtain ⟨output, given, read⟩ := Outcome.bind_ok read
    obtain ⟨formatter, named, read⟩ := Outcome.bind_ok read
    obtain ⟨resources, listed, read⟩ := Outcome.bind_ok read
    obtain rfl := Except.ok.inj read
    exact ⟨checked, required, given, named, listed⟩
  · rintro ⟨checked, required, given, named, listed⟩
    rw [ofDocument, checked, required, given, named, listed]
    rfl

theorem Describes.text_ne (h : Describes entries c) (valid : IsValid entries) :
    c.catalog ≠ "" ∧ c.output ≠ "" := by
  constructor
  · obtain ⟨text, found, some_text⟩ := valid.catalog
    rw [h.catalog, Option.some_inj, Value.str.injEq] at found
    rwa [found]
  · have output := h.output
    cases found : Value.lookup entries "output" with
    | none =>
      rw [found, Option.getD_none, Value.str.injEq] at output
      rw [← output]
      decide
    | some v =>
      obtain ⟨text, rfl, some_text⟩ := valid.output v found
      rw [found, Option.getD_some, Value.str.injEq] at output
      rwa [← output]

theorem ofDocument_mapping_iff :
    ofDocument (.mapping entries) = .ok c ↔ IsValid entries ∧ Describes entries c := by
  rw [ofDocument_checks, checkKeys_eq_ok_iff, unknownKeys_eq_nil_iff, requiredText_eq_ok_iff,
    optionalText_eq_ok_iff (by decide), formatterOf_eq_ok_iff, resourcesOf_eq_ok_iff]
  constructor
  · rintro ⟨known, ⟨catalog, some_catalog⟩, ⟨output, some_output⟩, formatter, resources⟩
    refine ⟨⟨known, ⟨_, catalog, some_catalog⟩, ?_, ?_, ?_⟩,
      ⟨catalog, output, formatter, resources⟩⟩
    · intro v found
      rw [found, Option.getD_some] at output
      exact ⟨_, output, some_output⟩
    · intro v found
      rw [found, Option.getD_some] at formatter
      exact ⟨_, formatter⟩
    · intro v found
      rw [found, Option.getD_some] at resources
      exact ⟨_, resources⟩
  · rintro ⟨valid, described⟩
    obtain ⟨some_catalog, some_output⟩ := described.text_ne valid
    exact ⟨valid.known, ⟨described.catalog, some_catalog⟩, ⟨described.output, some_output⟩,
      described.formatter, described.resources⟩

theorem IsValid.described (h : IsValid entries) : ∃ c, Describes entries c := by
  obtain ⟨catalog, found, -⟩ := h.catalog
  have output : ∃ text, (Value.lookup entries "output").getD (.str defaultOutput) =
      .str text := by
    cases given : Value.lookup entries "output" with
    | none => exact ⟨_, rfl⟩
    | some v =>
      obtain ⟨text, rfl, -⟩ := h.output v given
      exact ⟨text, rfl⟩
  have formatter : ∃ f : Formatter, (Value.lookup entries "field-formatter").getD
      (.str Formatter.camelCase.label) = .str f.label := by
    cases given : Value.lookup entries "field-formatter" with
    | none => exact ⟨.camelCase, rfl⟩
    | some v => exact h.formatter v given
  have resources : ∃ names : List String, (Value.lookup entries "resources").getD (.list []) =
      .list (names.map .str) := by
    cases given : Value.lookup entries "resources" with
    | none => exact ⟨[], rfl⟩
    | some v => exact h.resources v given
  obtain ⟨output, written⟩ := output
  obtain ⟨formatter, named⟩ := formatter
  obtain ⟨resources, listed⟩ := resources
  exact ⟨⟨catalog, output, formatter, resources⟩, found, written, named, listed⟩

theorem ofDocument_eq_ok_iff {document : Value} :
    ofDocument document = .ok c ↔
      ∃ entries, document = .mapping entries ∧ IsValid entries ∧ Describes entries c := by
  cases document with
  | mapping entries =>
    rw [ofDocument_mapping_iff]
    simp
  | _ => exact iff_of_false nofun (by simp)

variable {load : Load} {text : String}

theorem ofText_eq_ok_iff : ofText load text = .ok c ↔
    ∃ document, load text = .ok document ∧ ofDocument document = .ok c := by
  unfold ofText
  cases load text <;> simp

theorem ofText_describes_iff : ofText load text = .ok c ↔
    ∃ entries, load text = .ok (.mapping entries) ∧ IsValid entries ∧ Describes entries c := by
  simp only [ofText_eq_ok_iff, ofDocument_eq_ok_iff]
  constructor
  · rintro ⟨_, read, entries, rfl, valid⟩
    exact ⟨entries, read, valid⟩
  · rintro ⟨entries, read, valid⟩
    exact ⟨_, read, entries, rfl, valid⟩

/-! ### Problems of which nothing is told -/

theorem Problem.trouble_eq_breakdown_iff {label : String} {problem : Problem} {b : Breakdown} :
    problem.trouble label = .breakdown b ↔ problem = .breakdown b := by
  cases problem <;> simp [trouble]

def Tells {α : Type} (outcome : Except Problem α) : Prop := ∀ b, outcome ≠ .error (.breakdown b)

theorem tells_ok {α : Type} (a : α) : Tells (.ok a) := nofun

theorem Tells.bind {α β : Type} {first : Except Problem α} {next : α → Except Problem β}
    (h : Tells first) (later : ∀ a, Tells (next a)) : Tells (first >>= next) := by
  cases first with
  | ok a => exact later a
  | error problem =>
    intro b broken
    apply h b
    rw [Except.error.inj broken]

theorem tells_textOf (key : String) (v : Value) : Tells (textOf key v) := by
  cases v with
  | str text =>
    rw [textOf]
    split
    · exact nofun
    · exact tells_ok text
  | _ => exact nofun

theorem tells_requiredText (entries : List (Value × Value)) (key : String) :
    Tells (requiredText entries key) := by
  unfold requiredText
  split
  · exact tells_textOf key _
  · exact nofun

theorem tells_optionalText (entries : List (Value × Value)) (key fallback : String) :
    Tells (optionalText entries key fallback) := by
  unfold optionalText
  split
  · exact tells_textOf key _
  · exact tells_ok fallback

theorem tells_formatterOf (entries : List (Value × Value)) : Tells (formatterOf entries) := by
  apply (tells_optionalText _ _ _).bind
  intro label
  split
  · exact tells_ok _
  · exact nofun

theorem tells_resourcesOf (entries : List (Value × Value)) : Tells (resourcesOf entries) := by
  unfold resourcesOf
  split
  · exact tells_ok []
  · split
    · exact tells_ok _
    · exact nofun
  · exact nofun

theorem checkKeys_eq_breakdown_iff {b : Breakdown} :
    checkKeys entries = .error (.breakdown b) ↔
      b = .unordered ∧ ¬ (unknownKeys entries).Pairwise Value.Comparable := by
  rw [← Value.isSome_sorted?]
  unfold checkKeys
  split
  · next none => simp [none, Value.sorted?]
  · cases Value.sorted? (unknownKeys entries) <;> simp [eq_comm]

theorem ofDocument_eq_breakdown_iff {b : Breakdown} :
    ofDocument (.mapping entries) = .error (.breakdown b) ↔
      b = .unordered ∧ ¬ (unknownKeys entries).Pairwise Value.Comparable := by
  rw [← checkKeys_eq_breakdown_iff, ofDocument]
  cases checkKeys entries with
  | error problem => simp [bind, Except.bind]
  | ok =>
    refine iff_of_false ?_ nofun
    apply (tells_requiredText _ _).bind
    intro
    apply (tells_optionalText _ _ _).bind
    intro
    apply (tells_formatterOf _).bind
    intro
    apply (tells_resourcesOf _).bind
    intro
    exact tells_ok _

theorem ofText_eq_breakdown_iff {b : Breakdown} :
    ofText load text = .error (.breakdown b) ↔
      (∃ words, load text = .error (.stopped words) ∧ b = .reader words) ∨
      b = .unordered ∧ ∃ entries, load text = .ok (.mapping entries) ∧
        ¬ (unknownKeys entries).Pairwise Value.Comparable := by
  unfold ofText
  cases load text with
  | error failure => cases failure <;> simp [Problem.ofFailure, eq_comm]
  | ok document =>
    cases document with
    | mapping entries => simp [ofDocument_eq_breakdown_iff]
    | _ => simp [ofDocument]

/-- A text is a configuration just if its document is a valid one, and the configuration is what
the document says. What is wrong with any other text is told, except where the reader itself stops
or where two of the unknown keys have no common order. -/
theorem ofText_exact (load : Load) (text : String) :
    (∀ c, ofText load text = .ok c ↔ ∃ entries, load text = .ok (.mapping entries) ∧
      IsValid entries ∧ Describes entries c) ∧
    ((∃ c, ofText load text = .ok c) ↔ ∃ entries, load text = .ok (.mapping entries) ∧
      IsValid entries) ∧
    ∀ label b, (∃ problem, ofText load text = .error problem ∧
        problem.trouble label = .breakdown b) ↔
      (∃ words, load text = .error (.stopped words) ∧ b = .reader words) ∨
      b = .unordered ∧ ∃ entries, load text = .ok (.mapping entries) ∧
        ¬ (unknownKeys entries).Pairwise Value.Comparable := by
  refine ⟨fun _ => ofText_describes_iff, ?_, ?_⟩
  · constructor
    · rintro ⟨c, found⟩
      obtain ⟨entries, read, valid, -⟩ := ofText_describes_iff.mp found
      exact ⟨entries, read, valid⟩
    · rintro ⟨entries, read, valid⟩
      obtain ⟨c, described⟩ := valid.described
      exact ⟨c, ofText_describes_iff.mpr ⟨entries, read, valid, described⟩⟩
  · intro label b
    simp only [Problem.trouble_eq_breakdown_iff, exists_eq_right]
    exact ofText_eq_breakdown_iff

example : ofDocument (.mapping [(.int 0, .str "a"), (.null, .str "b")]) =
    .error (.breakdown .unordered) := by rfl

end Config
end FieldPlan
