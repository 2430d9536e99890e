import FieldPlan.Proofs.Agreement

/-! Arrays of arrays. A selection on a value looks through all levels of arrays around it and
through a reference to a struct that is a resource, whichever way the value is come to. The
kind of an attribute looks through one level only: a union, a struct, a tuple or an embedded
record inside more levels makes a plain attribute, although its value asks for a selection. -/
namespace FieldPlan

namespace TypeRef

def arrays : Nat → TypeRef → TypeRef
  | 0, t => t
  | k + 1, t => .array (arrays k t)

@[simp] theorem element_arrays (k : Nat) (t : TypeRef) : (t.arrays k).element = t.element := by
  induction k with
  | zero => rfl
  | succ k ih => simp [arrays, element, ih]

end TypeRef

namespace Catalog
variable (c : Catalog) (k : Nat) (t : TypeRef)

theorem requiresSelection_arrays : c.requiresSelection (t.arrays k) = c.requiresSelection t := by
  simp [requiresSelection]

theorem selectionReason_arrays : c.selectionReason (t.arrays k) = c.selectionReason t := by
  simp [selectionReason]

end Catalog

/-! ### Dispatch -/

namespace Descent
variable {c : Catalog} {e : Exposure} {f : Descend}

/-- A selection on a value, arrays being taken off one by one. For every item the position that
holds it is looked up anew, and records and untyped items are found there. -/
def byLevel (c : Catalog) (e : Exposure) (f : Descend) :
    TypeRef → Value → List String → Outcome Level
  | .array item, selection, path =>
    match Position.ofType (some item) with
    | .value _ => byLevel c e f item selection path
    | position => layer c e f position selection path
  | t, selection, path => typed c e f t selection path

theorem typed_element {t u : TypeRef} (same : t.element = u.element) (selection : Value)
    (path : List String) : typed c e f t selection path = typed c e f u selection path := by
  simp only [typed, same]

theorem layer_ofType (t : TypeRef) (selection : Value) (path : List String) :
    layer c e f (.ofType (some t)) selection path = typed c e f t selection path := by
  unfold Position.ofType
  split
  · contradiction
  · next same =>
    cases same
    rfl
  · next name same =>
    cases same
    rfl
  · next name same =>
    cases same
    rfl
  · next held same =>
    cases same
    rfl

theorem byLevel_eq (t : TypeRef) (selection : Value) (path : List String) :
    byLevel c e f t selection path = typed c e f t selection path := by
  fun_induction byLevel c e f t selection path with
  | case1 item selection path held value ih =>
    rw [ih]
    exact typed_element rfl selection path
  | case2 item selection path other =>
    have outside : layer c e f (.ofType (some item)) selection path =
        typed c e f (.array item) selection path := by
      rw [layer_ofType]
      exact typed_element rfl selection path
    exact outside
  | case3 t selection path plain => rfl

end Descent

theorem descend_ofType (c : Catalog) (e : Exposure) (t : TypeRef) (selection : Value)
    (path : List String) :
    descend c e (.ofType (some t)) selection path =
      Descent.typed c e (descend c e) t selection path := by
  rw [descend_eq, Descent.layer_ofType]

/-- However many arrays are around a value, and whether they are taken off at once or level by
level, the work on a selection is the same, and so is what the value is said to need. An
instance of a resource is worked on like a record of it. -/
theorem descend_through_arrays (c : Catalog) (e : Exposure) (t : TypeRef) (k : Nat)
    (selection : Value) (path : List String) :
    descend c e (.ofType (some (t.arrays k))) selection path =
        descend c e (.ofType (some t)) selection path ∧
      descend c e (.ofType (some t)) selection path =
        Descent.byLevel c e (descend c e) t selection path ∧
      (∀ name, c.hasResource name = true →
        descend c e (.ofType (some (.struct (some name)))) selection path =
          descend c e (.ofType (some (.resource name))) selection path) ∧
      c.requiresSelection (t.arrays k) = c.requiresSelection t ∧
      c.selectionReason (t.arrays k) = c.selectionReason t := by
  have arrays : descend c e (.ofType (some (t.arrays k))) selection path =
      descend c e (.ofType (some t)) selection path := by
    rw [descend_ofType, descend_ofType]
    exact Descent.typed_element (TypeRef.element_arrays k t) selection path
  have level : descend c e (.ofType (some t)) selection path =
      Descent.byLevel c e (descend c e) t selection path := by
    rw [descend_ofType, Descent.byLevel_eq]
  refine ⟨arrays, level, ?_, c.requiresSelection_arrays k t, c.selectionReason_arrays k t⟩
  intro name present
  rw [descend_ofType, descend_ofType]
  simp only [Descent.typed, TypeRef.element, present, if_true]

/-- Stops are hidden from these clients, as instances inside two levels of arrays too. -/
theorem nested_stops_hidden :
    let stops := TypeRef.struct (some "Stop")
    let hidden : Outcome Level := .error (.rejected ⟨.unknownField, ["halts"], some "halts", []⟩)
    Travel.catalog.hasResource "Stop" = true ∧
      descend Travel.catalog (some ["Trip"]) (.ofType (some (stops.arrays 2)))
        (.list [.str "town"]) ["halts"] = hidden ∧
      Travel.catalog.requiresSelection (stops.arrays 2) = true ∧
      Travel.catalog.selectionReason (stops.arrays 2) = "embedded" := by
  intro stops hidden
  have present : Travel.catalog.hasResource "Stop" = true := by decide
  have refused : descend Travel.catalog (some ["Trip"]) (.ofType (some (.resource "Stop")))
      (.list [.str "town"]) ["halts"] = hidden := by
    with_unfolding_all rfl
  obtain ⟨arrays, -, instances, needed, reason⟩ := descend_through_arrays Travel.catalog
    (some ["Trip"]) stops 2 (.list [.str "town"]) ["halts"]
  refine ⟨present, ?_, ?_, ?_⟩
  · rw [arrays, instances "Stop" present, refused]
  · rw [needed]
    decide
  · rw [reason]
    decide

/-! ### Kinds of attributes -/

namespace Catalog
variable {c : Catalog} {t : TypeRef}

/-- A value that is taken apart where it is an attribute: a union, a struct, named slots or an
embedded record. -/
inductive Composite (c : Catalog) : TypeRef → Prop
  | union (members : List (Member TypeRef)) : Composite c (.union members)
  | struct (name : String) : Composite c (.typedStruct name)
  | keyword {slots : List (Slot TypeRef)} (filled : slots ≠ []) : Composite c (.keyword slots)
  | tuple {slots : List (Slot TypeRef)} (filled : slots ≠ []) : Composite c (.tuple slots)
  | record {name : String} (embedded : c.isEmbedded name = true) : Composite c (.resource name)
  | instanceOf {name : String} (named : name ≠ "") (embedded : c.isEmbedded name = true) :
      Composite c (.struct (some name))

theorem composite_keyword {slots : List (Slot TypeRef)} :
    c.Composite (.keyword slots) ↔ slots ≠ [] :=
  ⟨fun | .keyword filled => filled, .keyword⟩

theorem composite_tuple {slots : List (Slot TypeRef)} : c.Composite (.tuple slots) ↔ slots ≠ [] :=
  ⟨fun | .tuple filled => filled, .tuple⟩

theorem composite_record {name : String} :
    c.Composite (.resource name) ↔ c.isEmbedded name = true :=
  ⟨fun | .record embedded => embedded, .record⟩

theorem composite_instance {name : String} :
    c.Composite (.struct (some name)) ↔ name ≠ "" ∧ c.isEmbedded name = true :=
  ⟨fun | .instanceOf named embedded => ⟨named, embedded⟩, fun h => .instanceOf h.1 h.2⟩

theorem Composite.requiresSelection (h : c.Composite t) : c.requiresSelection t = true := by
  cases h with
  | union => rfl
  | struct => rfl
  | keyword filled => simp [Catalog.requiresSelection, TypeRef.element, filled]
  | tuple filled => simp [Catalog.requiresSelection, TypeRef.element, filled]
  | record => rfl
  | instanceOf named embedded => exact hasResource_of_isEmbedded embedded

end Catalog

namespace Classification
variable {c : Catalog} {t : TypeRef}

theorem ofAttributeType_plain (single : ∀ item, t.inner ≠ .array item) :
    ofAttributeType c t = .attribute ↔ ¬ c.Composite t.inner := by
  unfold ofAttributeType Catalog.embeddedName
  cases shape : t.inner with
  | array item => exact absurd shape (single item)
  | union members => simp [Catalog.Composite.union]
  | typedStruct name => simp [Catalog.Composite.struct]
  | keyword slots => cases slots <;> simp [Catalog.composite_keyword]
  | tuple slots => cases slots <;> simp [Catalog.composite_tuple]
  | resource name =>
    cases embedded : c.isEmbedded name with
    | false => simp [Catalog.composite_record, embedded]
    | true =>
      simp only [Catalog.composite_record, embedded, if_true, Option.isSome_some]
      split <;> simp
  | struct instanceOf =>
    cases instanceOf with
    | none =>
      have whole : ¬ c.Composite (.struct none) := nofun
      simp [whole]
    | some name =>
      by_cases taken : name ≠ "" ∧ c.isEmbedded name = true
      · simp only [Catalog.composite_instance, taken, bne_iff_ne, ne_eq, not_false_eq_true,
          Bool.and_eq_true, and_self, if_true, Option.isSome_some]
        split <;> simp
      · have unnamed : (name != "" && c.isEmbedded name) = false := by simpa using taken
        simp [Catalog.composite_instance, taken, unnamed]
  | map slots =>
    have whole : ¬ c.Composite (.map slots) := nofun
    simp [whole]
  | primitive kind oneOf =>
    have whole : ¬ c.Composite (.primitive kind oneOf) := nofun
    simp [whole]
  | any =>
    have whole : ¬ c.Composite .any := nofun
    simp [whole]

theorem ofAttributeType_arrays (k : Nat) :
    ofAttributeType c (t.arrays (k + 2)) = .attribute := by
  simp [ofAttributeType, TypeRef.arrays, TypeRef.inner, TypeRef.unwrapArray, Catalog.embeddedName]

theorem ofAttributeType_stored : ofAttributeType c t ≠ .calculation ∧
    ofAttributeType c t ≠ .aggregate := by
  unfold ofAttributeType
  split
  · split <;> simp
  · split
    · simp
    · simp
    · split <;> simp
    · split <;> simp
    · simp

end Classification

section
variable {c : Catalog} {r : Resource} {a : Attribute} {t : TypeRef} {k : Nat} {name : String}

theorem classify_attribute (present : r.attribute? (r.internalField name) = some a) :
    classify c r name = .ofAttributeType c a.type := by
  simp only [classify, Classification.ofField, present]

theorem takesBare_attribute {resource : String} (found : c.resource? resource = some r)
    (present : r.attribute? (r.internalField name) = some a) :
    (Site.record resource).takesBare c name = true ↔ classify c r name = .attribute := by
  have kind := classify_attribute (c := c) present
  have stored := Classification.ofAttributeType_stored (c := c) (t := a.type)
  rw [Site.takesBare, Site.kind_record found, kind]
  cases shape : Classification.ofAttributeType c a.type <;> simp_all

theorem classify_arrays_plain (present : r.attribute? (r.internalField name) = some a)
    (typed : a.type = t.arrays k) (single : ∀ item, t ≠ .array item) :
    classify c r name = .attribute ↔ 2 ≤ k ∨ ¬ c.Composite t := by
  rw [classify_attribute present, typed]
  match k with
  | 0 =>
    have inner : t.inner = t := by
      cases t with
      | array item => exact absurd rfl (single item)
      | _ => rfl
    have plain := Classification.ofAttributeType_plain (c := c) (t := t) (by rwa [inner])
    rw [inner] at plain
    simpa [TypeRef.arrays] using plain
  | 1 =>
    have plain := Classification.ofAttributeType_plain (c := c) (t := .array t) single
    have inner : (TypeRef.array t).inner = t := rfl
    rw [inner] at plain
    simpa [TypeRef.arrays] using plain
  | k + 2 => simp [Classification.ofAttributeType_arrays]

/-- The kind of an attribute is that of a single array of its items just if there is a single
level or the items are taken whole. Inside more levels everything is plain, and can be asked
for by its bare name, also where its value needs a selection. -/
theorem classify_arrays (present : r.attribute? (r.internalField name) = some a)
    (typed : a.type = t.arrays k) (single : ∀ item, t ≠ .array item) :
    (1 ≤ k → (classify c r name = .ofAttributeType c (.array t) ↔ k = 1 ∨ ¬ c.Composite t)) ∧
      (classify c r name = .attribute ↔ 2 ≤ k ∨ ¬ c.Composite t) ∧
      (c.Composite t → c.requiresSelection a.type = true) ∧
      ∀ root action (read : Action) n e, c.resource? root = some r →
        r.action? action = some read → read.kind = .read → n ≠ "" → r.internalField n = name →
        ((∃ l, plan c root action (.list [.str n]) e = .ok l) ↔ 2 ≤ k ∨ ¬ c.Composite t) := by
  have plain := classify_arrays_plain (c := c) present typed single
  have once := Classification.ofAttributeType_plain (c := c) (t := .array t) single
  have inner : (TypeRef.array t).inner = t := rfl
  rw [inner] at once
  refine ⟨?_, plain, ?_, ?_⟩
  · intro levels
    constructor
    · intro same
      by_cases one : k = 1
      · exact .inl one
      · have deeper : 2 ≤ k := by omega
        rw [plain.2 (.inl deeper)] at same
        exact .inr (once.1 same.symm)
    · intro h
      rcases h with rfl | whole
      · rw [classify_attribute present, typed]
        rfl
      · rw [plain.2 (.inr whole), once.2 whole]
  · intro composite
    rw [typed, c.requiresSelection_arrays]
    exact composite.requiresSelection
  · intro root action read n e found chosen reads named resolved
    subst resolved
    rw [plan_bare_iff found chosen reads, takesBare_attribute found present, plain]
    exact and_iff_right named

end

/-! ### Rows of cells

A sheet with a union in two levels of arrays, and one in a single level. -/

namespace Sheet

def cell : TypeRef :=
  .union [⟨"text", .primitive .string []⟩, ⟨"stop", .resource "Stop"⟩]

def sheet : Resource where
  name := "Sheet"
  attributes := [{ name := "head", type := cell.arrays 1 }, { name := "rows", type := cell.arrays 2 }]
  actions := [{ name := "read" }]

def catalog : Catalog := ⟨[sheet, Travel.stop], []⟩

end Sheet

theorem rows_taken_whole :
    classify Sheet.catalog Sheet.sheet "head" = .unionAttribute ∧
      classify Sheet.catalog Sheet.sheet "rows" = .attribute ∧
      Sheet.catalog.requiresSelection (Sheet.cell.arrays 2) = true ∧
      ∃ l, plan Sheet.catalog "Sheet" "read" (.list [.str "rows"]) none = .ok l := by
  have same : Sheet.sheet.internalField "rows" = "rows" := by with_unfolding_all rfl
  have present : Sheet.sheet.attribute? (Sheet.sheet.internalField "rows") =
      some { name := "rows", type := Sheet.cell.arrays 2 } := by
    with_unfolding_all rfl
  have single : ∀ item, Sheet.cell ≠ .array item := nofun
  obtain ⟨-, plain, needed, taken⟩ := classify_arrays (c := Sheet.catalog) present rfl single
  have composite : Sheet.catalog.Composite Sheet.cell := .union _
  refine ⟨?_, plain.2 (.inl (by decide)), needed composite, ?_⟩
  · with_unfolding_all rfl
  · refine (taken "Sheet" "read" { name := "read" } "rows" none ?_ ?_ rfl (by decide) same).2
      (.inl (by decide))
    · with_unfolding_all rfl
    · with_unfolding_all rfl

end FieldPlan
