import FieldPlan.Proofs.Naming
import FieldPlan.Proofs.Schema.Exposed

/-! The members of a schema, field by field. Each section goes through the public fields and
takes those whose names are read as fields of its kinds. A name is read in one way only, so no
field is in two sections; and a field that may be shown is in its own section just if its name
is read as a field that belongs there. -/
namespace FieldPlan

/-! ### Public fields -/

inductive Field where
  | attribute (a : Attribute)
  | calculation (a : Calculation)
  | aggregate (a : Aggregate)
  | relationship (link : Relationship)

inductive Category where
  | attribute | calculation | aggregate | relationship
  deriving DecidableEq, Repr

inductive Schema.Section where
  | plain | links | embedded | derived | unions | structured
  deriving DecidableEq, Repr

namespace Field
open Schema

def name : Field → String
  | .attribute a => a.name
  | .calculation a => a.name
  | .aggregate a => a.name
  | .relationship link => link.name

def category : Field → Category
  | .attribute _ => .attribute
  | .calculation _ => .calculation
  | .aggregate _ => .aggregate
  | .relationship _ => .relationship

/-- What tells the public fields of a resource apart. -/
def key (f : Field) : Category × String := (f.category, f.name)

/-- The type of the values, if it can be found; behind a link are records. -/
def type? (c : Catalog) (r : Resource) : Field → Option TypeRef
  | .attribute a => some a.type
  | .calculation a => some a.type
  | .aggregate a => c.aggregateType? r a
  | .relationship link => some (.resource link.destination)

/-- The kind of the field itself, however its name is read. -/
def kind (c : Catalog) (r : Resource) : Field → Classification
  | .attribute a => .ofAttributeType c a.type
  | .calculation a =>
    if !a.arguments.isEmpty then .calculationWithArgs
    else if c.requiresSelection a.type then .calculationComplex
    else .calculation
  | .aggregate a =>
    if (c.aggregateType? r a).any c.requiresSelection then .complexAggregate else .aggregate
  | .relationship _ => .relationship

def sectionAs : Field → Classification → Option Schema.Section
  | .attribute _, .attribute => some .plain
  | .attribute _, .embeddedResource => some .embedded
  | .attribute _, .embeddedResourceArray => some .embedded
  | .attribute _, .unionAttribute => some .unions
  | .attribute _, .typedStruct => some .structured
  | .attribute _, .tuple => some .structured
  | .calculation _, .calculation => some .plain
  | .calculation _, .calculationComplex => some .derived
  | .calculation _, .calculationWithArgs => some .derived
  | .aggregate _, .aggregate => some .plain
  | .aggregate _, .complexAggregate => some .derived
  | .relationship _, _ => some .links
  | _, _ => none

end Field

namespace Resource

def publicFields (r : Resource) : List Field :=
  r.publicAttributes.map .attribute ++ r.publicCalculations.map .calculation ++
    r.publicAggregates.map .aggregate ++ r.publicRelationships.map .relationship

theorem type?_mem {c : Catalog} {r : Resource} {f : Field} {t : TypeRef}
    (listed : f ∈ r.publicFields) (typed : f.type? c r = some t) :
    t ∈ c.fieldTypes r ∨ ∃ link ∈ r.publicRelationships, t = .resource link.destination := by
  simp only [publicFields, List.mem_append, List.mem_map] at listed
  unfold Catalog.fieldTypes
  rcases listed with ((⟨a, member, rfl⟩ | ⟨a, member, rfl⟩) | ⟨a, member, rfl⟩) | ⟨link, member, rfl⟩
  · cases typed
    refine Or.inl (List.mem_append_left _ (List.mem_append_left _ ?_))
    exact List.mem_map_of_mem member
  · cases typed
    refine Or.inl (List.mem_append_left _ (List.mem_append_right _ ?_))
    exact List.mem_map_of_mem member
  · exact Or.inl (List.mem_append_right _ (List.mem_filterMap.2 ⟨a, member, typed⟩))
  · cases typed
    exact Or.inr ⟨link, member, rfl⟩

theorem nodup_keys (r : Resource) : (r.publicFields.map Field.key).Nodup := by
  have distinct {α : Type} (category : Category) (name : α → String) (items : List α) :
      ((byName name items).map fun a => (category, name a)).Nodup := by
    have paired := (nodup_byName name items).map (Prod.mk_right_injective category)
    rwa [List.map_map] at paired
  have apart {first others : List (Category × String)} (distinct : first.Nodup)
      (distinct' : others.Nodup) (h : ∀ p ∈ first, ∀ q ∈ others, p.1 ≠ q.1) :
      (first ++ others).Nodup :=
    List.nodup_append.2 ⟨distinct, distinct', fun p here q there same => h p here q there (by rw [same])⟩
  simp only [publicFields, List.map_append, List.map_map]
  refine apart (apart (apart (distinct .attribute _ _) (distinct .calculation _ _) ?_)
    (distinct .aggregate _ _) ?_) (distinct .relationship _ _) ?_
  all_goals
    simp only [List.mem_append, List.mem_map, Function.comp_apply, Field.key, Field.category]
    grind

end Resource

namespace Schema

/-! ### Sections -/

theorem gather_append {α β : Type} (part : α → Result (Option β)) (first others : List α) :
    gather part (first ++ others) =
      (do return (← gather part first) ++ (← gather part others)) := by
  induction first with
  | nil =>
    rw [List.nil_append, gather]
    cases gather part others <;> rfl
  | cons item rest ih =>
    simp only [List.cons_append, gather, ih, bind_assoc, pure_bind, List.append_assoc]

theorem gather_comp {α β γ : Type} (part : β → Result (Option γ)) (f : α → β) (items : List α) :
    gather part (items.map f) = gather (fun a => part (f a)) items := by
  induction items with
  | nil => rfl
  | cons item rest ih => simp only [List.map_cons, gather, ih]

theorem gather_nothing {α β : Type} (items : List α) :
    gather (fun _ => .ok none : α → Result (Option β)) items = pure [] := by
  induction items with
  | nil => rfl
  | cons item rest ih =>
    rw [gather, ih]
    rfl

theorem gather_sublist {α β γ : Type} {part : α → Result (Option β)} {label : β → γ} {of : α → γ}
    (labelled : ∀ a b, part a = .ok (some b) → label b = of a) {items : List α} {out : List β}
    (h : gather part items = .ok out) : (out.map label).Sublist (items.map of) := by
  induction items generalizing out with
  | nil =>
    cases h
    exact List.Sublist.slnil
  | cons item rest ih =>
    obtain ⟨first, head, h⟩ := Outcome.bind_ok h
    obtain ⟨others, tail, h⟩ := Outcome.bind_ok h
    cases h
    cases first with
    | none => exact (ih tail).cons _
    | some b =>
      rw [Option.toList_some, List.singleton_append, List.map_cons, List.map_cons,
        labelled item b head]
      exact (ih tail).cons_cons _

theorem gather_filter {α β : Type} {part : α → Result (Option β)} {keep : β → Bool}
    {kept : α → Bool} (same : ∀ a b, part a = .ok (some b) → keep b = kept a) {items : List α}
    {out : List β} (h : gather part items = .ok out) :
    gather part (items.filter kept) = .ok (out.filter keep) := by
  induction items generalizing out with
  | nil =>
    cases h
    rfl
  | cons item rest ih =>
    obtain ⟨first, head, h⟩ := Outcome.bind_ok h
    obtain ⟨others, tail, h⟩ := Outcome.bind_ok h
    cases h
    rw [List.filter_append, List.filter_cons]
    cases first with
    | none =>
      split
      · rw [gather, head, ih tail]
        rfl
      · exact ih tail
    | some b =>
      rw [Option.toList_some, List.filter_singleton, same item b head]
      split
      · next yes =>
        rw [gather, head, ih tail, yes]
        rfl
      · next no =>
        rw [eq_false_of_ne_true no]
        exact ih tail

/-- A member of a schema with the section and the field that it is for. -/
structure Row where
  place : Section
  field : Field
  member : TypeMember TypeExpr

def Section.all : List Section := [.plain, .links, .embedded, .derived, .unions, .structured]

def places (r : Resource) : List (Section × Field) :=
  Section.all.flatMap fun s => r.publicFields.map fun f => (s, f)

theorem mem_places {r : Resource} {s : Section} {f : Field} :
    (s, f) ∈ places r ↔ f ∈ r.publicFields := by
  have all : s ∈ Section.all := by cases s <;> decide
  simp [places, all]

namespace Context
variable (x : Context) (r : Resource)

def shows : Section → Field → Result (Option (TypeMember TypeExpr))
  | .plain, .attribute a => x.plainAttribute r a
  | .plain, .calculation a => x.plainCalculation r a
  | .plain, .aggregate a => x.plainAggregate r a
  | .links, .relationship link => x.linkMember r link
  | .embedded, .attribute a => x.embeddedMember r a
  | .derived, .calculation a => x.derivedCalculation r a
  | .derived, .aggregate a => x.derivedAggregate r a
  | .unions, .attribute a => x.unionAttribute r a
  | .structured, .attribute a => x.structuredAttribute r a
  | _, _ => .ok none

def row (p : Section × Field) : Result (Option Row) :=
  (x.shows r p.1 p.2).map (Option.map (Row.mk p.1 p.2))

def rows : Result (List Row) := gather (x.row r) (places r)

theorem gather_row (items : List (Section × Field)) :
    (gather (x.row r) items).map (List.map Row.member) =
      gather (fun p => x.shows r p.1 p.2) items := by
  rw [gather_map]
  congr 1
  funext p
  rw [row]
  cases x.shows r p.1 p.2 with
  | error fault => rfl
  | ok o => cases o <;> rfl

theorem gather_section (s : Section) :
    gather (fun p : Section × Field => x.shows r p.1 p.2) (r.publicFields.map fun f => (s, f)) =
      (do
        let stored ← gather (fun a => x.shows r s (.attribute a)) r.publicAttributes
        let derived ← gather (fun a => x.shows r s (.calculation a)) r.publicCalculations
        let summed ← gather (fun a => x.shows r s (.aggregate a)) r.publicAggregates
        let links ← gather (fun a => x.shows r s (.relationship a)) r.publicRelationships
        return stored ++ derived ++ summed ++ links) := by
  simp only [Resource.publicFields, gather_comp, gather_append, bind_assoc, pure_bind]

/-- The members of the rows are those beside the head of the schema, in their order. -/
theorem rows_members :
    (x.rows r).map (List.map Row.member) =
      (do return (← x.plainMembers r) ++ (← x.structuredMembers r)) := by
  rw [rows, gather_row]
  simp only [places, Section.all, List.flatMap_cons, List.flatMap_nil, List.append_nil,
    gather_append, gather_section, bind_assoc, pure_bind]
  -- a section has nothing for the fields that it does not go through
  simp only [shows, gather_nothing, plainMembers, structuredMembers, bind_assoc, pure_bind,
    List.append_nil, List.nil_append, List.append_assoc]

theorem plainRows_members :
    (gather (x.row r) (r.publicFields.map fun f => (.plain, f))).map (List.map Row.member) =
      x.plainMembers r := by
  rw [gather_row, gather_section]
  simp only [shows, gather_nothing, plainMembers, pure_bind, List.append_nil]

/-! ### Rows -/

variable {x r} {s : Section} {f : Field} {o : Option (TypeMember TypeExpr)}
variable {m : TypeMember TypeExpr} {rows : List Row}

theorem row_ok {p : Section × Field} {made : Row} (h : x.row r p = .ok (some made)) :
    ∃ m, x.shows r p.1 p.2 = .ok (some m) ∧ made = ⟨p.1, p.2, m⟩ := by
  obtain ⟨o, shown, same⟩ := Outcome.map_ok h
  obtain ⟨m, rfl, rfl⟩ := Option.map_eq_some_iff.1 same
  exact ⟨m, shown, rfl⟩

theorem mem_rows (h : x.rows r = .ok rows) {row : Row} :
    row ∈ rows ↔ row.field ∈ r.publicFields ∧
      x.shows r row.place row.field = .ok (some row.member) := by
  rw [(gather_ok h).2 row]
  constructor
  · rintro ⟨⟨s, f⟩, place, made⟩
    obtain ⟨m, shown, rfl⟩ := row_ok made
    exact ⟨mem_places.1 place, shown⟩
  · rintro ⟨listed, shown⟩
    exact ⟨(row.place, row.field), mem_places.2 listed, by rw [Context.row, shown]; rfl⟩

theorem nodup_rows (h : x.rows r = .ok rows) :
    (rows.map fun row => (row.place, row.field.key)).Nodup := by
  -- rows keep the order of the places, and these are told apart by section and key
  have labels : (places r).map (fun p => (p.1, p.2.key)) =
      List.product Section.all (r.publicFields.map Field.key) := by
    simp [places, List.product, List.map_flatMap, Function.comp_def]
  have ordered : (rows.map fun row => (row.place, row.field.key)).Sublist
      ((places r).map fun p => (p.1, p.2.key)) := by
    refine gather_sublist ?_ h
    intro p row made
    obtain ⟨m, -, rfl⟩ := row_ok made
    rfl
  rw [labels] at ordered
  have sections : Section.all.Nodup := by decide
  exact (sections.product r.nodup_keys).sublist ordered

theorem aggregate_some {a : Aggregate} {made : TypeRef → Result (TypeMember TypeExpr)}
    (h : (do let t ← x.aggregateType r a; x.ifAdmitted t (made t)) = .ok (some m)) :
    ∃ t, x.catalog.aggregateType? r a = some t ∧ x.referencesAdmitted t = .ok true ∧
      made t = .ok m := by
  obtain ⟨t, typed, admitted⟩ := Outcome.bind_ok h
  exact ⟨t, aggregateType_ok typed, ifAdmitted_ok admitted, ifAdmitted_made admitted⟩

/-- The arguments that a field is shown with; only calculations have any. -/
def Takes (x : Context) (r : Resource) : Field → List (TypeMember TypeExpr) → Prop
  | .calculation a, arguments =>
    (x.kindOf r a.name = .calculationComplex ∨ x.kindOf r a.name = .calculationWithArgs) ∧
      gather (fun arg => some <$> x.argumentMember arg) a.arguments = .ok arguments
  | _, arguments => arguments = []

inductive Made (x : Context) (r : Resource) : Section → Field → TypeMember TypeExpr → Prop
  | value {s : Section} {f : Field} {m : TypeMember TypeExpr} {t : TypeRef} {e : TypeExpr}
      {nullable : Bool} (place : s ≠ .derived) (typed : f.type? x.catalog r = some t)
      (may : x.referencesAdmitted t = .ok true) (written : x.expr t = .ok e)
      (type : m.type = e.orNullIf nullable) : Made x r s f m
  | derived {f : Field} {m : TypeMember TypeExpr} {t : TypeRef} {e : TypeExpr} {nullable : Bool}
      {arguments : List (TypeMember TypeExpr)} (typed : f.type? x.catalog r = some t)
      (may : x.referencesAdmitted t = .ok true) (written : x.expr t = .ok e)
      (takes : x.Takes r f arguments)
      (type : m.type = derivedType (e.orNullIf nullable) arguments) : Made x r .derived f m
  | records {s : Section} {f : Field} {m : TypeMember TypeExpr} {t : TypeRef} {name : String}
      {e : TypeExpr} {many nullable : Bool} (place : s ≠ .derived)
      (typed : f.type? x.catalog r = some t)
      (held : t = .resource name ∨ x.catalog.embeddedName t = some name)
      (present : x.catalog.hasResource name = true)
      (written : resourceExpr x.catalog .output name = .ok e)
      (type : m.type = linkType many nullable e) : Made x r s f m
  | union {a : Attribute} {m : TypeMember TypeExpr} {members : List (Member TypeRef)}
      {many nullable : Bool} {e : TypeExpr} (shape : a.type.inner = .union members)
      (written : x.unionType members many = .ok e) (type : m.type = e.orNullIf nullable) :
      Made x r .unions (.attribute a) m

theorem made_value {name : String} {t : TypeRef} {allowNil : Bool} (place : s ≠ .derived)
    (typed : f.type? x.catalog r = some t)
    (h : x.ifAdmitted t (x.valueMember r name t allowNil) = .ok (some m)) : x.Made r s f m := by
  obtain ⟨e, written, made⟩ := Outcome.bind_ok (ifAdmitted_made h)
  cases made
  exact .value place typed (ifAdmitted_ok h) written rfl

theorem shows_some (h : x.shows r s f = .ok (some m)) :
    f.sectionAs (x.kindOf r f.name) = some s ∧ m.name = x.external r f.name ∧ x.Made r s f m := by
  unfold shows at h
  split at h
  · next a =>
    obtain ⟨kind, admitted⟩ := ofKind_some h
    exact ⟨congrArg (Field.sectionAs _) (List.mem_singleton.1 kind), plainAttribute_name h,
      made_value (by decide) rfl admitted⟩
  · next a =>
    obtain ⟨kind, admitted⟩ := ofKind_some h
    exact ⟨congrArg (Field.sectionAs _) (List.mem_singleton.1 kind), plainCalculation_name h,
      made_value (by decide) rfl admitted⟩
  · next a =>
    obtain ⟨kind, worked⟩ := ofKind_some h
    obtain ⟨t, typed, may, made⟩ := aggregate_some worked
    obtain ⟨e, written, made⟩ := Outcome.bind_ok made
    cases made
    exact ⟨congrArg (Field.sectionAs _) (List.mem_singleton.1 kind), plainAggregate_name h,
      .value (by decide) typed may written rfl⟩
  · next link =>
    simp only [linkMember] at h
    split at h
    · cases h
    · next present =>
      split at h
      · obtain ⟨records, written, h⟩ := Outcome.bind_ok h
        cases h
        exact ⟨rfl, rfl,
          .records (by decide) rfl (Or.inl rfl) (by simpa using present) written rfl⟩
      · cases h
  · next a =>
    obtain ⟨kind, worked⟩ := ofKind_some h
    refine ⟨(List.mem_pair.1 kind).elim (congrArg (Field.sectionAs _)) (congrArg (Field.sectionAs _)), ?_⟩
    split at worked
    · cases worked
    · next name shown =>
      obtain ⟨records, written, worked⟩ := Outcome.bind_ok worked
      cases worked
      have held := (Option.filter_eq_some_iff.1 shown).1
      have present :=
        Catalog.hasResource_of_isEmbedded (Catalog.isEmbedded_of_embeddedName held)
      exact ⟨rfl, .records (by decide) rfl (Or.inr held) present written rfl⟩
  · next a =>
    obtain ⟨kind, worked⟩ := ofKind_some h
    refine ⟨(List.mem_pair.1 kind).elim (congrArg (Field.sectionAs _)) (congrArg (Field.sectionAs _)), ?_⟩
    obtain ⟨e, written, made⟩ := Outcome.bind_ok (ifAdmitted_made worked)
    obtain ⟨arguments, listed, made⟩ := Outcome.bind_ok made
    cases made
    exact ⟨rfl, .derived rfl (ifAdmitted_ok worked) written ⟨List.mem_pair.1 kind, listed⟩ rfl⟩
  · next a =>
    obtain ⟨kind, worked⟩ := ofKind_some h
    obtain ⟨t, typed, may, made⟩ := aggregate_some worked
    obtain ⟨e, written, made⟩ := Outcome.bind_ok made
    cases made
    exact ⟨congrArg (Field.sectionAs _) (List.mem_singleton.1 kind), rfl, .derived typed may written rfl rfl⟩
  · next a =>
    obtain ⟨kind, worked⟩ := ofKind_some h
    refine ⟨congrArg (Field.sectionAs _) (List.mem_singleton.1 kind), ?_⟩
    split at worked
    · next members many shape =>
      obtain ⟨e, written, worked⟩ := Outcome.bind_ok worked
      cases worked
      exact ⟨rfl, .union (congrArg Prod.fst shape) written rfl⟩
    · cases worked
  · next a =>
    obtain ⟨kind, admitted⟩ := ofKind_some h
    refine ⟨(List.mem_pair.1 kind).elim (congrArg (Field.sectionAs _)) (congrArg (Field.sectionAs _)), ?_⟩
    exact ⟨valueMember_name (ifAdmitted_made admitted), made_value (by decide) rfl admitted⟩
  · cases h

/-! ### The section of a field -/

/-- Every resource that the field refers to is exposed. -/
def MayShow (x : Context) (r : Resource) (f : Field) : Prop :=
  ∀ t, f.type? x.catalog r = some t → x.referencesAdmitted t = .ok true

theorem ifAdmitted_shown {t : TypeRef} {made : Result (TypeMember TypeExpr)}
    (may : x.referencesAdmitted t = .ok true) (h : x.ifAdmitted t made = .ok o) :
    o.isSome = true := by
  have shown := ifAdmitted_ok h
  rw [may] at shown
  exact (Except.ok.inj shown).symm

theorem admits_embedded {t : TypeRef} {name : String} (may : x.referencesAdmitted t = .ok true)
    (h : x.catalog.embeddedName t = some name) : x.admits name = true := by
  obtain ⟨names, resources, all⟩ := Outcome.bind_ok may
  have present := Catalog.hasResource_of_isEmbedded (Catalog.isEmbedded_of_embeddedName h)
  have listed : name ∈ names :=
    (mem_mentioned resources).2 ((Catalog.mentions_embedded h).imp_right fun m => ⟨m, present⟩)
  exact List.all_eq_true.1 (Except.ok.inj all) name listed

section
variable {c : Catalog} {a : Attribute}

theorem embeddedName_of_own
    (own : (Field.attribute a).sectionAs (.ofAttributeType c a.type) = some .embedded) :
    ∃ name, c.embeddedName a.type = some name := by
  unfold Classification.ofAttributeType at own
  split at own
  · next held => exact Option.isSome_iff_exists.1 held
  · split at own
    · cases own
    · cases own
    · split at own <;> cases own
    · split at own <;> cases own
    · cases own

theorem members_of_own
    (own : (Field.attribute a).sectionAs (.ofAttributeType c a.type) = some .unions) :
    ∃ members, a.type.inner = .union members := by
  unfold Classification.ofAttributeType at own
  split at own
  · split at own <;> cases own
  · split at own
    · next members shape => exact ⟨members, shape⟩
    · cases own
    · split at own <;> cases own
    · split at own <;> cases own
    · cases own

end

theorem embeddedMember_own {a : Attribute}
    (own : (Field.attribute a).sectionAs (.ofAttributeType x.catalog a.type) = some .embedded)
    (read : x.kindOf r a.name = .embeddedResource ∨ x.kindOf r a.name = .embeddedResourceArray)
    (may : x.referencesAdmitted a.type = .ok true) (h : x.embeddedMember r a = .ok o) :
    o.isSome = true := by
  obtain ⟨name, held⟩ := embeddedName_of_own own
  have shown : (x.catalog.embeddedName a.type).filter x.admits = some name :=
    Option.filter_eq_some_iff.2 ⟨held, admits_embedded may held⟩
  have worked := ofKind_taken (List.mem_pair.2 read) h
  rw [shown] at worked
  obtain ⟨records, -, worked⟩ := Outcome.bind_ok worked
  cases worked
  rfl

theorem derivedCalculation_own {a : Calculation}
    (read : x.kindOf r a.name = .calculationComplex ∨ x.kindOf r a.name = .calculationWithArgs)
    (may : x.referencesAdmitted a.type = .ok true) (h : x.derivedCalculation r a = .ok o) :
    o.isSome = true :=
  ifAdmitted_shown may (ofKind_taken (List.mem_pair.2 read) h)

theorem structuredAttribute_own {a : Attribute}
    (read : x.kindOf r a.name = .typedStruct ∨ x.kindOf r a.name = .tuple)
    (may : x.referencesAdmitted a.type = .ok true) (h : x.structuredAttribute r a = .ok o) :
    o.isSome = true :=
  ifAdmitted_shown may (ofKind_taken (List.mem_pair.2 read) h)

theorem unionAttribute_own {a : Attribute}
    (own : (Field.attribute a).sectionAs (.ofAttributeType x.catalog a.type) = some .unions)
    (read : x.kindOf r a.name = .unionAttribute) (h : x.unionAttribute r a = .ok o) :
    o.isSome = true := by
  obtain ⟨members, shape⟩ := members_of_own own
  have worked := ofKind_taken (List.mem_singleton.2 read) h
  split at worked
  · obtain ⟨type, -, worked⟩ := Outcome.bind_ok worked
    cases worked
    rfl
  · next other => exact (other members a.type.unwrapArray.2 (Prod.ext shape rfl)).elim

theorem aggregate_own {a : Aggregate} {made : TypeRef → Result (TypeMember TypeExpr)}
    (may : x.MayShow r (.aggregate a))
    (h : (do let t ← x.aggregateType r a; x.ifAdmitted t (made t)) = .ok o) :
    o.isSome = true := by
  obtain ⟨t, typed, admitted⟩ := Outcome.bind_ok h
  exact ifAdmitted_shown (may t (aggregateType_ok typed)) admitted

theorem linkMember_own {link : Relationship}
    (may : x.referencesAdmitted (.resource link.destination) = .ok true)
    (h : x.linkMember r link = .ok o) : o.isSome = true := by
  have all : x.referencesAdmitted (.resource link.destination) =
      .ok (x.admits link.destination && true) := rfl
  rw [all, Bool.and_true] at may
  simp only [linkMember] at h
  split at h
  · cases h
  split at h
  · obtain ⟨records, -, h⟩ := Outcome.bind_ok h
    cases h
    rfl
  · next hidden => exact absurd (Except.ok.inj may) hidden

/-- A field that may be shown has a member in its own section, if its name is read as a field
that belongs there. -/
theorem shows_own (own : f.sectionAs (f.kind x.catalog r) = some s)
    (read : f.sectionAs (x.kindOf r f.name) = some s) (may : x.MayShow r f)
    (h : x.shows r s f = .ok o) : o.isSome = true := by
  unfold Field.sectionAs at read
  split at read <;> cases read
  · next a kind => exact ifAdmitted_shown (may a.type rfl) (ofKind_taken (List.mem_singleton.2 kind) h)
  · next a kind => exact embeddedMember_own own (Or.inl kind) (may a.type rfl) h
  · next a kind => exact embeddedMember_own own (Or.inr kind) (may a.type rfl) h
  · next a kind => exact unionAttribute_own own kind h
  · next a kind => exact structuredAttribute_own (Or.inl kind) (may a.type rfl) h
  · next a kind => exact structuredAttribute_own (Or.inr kind) (may a.type rfl) h
  · next a kind => exact ifAdmitted_shown (may a.type rfl) (ofKind_taken (List.mem_singleton.2 kind) h)
  · next a kind => exact derivedCalculation_own (Or.inl kind) (may a.type rfl) h
  · next a kind => exact derivedCalculation_own (Or.inr kind) (may a.type rfl) h
  · next a kind => exact aggregate_own may (ofKind_taken (List.mem_singleton.2 kind) h)
  · next a kind => exact aggregate_own may (ofKind_taken (List.mem_singleton.2 kind) h)
  · next link => exact linkMember_own (may _ rfl) h

/-! ### One member for each field -/

def rowsFor (rows : List Row) (f : Field) : List Row := rows.filter (·.field.key == f.key)

theorem mem_rowsFor (h : x.rows r = .ok rows) (listed : f ∈ r.publicFields) {row : Row} :
    row ∈ rowsFor rows f ↔ row ∈ rows ∧ row.field = f := by
  rw [rowsFor, List.mem_filter, beq_iff_eq]
  refine and_congr_right fun member => ⟨?_, congrArg Field.key⟩
  exact List.inj_on_of_nodup_map r.nodup_keys ((mem_rows h).1 member).1 listed

/-- All rows for a field would be in the section that its name is read for. -/
theorem rowsFor_length (h : x.rows r = .ok rows) (listed : f ∈ r.publicFields) :
    (rowsFor rows f).length ≤ 1 := by
  have apart : ((rowsFor rows f).map fun row => (row.place, row.field.key)).Nodup :=
    (nodup_rows h).sublist (List.filter_sublist.map _)
  have alike : ∀ row ∈ rowsFor rows f, ∀ other ∈ rowsFor rows f, row.place = other.place := by
    intro row member other member'
    obtain ⟨inRows, rfl⟩ := (mem_rowsFor h listed).1 member
    obtain ⟨inRows', same⟩ := (mem_rowsFor h listed).1 member'
    have here := (shows_some ((mem_rows h).1 inRows).2).1
    have there := (shows_some ((mem_rows h).1 inRows').2).1
    rw [same, here] at there
    exact Option.some.inj there
  match own : rowsFor rows f with
  | [] => exact Nat.zero_le 1
  | [_] => exact Nat.le_refl 1
  | row :: other :: rest =>
    -- both would be in one section, where a field has one row
    rw [own] at apart alike
    have same := alike row (by simp) other (by simp)
    have keys : row.field.key = other.field.key := by
      have first : row ∈ rowsFor rows f := by simp [own]
      have second : other ∈ rowsFor rows f := by simp [own]
      rw [((mem_rowsFor h listed).1 first).2, ((mem_rowsFor h listed).1 second).2]
    simp [same, keys] at apart

theorem sectionAs_own (c : Catalog) (r : Resource) (f : Field) :
    ∃ s, f.sectionAs (f.kind c r) = some s := by
  cases f with
  | «attribute» a =>
    rw [Field.kind, Classification.ofAttributeType]
    split
    · split <;> exact ⟨_, rfl⟩
    · split
      · exact ⟨_, rfl⟩
      · exact ⟨_, rfl⟩
      · split <;> exact ⟨_, rfl⟩
      · split <;> exact ⟨_, rfl⟩
      · exact ⟨_, rfl⟩
  | calculation a =>
    rw [Field.kind]
    split
    · exact ⟨_, rfl⟩
    · split <;> exact ⟨_, rfl⟩
  | aggregate a =>
    rw [Field.kind]
    split <;> exact ⟨_, rfl⟩
  | relationship link => exact ⟨_, rfl⟩

theorem shows_of_rows (h : x.rows r = .ok rows) (listed : f ∈ r.publicFields)
    (own : f.sectionAs (f.kind x.catalog r) = some s)
    (read : f.sectionAs (x.kindOf r f.name) = some s) (may : x.MayShow r f) :
    ∃ m, x.shows r s f = .ok (some m) := by
  have place : (s, f) ∈ places r := mem_places.2 listed
  obtain ⟨made, worked⟩ := (gather_ok h).1 _ place
  obtain ⟨o, shown, -⟩ := Outcome.map_ok worked
  obtain ⟨m, rfl⟩ := Option.isSome_iff_exists.1 (shows_own own read may shown)
  exact ⟨m, shown⟩

theorem plain_rows (h : x.rows r = .ok rows) {plain : List (TypeMember TypeExpr)}
    (listed : x.plainMembers r = .ok plain) :
    (rows.filter (·.place == .plain)).map Row.member = plain := by
  have first : (places r).filter (·.1 == .plain) = r.publicFields.map fun f => (.plain, f) := by
    simp [places, Section.all, List.filter_map, Function.comp_def]
  have filtered : gather (x.row r) ((places r).filter (·.1 == .plain)) =
      .ok (rows.filter (·.place == .plain)) := by
    refine gather_filter ?_ h
    intro p row made
    obtain ⟨m, -, rfl⟩ := row_ok made
    rfl
  have members := plainRows_members x r
  rw [← first, filtered, listed] at members
  exact Except.ok.inj members

theorem resourceSchema_rows {shown : Resource} {d : Definition}
    (found : x.catalog.resource? shown.name = some r) (h : x.resourceSchema shown = .ok d) :
    ∃ rows, x.rows r = .ok rows ∧
      d.body = .members (⟨"__type", false, .literal "Resource"⟩ ::
        ⟨"__primitiveFields", false,
          .oneOf ((rows.filter (·.place == .plain)).map (·.member.name))⟩ ::
        rows.map Row.member) := by
  obtain ⟨r', held, h⟩ := Outcome.bind_ok h
  obtain rfl := Option.some.inj (found.symm.trans (fieldResource_ok held))
  obtain ⟨plain, listed, h⟩ := Outcome.bind_ok h
  obtain ⟨structured, written, h⟩ := Outcome.bind_ok h
  cases h
  have members := rows_members x r
  rw [listed, written] at members
  obtain ⟨rows, made, same⟩ := Outcome.map_ok members
  refine ⟨rows, made, ?_⟩
  rw [same, ← plain_rows made listed, List.map_map]
  rfl

/-- The members of a schema beside its head are for public fields, under the names that clients
know, and no two are for one field. A field none of whose resources are hidden has its member, in
its own section, just if its name is read as a field that belongs to that section. -/
theorem resourceSchema_shows_iff {shown : Resource} {d : Definition}
    (found : x.catalog.resource? shown.name = some r) (h : x.resourceSchema shown = .ok d) :
    ∃ rows, x.rows r = .ok rows ∧
      d.body = .members (⟨"__type", false, .literal "Resource"⟩ ::
        ⟨"__primitiveFields", false,
          .oneOf ((rows.filter (·.place == .plain)).map (·.member.name))⟩ ::
        rows.map Row.member) ∧
      (∀ row ∈ rows, row.field ∈ r.publicFields ∧
        row.member.name = x.external r row.field.name ∧
        row.field.sectionAs (x.kindOf r row.field.name) = some row.place) ∧
      ∀ f ∈ r.publicFields, (rowsFor rows f).length ≤ 1 ∧
        (x.MayShow r f →
          ((∃ row, rowsFor rows f = [row] ∧ f.sectionAs (f.kind x.catalog r) = some row.place) ↔
            f.sectionAs (x.kindOf r f.name) = f.sectionAs (f.kind x.catalog r))) := by
  obtain ⟨rows, made, body⟩ := resourceSchema_rows found h
  refine ⟨rows, made, body, ?_, ?_⟩
  · intro row member
    obtain ⟨listed, shows⟩ := (mem_rows made).1 member
    obtain ⟨read, named, -⟩ := shows_some shows
    exact ⟨listed, named, read⟩
  intro f listed
  refine ⟨rowsFor_length made listed, ?_⟩
  intro may
  constructor
  · rintro ⟨row, only, own⟩
    have member : row ∈ rowsFor rows f := by simp [only]
    obtain ⟨inRows, rfl⟩ := (mem_rowsFor made listed).1 member
    rw [own]
    exact (shows_some ((mem_rows made).1 inRows).2).1
  · intro read
    obtain ⟨s, own⟩ := sectionAs_own x.catalog r f
    rw [own] at read
    obtain ⟨m, shown⟩ := shows_of_rows made listed own read may
    have member : ⟨s, f, m⟩ ∈ rowsFor rows f :=
      (mem_rowsFor made listed).2 ⟨(mem_rows made).2 ⟨listed, shown⟩, rfl⟩
    have one := Nat.le_antisymm (rowsFor_length made listed) (List.length_pos_of_mem member)
    obtain ⟨row, only⟩ := List.length_eq_one_iff.1 one
    rw [only, List.mem_singleton] at member
    exact ⟨row, only, by rw [← member]; exact own⟩

end Context

/-- The cost is in no section, since its name is read as the price, which is shown. -/
theorem item_shows_price_only :
    let x : Context := ⟨Errands.catalog, none, .camelCase⟩
    let price : Field := .attribute { name := "price", type := .primitive .integer [] }
    let cost : Field := .calculation { name := "cost", type := .primitive .integer [] }
    Errands.item.publicFields = [price, cost] ∧
      ∃ d rows, x.resourceSchema Errands.item = .ok d ∧ x.rows Errands.item = .ok rows ∧
        (∃ row, Context.rowsFor rows price = [row] ∧ row.place = .plain) ∧
        ¬∃ row, Context.rowsFor rows cost = [row] ∧ row.place = .plain := by
  intro x price cost
  have fields : Errands.item.publicFields = [price, cost] := by with_unfolding_all rfl
  have found : x.catalog.resource? Errands.item.name = some Errands.item := by
    with_unfolding_all rfl
  have written : ∃ d, x.resourceSchema Errands.item = .ok d := ⟨_, by with_unfolding_all rfl⟩
  have mayPrice : x.MayShow Errands.item price := by
    rintro t ⟨⟩
    rfl
  have mayCost : x.MayShow Errands.item cost := by
    rintro t ⟨⟩
    rfl
  have ownPrice : price.sectionAs (price.kind x.catalog Errands.item) = some .plain := by
    with_unfolding_all rfl
  have ownCost : cost.sectionAs (cost.kind x.catalog Errands.item) = some .plain := by
    with_unfolding_all rfl
  have readPrice : x.kindOf Errands.item "price" = .attribute := by with_unfolding_all rfl
  have readCost : x.kindOf Errands.item "cost" = .attribute := by with_unfolding_all rfl
  obtain ⟨d, written⟩ := written
  obtain ⟨rows, made, -, -, shown⟩ := Context.resourceSchema_shows_iff found written
  rw [fields] at shown
  refine ⟨fields, d, rows, written, made, ?_, ?_⟩
  · have shows := (shown price List.mem_cons_self).2 mayPrice
    rw [ownPrice] at shows
    obtain ⟨row, only, place⟩ := shows.2 (congrArg price.sectionAs readPrice)
    exact ⟨row, only, (Option.some.inj place).symm⟩
  · rintro ⟨row, only, place⟩
    have shows := (shown cost (by simp)).2 mayCost
    rw [ownCost] at shows
    have taken := shows.1 ⟨row, only, congrArg some place.symm⟩
    cases taken.symm.trans (congrArg cost.sectionAs readCost)

end Schema
end FieldPlan
