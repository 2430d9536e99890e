import FieldPlan.Catalog.Travel
import FieldPlan.Proofs.Accepts
import FieldPlan.Proofs.Reading

/-! Fields that lead to records which are hidden. A link is looked up among what is exposed
before anything else, and is then unknown. Any other field is only found out when the records
are entered: what is checked before that is turned down for its own reasons, and a stored
field that is asked for by its name alone is taken. -/
namespace FieldPlan

/-! ### Checks -/

/-- Where the step fails it turns down the field at this place, but not as unknown. -/
def Outcome.Checks {α : Type} (here : List String) (name : String) (x : Outcome α) : Prop :=
  ∀ failure, x = .error failure → ∃ rejection, failure = .rejected rejection ∧
    rejection.kind ≠ .unknownField ∧ rejection.path = here ∧ rejection.field = some name

namespace Outcome.Checks
variable {α β : Type} {here : List String} {name : String}

theorem ok (a : α) : Outcome.Checks here name (.ok a) := nofun

theorem reject {kind : Rejection.Kind} {detail : List (String × String)}
    (known : kind ≠ .unknownField) :
    Outcome.Checks here name (reject kind here (some name) detail : Outcome α) := by
  rintro failure ⟨⟩
  exact ⟨_, rfl, known, rfl, rfl⟩

theorem bind {x : Outcome α} {f : α → Outcome β} (first : x.Checks here name)
    (next : ∀ a, (f a).Checks here name) : (x >>= f).Checks here name := by
  cases x with
  | error failure =>
    rintro failure ⟨⟩
    exact first failure rfl
  | ok a => exact next a

end Outcome.Checks

namespace Arguments
variable {arguments : List Argument} {here : List String} {name : String}

theorem take_checks {done : List (String × Value)} {entries : List (Value × Value)} :
    (take arguments here name done entries).Checks here name := by
  induction entries generalizing done with
  | nil => exact .ok done
  | cons entry rest ih =>
    obtain ⟨key, v⟩ := entry
    rw [take]
    split
    · exact .reject (by decide)
    · split
      · exact .reject (by decide)
      · split
        · exact .reject (by decide)
        · exact ih

theorem resolve_checks (v : Value) : (resolve arguments here name v).Checks here name := by
  unfold resolve
  split
  · refine take_checks.bind ?_
    intro given
    split
    · exact .reject (by decide)
    · exact .ok given
  · exact .reject (by decide)

end Arguments

namespace Selection

/-- The value selects something: it is a list that is not empty, or a mapping for one. -/
def AsksSome (v : Value) : Prop := ∃ fields, normalize v = .list fields ∧ fields ≠ []

variable {kind : String} {here : List String} {name : String}

theorem requireSome_checks (v : Value) :
    (requireSome kind here (some name) v).Checks here name := by
  unfold requireSome
  split
  · exact .reject (by decide)
  · exact .ok _
  · exact .reject (by decide)

theorem requireSome_passes {v : Value} :
    (∃ fields, requireSome kind here (some name) (normalize v) = .ok fields) ↔ AsksSome v := by
  constructor
  · rintro ⟨fields, h⟩
    refine ⟨fields, requireSome_eq h, ?_⟩
    rintro rfl
    rw [requireSome_eq h] at h
    cases h
  · rintro ⟨fields, same, some⟩
    refine ⟨fields, ?_⟩
    rw [same]
    cases fields with
    | nil => exact absurd rfl some
    | cons first rest => rfl

end Selection

namespace Descent
variable {c : Catalog} {e : Exposure} {here : List String} {name : String}

theorem calledSelection_checks (given : Value) :
    (calledSelection true here name given).Checks here name := by
  simp only [calledSelection, if_true]
  split
  · exact .reject (by decide)
  · exact (Selection.requireSome_checks _).bind fun fields => .ok _

theorem calledSelection_passes {given : Value} :
    (∃ v, calledSelection true here name given = .ok v) ↔ Selection.AsksSome given := by
  simp only [calledSelection, if_true]
  split
  · next null =>
    constructor
    · rintro ⟨v, h⟩
      cases h
    · rintro ⟨fields, same, -⟩
      rw [same] at null
      cases null
  · rw [← Selection.requireSome_passes]
    constructor
    · rintro ⟨v, h⟩
      obtain ⟨fields, first, -⟩ := Outcome.bind_ok h
      exact ⟨fields, first⟩
    · rintro ⟨fields, first⟩
      exact ⟨.list fields, by rw [first]; rfl⟩

def NoArgs (v : Value) : Prop :=
  v.get? Arguments.fieldsKey = none ∨ v.get? Arguments.argsKey = none

theorem withoutForm_checks (nested : Value) : (withoutForm here name nested).Checks here name := by
  unfold withoutForm
  split
  · exact .ok _
  · split
    · exact .reject (by decide)
    · exact .ok _

theorem withoutForm_passes {nested given : Value} :
    withoutForm here name nested = .ok given ↔
      NoArgs nested ∧ given = (nested.get? Arguments.fieldsKey).getD nested := by
  unfold withoutForm NoArgs
  cases nested.get? Arguments.fieldsKey with
  | none => simp [eq_comm]
  | some fields =>
    cases nested.get? Arguments.argsKey with
    | none => simp [eq_comm]
    | some args => simp [Arguments.invalid, reject]

end Descent

/-! ### Records behind a field -/

section
variable {c : Catalog} {t : TypeRef} {held : String}

theorem Site.element_of_record (h : Site.ofType c t = .record held) :
    t.element = .resource held ∨
      t.element = .struct (some held) ∧ c.hasResource held = true := by
  rw [← Site.ofType_element] at h
  have single := Site.element_ne_array t
  revert h single
  cases t.element with
  | array item => exact fun _ single => absurd rfl (single item)
  | resource name =>
    intro h _
    cases h
    exact Or.inl rfl
  | struct of =>
    intro h _
    cases of with
    | none => cases h
    | some name =>
      rw [Site.ofType] at h
      split at h
      · next present =>
        cases h
        exact Or.inr ⟨rfl, present⟩
      · cases h
  | typedStruct name =>
    intro h _
    rw [Site.ofType] at h
    split at h <;> cases h
  | map declared | keyword declared | tuple declared =>
    intro h _
    rw [Site.ofType, Site.ofSlots] at h
    split at h <;> cases h
  | _ =>
    intro h _
    cases h

theorem requiresSelection_of_record (h : Site.ofType c t = .record held) :
    c.requiresSelection t = true := by
  unfold Catalog.requiresSelection
  rcases Site.element_of_record h with same | ⟨same, present⟩ <;> rw [same]
  exact present

theorem attributeKind_of_record (h : Site.ofType c t = .record held) :
    Classification.ofAttributeType c t = .attribute ∨
      (Classification.ofAttributeType c t = .embeddedResource ∨
        Classification.ofAttributeType c t = .embeddedResourceArray) ∧
      c.embeddedName t = some held := by
  unfold Classification.ofAttributeType
  cases named : c.embeddedName t with
  | some embedded =>
    rw [Site.ofType_embedded named] at h
    cases h
    right
    cases t.unwrapArray.2 <;> simp
  | none =>
    left
    rw [← Site.ofType_inner] at h
    revert h
    cases t.inner with
    | union members =>
      intro h
      cases h
    | typedStruct name =>
      intro h
      rw [Site.ofType] at h
      split at h <;> cases h
    | keyword declared | tuple declared =>
      intro h
      rw [Site.ofType, Site.ofSlots] at h
      split at h
      · next empty => simp [empty]
      · cases h
    | _ => exact fun _ => rfl

end

namespace Descent
variable {c : Catalog} {e : Exposure} {held : String} (hidden : e.allows held = false)
include hidden

theorem enter_hidden (path : List String) : Descent.enter c e held path = unknown path [] := by
  unfold Descent.enter
  split
  · rw [hidden]
    rfl
  · rfl

theorem descend_hidden {position : Position}
    (leads : Site.ofPosition c position = .record held) (selection : Value) (path : List String) :
    descend c e position selection path = unknown path [] := by
  rw [descend_eq]
  cases position with
  | records name many =>
    cases leads
    rw [layer, enter_hidden hidden]
    rfl
  | value t =>
    rw [layer, typed]
    rcases Site.element_of_record leads with same | ⟨same, present⟩
    · rw [same]
      dsimp only
      rw [enter_hidden hidden]
      rfl
    · rw [same]
      dsimp only
      rw [if_pos present, enter_hidden hidden]
      rfl
  | untyped => cases leads

end Descent

/-- What a field holds, by the field of the resource that the name is: a record of the resource,
or many of them. -/
inductive Catalog.Leads (c : Catalog) (r : Resource) (name held : String) : Prop
  | stored {a : Attribute} : r.attribute? name = some a → Site.ofType c a.type = .record held →
      Leads c r name held
  | derived {a : Calculation} : r.attribute? name = none → r.calculation? name = some a →
      Site.ofType c a.type = .record held → Leads c r name held
  | summed {a : Aggregate} {t : TypeRef} : r.attribute? name = none → r.calculation? name = none →
      r.aggregate? name = some a → c.aggregateType? r a = some t →
      Site.ofType c t = .record held → Leads c r name held
  | linked {link : Relationship} : r.attribute? name = none → r.calculation? name = none →
      r.aggregate? name = none → r.relationship? name = some link → link.destination = held →
      Leads c r name held

/-- Such a field has a kind, which is not that of a plain calculation or aggregate, and only a link
has the kind of a link. -/
theorem Catalog.Leads.kind {c : Catalog} {r : Resource} {name held : String}
    (leads : c.Leads r name held) :
    (Classification.ofField c r name ≠ .notFound ∧ Classification.ofField c r name ≠ .calculation ∧
      Classification.ofField c r name ≠ .aggregate ∧
      ∀ way, Classification.ofField c r name ≠ .crashed way) ∧
    (Classification.ofField c r name = .relationship →
      ∃ link, r.relationship? name = some link ∧ link.destination = held) := by
  unfold Classification.ofField
  cases leads with
  | stored present record =>
    rw [present]
    dsimp only
    rcases attributeKind_of_record record with plain | ⟨single | many, -⟩
    · simp [plain]
    · simp [single]
    · simp [many]
  | @derived a absent present record =>
    rw [absent, present]
    dsimp only
    rw [requiresSelection_of_record record]
    cases a.arguments.isEmpty <;> simp
  | summed absent underived present typed record =>
    rw [absent, underived, present]
    simp [Catalog.aggregateType?_eq_some.1 typed, Classification.ofAggregateType,
      requiresSelection_of_record record]
  | linked absent underived unsummed present same =>
    rw [absent, underived, unsummed, present]
    simp [same]

/-- The nested selection passes what is checked before the records under the field are entered. -/
def Resource.Passes (r : Resource) (name : String) (here : List String) (nested : Value) :
    Classification → Prop
  | .embeddedResource => Selection.AsksSome nested
  | .embeddedResourceArray => Selection.AsksSome nested
  | .calculationWithArgs =>
    Arguments.isArgsForm nested = true ∧
    (∃ a args, r.calculation? name = some a ∧ Arguments.resolve a.arguments here name
      ((nested.get? Arguments.argsKey).getD .null) = .ok args) ∧
    Selection.AsksSome ((nested.get? Arguments.fieldsKey).getD .null)
  | .calculationComplex =>
    Descent.NoArgs nested ∧ Selection.AsksSome ((nested.get? Arguments.fieldsKey).getD nested)
  | .complexAggregate =>
    Descent.NoArgs nested ∧ Selection.AsksSome ((nested.get? Arguments.fieldsKey).getD nested)
  | _ => False

namespace Descent
variable {c : Catalog} {e : Exposure} {r : Resource} {name held : String} {nested : Value}
variable {path : List String}

/-- The outcome of checks that pass in the one case, and then of records that are hidden. -/
def Stops (here : List String) (name : String) (passes : Prop) (x : Outcome Level) : Prop :=
  ∃ (α : Type) (checks : Outcome α), x = (checks >>= fun _ => unknown here []) ∧
    checks.Checks here name ∧ ((∃ a, checks = .ok a) ↔ passes)

theorem stops_never {here : List String} {kind : Rejection.Kind} {detail : List (String × String)}
    (known : kind ≠ .unknownField) : Stops here name False (reject kind here (some name) detail) :=
  ⟨Unit, reject kind here (some name) detail, rfl, .reject known, by simp [reject]⟩

section
variable (hidden : e.allows held = false)
include hidden

theorem embeddedField_stops {a : Attribute} (present : r.attribute? name = some a)
    (embedded : c.embeddedName a.type = some held) :
    Stops (path ++ [name]) name (Selection.AsksSome nested)
      (embeddedField c (descend c e) r name nested path) := by
  refine ⟨List Value, Selection.requireSome "embedded" (path ++ [name]) (some name)
    (Selection.normalize nested), ?_, Selection.requireSome_checks _, Selection.requireSome_passes⟩
  have entered (selection : Value) :
      descend c e (.records held false) selection (path ++ [name]) = unknown (path ++ [name]) [] :=
    descend_hidden hidden rfl selection _
  simp only [embeddedField, present, embedded, entered]
  rfl

theorem derivedField_stops {kind : String} {t : TypeRef} (leads : Site.ofType c t = .record held) :
    Stops (path ++ [name]) name
      (NoArgs nested ∧ Selection.AsksSome ((nested.get? Arguments.fieldsKey).getD nested))
      (derivedField (descend c e) kind (.ok (some t)) name nested path) := by
  have entered (selection : Value) :
      descend c e (.ofType (some t)) selection (path ++ [name]) = unknown (path ++ [name]) [] :=
    descend_hidden hidden ((Site.ofPosition_ofType _).trans leads) selection _
  refine ⟨List Value, withoutForm (path ++ [name]) name nested >>= fun given =>
    Selection.requireSome kind (path ++ [name]) (some name) (Selection.normalize given), ?_,
    (withoutForm_checks nested).bind fun given => Selection.requireSome_checks _, ?_⟩
  · rw [derivedField, bind_assoc]
    refine bind_congr ?_
    intro given
    change (Selection.requireSome _ _ _ _ >>= fun fields =>
      descend c e (.ofType (some t)) (.list fields) _ >>= _) = _
    simp only [entered]
    rfl
  · constructor
    · rintro ⟨fields, h⟩
      obtain ⟨given, stripped, required⟩ := Outcome.bind_ok h
      obtain ⟨noArgs, rfl⟩ := withoutForm_passes.1 stripped
      exact ⟨noArgs, Selection.requireSome_passes.1 ⟨fields, required⟩⟩
    · rintro ⟨noArgs, asks⟩
      obtain ⟨fields, required⟩ := Selection.requireSome_passes.2 asks
      exact ⟨fields, by rw [withoutForm_passes.2 ⟨noArgs, rfl⟩]; exact required⟩

theorem calledField_stops {a : Calculation} (present : r.calculation? name = some a)
    (leads : Site.ofType c a.type = .record held) :
    Stops (path ++ [name]) name (r.Passes name (path ++ [name]) nested .calculationWithArgs)
      (calledField c (descend c e) r name nested path) := by
  have entered (selection : Value) :
      descend c e (.ofType (some a.type)) selection (path ++ [name]) = unknown (path ++ [name]) [] :=
    descend_hidden hidden ((Site.ofPosition_ofType _).trans leads) selection _
  simp only [calledField, present, requiresSelection_of_record leads, entered]
  cases form : Arguments.isArgsForm nested with
  | false =>
    refine ⟨Unit, Arguments.invalid _ name _, rfl, .reject (by decide), ?_⟩
    simp [Resource.Passes, form, Arguments.invalid, reject]
  | true =>
    refine ⟨Value, Arguments.resolve a.arguments (path ++ [name]) name
      ((nested.get? Arguments.argsKey).getD .null) >>= fun _ =>
        calledSelection true (path ++ [name]) name
          ((nested.get? Arguments.fieldsKey).getD .null), ?_,
      (Arguments.resolve_checks _).bind fun _ => calledSelection_checks _, ?_⟩
    · rw [bind_assoc]
      rfl
    · have selects : (∃ v, calledSelection true (path ++ [name]) name
          ((nested.get? Arguments.fieldsKey).getD .null) = .ok v) ↔
          Selection.AsksSome ((nested.get? Arguments.fieldsKey).getD .null) :=
        calledSelection_passes
      rw [Resource.Passes, ← selects]
      constructor
      · rintro ⟨selection, h⟩
        obtain ⟨args, resolved, called⟩ := Outcome.bind_ok h
        exact ⟨form, ⟨a, args, present, resolved⟩, selection, called⟩
      · rintro ⟨-, ⟨a', args, present', resolved⟩, selection, called⟩
        obtain rfl := Option.some.inj (present.symm.trans present')
        exact ⟨selection, by rw [resolved]; exact called⟩

end

/-- A field that leads to hidden records and is no link is worked on up to these. -/
theorem structured_stops (hidden : e.allows held = false) (leads : c.Leads r name held)
    (unlinked : Classification.ofField c r name ≠ .relationship) :
    Stops (path ++ [name]) name
      (r.Passes name (path ++ [name]) nested (.ofField c r name))
      (structured c (descend c e) r (.ofField c r name) name nested path) := by
  cases leads with
  | stored present record =>
    rw [Classification.ofField, present]
    dsimp only
    rcases attributeKind_of_record record with plain | ⟨single | many, embedded⟩
    · rw [plain]
      exact stops_never (by decide)
    · rw [single]
      exact embeddedField_stops hidden present embedded
    · rw [many]
      exact embeddedField_stops hidden present embedded
  | @derived a absent present record =>
    have selects := requiresSelection_of_record record
    rw [Classification.ofField, absent, present]
    dsimp only
    cases taken : a.arguments.isEmpty with
    | false => exact calledField_stops hidden present record
    | true =>
      have same : structured c (descend c e) r .calculationComplex name nested path =
          derivedField (descend c e) "complex_calculation" (.ok (some a.type)) name nested
            path := by
        rw [structured, derivedCalculation, present, Option.map_some]
      simp only [Bool.not_true, Bool.false_eq_true, if_false, selects, if_true, same]
      exact derivedField_stops hidden record
  | @summed a t absent underived present typed record =>
    have selects := requiresSelection_of_record record
    have resolved := Catalog.aggregateType?_eq_some.1 typed
    have same : structured c (descend c e) r .complexAggregate name nested path =
        derivedField (descend c e) "complex_aggregate" (.ok (some t)) name nested path := by
      rw [structured, derivedAggregate, summaryType, present, Option.map_some, resolved]
      rfl
    rw [Classification.ofField, absent, underived, present]
    simp only [resolved, Classification.ofAggregateType, selects, if_true, same]
    exact derivedField_stops hidden record
  | linked absent underived unsummed present leads =>
    rw [Classification.ofField, absent, underived, unsummed, present] at unlinked
    exact absurd rfl unlinked

theorem leaf_ok {kind : Classification} {l : Level} (h : leaf kind name path = .ok l) :
    kind = .attribute ∧ l = ⟨[name], [], [.field name]⟩ ∨ kind = .calculation ∨
      kind = .aggregate := by
  unfold leaf at h
  split at h
  · cases h
    exact Or.inl ⟨rfl, rfl⟩
  · exact Or.inr (Or.inl rfl)
  · exact Or.inr (Or.inr rfl)
  all_goals cases h

theorem leaf_checks {kind : Classification} (known : kind ≠ .notFound)
    (sound : ∀ way, kind ≠ .crashed way) : (leaf kind name path).Checks (path ++ [name]) name := by
  cases kind with
  | crashed way => exact absurd rfl (sound way)
  | _ => first | exact .ok _ | exact .reject (by decide) | exact absurd rfl known

/-- How it ends to ask for a field that leads to hidden records. -/
inductive Ends (r : Resource) (path : List String) (spelled name : String) (request : Request)
    (kind : Classification) : Outcome Level → Prop
  | link : kind = .relationship → Ends r path spelled name request kind
      (.error (.rejected
        ⟨.unknownField, path ++ [spelled], some spelled, [("resource", .str r.name)]⟩))
  | taken : kind = .attribute → request = .bare → Ends r path spelled name request kind
      (.ok ⟨[name], [], [.field name]⟩)
  | entered {v : Value} : kind ≠ .relationship → request.nested? = some v →
      r.Passes name (path ++ [name]) v kind → Ends r path spelled name request kind
      (.error (.rejected ⟨.unknownField, path ++ [name], some name, []⟩))
  | refused {rejection : Rejection} : kind ≠ .relationship →
      ¬(kind = .attribute ∧ request = .bare) →
      (∀ v, request.nested? = some v → ¬r.Passes name (path ++ [name]) v kind) →
      rejection.kind ≠ .unknownField → rejection.path = path ++ [name] →
      rejection.field = some name → Ends r path spelled name request kind
      (.error (.rejected rejection))

namespace Ends
variable {spelled : String} {request : Request} {kind : Classification} {x : Outcome Level}
variable (h : Ends r path spelled name request kind x)
include h

theorem unknown_iff :
    (∃ rejection, x = .error (.rejected rejection) ∧ rejection.kind = .unknownField ∧
      (rejection.path = path ++ [spelled] ∨ rejection.path = path ++ [name])) ↔
    kind = .relationship ∨
      ∃ v, request.nested? = some v ∧ r.Passes name (path ++ [name]) v kind := by
  cases h with
  | link linked => exact iff_of_true ⟨_, rfl, rfl, Or.inl rfl⟩ (Or.inl linked)
  | taken stored bare =>
    refine iff_of_false (by rintro ⟨_, ⟨⟩, _⟩) ?_
    rintro (linked | ⟨v, asked, -⟩)
    · rw [stored] at linked
      cases linked
    · rw [bare] at asked
      cases asked
  | entered unlinked asked passed =>
    exact iff_of_true ⟨_, rfl, rfl, Or.inr rfl⟩ (Or.inr ⟨_, asked, passed⟩)
  | refused unlinked untaken unpassed other place field =>
    refine iff_of_false ?_ ?_
    · rintro ⟨rejection, ⟨⟩, unknown, -⟩
      exact other unknown
    · rintro (linked | ⟨v, asked, passed⟩)
      · exact unlinked linked
      · exact unpassed v asked passed

theorem missing_iff :
    x = .error (.rejected
      ⟨.unknownField, path ++ [spelled], some spelled, [("resource", .str r.name)]⟩) ↔
    kind = .relationship := by
  cases h with
  | link linked => exact iff_of_true rfl linked
  | taken stored bare =>
    refine iff_of_false nofun ?_
    rw [stored]
    nofun
  | entered unlinked asked passed =>
    refine iff_of_false ?_ unlinked
    intro same
    simp at same
  | refused unlinked untaken unpassed other place field =>
    refine iff_of_false ?_ unlinked
    rintro ⟨⟩
    exact other rfl

theorem taken_iff (l : Level) :
    x = .ok l ↔ kind = .attribute ∧ request = .bare ∧ l = ⟨[name], [], [.field name]⟩ := by
  cases h with
  | link linked =>
    refine iff_of_false nofun ?_
    rintro ⟨stored, -⟩
    rw [stored] at linked
    cases linked
  | taken stored bare =>
    rw [Except.ok.injEq, eq_comm]
    exact ⟨fun same => ⟨stored, bare, same⟩, fun all => all.2.2⟩
  | entered unlinked asked passed =>
    refine iff_of_false nofun ?_
    rintro ⟨-, rfl, -⟩
    cases asked
  | refused unlinked untaken unpassed other place field =>
    exact iff_of_false nofun fun ⟨stored, bare, _⟩ => untaken ⟨stored, bare⟩

theorem rejected {failure : Failure} (failed : x = .error failure) :
    ∃ rejection, failure = .rejected rejection := by
  cases h <;> cases failed <;> exact ⟨_, rfl⟩

end Ends

theorem recordEntry_ends {spelled : String} {request : Request} (hidden : e.allows held = false)
    (leads : c.Leads r name held) (classified : classify c r name = .ofField c r name) :
    Ends r path spelled name request (.ofField c r name)
      (recordEntry c e (descend c e) r path ⟨spelled, name, request⟩) := by
  obtain ⟨⟨known, plain, sum, sound⟩, link⟩ := leads.kind
  by_cases linked : Classification.ofField c r name = .relationship
  · obtain ⟨link, present, same⟩ := link linked
    have shown : visibleKind c e r name = .notFound := by
      simp [visibleKind, classified, linked, present, exposed, same, hidden]
    rw [recordEntry, shown, unknown_concat]
    exact .link linked
  · have shown : visibleKind c e r name = .ofField c r name := by
      rw [visibleKind, classified]
      split
      · next link => exact absurd link linked
      · rfl
    rw [recordEntry, shown]
    split
    · next missing => exact absurd missing known
    · next way crashes => exact absurd crashes (sound way)
    · split
      · next asked =>
        have bare := Request.eq_bare asked
        cases worked : leaf (.ofField c r name) name path with
        | ok l =>
          rcases leaf_ok worked with ⟨stored, rfl⟩ | other | other
          · exact .taken stored bare
          · exact absurd other plain
          · exact absurd other sum
        | error failure =>
          obtain ⟨rejection, rfl, other, place, field⟩ := leaf_checks known sound failure worked
          refine .refused linked ?_ ?_ other place field
          · rintro ⟨stored, -⟩
            rw [stored] at worked
            cases worked
          · intro v nested
            rw [asked] at nested
            cases nested
      · next v asked =>
        have stops : Stops (path ++ [name]) name
            (r.Passes name (path ++ [name]) v (.ofField c r name))
            (structured c (descend c e) r (.ofField c r name) name v path) :=
          structured_stops hidden leads linked
        obtain ⟨α, checks, same, checked, passes⟩ := stops
        rw [same]
        cases ran : checks with
        | ok a =>
          change Ends r path spelled name request _ (unknown (path ++ [name]) [])
          rw [unknown_concat]
          exact .entered linked asked (passes.1 ⟨a, ran⟩)
        | error failure =>
          obtain ⟨rejection, rfl, other, place, field⟩ := checked failure ran
          refine .refused linked ?_ ?_ other place field
          · rintro ⟨-, rfl⟩
            cases asked
          · intro v' nested passed
            rw [asked] at nested
            cases nested
            obtain ⟨a, accepted⟩ := passes.2 passed
            rw [ran] at accepted
            cases accepted

end Descent

section
variable {c : Catalog} {e : Exposure} {resource held : String} {r : Resource} {many : Bool}
variable {selection element : Value} {n : String} {request : Request} {path : List String}

theorem descend_single (found : c.resource? resource = some r) (allowed : e.allows resource = true)
    (level : Selection.normalize selection = .list [element])
    (asks : Selection.Asks element [(n, request)]) :
    descend c e (.records resource many) selection path =
      Descent.recordEntry c e (descend c e) r path ⟨n, r.internalField n, request⟩ := by
  have entered : Descent.enter c e resource path = .ok r := by
    rw [Descent.enter, found]
    exact if_pos allowed
  have formed : Selection.WellFormed [element] := by
    intro other only
    rw [List.mem_singleton.1 only]
    exact ⟨_, asks⟩
  have entries : Selection.entriesOf r.internalField [element] =
      [⟨n, r.internalField n, request⟩] :=
    Selection.entriesOf_cons r.internalField [] asks
  have read : Selection.read r.internalField path [element] =
      .ok [⟨n, r.internalField n, request⟩] :=
    Selection.read_ok_iff.2 ⟨formed, entries.symm, by simp⟩
  rw [descend_eq, Descent.layer, entered]
  change Descent.record c e (descend c e) r selection path = _
  rw [Descent.record, level]
  dsimp only
  rw [read]
  change (Descent.recordEntry _ _ _ _ _ _ >>= _) = _
  cases Descent.recordEntry c e (descend c e) r path ⟨n, r.internalField n, request⟩ with
  | error failure => rfl
  | ok l =>
    change Except.ok (l ++ Level.empty) = _
    congr 1
    change Level.mk _ _ _ = l
    simp [Level.empty]

/-- The exact cases in which a field that leads to hidden records is unknown. A link always is,
as a field that does not exist would be. Any other field is unknown only to a request that
passes the checks made before the records are entered, and a stored field asked for by its
name alone is taken. -/
theorem hidden_field_unknown_iff (found : c.resource? resource = some r)
    (allowed : e.allows resource = true) (level : Selection.normalize selection = .list [element])
    (asks : Selection.Asks element [(n, request)]) (leads : c.Leads r (r.internalField n) held)
    (classified : classify c r (r.internalField n) = .ofField c r (r.internalField n))
    (hidden : e.allows held = false) :
    let f := r.internalField n
    let kind := Classification.ofField c r f
    let outcome := descend c e (.records resource many) selection path
    ((∃ rejection, outcome = .error (.rejected rejection) ∧ rejection.kind = .unknownField ∧
        (rejection.path = path ++ [n] ∨ rejection.path = path ++ [f])) ↔
      kind = .relationship ∨
        ∃ v, request.nested? = some v ∧ r.Passes f (path ++ [f]) v kind) ∧
    (outcome = .error (.rejected
        ⟨.unknownField, path ++ [n], some n, [("resource", .str r.name)]⟩) ↔
      kind = .relationship) ∧
    (∀ l, outcome = .ok l ↔
      kind = .attribute ∧ request = .bare ∧ l = ⟨[f], [], [.field f]⟩) ∧
    ∀ failure, outcome = .error failure → ∃ rejection, failure = .rejected rejection := by
  intro f kind outcome
  have ends : Descent.Ends r path n f request kind outcome := by
    simp only [outcome, descend_single found allowed level asks]
    exact Descent.recordEntry_ends hidden leads classified
  exact ⟨ends.unknown_iff, ends.missing_iff, ends.taken_iff, fun failure => ends.rejected⟩

end

/-- Clients that do not know persons get the keeper of a trip, while the guide, a person too,
is unknown to them. -/
theorem keeper_taken_guide_unknown :
    (Travel.catalog.resource? "Trip" = some Travel.trip ∧
      Travel.catalog.Leads Travel.trip "keeper" "Person" ∧
      Travel.catalog.Leads Travel.trip "guide" "Person" ∧
      Exposure.allows (some ["Trip"]) "Person" = false) ∧
    descend Travel.catalog (some ["Trip"]) (.records "Trip" true) (.list [.str "keeper"]) [] =
      .ok ⟨["keeper"], [], [.field "keeper"]⟩ ∧
    descend Travel.catalog (some ["Trip"]) (.records "Trip" true) (.list [.str "guide"]) [] =
      .error (.rejected ⟨.unknownField, ["guide"], some "guide", [("resource", .str "Trip")]⟩) := by
  have found : Travel.catalog.resource? "Trip" = some Travel.trip := by with_unfolding_all rfl
  have allowed : Exposure.allows (some ["Trip"]) "Trip" = true := by decide
  have hidden : Exposure.allows (some ["Trip"]) "Person" = false := by decide
  have keeper : Travel.trip.internalField "keeper" = "keeper" := by with_unfolding_all rfl
  have guide : Travel.trip.internalField "guide" = "guide" := by with_unfolding_all rfl
  have stored : Travel.catalog.Leads Travel.trip "keeper" "Person" := by
    have present : Travel.trip.attribute? "keeper" =
        some { name := "keeper", type := .resource "Person" } := by
      with_unfolding_all rfl
    exact .stored present rfl
  have linked : Travel.catalog.Leads Travel.trip "guide" "Person" := by
    have present : Travel.trip.relationship? "guide" =
        some { name := "guide", destination := "Person" } := by
      with_unfolding_all rfl
    exact .linked (by with_unfolding_all rfl) (by with_unfolding_all rfl)
      (by with_unfolding_all rfl) present rfl
  have asks (name : String) (named : name ≠ "") :
      Selection.Asks (.str name) [(name, .bare)] :=
    ⟨rfl, by simpa using named⟩
  obtain ⟨-, -, taken, -⟩ := @hidden_field_unknown_iff Travel.catalog (some ["Trip"]) "Trip"
    "Person" Travel.trip true (.list [.str "keeper"]) (.str "keeper") "keeper" .bare [] found
    allowed rfl (asks "keeper" (by decide)) (by rw [keeper]; exact stored)
    (by with_unfolding_all rfl) hidden
  obtain ⟨-, unknown, -⟩ := @hidden_field_unknown_iff Travel.catalog (some ["Trip"]) "Trip"
    "Person" Travel.trip true (.list [.str "guide"]) (.str "guide") "guide" .bare [] found
    allowed rfl (asks "guide" (by decide)) (by rw [guide]; exact linked)
    (by with_unfolding_all rfl) hidden
  rw [keeper] at taken
  rw [guide] at unknown
  refine ⟨⟨found, stored, linked, hidden⟩, ?_, ?_⟩
  · exact (taken _).2 ⟨by with_unfolding_all rfl, rfl, rfl⟩
  · exact unknown.2 (by with_unfolding_all rfl)

end FieldPlan
