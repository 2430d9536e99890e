import FieldPlan.Proofs.Accepts.Fields
import FieldPlan.Proofs.Listed
import FieldPlan.Proofs.Offence
import FieldPlan.Proofs.Pointing.Fields

/-! A list for a mapping by itself. The outcome of a selection stays the same when lone mappings
in it are put into lists, save for the structs and tuples that are stored with a record: there
a mapping by itself is turned down. -/
namespace FieldPlan
namespace Descent
variable {c : Catalog} {e : Exposure} {f : Descend} {m n : Nat}

/-! ### Fields -/

section
variable {r : Resource} {resource name : String} {path : List String} {v w : Value}

theorem handOn_listed {kind : String} {field : Option String} {position : Position}
    {next : Level → Outcome Level} (lists : ListsBelow c (m + 1) f)
    (h : Listed c m (.ofPosition c position) v w) :
    (Selection.requireSome kind path field (Selection.normalize v) >>= fun fields =>
        f position (.list fields) path >>= next) =
      (Selection.requireSome kind path field (Selection.normalize w) >>= fun fields =>
        f position (.list fields) path >>= next) := by
  refine h.requireSome.bind_eq fun fields fields' listed => ?_
  rw [lists m (Nat.lt_succ_self m) _ _ _ _ listed]

theorem calledSelection_listed {s : Site} {needed : Bool} (h : Listed c m s v w) :
    Outcome.Both (Listed c m s) (calledSelection needed path name v)
      (calledSelection needed path name w) := by
  cases needed with
  | true =>
    simp only [calledSelection, if_true]
    rw [h.normalize.isNull]
    split
    · exact .reject
    · exact h.requireSome.bind fun _ _ listed => .ok listed
  | false =>
    simp only [calledSelection, Bool.false_eq_true, if_false]
    rw [h.isNull]
    split
    · exact .ok (.refl c m s _)
    · exact .ok h

theorem withoutForm_listed {related : Value → Value → Prop}
    (fields : (w.get? Arguments.fieldsKey).isSome = (v.get? Arguments.fieldsKey).isSome)
    (args : (v.get? Arguments.fieldsKey).isSome = true →
      (w.get? Arguments.argsKey).isSome = (v.get? Arguments.argsKey).isSome)
    (below : related ((v.get? Arguments.fieldsKey).getD v)
      ((w.get? Arguments.fieldsKey).getD w)) :
    Outcome.Both related (withoutForm path name v) (withoutForm path name w) := by
  unfold withoutForm
  cases held : v.get? Arguments.fieldsKey with rw [held] at fields args below
  | none =>
    have none : w.get? Arguments.fieldsKey = none := by simpa using fields
    rw [none] at below ⊢
    exact .ok below
  | some inner =>
    obtain ⟨inner', held'⟩ := Option.isSome_iff_exists.1 fields
    rw [held'] at below ⊢
    dsimp only
    rw [args rfl]
    split
    · exact .reject
    · exact .ok below

theorem inside_eq (found : c.resource? resource = some r) {t : Site}
    (leads : Site.ofField c r name = some t) : (Site.record resource).inside c name = t := by
  simp [Site.inside, Site.under, found, leads]

variable (found : c.resource? resource = some r) (lists : ListsBelow c (m + 1) f)
variable (under : ListedUnder c (Listed c m) (.record resource) name v w)
include found under

theorem inside_listed (called : classify c r name ≠ .calculationWithArgs)
    (derived : classify c r name ≠ .calculationComplex ∧
      classify c r name ≠ .complexAggregate) :
    Listed c m ((Site.record resource).inside c name) v w := by
  rw [← Site.kind_record found] at called derived
  exact under.inside called derived

theorem requireSome_stored {description : String} {field : Option String}
    (kind : classify c r name = .typedStruct ∨ classify c r name = .tuple) :
    Outcome.Both
      (fun fields fields' =>
        Listed c m ((Site.record resource).inside c name) (.list fields) (.list fields'))
      (Selection.requireSome description path field v)
      (Selection.requireSome description path field w) := by
  rw [← Site.kind_record found] at kind
  obtain ⟨lists, below⟩ := under.of_stored kind
  exact below.requireSome_stored lists

include lists

theorem linkField_listed (kind : classify c r name = .relationship) :
    linkField f r name v path = linkField f r name w path := by
  have inner := inside_listed found under (by simp [kind]) (by simp [kind])
  simp only [linkField]
  cases present : r.relationship? name with
  | none => exact inner.requireSome.bind_eq fun _ _ _ => rfl
  | some link =>
    rw [inside_eq found (ofField_link kind present)] at inner
    exact handOn_listed lists inner

theorem embeddedField_listed
    (kind : classify c r name = .embeddedResource ∨ classify c r name = .embeddedResourceArray) :
    embeddedField c f r name v path = embeddedField c f r name w path := by
  have inner : Listed c m ((Site.record resource).inside c name) v w := by
    apply inside_listed found under <;> rcases kind with kind | kind <;> simp [kind]
  simp only [embeddedField]
  cases stored : r.attribute? name with
  | none => exact inner.requireSome.bind_eq fun _ _ _ => rfl
  | some a =>
    dsimp only
    cases typed : c.embeddedName a.type with
    | none => exact inner.requireSome.bind_eq fun _ _ _ => rfl
    | some embedded =>
      rw [inside_eq found (ofField_embedded kind stored typed)] at inner
      exact handOn_listed lists inner

theorem calledField_listed (kind : classify c r name = .calculationWithArgs) :
    calledField c f r name v path = calledField c f r name w path := by
  have shape := Site.kind_record found name
  rw [kind] at shape
  obtain ⟨form, forms⟩ := under.of_called shape
  simp only [calledField, form]
  cases present : r.calculation? name with
  | none => rfl
  | some calculation =>
    dsimp only
    split
    · rfl
    · next called =>
      obtain ⟨args, below⟩ := forms (by simpa using called)
      rw [inside_eq found (ofField_called kind present)] at below
      simp only [Site.given, shape] at below
      rw [args]
      -- the same arguments are resolved in one way
      refine (@Outcome.Both.refl _ Eq Eq.refl _).bind_eq fun given _ same => ?_
      subst same
      refine (calledSelection_listed below).bind_eq fun selection selection' listed => ?_
      rw [← Site.ofPosition_ofType] at listed
      rw [lists m (Nat.lt_succ_self m) _ _ _ _ listed]

theorem derivedField_listed {description : String} {type : Outcome (Option TypeRef)}
    (kind : classify c r name = .calculationComplex ∨ classify c r name = .complexAggregate)
    (leads : ∀ t, type = .ok t → Site.ofField c r name = some (Site.ofPosition c (.ofType t))) :
    derivedField f description type name v path =
      derivedField f description type name w path := by
  have shape := Site.kind_record found name
  have given (nested : Value) : (Site.record resource).given c name nested =
      (nested.get? Arguments.fieldsKey).getD nested := by
    rcases kind with kind | kind <;> simp only [Site.given, shape, kind]
  rw [← shape] at kind
  obtain ⟨fields, args, below⟩ := under.of_derived kind
  rw [given, given] at below
  refine (withoutForm_listed fields args below).bind_eq fun given given' listed => ?_
  cases typed : type with
  | error failure => rfl
  | ok t =>
    rw [inside_eq found (leads t typed)] at listed
    exact handOn_listed lists listed

theorem unionField_listed (kind : classify c r name = .unionAttribute) :
    unionField c f r name v path = unionField c f r name w path := by
  have inner := inside_listed found under (by simp [kind]) (by simp [kind])
  unfold unionField
  split
  · next declared typed =>
    rw [inside_eq found (ofField_attribute typed (.inl kind)), Site.ofType] at inner
    rw [unionMembers_listed (lists.mono (Nat.le_succ m)) inner]
  · rfl

theorem structField_listed (kind : classify c r name = .typedStruct) :
    structField c f r name v path = structField c f r name w path := by
  simp only [structField]
  split
  · next struct typed =>
    refine (requireSome_stored found under (.inl kind)).bind_eq fun fields fields' listed => ?_
    rw [inside_eq found (ofField_attribute typed (.inr (.inl kind)))] at listed
    rw [structMembers_listed (lists.mono (Nat.le_succ m)) listed]
  · rfl

theorem tupleField_listed (kind : classify c r name = .tuple) :
    tupleField c f r name v path = tupleField c f r name w path := by
  simp only [tupleField]
  split
  · next declared present =>
    refine (requireSome_stored found under (.inr kind)).bind_eq fun fields fields' listed => ?_
    rw [inside_eq found (ofField_tuple kind present)] at listed
    rw [tupleSlots, plainSlots_listed (lists.mono (Nat.le_succ m)) listed, ← tupleSlots]
  · rfl

theorem structured_listed :
    structured c f r (classify c r name) name v path =
      structured c f r (classify c r name) name w path := by
  cases kind : classify c r name with
  | relationship => exact linkField_listed found lists under kind
  | embeddedResource => exact embeddedField_listed found lists under (.inl kind)
  | embeddedResourceArray => exact embeddedField_listed found lists under (.inr kind)
  | calculationWithArgs => exact calledField_listed found lists under kind
  | calculationComplex =>
    exact derivedField_listed found lists under (.inl kind) fun _ => ofField_derived kind
  | complexAggregate =>
    exact derivedField_listed found lists under (.inr kind) fun _ => ofField_summed kind
  | unionAttribute => exact unionField_listed found lists under kind
  | typedStruct => exact structField_listed found lists under kind
  | tuple => exact tupleField_listed found lists under kind
  | _ => rfl

end

/-! ### Layers -/

section
variable {r : Resource} {path : List String} {v w : Value}

theorem recordEntry_listed {resource : String} (found : c.resource? resource = some r)
    {a b : Entry} (lists : ListsBelow c (m + 1) f)
    (alike : Entry.Listed c (Listed c m) (.record resource) a b) :
    recordEntry c e f r path a = recordEntry c e f r path b := by
  obtain ⟨request⟩ := alike
  cases request with
  | same => rfl
  | nested nests keyed under =>
    unfold recordEntry
    dsimp only
    split
    · rfl
    · rfl
    · next visible sound =>
      rw [visibleKind_eq visible sound]
      simp only [nests]
      exact structured_listed found lists under

theorem entered_listed {resource : String} (lists : ListsBelow c n f)
    (h : Listed c n (.record resource) v w) :
    (do record c e f (← enter c e resource path) v path) =
      (do record c e f (← enter c e resource path) w path) := by
  cases entered : enter c e resource path with
  | error failure => rfl
  | ok r =>
    have found := (enter_ok entered).1
    change record c e f r v path = record c e f r w path
    unfold record
    rcases h.cases_level with rfl | ⟨fields, fields', same, same', listed⟩
    · rfl
    · rw [same, same', ← Site.resolve_record found]
      exact level_listed listed fun _ lt _ _ => recordEntry_listed found (lists.mono lt)

theorem typed_listed {t : TypeRef} (lists : ListsBelow c n f) (h : Listed c n (.ofType c t) v w) :
    typed c e f t v path = typed c e f t w path := by
  rw [← Site.ofType_element] at h
  cases shape : t.element with (rw [shape] at h; simp only [typed, shape])
  | resource name => exact entered_listed lists h
  | map declared => exact container_listed lists h
  | keyword declared => exact container_listed lists h
  | tuple declared => exact container_listed lists h
  | struct instanceOf =>
    cases instanceOf with
    | none => exact untyped_listed lists h
    | some name =>
      rw [Site.ofType] at h
      dsimp only
      split
      · next present =>
        rw [if_pos present] at h
        exact entered_listed lists h
      · next absent =>
        rw [if_neg absent] at h
        exact untyped_listed lists h
  | typedStruct name =>
    refine h.requireSome.bind_eq fun fields fields' listed => ?_
    exact structMembers_listed lists listed
  | union declared => exact unionMembers_listed lists h
  | any => exact untyped_listed lists h
  | primitive kind oneOf => rw [h.isBlank]
  | array item => exact absurd shape (Site.element_ne_array t item)

theorem layer_listed {position : Position} (lists : ListsBelow c n f)
    (h : Listed c n (.ofPosition c position) v w) :
    layer c e f position v path = layer c e f position w path := by
  cases position with
  | records name many => exact entered_listed lists h
  | value t => exact typed_listed lists h
  | untyped => exact untyped_listed lists h

end
end Descent

theorem descend_listed {c : Catalog} {e : Exposure} {n : Nat} {position : Position} {v w : Value}
    {path : List String} (h : Listed c n (.ofPosition c position) v w) :
    descend c e position v path = descend c e position w path := by
  induction n using Nat.strongRecOn generalizing position v w path with
  | ind n ih =>
    rw [descend_eq, descend_eq c e position w]
    -- what a layer hands on differs on fewer levels, whatever it weighs
    refine Descent.layer_listed ?_ h
    intro m lt position v w path listed
    exact ih m lt listed

theorem plan_eq_of_listed {c : Catalog} {root action : String} {v w : Value} {e : Exposure}
    (alike : ∀ s, Site.ofResult c root action = some s → ∃ n, Listed c n s v w) :
    plan c root action v e = plan c root action w e := by
  rcases plan_cases c root action e with ⟨failure, -, failed⟩ | ⟨e', position, result, work⟩
  · rw [failed, failed]
  · obtain ⟨n, listed⟩ := alike _ result
    rw [work, work]
    exact descend_listed listed.normalize

/-! ### Mappings that are turned down -/

def Outcome.TakesList (here : List String) (x : Outcome Level) : Prop :=
  ∀ r, x = .error (.rejected r) → r.kind = .unsupportedFieldCombination → r.path ≠ here

theorem descend_path_length {c : Catalog} {e : Exposure} {position : Position} {v : Value}
    {path : List String} {r : Rejection}
    (h : descend c e position v path = .error (.rejected r)) : path.length ≤ r.path.length := by
  obtain ⟨way, t, final, -, place⟩ := (descend_points c e position v path r h).place
  cases place with
  | level place => simp [place]
  | entry _ place => simp [place]
  | spelled _ _ place => simp [place]

namespace Descent
variable {c : Catalog} {e : Exposure} {r : Resource} {name : String} {path here : List String}

theorem collect_takesList {part : Entry → Outcome Level} {entries : List Entry}
    (parts : ∀ entry ∈ entries, (part entry).TakesList here) :
    (collect part entries).TakesList here := by
  induction entries with
  | nil => nofun
  | cons entry rest ih =>
    obtain ⟨first, others⟩ := List.forall_mem_cons.1 parts
    intro r failed
    rw [collect] at failed
    cases one : part entry with rw [one] at failed
    | error failure => exact first r (by rw [one]; exact failed)
    | ok head =>
      cases more : collect part rest with
      | error failure => 
        apply ih others r
        rw [more] at failed ⊢
        exact failed
      | ok tail =>
        rw [more] at failed
        cases failed

theorem slotEntry_takesList {kind : String} {declared : List (Slot TypeRef)} (entry : Entry) :
    (slotEntry c (descend c e) kind declared here entry).TakesList here := by
  intro r failed known
  unfold slotEntry at failed
  split at failed
  · cases failed
    cases known
  · next slot found =>
    split at failed
    · split at failed
      · cases failed
        cases known
      · cases failed
    · next v asked =>
      cases worked : descend c e (.ofType slot.type) v (here ++ [slot.name]) with
        rw [worked] at failed
      | ok below => cases failed
      | error failure =>
        cases failed
        have longer := descend_path_length worked
        intro same
        rw [same, List.length_append, List.length_singleton] at longer
        omega

theorem slots_takesList {kind : String} {resolve : String → String}
    {declared : List (Slot TypeRef)} (fields : List Value) :
    (slots c (descend c e) kind resolve declared (.list fields) here).TakesList here := by
  intro r failed known
  simp only [slots] at failed
  cases read : Selection.read resolve here fields with rw [read] at failed
  | error failure =>
    obtain ⟨wrong, rfl, faulty⟩ := Selection.read_error_iff.1 read
    cases failed
    cases faulty <;> cases known
  | ok entries =>
    have parts : (collect (slotEntry c (descend c e) kind declared here) entries).TakesList here :=
      collect_takesList fun entry _ => slotEntry_takesList entry
    exact parts r failed known

/-- A struct or a tuple that is stored with the record, after at most one level of arrays. -/
inductive Stored (c : Catalog) (r : Resource) (name : String) : String → Prop
  | struct {struct : String} (kind : classify c r name = .typedStruct)
      (type : attributeType? r name = some (.typedStruct struct)) : Stored c r name "typed_struct"
  | tuple {declared : List (Slot TypeRef)} (kind : classify c r name = .tuple)
      (type : (attributeType? r name).bind tupleSlots? = some declared) : Stored c r name "tuple"

/-- A calculation or an aggregate that is asked for by an object, with arguments or fields. -/
def AsksByObject (c : Catalog) (r : Resource) (name : String) (v : Value) : Prop :=
  classify c r name = .calculationWithArgs ∧ Arguments.isArgsForm v = true ∨
    (classify c r name = .calculationComplex ∨ classify c r name = .complexAggregate) ∧
      (v.get? Arguments.fieldsKey).isSome = true

theorem stored_mapping {kind : String} (stored : Stored c r name kind)
    (entries : List (Value × Value)) :
    structured c (descend c e) r (classify c r name) name (.mapping entries) path =
      .error (.rejected ⟨.unsupportedFieldCombination, path ++ [name], some name,
        [("kind", .str kind)]⟩) := by
  cases stored with
  | struct kind type =>
    simp only [kind, structured, structField, type]
    rfl
  | tuple kind type =>
    simp only [kind, structured, tupleField, type]
    rfl

theorem stored_list {kind : String} (stored : Stored c r name kind) (first : Value)
    (rest : List Value) :
    (structured c (descend c e) r (classify c r name) name (.list (first :: rest))
      path).TakesList (path ++ [name]) := by
  have after {x : Outcome Level} {f : Level → Level} (takes : x.TakesList (path ++ [name])) :
      Outcome.TakesList (path ++ [name]) (x >>= fun l => .ok (f l)) := by
    intro r failed
    cases x with
    | error failure => exact takes r failed
    | ok l => cases failed
  cases stored with
  | @struct struct kind type =>
    simp only [kind, structured, structField, type]
    apply after
    intro r failed
    cases found : c.struct struct with
    | error fault =>
      simp only [structMembers, found] at failed
      cases failed
    | ok s =>
      simp only [structMembers, found] at failed
      exact slots_takesList (first :: rest) r failed
  | tuple kind type =>
    simp only [kind, structured, tupleField, type]
    apply after
    exact slots_takesList (first :: rest)

theorem Stored.kind {kind : String} (stored : Stored c r name kind) :
    classify c r name = .typedStruct ∨ classify c r name = .tuple := by
  cases stored with
  | struct kind => exact .inl kind
  | tuple kind => exact .inr kind

theorem recordEntry_stored {f : Descend} {spelled : String} {request : Request} {v : Value}
    (kind : classify c r name = .typedStruct ∨ classify c r name = .tuple)
    (asked : request.nested? = some v) :
    recordEntry c e f r path ⟨spelled, name, request⟩ =
      structured c f r (classify c r name) name v path := by
  rcases kind with kind | kind <;> simp [recordEntry, visibleKind, kind, asked]

theorem wrapped_under {level : Site → Value → Value → Prop} {resource : String}
    (found : c.resource? resource = some r) {first : Value × Value} {rest : List (Value × Value)}
    (free : ¬AsksByObject c r name (.mapping (first :: rest)))
    (kind : ¬(classify c r name = .typedStruct ∨ classify c r name = .tuple))
    (below : level ((Site.record resource).inside c name) (.mapping (first :: rest))
      (.list [.mapping (first :: rest)])) :
    ListedUnder c level (.record resource) name (.mapping (first :: rest))
      (.list [.mapping (first :: rest)]) := by
  have shape := Site.kind_record found name
  obtain ⟨uncalled, fieldless⟩ := not_or.1 free
  by_cases called : classify c r name = .calculationWithArgs
  · have form : Arguments.isArgsForm (.mapping (first :: rest)) = false :=
      Bool.eq_false_iff.2 fun form => uncalled ⟨called, form⟩
    exact .uncalled (shape.trans called) form rfl below
  · by_cases derived : classify c r name = .calculationComplex ∨
        classify c r name = .complexAggregate
    · have fields : (Value.mapping (first :: rest)).get? Arguments.fieldsKey = none := by
        by_contra held
        exact fieldless ⟨derived, Option.isSome_iff_ne_none.2 held⟩
      refine .derived (by rwa [shape]) (by rw [fields]; rfl) (by simp [fields]) ?_
      have given (v : Value) (none : v.get? Arguments.fieldsKey = none) :
          (Site.record resource).given c name v = v := by
        rcases derived with derived | derived <;>
          simp [Site.given, shape, derived, none]
      rwa [given _ fields, given _ rfl]
    · refine .other ?_ below
      rw [shape]
      simp only [List.mem_cons, List.not_mem_nil, or_false]
      tauto

/-- At a record a mapping by itself, no object form, is worked on like the list of it just if the
name is no struct and no tuple that is stored with the record. -/
theorem recordEntry_wrapped_iff {resource spelled : String}
    (found : c.resource? resource = some r) {first : Value × Value} {rest : List (Value × Value)}
    {way : Value → Request} (nests : ∀ v, (way v).nested? = some v)
    (free : ¬AsksByObject c r name (.mapping (first :: rest))) :
    recordEntry c e (descend c e) r path ⟨spelled, name, way (.mapping (first :: rest))⟩ =
        recordEntry c e (descend c e) r path
          ⟨spelled, name, way (.list [.mapping (first :: rest)])⟩ ↔
      ∀ kind, ¬Stored c r name kind := by
  constructor
  · intro same kind stored
    rw [recordEntry_stored stored.kind (nests _), recordEntry_stored stored.kind (nests _),
      stored_mapping stored] at same
    exact stored_list stored _ _ _ same.symm rfl rfl
  · intro plain
    by_cases kind : classify c r name = .typedStruct ∨ classify c r name = .tuple
    · -- the type of the name itself is another, so that it is unknown
      rw [recordEntry_stored kind (nests _), recordEntry_stored kind (nests _)]
      rcases kind with kind | kind
      · simp only [kind, structured, structField]
        split
        · next struct type => exact absurd (.struct kind type) (plain _)
        · rfl
      · simp only [kind, structured, tupleField]
        split
        · next declared type => exact absurd (.tuple kind type) (plain _)
        · rfl
    · have under : ListedUnder c (Listed c 1) (.record resource) name (.mapping (first :: rest))
          (.list [.mapping (first :: rest)]) :=
        wrapped_under found free kind (.wrapped (.same _))
      have alike : Entry.Listed c (Listed c 1) (.record resource)
          ⟨spelled, name, way (.mapping (first :: rest))⟩
          ⟨spelled, name, way (.list [.mapping (first :: rest)])⟩ := by
        refine .intro (.nested nests ?_ under)
        intro declared members
        cases members
      refine recordEntry_listed found ?_ alike
      intro m lt position v w path listed
      exact descend_listed listed

end Descent

/-- Lone mappings in a selection may be put into lists, with the same outcome, except for the
structs and tuples that are stored with a record. There the mapping is turned down and the list
is not. -/
theorem plan_listed (c : Catalog) (e : Exposure) :
    (∀ root action v w,
      (∀ s, Site.ofResult c root action = some s → ∃ n, Listed c n s v w) →
        plan c root action v e = plan c root action w e) ∧
    ∀ resource r spelled name (way : Value → Request) path first rest,
      c.resource? resource = some r → (∀ v, (way v).nested? = some v) →
      (∀ kind, Descent.Stored c r name kind →
        Descent.recordEntry c e (descend c e) r path
            ⟨spelled, name, way (.mapping (first :: rest))⟩ =
          .error (.rejected ⟨.unsupportedFieldCombination, path ++ [name], some name,
            [("kind", .str kind)]⟩)) ∧
      (¬Descent.AsksByObject c r name (.mapping (first :: rest)) →
        (Descent.recordEntry c e (descend c e) r path
            ⟨spelled, name, way (.mapping (first :: rest))⟩ =
          Descent.recordEntry c e (descend c e) r path
            ⟨spelled, name, way (.list [.mapping (first :: rest)])⟩ ↔
          ∀ kind, ¬Descent.Stored c r name kind)) := by
  refine ⟨fun root action v w alike => plan_eq_of_listed alike, ?_⟩
  intro resource r spelled name way path first rest found nests
  refine ⟨?_, fun free => Descent.recordEntry_wrapped_iff found nests free⟩
  intro kind stored
  rw [Descent.recordEntry_stored stored.kind (nests _)]
  exact Descent.stored_mapping stored _

namespace Travel

def loneBoss : Value :=
  object [("guide", object [("boss", .list [.str "full_name"])])]

def listedBoss : Value :=
  .list [object [("guide", .list [object [("boss", .list [.str "full_name"])]])]]

def spanFrom : Value := object [("from", .list [.str "town"])]

theorem boss_listed : Listed catalog 2 (.record "Trip") loneBoss listedBoss := by
  have guide : (Site.record "Trip").resolve catalog "guide" = "guide" := by
    with_unfolding_all rfl
  have link : (Site.record "Trip").kind catalog "guide" = .relationship := by
    with_unfolding_all rfl
  refine .wrapped (.mapping (.cons (.under ?_) .nil))
  rw [guide]
  exact .other (by rw [link]; decide) (.wrapped (.same _))

end Travel

/-- The boss of the guide is asked for with mappings alone; the start of the span is not. -/
theorem span_takes_lists :
    (plan Travel.catalog "Trip" "read" Travel.loneBoss none =
        plan Travel.catalog "Trip" "read" Travel.listedBoss none ∧
      ∃ l, plan Travel.catalog "Trip" "read" Travel.loneBoss none = .ok l) ∧
    (plan Travel.catalog "Trip" "read" (.list [Travel.object [("span", Travel.spanFrom)]]) none =
        .error (.rejected ⟨.unsupportedFieldCombination, ["span"], some "span",
          [("kind", .str "tuple")]⟩) ∧
      ∃ l, plan Travel.catalog "Trip" "read"
        (.list [Travel.object [("span", .list [Travel.spanFrom])]]) none = .ok l) ∧
    Descent.recordEntry Travel.catalog none (descend Travel.catalog none) Travel.trip []
        ⟨"span", "span", .keyed Travel.spanFrom⟩ ≠
      Descent.recordEntry Travel.catalog none (descend Travel.catalog none) Travel.trip []
        ⟨"span", "span", .keyed (.list [Travel.spanFrom])⟩ := by
  obtain ⟨same, entries⟩ := plan_listed Travel.catalog none
  have site : Site.ofResult Travel.catalog "Trip" "read" = some (.record "Trip") := by
    with_unfolding_all rfl
  have found : Travel.catalog.resource? "Trip" = some Travel.trip := by with_unfolding_all rfl
  have stored : Descent.Stored Travel.catalog Travel.trip "span" "tuple" := by
    have type : (Descent.attributeType? Travel.trip "span").bind Descent.tupleSlots? =
        some [⟨"from", .resource "Stop", true⟩] := by
      with_unfolding_all rfl
    exact .tuple (by with_unfolding_all rfl) type
  have free : ¬Descent.AsksByObject Travel.catalog Travel.trip "span" Travel.spanFrom := by
    have kind : classify Travel.catalog Travel.trip "span" = .tuple := by with_unfolding_all rfl
    simp [Descent.AsksByObject, kind]
  obtain ⟨-, wrapped⟩ := entries "Trip" Travel.trip "span" "span" .keyed [] _ _ found fun _ => rfl
  refine ⟨⟨?_, ?_⟩, ⟨?_, ?_⟩, ?_⟩
  · apply same
    intro s result
    obtain rfl := Option.some.inj (site.symm.trans result)
    exact ⟨2, Travel.boss_listed⟩
  · exact ⟨⟨[], [.nested "guide" [.nested "boss" [.field "full_name"]]],
      [.nested "guide" [.nested "boss" [.field "full_name"]]]⟩, by with_unfolding_all rfl⟩
  · with_unfolding_all rfl
  · exact ⟨⟨["span"], [], [.nested "span" [.nested "from" [.field "town"]]]⟩,
      by with_unfolding_all rfl⟩
  · intro alike
    exact (wrapped free).1 alike "tuple" stored

end FieldPlan
