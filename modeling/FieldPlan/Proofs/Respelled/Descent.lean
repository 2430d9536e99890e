import FieldPlan.Catalog.Travel
import FieldPlan.Proofs.Accepts.Fields
import FieldPlan.Proofs.Respelled.Values

/-! A plan does not show how its names were spelled. Every kind of field works on its declared
name, and what is asked for below it is again at one site; so what is accepted can be spelled
differently, by induction on the weight. -/
namespace FieldPlan
namespace Descent
variable {c : Catalog} {e : Exposure} {f : Descend}

/-! ### Fields -/

section
variable {r : Resource} {resource name : String} {path : List String} {v w : Value} {part : Level}

theorem handOn_respelled {kind : String} {field : Option String} {position : Position} {n : Nat}
    {next : Level → Outcome Level} (below : KeepsBelow c n f) (lighter : v.weight < n)
    (alike : Respelled c (.ofPosition c position) v w)
    (h : (Selection.requireSome kind path field (Selection.normalize v) >>= fun fields =>
      f position (.list fields) path >>= next) = .ok part) :
    (Selection.requireSome kind path field (Selection.normalize w) >>= fun fields =>
      f position (.list fields) path >>= next) = .ok part := by
  obtain ⟨fields, listed, h⟩ := Outcome.bind_ok h
  obtain ⟨value, worked, h⟩ := Outcome.bind_ok h
  have weight := Selection.weight_normalize v
  rw [Selection.requireSome_eq listed] at weight
  obtain ⟨fields', listed', level⟩ := requireSome_respelled alike.normalize listed
  have kept := below _ _ _ _ _ (by omega) level worked
  rw [listed']
  change (f position (.list fields') path >>= next) = _
  rw [kept]
  exact h

theorem calledSelection_respelled {s : Site} {needed : Bool} {selection : Value}
    (alike : Respelled c s v w) (h : calledSelection needed path name v = .ok selection) :
    ∃ selection', calledSelection needed path name w = .ok selection' ∧
      Respelled c s selection selection' := by
  cases needed with
  | true =>
    simp only [calledSelection, if_true] at h ⊢
    split at h
    · simp [requiresFields, reject] at h
    · next full =>
      obtain ⟨fields, listed, h⟩ := Outcome.bind_ok h
      cases h
      obtain ⟨fields', listed', level⟩ := requireSome_respelled alike.normalize listed
      refine ⟨.list fields', ?_, level⟩
      rw [alike.normalize.isNull, if_neg full, listed']
      rfl
  | false =>
    simp only [calledSelection, Bool.false_eq_true, if_false] at h ⊢
    cases h
    rw [alike.isNull]
    split
    · exact ⟨.list [], rfl, .same s _⟩
    · exact ⟨w, rfl, alike⟩

theorem withoutForm_respelled {given : Value}
    (fields : (w.get? Arguments.fieldsKey).isSome = (v.get? Arguments.fieldsKey).isSome)
    (args : (v.get? Arguments.fieldsKey).isSome = true →
      (w.get? Arguments.argsKey).isSome = (v.get? Arguments.argsKey).isSome)
    (h : withoutForm path name v = .ok given) :
    withoutForm path name w = .ok ((w.get? Arguments.fieldsKey).getD w) := by
  unfold withoutForm at h ⊢
  cases held : w.get? Arguments.fieldsKey with
  | none => rfl
  | some inner =>
    rw [held] at fields
    obtain ⟨outer, present⟩ := Option.isSome_iff_exists.1 fields.symm
    rw [present] at h args
    simp only at h ⊢
    rw [args rfl]
    split at h
    · simp [Arguments.invalid, reject] at h
    · next bare => rw [if_neg bare, Option.getD_some]

theorem nested_respelled (found : c.resource? resource = some r)
    (alike : RespelledUnder c (.record resource) name v w) {t : Site}
    (under : Site.ofField c r name = some t)
    (called : classify c r name ≠ .calculationWithArgs)
    (derived : classify c r name ≠ .calculationComplex ∧
      classify c r name ≠ .complexAggregate) : Respelled c t v w := by
  have shape := Site.kind_record found name
  have inner := alike.below t (by simp [Site.under, found, under])
  have given (nested : Value) : (Site.record resource).given c name nested = nested := by
    rw [Site.given, shape]
    cases kind : classify c r name <;> simp_all
  rwa [given, given] at inner

variable (found : c.resource? resource = some r) (below : KeepsBelow c (v.weight + 1) f)
variable (alike : RespelledUnder c (.record resource) name v w)
include found below alike

theorem linkField_respelled (kind : classify c r name = .relationship)
    (h : linkField f r name v path = .ok part) : linkField f r name w path = .ok part := by
  simp only [linkField] at h ⊢
  cases present : r.relationship? name with rw [present] at h
  | none =>
    obtain ⟨fields, listed, h⟩ := Outcome.bind_ok h
    cases h
  | some link =>
    have under := ofField_link kind present
    have inner := nested_respelled found alike under (by simp [kind]) (by simp [kind])
    exact handOn_respelled below (Nat.lt_succ_self _) inner h

theorem embeddedField_respelled
    (kind : classify c r name = .embeddedResource ∨ classify c r name = .embeddedResourceArray)
    (h : embeddedField c f r name v path = .ok part) :
    embeddedField c f r name w path = .ok part := by
  simp only [embeddedField] at h ⊢
  cases stored : r.attribute? name with rw [stored] at h
  | none =>
    obtain ⟨fields, listed, h⟩ := Outcome.bind_ok h
    cases h
  | some a =>
    dsimp only at h ⊢
    cases typed : c.embeddedName a.type with rw [typed] at h
    | none =>
      obtain ⟨fields, listed, h⟩ := Outcome.bind_ok h
      cases h
    | some embedded =>
      have under := ofField_embedded kind stored typed
      have inner : Respelled c (.record embedded) v w := by
        refine nested_respelled found alike under ?_ ?_ <;>
          rcases kind with kind | kind <;> simp [kind]
      exact handOn_respelled below (Nat.lt_succ_self _) inner h

theorem calledField_respelled (kind : classify c r name = .calculationWithArgs)
    (h : calledField c f r name v path = .ok part) : calledField c f r name w path = .ok part := by
  have shape := Site.kind_record found name
  rw [kind] at shape
  simp only [calledField] at h ⊢
  cases present : r.calculation? name with rw [present] at h
  | none => simp [unknown, reject] at h
  | some calculation =>
    have same : (Site.record resource).calculation? c name = some calculation := by
      simp [Site.calculation?, found, present]
    have inner := alike.below (.ofType c calculation.type)
      (by rw [Site.under, found, Option.bind_some, ofField_called kind present])
    rw [Site.given, Site.given, shape] at inner
    simp only at h ⊢
    split at h
    · simp [Arguments.invalid, reject] at h
    · next form =>
      obtain ⟨args, resolved, h⟩ := Outcome.bind_ok h
      obtain ⟨selection, chosen, h⟩ := Outcome.bind_ok h
      obtain ⟨value, worked, h⟩ := Outcome.bind_ok h
      have lighter := weight_calledSelection_le chosen
      have fieldsLighter := @weight_formFields_le v (by simpa using form)
      obtain ⟨selection', chosen', level⟩ := calledSelection_respelled inner chosen
      rw [← Site.ofPosition_ofType] at level
      have kept := below _ _ _ _ _ (by omega) level worked
      -- the other two forms are about kinds that this one is not
      cases alike.form with
      | called _ sameForm sameArgs =>
        rw [sameForm, if_neg form, Arguments.resolve_respelled (sameArgs _ same) resolved]
        change (calledSelection _ _ _ _ >>= _) = _
        rw [chosen']
        change (f _ _ _ >>= _) = _
        rw [kept]
        exact h
      | derived derived =>
        rw [shape] at derived
        simp at derived
      | other called => exact absurd shape called

theorem derivedField_respelled {description : String} {type : Outcome (Option TypeRef)}
    (kind : classify c r name = .calculationComplex ∨ classify c r name = .complexAggregate)
    (under : ∀ t, type = .ok t → Site.ofField c r name = some (Site.ofPosition c (.ofType t)))
    (h : derivedField f description type name v path = .ok part) :
    derivedField f description type name w path = .ok part := by
  have shape := Site.kind_record found name
  obtain ⟨given, stripped, h⟩ := Outcome.bind_ok h
  obtain ⟨t, typed, h⟩ := Outcome.bind_ok h
  have inner := alike.below (.ofPosition c (.ofType t)) (by simp [Site.under, found, under t typed])
  have lighter := weight_withoutForm_le stripped
  have same : Respelled c (.ofPosition c (.ofType t))
      ((v.get? Arguments.fieldsKey).getD v) ((w.get? Arguments.fieldsKey).getD w) := by
    rcases kind with kind | kind <;> simpa only [Site.given, shape, kind] using inner
  rw [← withoutForm_ok stripped] at same
  have stripped' : withoutForm (path ++ [name]) name w =
      .ok ((w.get? Arguments.fieldsKey).getD w) := by
    cases alike.form with
    | derived _ fields args => exact withoutForm_respelled fields args stripped
    | called called =>
      rw [shape] at called
      simp [called] at kind
    | other _ plain plain' =>
      rw [shape] at plain plain'
      exact absurd kind (not_or.2 ⟨plain, plain'⟩)
  simp only [derivedField]
  rw [stripped', typed]
  exact handOn_respelled below (Nat.lt_succ_of_le lighter) same h

theorem unionField_respelled (kind : classify c r name = .unionAttribute)
    (h : unionField c f r name v path = .ok part) : unionField c f r name w path = .ok part := by
  unfold unionField at h ⊢
  split at h
  · next declared typed =>
    obtain ⟨value, worked, h⟩ := Outcome.bind_ok h
    have under := ofField_attribute typed (.inl kind)
    rw [Site.ofType] at under
    have inner := nested_respelled found alike under (by simp [kind]) (by simp [kind])
    rw [unionMembers_respelled (below.mono (Nat.le_succ _)) inner worked]
    exact h
  · simp [unknown, reject] at h

theorem structField_respelled (kind : classify c r name = .typedStruct)
    (h : structField c f r name v path = .ok part) : structField c f r name w path = .ok part := by
  simp only [structField] at h ⊢
  split at h
  · next struct typed =>
    obtain ⟨fields, listed, h⟩ := Outcome.bind_ok h
    obtain ⟨value, worked, h⟩ := Outcome.bind_ok h
    have under := ofField_attribute typed (.inr (.inl kind))
    have inner := nested_respelled found alike under (by simp [kind]) (by simp [kind])
    obtain ⟨fields', listed', level⟩ := requireSome_respelled inner listed
    rw [Selection.requireSome_eq listed] at below
    rw [listed']
    change (structMembers c f struct (.list fields') _ >>= _) = _
    rw [structMembers_respelled (below.mono (Nat.le_succ _)) level worked]
    exact h
  · simp [unknown, reject] at h

theorem tupleField_respelled (kind : classify c r name = .tuple)
    (h : tupleField c f r name v path = .ok part) : tupleField c f r name w path = .ok part := by
  simp only [tupleField] at h ⊢
  split at h
  · next declared present =>
    obtain ⟨fields, listed, h⟩ := Outcome.bind_ok h
    obtain ⟨value, worked, h⟩ := Outcome.bind_ok h
    have under := ofField_tuple kind present
    have inner := nested_respelled found alike under (by simp [kind]) (by simp [kind])
    obtain ⟨fields', listed', level⟩ := requireSome_respelled inner listed
    rw [Selection.requireSome_eq listed] at below
    rw [listed']
    change (tupleSlots c f declared (.list fields') _ >>= _) = _
    rw [tupleSlots, plainSlots_respelled (below.mono (Nat.le_succ _)) level worked]
    exact h
  · simp [unknown, reject] at h

theorem structured_respelled (h : structured c f r (classify c r name) name v path = .ok part) :
    structured c f r (classify c r name) name w path = .ok part := by
  cases kind : classify c r name with rw [kind] at h
  | relationship => exact linkField_respelled found below alike kind h
  | embeddedResource => exact embeddedField_respelled found below alike (.inl kind) h
  | embeddedResourceArray => exact embeddedField_respelled found below alike (.inr kind) h
  | calculationWithArgs => exact calledField_respelled found below alike kind h
  | calculationComplex =>
    exact derivedField_respelled found below alike (.inl kind) (fun _ => ofField_derived kind) h
  | complexAggregate =>
    exact derivedField_respelled found below alike (.inr kind) (fun _ => ofField_summed kind) h
  | unionAttribute => exact unionField_respelled found below alike kind h
  | typedStruct => exact structField_respelled found below alike kind h
  | tuple => exact tupleField_respelled found below alike kind h
  | _ => simp [structured, reject, crash] at h

end

/-! ### Layers -/

section
variable {r : Resource} {path : List String}

theorem recordEntry_respelled {resource : String} (found : c.resource? resource = some r)
    {a b : Entry} {part : Level}
    (below : ∀ v, a.request.nested? = some v → KeepsBelow c (v.weight + 1) f)
    (alike : Entry.Respelled c (.record resource) a b)
    (h : recordEntry c e f r path a = .ok part) : recordEntry c e f r path b = .ok part := by
  unfold recordEntry at h ⊢
  rw [alike.name]
  split at h
  · simp [unknown, reject] at h
  · simp [crash] at h
  · next kind visible sound =>
    rw [visibleKind_eq visible sound] at h ⊢
    split at h
    · next bare =>
      rw [alike.request.none bare]
      exact h
    · next v asked =>
      obtain ⟨w, asked', same⟩ := alike.request.some asked
      rw [asked']
      exact structured_respelled found (below v asked) same h

theorem record_respelled {resource : String} {v w : Value} {l : Level}
    (entered : enter c e resource path = .ok r) (below : KeepsBelow c v.weight f)
    (alike : Respelled c (.record resource) v w) (h : record c e f r v path = .ok l) :
    record c e f r w path = .ok l := by
  have weight := Selection.weight_normalize v
  have found := (enter_ok entered).1
  unfold record at h ⊢
  split at h
  · next fields same =>
    have listed := alike.normalize
    rw [same, Value.weight] at weight
    rw [same] at listed
    rw [← Site.resolve_record found] at h ⊢
    obtain ⟨fields', same', kept⟩ := read_collect_respelled (below.mono (by omega)) listed
      (fun a b one => recordEntry_respelled found) h
    rw [same']
    exact kept
  · simp [unsupported, reject] at h

theorem entered_respelled {name : String} {v w : Value} {l : Level}
    (below : KeepsBelow c v.weight f) (alike : Respelled c (.record name) v w)
    (h : (do record c e f (← enter c e name path) v path) = .ok l) :
    (do record c e f (← enter c e name path) w path) = .ok l := by
  obtain ⟨r, entered, h⟩ := Outcome.bind_ok h
  rw [entered]
  exact record_respelled entered below alike h

theorem typed_respelled {t : TypeRef} {v w : Value} {l : Level} (below : KeepsBelow c v.weight f)
    (alike : Respelled c (.ofType c t) v w) (h : typed c e f t v path = .ok l) :
    typed c e f t w path = .ok l := by
  rw [← Site.ofType_element] at alike
  cases shape : t.element with (rw [shape] at alike; simp only [typed, shape] at h ⊢)
  | resource name => exact entered_respelled below alike h
  | map declared => exact container_respelled below alike h
  | keyword declared => exact container_respelled below alike h
  | tuple declared => exact container_respelled below alike h
  | struct instanceOf =>
    cases instanceOf with
    | none => exact untyped_respelled below alike h
    | some name =>
      rw [Site.ofType] at alike
      by_cases present : c.hasResource name = true
      · rw [if_pos present] at alike
        simp only [if_pos present] at h ⊢
        exact entered_respelled below alike h
      · rw [if_neg present] at alike
        simp only [if_neg present] at h ⊢
        exact untyped_respelled below alike h
  | typedStruct name =>
    obtain ⟨fields, listed, h⟩ := Outcome.bind_ok h
    obtain ⟨fields', listed', level⟩ := requireSome_respelled alike.normalize listed
    rw [listed']
    refine structMembers_respelled ?_ level h
    rwa [← Selection.requireSome_eq listed, Selection.weight_normalize]
  | union declared => exact unionMembers_respelled below alike h
  | any => exact untyped_respelled below alike h
  | primitive kind oneOf =>
    rw [alike.isBlank]
    exact h
  | array item => exact absurd shape (Site.element_ne_array t item)

theorem layer_respelled {position : Position} {v w : Value} {l : Level}
    (below : KeepsBelow c v.weight f) (alike : Respelled c (.ofPosition c position) v w)
    (h : layer c e f position v path = .ok l) : layer c e f position w path = .ok l := by
  cases position with
  | records name many => exact entered_respelled below alike h
  | value t => exact typed_respelled below alike h
  | untyped => exact untyped_respelled below alike h

end
end Descent

theorem descend_respelled {c : Catalog} {e : Exposure} {position : Position} {v w : Value}
    {path : List String} {l : Level} (alike : Respelled c (.ofPosition c position) v w)
    (h : descend c e position v path = .ok l) : descend c e position w path = .ok l := by
  induction weight : v.weight using Nat.strongRecOn generalizing position v w path l with
  | ind n ih =>
    subst weight
    rw [descend_eq] at h ⊢
    refine Descent.layer_respelled ?_ alike h
    -- the weight is that of the first selection; the second may have another
    intro position v' w' path l lighter alike worked
    exact ih v'.weight lighter alike worked rfl

/-- What is accepted can be spelled differently, and its plan is the same. -/
theorem plan_respelled {c : Catalog} {root action : String} {selection selection' : Value}
    {e : Exposure} {l : Level} (h : plan c root action selection e = .ok l)
    (alike : ∀ s, Site.ofResult c root action = some s → Respelled c s selection selection') :
    plan c root action selection' e = .ok l := by
  obtain ⟨r, found, h⟩ := Outcome.bind_ok h
  have present := Catalog.resource_ok (ofCatalog_ok found)
  split at h
  · simp [reject] at h
  · next a chosen =>
    have site : Site.ofResult c root action =
        some (.ofPosition c (.ofAction r.name a)) := by
      simp [Site.ofResult, present, chosen]
    have kept := descend_respelled (alike _ site).normalize h
    rw [plan, found]
    simpa only [bind, Except.bind, chosen] using kept

namespace Travel

def fare : Value :=
  .list [object [("guide", .list [.str "fullName"])],
    object [("cost", object [("args", object [("currency", .str "EUR")])])]]

/-- The same in the convention of the catalog, and with the declared name of the price. -/
def fareRespelled : Value :=
  .list [object [("guide", .list [.str "full_name"])],
    object [("price", object [("args", object [("Currency", .str "EUR")])])]]

def farePlan : Level where
  select := []
  load := [.nested "guide" [.field "full_name"], .call "price" [("currency", .str "EUR")] []]
  template := [.nested "guide" [.field "full_name"], .field "price"]

theorem fare_respelled : Respelled catalog (.record "Trip") fare fareRespelled := by
  have guide : (Site.record "Trip").resolve catalog "guide" = "guide" := by
    with_unfolding_all rfl
  have price : (Site.record "Trip").resolve catalog "cost" = "price" := by
    with_unfolding_all rfl
  have link : (Site.record "Trip").kind catalog "guide" = .relationship := by
    with_unfolding_all rfl
  have called : (Site.record "Trip").kind catalog "price" = .calculationWithArgs := by
    with_unfolding_all rfl
  have persons : (Site.record "Trip").under catalog "guide" = some (.record "Person") := by
    with_unfolding_all rfl
  refine .level (.mapping (.cons (by decide) rfl ?_ ?_ (.nil _))
    (.mapping (.cons (by decide) ?_ ?_ ?_ (.nil _)) (.nil _)))
  · rw [guide]
    exact .other (by simp [link]) (by simp [link]) (by simp [link])
  · rw [guide, persons]
    intro t same
    cases same
    simp only [Site.given, link]
    refine .level (.name (by decide) ?_ (.nil _))
    with_unfolding_all rfl
  · with_unfolding_all rfl
  · rw [price]
    refine .called called rfl ?_
    intro calculation present
    have same : (Site.record "Trip").calculation? catalog "price" = some trip.calculations[0] := by
      with_unfolding_all rfl
    obtain rfl := Option.some.inj (same.symm.trans present)
    refine .mapping (.cons ⟨?_, rfl⟩ .nil)
    with_unfolding_all rfl
  · rw [price]
    intro t _
    simp only [Site.given, called]
    exact .same t _

end Travel

theorem fare_plan_respelled :
    plan Travel.catalog "Trip" "read" Travel.fare none = .ok Travel.farePlan ∧
      plan Travel.catalog "Trip" "read" Travel.fareRespelled none = .ok Travel.farePlan := by
  have accepted : plan Travel.catalog "Trip" "read" Travel.fare none = .ok Travel.farePlan := by
    with_unfolding_all rfl
  have site : Site.ofResult Travel.catalog "Trip" "read" = some (.record "Trip") := by
    with_unfolding_all rfl
  refine ⟨accepted, plan_respelled accepted ?_⟩
  intro s same
  obtain rfl := Option.some.inj (site.symm.trans same)
  exact Travel.fare_respelled

/-! ### Names that are more than names

A text whose external name is empty, and a boss whose external name is a key of the object by
which a calculation can be asked for. -/

namespace Diary

def note : Resource where
  name := "Note"
  attributes := [{ name := "text", type := .primitive .string [] }]
  actions := [{ name := "read" }]
  fieldNames := [("text", "")]

def person : Resource where
  name := "Person"
  attributes := [{ name := "full_name", type := .primitive .string [] }]
  relationships := [{ name := "boss", destination := "Person" }]
  fieldNames := [("boss", "fields")]

def day : Resource where
  name := "Day"
  calculations := [{ name := "lead", type := .resource "Person" }]
  actions := [{ name := "read" }]

def catalog : Catalog := ⟨[note, person, day], []⟩

end Diary

/-- One name may be turned down where another for the same field is accepted, or may make an
object of what another name makes a selection. -/
theorem spelling_matters :
    let lead (key : String) := Value.list
      [Travel.object [("lead", Travel.object [(key, .list [.str "full_name"])])]]
    let leadPlan (items : List LoadItem) (shown : List TemplateItem) : Level :=
      ⟨[], [.nested "lead" items], [.nested "lead" shown]⟩
    ((Site.record "Note").resolve Diary.catalog "" =
        (Site.record "Note").resolve Diary.catalog "text" ∧
      plan Diary.catalog "Note" "read" (.list [.str "text"]) none =
        .ok ⟨["text"], [], [.field "text"]⟩ ∧
      plan Diary.catalog "Note" "read" (.list [.str ""]) none =
        .error (.rejected ⟨.invalidFieldType, [], none, [("value", .str "''")]⟩)) ∧
    ((Site.record "Person").resolve Diary.catalog "fields" =
        (Site.record "Person").resolve Diary.catalog "boss" ∧
      plan Diary.catalog "Day" "read" (lead "boss") none =
        .ok (leadPlan [.nested "boss" [.field "full_name"]]
          [.nested "boss" [.field "full_name"]]) ∧
      plan Diary.catalog "Day" "read" (lead "fields") none =
        .ok (leadPlan [.field "full_name"] [.field "full_name"])) := by
  refine ⟨⟨?_, ?_, ?_⟩, ?_, ?_, ?_⟩ <;> with_unfolding_all rfl

end FieldPlan
