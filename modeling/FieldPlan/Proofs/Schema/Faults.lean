import FieldPlan.Proofs.Schema.Breadth
import FieldPlan.Proofs.Schema.Coiled
import FieldPlan.Proofs.Schema.Writable

/-! What stops the writing of definitions. Each fault names something that the catalog refers to
and that is not there. A crash is none of them: it comes at a resource that the search has come
to and that something in it makes impossible to describe. -/
namespace FieldPlan

def Catalog.statedTypes (c : Catalog) (r : Resource) : List TypeRef :=
  c.fieldTypes r ++ r.publicCalculations.flatMap fun a => a.arguments.map Argument.type

/-- What it is about a resource that leads to the crash: an attribute whose name is read as that
of a union, and which is none; or an aggregate or a type without an end. -/
def Crash.Befalls (c : Catalog) (r : Resource) : Crash → Prop
  | .absent => ∃ a ∈ r.publicAttributes, classify c r a.name = .unionAttribute ∧
      ∀ members, a.type.inner ≠ .union members
  | .endless => (∃ a ∈ r.publicAggregates, c.aggregateType r a = .unfinished) ∨
      ∃ t ∈ c.statedTypes r, c.Coils t

section
variable {c : Catalog} {r : Resource}

theorem stated_attribute {a : Attribute} (listed : a ∈ r.publicAttributes) :
    a.type ∈ c.statedTypes r := by
  refine List.mem_append_left _ (List.mem_append_left _ (List.mem_append_left _ ?_))
  exact List.mem_map_of_mem listed

theorem stated_calculation {a : Calculation} (listed : a ∈ r.publicCalculations) :
    a.type ∈ c.statedTypes r := by
  refine List.mem_append_left _ (List.mem_append_left _ (List.mem_append_right _ ?_))
  exact List.mem_map_of_mem listed

theorem stated_aggregate {a : Aggregate} {t : TypeRef} (listed : a ∈ r.publicAggregates)
    (typed : c.aggregateType r a = .found t) : t ∈ c.statedTypes r := by
  refine List.mem_append_left _ (List.mem_append_right _ (List.mem_filterMap.2 ⟨a, listed, ?_⟩))
  exact Catalog.aggregateType?_eq_some.2 typed

theorem stated_argument {a : Calculation} {given : Argument} (listed : a ∈ r.publicCalculations)
    (takes : given ∈ a.arguments) : given.type ∈ c.statedTypes r :=
  List.mem_append_right _ (List.mem_flatMap.2 ⟨a, listed, List.mem_map_of_mem takes⟩)

theorem classify_crashed {name : String} {way : Crash} (h : classify c r name = .crashed way) :
    way.Befalls c r := by
  unfold classify Classification.ofField at h
  split at h
  · unfold Classification.ofAttributeType at h
    split at h
    · split at h <;> cases h
    · split at h
      · cases h
      · cases h
      · split at h <;> cases h
      · split at h <;> cases h
      · cases h
  · split at h
    · cases h
    · split at h <;> cases h
  · next summary _ _ found =>
    unfold Classification.ofAggregateType at h
    split at h
    · split at h <;> cases h
    · cases h
    · next unfinished =>
      cases h
      exact Or.inl ⟨summary, List.mem_of_find?_eq_some found, unfinished⟩
  · cases h
  · cases h

end

namespace Schema
variable {c : Catalog} {e : Exposure} {formatter : Formatter} {form : Form}

/-! ### Failures -/

def Fault.Holds (c : Catalog) : Fault → Prop
  | .danglingResource name => c.hasResource name = false
  | .danglingStruct name => c.struct? name = none
  | .danglingRelationship _ _ destination => c.hasResource destination = false
  | .unresolvedAggregate name owner =>
    ∃ r a, c.resource? owner = some r ∧ a ∈ r.publicAggregates ∧ a.name = name ∧
      c.aggregateType r a = .missing
  | .unknownResource name => c.hasResource name = false
  | .unknownStruct name => c.struct? name = none
  | .catalog _ => False

def Failure.Holds (c : Catalog) (among : Resource → Prop) : Failure → Prop
  | .fault cause => cause.Holds c
  | .crashed way => ∃ r, among r ∧ way.Befalls c r

def Failure.OfType (c : Catalog) (t : TypeRef) : Failure → Prop
  | .fault cause => cause.Holds c
  | .crashed way => way = .endless ∧ c.Coils t

theorem Failure.OfType.mono {t t' : TypeRef} {failure : Failure} (h : failure.OfType c t)
    (within : ∀ name, .missingStruct name ∈ t.direct → .missingStruct name ∈ t'.direct) :
    failure.OfType c t' := by
  cases failure with
  | fault cause => exact h
  | crashed way =>
    obtain ⟨ended, outer, inner, direct, coils⟩ := h
    exact ⟨ended, outer, inner, within outer direct, coils⟩

def Failure.OfStruct (c : Catalog) (n : Nat) (name : String) : Failure → Prop
  | .fault cause => cause.Holds c
  | .crashed way => way = .endless ∧ ∃ nest, nest.length = n ∧ c.Nested name nest

def FailsOnly {α : Type} (P : Failure → Prop) (m : Result α) : Prop :=
  ∀ failure, m = .error failure → P failure

section
variable {α β γ : Type} {P Q : Failure → Prop}

theorem failsOnly_ok (a : α) : FailsOnly P (.ok a : Result α) := nofun

theorem failsOnly_error {failure : Failure} (h : P failure) :
    FailsOnly P (.error failure : Result α) := by
  rintro _ ⟨⟩
  exact h

theorem FailsOnly.mono {m : Result α} (h : FailsOnly P m) (weaker : ∀ failure, P failure → Q failure) :
    FailsOnly Q m :=
  fun failure failed => weaker failure (h failure failed)

theorem FailsOnly.bind {m : Result α} {k : α → Result β} (first : FailsOnly P m)
    (rest : ∀ a, m = .ok a → FailsOnly P (k a)) : FailsOnly P (m >>= k) := by
  cases m with
  | error failure =>
    rintro _ ⟨⟩
    exact first failure rfl
  | ok a => exact rest a rfl

theorem FailsOnly.map {m : Result α} (g : α → β) (h : FailsOnly P m) : FailsOnly P (m.map g) := by
  cases m with
  | error failure =>
    rintro _ ⟨⟩
    exact h failure rfl
  | ok a => nofun

theorem FailsOnly.pair {m : Result α} {m' : Result β} (g : α → β → γ) (first : FailsOnly P m)
    (second : FailsOnly P m') :
    FailsOnly P (do let a ← m; let b ← m'; return g a b : Result γ) :=
  first.bind fun a _ => second.map (g a)

theorem gather_fails {part : α → Result (Option β)} {items : List α}
    (step : ∀ a ∈ items, FailsOnly P (part a)) : FailsOnly P (gather part items) := by
  induction items with
  | nil => exact failsOnly_ok []
  | cons item rest ih =>
    obtain ⟨head, tail⟩ := List.forall_mem_cons.1 step
    exact head.pair (fun first others => first.toList ++ others) (ih tail)

end

/-! ### Expressions -/

section
variable {ofStruct : String → Result TypeExpr} {P : Failure → Prop}

theorem resourceExpr_fails {name : String}
    (missing : ∀ name, c.hasResource name = false → P (.fault (.danglingResource name))) :
    FailsOnly P (resourceExpr c form name) := by
  unfold resourceExpr
  split
  · next absent => exact failsOnly_error (missing name (by simp [Catalog.hasResource, absent]))
  · split <;> exact failsOnly_ok _

theorem slotted_fails {slots : List (Slot TypeRef)} {blank : TypeExpr}
    (slotted : FailsOnly P (slotExprs c formatter form ofStruct [] slots)) :
    FailsOnly P (if slots.isEmpty then .ok blank
      else (slotExprs c formatter form ofStruct [] slots).map .object) := by
  split
  · exact failsOnly_ok _
  · exact slotted.map _

mutual
theorem typeExprWith_fails
    (missing : ∀ name, c.hasResource name = false → P (.fault (.danglingResource name))) :
    ∀ t : TypeRef, (∀ inner, .missingStruct inner ∈ t.direct → FailsOnly P (ofStruct inner)) →
      FailsOnly P (typeExprWith c formatter form ofStruct t)
  | .any, _ => failsOnly_ok _
  | .primitive _ _, _ => failsOnly_ok _
  | .array item, opened => by
    rw [typeExprWith]
    exact (typeExprWith_fails missing item opened).map _
  | .map slots, opened => slotted_fails (slotExprs_fails missing [] slots opened)
  | .keyword slots, opened => slotted_fails (slotExprs_fails missing [] slots opened)
  | .tuple slots, opened => slotted_fails (slotExprs_fails missing [] slots opened)
  | .struct none, _ => failsOnly_ok _
  | .struct (some name), _ => by
    rw [typeExprWith]
    split
    · exact resourceExpr_fails missing
    · exact failsOnly_ok _
  | .typedStruct name, opened => opened name (List.mem_singleton_self _)
  | .union members, opened => by
    rw [typeExprWith]
    split
    · exact failsOnly_ok _
    · exact (memberExprs_fails missing members opened).map _
  | .resource name, _ => resourceExpr_fails missing

theorem slotExprs_fails
    (missing : ∀ name, c.hasResource name = false → P (.fault (.danglingResource name)))
    (names : List (String × String)) : ∀ slots : List (Slot TypeRef),
      (∀ inner, .missingStruct inner ∈ TypeRef.slotMentions unopened slots →
        FailsOnly P (ofStruct inner)) →
      FailsOnly P (slotExprs c formatter form ofStruct names slots)
  | [], _ => failsOnly_ok _
  | ⟨name, t, allowNil⟩ :: rest, opened => by
    have first := typeExprWith_fails missing t fun inner direct =>
      opened inner (List.mem_append_left _ direct)
    have others := slotExprs_fails missing names rest fun inner direct =>
      opened inner (List.mem_append_right _ direct)
    rw [slotExprs]
    exact first.pair _ others

theorem memberExprs_fails
    (missing : ∀ name, c.hasResource name = false → P (.fault (.danglingResource name))) :
    ∀ members : List (Member TypeRef),
      (∀ inner, .missingStruct inner ∈ TypeRef.memberMentions unopened members →
        FailsOnly P (ofStruct inner)) →
      FailsOnly P (memberExprs c formatter form ofStruct members)
  | [], _ => failsOnly_ok _
  | ⟨name, t⟩ :: rest, opened => by
    have first := typeExprWith_fails missing t fun inner direct =>
      opened inner (List.mem_append_left _ direct)
    have others := memberExprs_fails missing rest fun inner direct =>
      opened inner (List.mem_append_right _ direct)
    rw [memberExprs]
    exact first.pair _ others
end

end

theorem structExprWithin_fails (n : Nat) (name : String) :
    FailsOnly (Failure.OfStruct c n name) (structExprWithin c formatter form n name) := by
  induction n generalizing name with
  | zero => exact failsOnly_error ⟨rfl, [], rfl, Catalog.nested_nil⟩
  | succ n ih =>
    rw [structExprWithin]
    split
    · next absent => exact failsOnly_error absent
    · next s found =>
      refine FailsOnly.map _ (slotExprs_fails (fun _ => id) s.fieldNames s.slots ?_)
      intro inner inside
      refine (ih inner).mono fun failure h => ?_
      cases failure with
      | fault fault => exact h
      | crashed way =>
        obtain ⟨ended, nest, length, nested⟩ := h
        exact ⟨ended, name :: nest, by rw [List.length_cons, length],
          nested.cons ⟨s, found, inside⟩⟩

theorem typeExpr_fails (t : TypeRef) :
    FailsOnly (Failure.OfType c t) (typeExpr c formatter form t) := by
  refine typeExprWith_fails (fun _ => id) t fun name direct => ?_
  refine (structExprWithin_fails _ name).mono fun failure h => ?_
  cases failure with
  | fault fault => exact h
  | crashed way =>
    obtain ⟨ended, nest, length, nested⟩ := h
    exact ⟨ended, nested.coils (by omega) direct⟩

/-! ### The search -/

theorem mentioned_fails {P : Failure → Prop} {mentions : List Mention}
    (missing : ∀ name, .missingStruct name ∈ mentions → P (.fault (.unknownStruct name)))
    (endless : .endless ∈ mentions → P (.crashed .endless)) :
    FailsOnly P (mentioned c mentions) := by
  induction mentions with
  | nil => exact failsOnly_ok []
  | cons first rest ih =>
    have later := ih (fun name member => missing name (List.mem_cons_of_mem _ member))
      fun member => endless (List.mem_cons_of_mem _ member)
    cases first with
    | resource name => exact later.map _
    | «instance» name =>
      rw [mentioned]
      split
      · exact later.map _
      · exact later
    | missingStruct name => exact failsOnly_error (missing name List.mem_cons_self)
    | endless => exact failsOnly_error (endless List.mem_cons_self)

theorem typeResources_fails (t : TypeRef) :
    FailsOnly (Failure.OfType c t) (typeResources c t) := by
  refine mentioned_fails (fun name member => ?_) fun member => ⟨rfl, Catalog.endless_iff.1 member⟩
  obtain ⟨opened, -, member⟩ := (TypeRef.mem_opened rfl t).1 member
  exact Catalog.struct?_of_missing member

section
variable {among : Resource → Prop} {r : Resource} {t : TypeRef} (here : among r)
include here

theorem holds_ofType (stated : t ∈ c.statedTypes r) {failure : Failure}
    (h : failure.OfType c t) : failure.Holds c among := by
  cases failure with
  | fault fault => exact h
  | crashed way =>
    obtain ⟨rfl, coils⟩ := h
    exact ⟨r, here, Or.inr ⟨t, stated, coils⟩⟩

theorem expr_fails (stated : t ∈ c.statedTypes r) :
    FailsOnly (Failure.Holds c among) (typeExpr c formatter form t) :=
  (typeExpr_fails t).mono fun _ => holds_ofType here stated

theorem resources_fails (stated : t ∈ c.statedTypes r) :
    FailsOnly (Failure.Holds c among) (typeResources c t) :=
  (typeResources_fails t).mono fun _ => holds_ofType here stated

theorem typesResources_fails {types : List TypeRef} (stated : ∀ t ∈ types, t ∈ c.statedTypes r) :
    FailsOnly (Failure.Holds c among) (typesResources c types) := by
  induction types with
  | nil => exact failsOnly_ok []
  | cons t rest ih =>
    obtain ⟨first, others⟩ := List.forall_mem_cons.1 stated
    exact (resources_fails here first).pair _ (ih others)

theorem summaryResources_fails {summaries : List Aggregate}
    (listed : ∀ a ∈ summaries, a ∈ r.publicAggregates) :
    FailsOnly (Failure.Holds c among) (summaryResources c r summaries) := by
  induction summaries with
  | nil => exact failsOnly_ok []
  | cons a rest ih =>
    obtain ⟨first, others⟩ := List.forall_mem_cons.1 listed
    rw [summaryResources]
    split
    · next t typed => exact (resources_fails here (stated_aggregate first typed)).pair _ (ih others)
    · exact ih others
    · next unfinished => exact failsOnly_error ⟨r, here, Or.inl ⟨a, first, unfinished⟩⟩

theorem references_fails : FailsOnly (Failure.Holds c among) (references c e r) := by
  refine (typesResources_fails here ?_).bind fun stored _ => ?_
  · exact List.forall_mem_map.2 fun a => stated_attribute
  refine (typesResources_fails here ?_).bind fun derived _ => ?_
  · exact List.forall_mem_map.2 fun a => stated_calculation
  exact (summaryResources_fails here fun _ => id).map _

end

def Visited (c : Catalog) (e : Exposure) (roots : List String) (r : Resource) : Prop :=
  c.resource? r.name = some r ∧ ∃ n, Steps c e roots n r.name

theorem admittedRoots_fails {P : Failure → Prop}
    (missing : ∀ name, c.hasResource name = false → P (.fault (.unknownResource name)))
    (roots : List String) : FailsOnly P (admittedRoots c e roots) := by
  induction roots with
  | nil => exact failsOnly_ok []
  | cons name rest ih =>
    rw [admittedRoots]
    split
    · exact ih.map _
    · next absent => exact failsOnly_error (missing name (eq_false_of_ne_true absent))

theorem reachFrom_fails {roots : List String} (fuel : Nat) {queue : List String}
    (found : List Resource) (queued : ∀ name ∈ queue, ∃ n, Steps c e roots n name) :
    FailsOnly (Failure.Holds c (Visited c e roots)) (reachFrom c e fuel queue found) := by
  induction fuel generalizing queue found with
  | zero => exact failsOnly_ok found
  | succ fuel ih =>
    rw [reachFrom]
    split
    · exact failsOnly_ok found
    · next name rest left =>
      have inQueue : ∀ other ∈ name :: rest, other ∈ queue := unfound_subset left
      split
      · next absent =>
        refine failsOnly_error ?_
        simp [Failure.Holds, Fault.Holds, Catalog.hasResource, absent]
      · next r present =>
        obtain ⟨n, steps⟩ := queued name (inQueue name List.mem_cons_self)
        obtain rfl := Catalog.resource?_name present
        refine (references_fails ⟨present, n, steps⟩).bind fun refs referred => ih _ ?_
        intro other member
        rcases List.mem_append.1 member with old | new
        · exact queued other (inQueue other (List.mem_cons_of_mem _ old))
        · obtain ⟨refers, shown⟩ := (references_iff referred).1 new
          exact ⟨n + 1, .next steps present refers shown⟩

theorem reachable_fails (roots : List String) :
    FailsOnly (Failure.Holds c (Visited c e roots)) (reachable c e roots) := by
  refine (admittedRoots_fails (fun _ => id) roots).bind fun names admitted => ?_
  exact reachFrom_fails _ _ fun name member => ⟨0, admittedRoots_steps admitted name member⟩

/-! ### Definitions -/

namespace Context
variable {x : Context} {r : Resource} {f : Field} {t : TypeRef} {among : Resource → Prop}

theorem linkMember_fails (link : Relationship) :
    FailsOnly (Failure.Holds x.catalog among) (x.linkMember r link) := by
  intro failure h
  cases present : x.catalog.hasResource link.destination with
  | false =>
    simp only [linkMember, present] at h
    cases h
    exact present
  | true =>
    obtain ⟨o, written⟩ := linkMember_isOk.2 present
    cases written.symm.trans h

section
variable (here : among r)
include here

theorem ofKind_fails {name : String} {kinds : List Classification}
    {part : Result (Option (TypeMember TypeExpr))}
    (h : x.kindOf r name ∈ kinds → FailsOnly (Failure.Holds x.catalog among) part) :
    FailsOnly (Failure.Holds x.catalog among) (x.ofKind r name kinds part) := by
  unfold ofKind
  split
  · next way ended => exact failsOnly_error ⟨r, here, classify_crashed ended⟩
  · split
    · next listed => exact h (List.contains_iff_mem.1 listed)
    · exact failsOnly_ok none

theorem ifAdmitted_fails (stated : t ∈ x.catalog.statedTypes r)
    {made : Result (TypeMember TypeExpr)} (h : FailsOnly (Failure.Holds x.catalog among) made) :
    FailsOnly (Failure.Holds x.catalog among) (x.ifAdmitted t made) := by
  refine ((resources_fails here stated).map _).bind fun admitted _ => ?_
  cases admitted with
  | false => exact failsOnly_ok none
  | true => exact h.map some

theorem value_fails (name : String) (stated : t ∈ x.catalog.statedTypes r) (allowNil : Bool) :
    FailsOnly (Failure.Holds x.catalog among)
      (x.ifAdmitted t (x.valueMember r name t allowNil)) :=
  ifAdmitted_fails here stated ((expr_fails here stated).map _)

theorem aggregateMember_fails (found : x.catalog.resource? r.name = some r) {a : Aggregate}
    (listed : a ∈ r.publicAggregates) (g : TypeExpr → TypeMember TypeExpr) :
    FailsOnly (Failure.Holds x.catalog among)
      (do let t ← x.aggregateType r a; x.ifAdmitted t (return g (← x.expr t))) := by
  unfold aggregateType
  split
  · next t typed =>
    have stated := stated_aggregate listed typed
    exact ifAdmitted_fails here stated ((expr_fails here stated).map _)
  · next missing => exact failsOnly_error ⟨r, a, found, listed, rfl, missing⟩
  · next unfinished => exact failsOnly_error ⟨r, here, Or.inl ⟨a, listed, unfinished⟩⟩

theorem embeddedMember_fails (a : Attribute) :
    FailsOnly (Failure.Holds x.catalog among) (x.embeddedMember r a) := by
  refine ofKind_fails here fun _ => ?_
  split
  · exact failsOnly_ok none
  · exact (resourceExpr_fails fun _ => id).map _

theorem derivedCalculation_fails {a : Calculation} (listed : a ∈ r.publicCalculations) :
    FailsOnly (Failure.Holds x.catalog among) (x.derivedCalculation r a) := by
  have stated : a.type ∈ x.catalog.statedTypes r := stated_calculation listed
  refine ofKind_fails here fun _ => ifAdmitted_fails here stated ?_
  refine (expr_fails here stated).pair _ (gather_fails fun given takes => ?_)
  exact ((expr_fails here (stated_argument listed takes)).map _).map some

theorem unionAttribute_fails {a : Attribute} (listed : a ∈ r.publicAttributes) :
    FailsOnly (Failure.Holds x.catalog among) (x.unionAttribute r a) := by
  refine ofKind_fails here fun kind => ?_
  split
  · next members many shape =>
    refine ((gather_fails fun member inside => ?_).map _).map _
    unfold unionMember
    split
    · refine FailsOnly.map _ ((typeExpr_fails member.type).mono fun failure h => ?_)
      refine holds_ofType here (stated_attribute listed) (h.mono fun name direct => ?_)
      rw [← TypeRef.direct_inner, TypeRef.inner, shape]
      exact TypeRef.mem_memberMentions.2 ⟨member, inside, direct⟩
    · exact failsOnly_ok none
  · next other =>
    refine failsOnly_error ⟨r, here, a, listed, List.mem_singleton.1 kind, fun members shape => ?_⟩
    exact other members a.type.unwrapArray.2 (Prod.ext shape rfl)

theorem shows_fails (found : x.catalog.resource? r.name = some r) {s : Section}
    (listed : f ∈ r.publicFields) :
    FailsOnly (Failure.Holds x.catalog among) (x.shows r s f) := by
  unfold shows
  split
  · next a =>
    have stored : a ∈ r.publicAttributes := by simpa [Resource.publicFields] using listed
    exact ofKind_fails here fun _ => value_fails here a.name (stated_attribute stored) a.allowNil
  · next a =>
    have derived : a ∈ r.publicCalculations := by simpa [Resource.publicFields] using listed
    exact ofKind_fails here fun _ => value_fails here a.name (stated_calculation derived) a.allowNil
  · next a =>
    have summed : a ∈ r.publicAggregates := by simpa [Resource.publicFields] using listed
    exact ofKind_fails here fun _ => aggregateMember_fails here found summed _
  · next link => exact linkMember_fails link
  · next a => exact embeddedMember_fails here a
  · next a =>
    have derived : a ∈ r.publicCalculations := by simpa [Resource.publicFields] using listed
    exact derivedCalculation_fails here derived
  · next a =>
    have summed : a ∈ r.publicAggregates := by simpa [Resource.publicFields] using listed
    exact ofKind_fails here fun _ => aggregateMember_fails here found summed _
  · next a =>
    have stored : a ∈ r.publicAttributes := by simpa [Resource.publicFields] using listed
    exact unionAttribute_fails here stored
  · next a =>
    have stored : a ∈ r.publicAttributes := by simpa [Resource.publicFields] using listed
    exact ofKind_fails here fun _ => value_fails here a.name (stated_attribute stored) a.allowNil
  · exact failsOnly_ok none

theorem members_fail (found : x.catalog.resource? r.name = some r) :
    FailsOnly (Failure.Holds x.catalog among)
      (do return (← x.plainMembers r) ++ (← x.structuredMembers r)) := by
  rw [← rows_members]
  refine FailsOnly.map _ (gather_fails fun _ place => ?_)
  exact (shows_fails here found (mem_places.1 place)).map _

theorem plainMembers_fail (found : x.catalog.resource? r.name = some r) :
    FailsOnly (Failure.Holds x.catalog among) (x.plainMembers r) := by
  intro failure h
  refine members_fail here found failure ?_
  rw [h]
  rfl

theorem definitions_fail (found : x.catalog.resource? r.name = some r) :
    FailsOnly (Failure.Holds x.catalog among) (x.definitions r) := by
  have held : x.fieldResource r = .ok r := fieldResource_found found
  have names : FailsOnly (Failure.Holds x.catalog among) (x.fieldNames r) := by
    rw [fieldNames, held]
    exact (plainMembers_fail here found).map _
  have schema : FailsOnly (Failure.Holds x.catalog among) (x.resourceSchema r) := by
    rw [resourceSchema, held]
    refine (plainMembers_fail here found).bind fun plain listed => FailsOnly.map _ ?_
    intro failure h
    -- a failure of the structured members is one of all members, as the plain ones are written
    refine members_fail here found failure ?_
    rw [listed, h]
    rfl
  have input : FailsOnly (Failure.Holds x.catalog among) (x.inputSchema r) := by
    rw [inputSchema, held]
    refine FailsOnly.map _ (gather_fails fun a listed => ?_)
    exact ((expr_fails here (stated_attribute listed)).map _).map some
  refine names.bind fun _ _ => schema.bind fun _ _ => ?_
  split
  · exact input.map _
  · exact failsOnly_ok _

end

end Context

/-- A fault names what is missing, and a crash comes at a resource that the roots lead to. -/
theorem document_fails {x : Context} {roots : Option (List String)} :
    FailsOnly (Failure.Holds x.catalog (Visited x.catalog x.exposure (x.rootNames roots)))
      (x.document roots) := by
  refine FailsOnly.map _ ((reachable_fails _).bind fun found reach => gather_fails ?_)
  intro r member
  have here := (mem_reachable reach).1 member
  exact (Context.definitions_fail here here.1).map _

end Schema
end FieldPlan
