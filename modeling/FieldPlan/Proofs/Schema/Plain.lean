import FieldPlan.Descent.Locality
import FieldPlan.Schema.Definition

/-! The fields that the definitions list as plain ones, and why others are left out. -/
namespace FieldPlan
namespace Schema
variable {α β γ : Type}

/-! ### Gathering -/

theorem gather_map (f : β → γ) (part : α → Result (Option β)) (items : List α) :
    (gather part items).map (List.map f) =
      gather (fun item => (part item).map (Option.map f)) items := by
  induction items with
  | nil => rfl
  | cons item rest ih =>
    simp only [gather]
    rw [← ih]
    cases part item with
    | error fault => rfl
    | ok first =>
      cases gather part rest with
      | error fault => rfl
      | ok others => cases first <;> rfl

theorem gather_ok {part : α → Result (Option β)} {items : List α} {out : List β}
    (h : gather part items = .ok out) :
    (∀ item ∈ items, ∃ o, part item = .ok o) ∧
      ∀ y, y ∈ out ↔ ∃ item ∈ items, part item = .ok (some y) := by
  induction items generalizing out with
  | nil =>
    cases h
    simp
  | cons item rest ih =>
    simp only [gather] at h
    obtain ⟨first, head, h⟩ := Outcome.bind_ok h
    obtain ⟨others, tail, h⟩ := Outcome.bind_ok h
    cases h
    obtain ⟨sound, gathered⟩ := ih tail
    constructor
    · intro other member
      rcases List.mem_cons.1 member with rfl | later
      · exact ⟨first, head⟩
      · exact sound other later
    · intro y
      rw [List.mem_append, gathered, Option.mem_toList]
      simp only [List.mem_cons, exists_eq_or_imp, head, Except.ok.injEq]

namespace Context
variable (x : Context) {r : Resource} {f : String}

/-- The fields that the definitions list as plain, by their declared names. -/
def plainNames (r : Resource) : Result (List String) := do
  return (← gather (fun a => (x.plainAttribute r a).map (Option.map fun _ => a.name))
      r.publicAttributes) ++
    (← gather (fun a => (x.plainCalculation r a).map (Option.map fun _ => a.name))
      r.publicCalculations) ++
    (← gather (fun a => (x.plainAggregate r a).map (Option.map fun _ => a.name))
      r.publicAggregates)

variable {x}

theorem ifAdmitted_ok {t : TypeRef} {m : Result (TypeMember TypeExpr)}
    {o : Option (TypeMember TypeExpr)} (h : x.ifAdmitted t m = .ok o) :
    x.referencesAdmitted t = .ok o.isSome := by
  obtain ⟨admitted, refs, h⟩ := Outcome.bind_ok h
  rw [refs]
  cases admitted with
  | false =>
    cases h
    rfl
  | true =>
    obtain ⟨made, same, h⟩ := Outcome.bind_ok h
    cases h
    rfl

theorem valueMember_name {name : String} {t : TypeRef} {allowNil : Bool}
    {shown : TypeMember TypeExpr} (h : x.valueMember r name t allowNil = .ok shown) :
    shown.name = x.external r name := by
  obtain ⟨type, -, h⟩ := Outcome.bind_ok h
  cases h
  rfl

theorem ifAdmitted_made {t : TypeRef} {m : Result (TypeMember TypeExpr)}
    {shown : TypeMember TypeExpr} (h : x.ifAdmitted t m = .ok (some shown)) : m = .ok shown := by
  obtain ⟨admitted, refs, h⟩ := Outcome.bind_ok h
  cases admitted with
  | false => cases h
  | true =>
    obtain ⟨made, same, h⟩ := Outcome.bind_ok h
    cases h
    exact same

/-! ### The names in the definitions -/

theorem ofKind_ok {kinds : List Classification} {name : String}
    {part : Result (Option (TypeMember TypeExpr))} {o : Option (TypeMember TypeExpr)}
    (h : x.ofKind r name kinds part = .ok o) :
    x.kindOf r name ∉ kinds ∧ o = none ∨ x.kindOf r name ∈ kinds ∧ part = .ok o := by
  unfold ofKind at h
  split at h
  · cases h
  · split at h
    · next listed => exact Or.inr ⟨List.contains_iff_mem.1 listed, h⟩
    · next other =>
      cases h
      exact Or.inl ⟨fun listed => other (List.contains_iff_mem.2 listed), rfl⟩

theorem ofKind_some {kinds : List Classification} {name : String}
    {part : Result (Option (TypeMember TypeExpr))} {m : TypeMember TypeExpr}
    (h : x.ofKind r name kinds part = .ok (some m)) :
    x.kindOf r name ∈ kinds ∧ part = .ok (some m) := by
  rcases ofKind_ok h with ⟨-, none⟩ | shown
  · cases none
  · exact shown

theorem ofKind_taken {kinds : List Classification} {name : String}
    {part : Result (Option (TypeMember TypeExpr))} {o : Option (TypeMember TypeExpr)}
    (read : x.kindOf r name ∈ kinds) (h : x.ofKind r name kinds part = .ok o) : part = .ok o := by
  rcases ofKind_ok h with ⟨other, -⟩ | ⟨-, taken⟩
  · exact absurd read other
  · exact taken

theorem plainAttribute_name {a : Attribute} {shown : TypeMember TypeExpr}
    (h : x.plainAttribute r a = .ok (some shown)) : shown.name = x.external r a.name :=
  valueMember_name (ifAdmitted_made (ofKind_some h).2)

theorem plainCalculation_name {a : Calculation} {shown : TypeMember TypeExpr}
    (h : x.plainCalculation r a = .ok (some shown)) : shown.name = x.external r a.name :=
  valueMember_name (ifAdmitted_made (ofKind_some h).2)

theorem plainAggregate_name {a : Aggregate} {shown : TypeMember TypeExpr}
    (h : x.plainAggregate r a = .ok (some shown)) : shown.name = x.external r a.name := by
  obtain ⟨t, typed, admitted⟩ := Outcome.bind_ok (ofKind_some h).2
  obtain ⟨type, made, same⟩ := Outcome.bind_ok (ifAdmitted_made admitted)
  cases same
  rfl

theorem gather_names {name : α → String} {part : α → Result (Option (TypeMember TypeExpr))}
    (named : ∀ a m, part a = .ok (some m) → m.name = x.external r (name a)) (items : List α) :
    (gather part items).map (List.map TypeMember.name) =
      (gather (fun a => (part a).map (Option.map fun _ => name a)) items).map
        (List.map (x.external r)) := by
  rw [gather_map, gather_map]
  congr 1
  funext a
  cases worked : part a with
  | error fault => rfl
  | ok o =>
    cases o with
    | none => rfl
    | some m =>
      rw [Except.map, Except.map, Except.map, Option.map_some, Option.map_some, Option.map_some,
        named a m worked]

private theorem map_appended {β γ δ : Type} {f : β → δ} {g : γ → δ} {a b d : Result (List β)}
    {a' b' d' : Result (List γ)} (first : a.map (List.map f) = a'.map (List.map g))
    (second : b.map (List.map f) = b'.map (List.map g))
    (third : d.map (List.map f) = d'.map (List.map g)) :
    Except.map (List.map f) (do return (← a) ++ (← b) ++ (← d)) =
      Except.map (List.map g) (do return (← a') ++ (← b') ++ (← d')) := by
  cases a <;> cases a' <;> simp only [Except.map, reduceCtorEq, Except.ok.injEq,
    Except.error.injEq] at first
  · rw [first]
    rfl
  cases b <;> cases b' <;> simp only [Except.map, reduceCtorEq, Except.ok.injEq,
    Except.error.injEq] at second
  · rw [second]
    rfl
  cases d <;> cases d' <;> simp only [Except.map, reduceCtorEq, Except.ok.injEq,
    Except.error.injEq] at third
  · rw [third]
    rfl
  simp [Except.map, bind, Except.bind, pure, Except.pure, first, second, third]

theorem plainMembers_names (x : Context) (r : Resource) :
    (x.plainMembers r).map (List.map TypeMember.name) =
      (x.plainNames r).map (List.map (x.external r)) :=
  map_appended (gather_names (fun _ _ => plainAttribute_name) _)
    (gather_names (fun _ _ => plainCalculation_name) _)
    (gather_names (fun _ _ => plainAggregate_name) _)

theorem plainMembers_ok {members : List (TypeMember TypeExpr)}
    (h : x.plainMembers r = .ok members) :
    ∃ names, x.plainNames r = .ok names ∧
      members.map TypeMember.name = names.map (x.external r) := by
  have same := plainMembers_names x r
  rw [h] at same
  obtain ⟨names, plain, mapped⟩ := Outcome.map_ok same.symm
  exact ⟨names, plain, mapped.symm⟩

theorem fieldResource_ok {shown : Resource} (h : x.fieldResource shown = .ok r) :
    x.catalog.resource? shown.name = some r := by
  unfold fieldResource at h
  split at h
  · next r' held =>
    cases h
    exact Catalog.resource_ok held
  · cases h

theorem fieldNames_plain {shown : Resource} {d : Definition} (h : x.fieldNames shown = .ok d) :
    ∃ r names, x.catalog.resource? shown.name = some r ∧ x.plainNames r = .ok names ∧
      d.body = .alias (.oneOf (names.map (x.external r))) := by
  obtain ⟨r, found, h⟩ := Outcome.bind_ok h
  obtain ⟨members, listed, h⟩ := Outcome.bind_ok h
  cases h
  obtain ⟨names, plain, same⟩ := plainMembers_ok listed
  exact ⟨r, names, fieldResource_ok found, plain, by rw [same]⟩

/-! ### What is listed -/

/-- The field is among the names just if it has a type, and one that may be referred to. -/
structure Settles (x : Context) (names : List String) (f : String) (type : Option TypeRef) :
    Prop where
  typed : f ∈ names → type.isSome = true
  decided : ∀ t, type = some t → ∃ b, x.referencesAdmitted t = .ok b ∧ (f ∈ names ↔ b = true)

theorem Settles.of_iff {names names' : List String} {type : Option TypeRef}
    (h : x.Settles names f type) (same : f ∈ names' ↔ f ∈ names) : x.Settles names' f type := by
  constructor
  · intro member
    exact h.typed (same.1 member)
  · intro t typed
    obtain ⟨b, refs, listed⟩ := h.decided t typed
    exact ⟨b, refs, same.trans listed⟩

/-- The part of a field is there just if the field is of the kind and its type, which it
has then, may be referred to. -/
def Decides (x : Context) (r : Resource) (kind : Classification) (name : String)
    (type : Option TypeRef) (part : Option (TypeMember TypeExpr)) : Prop :=
  x.kindOf r name ≠ kind ∧ part = none ∨ x.kindOf r name = kind ∧
    ∃ t, type = some t ∧ x.referencesAdmitted t = .ok part.isSome

theorem plainAttribute_decides (a : Attribute) (o : Option (TypeMember TypeExpr))
    (h : x.plainAttribute r a = .ok o) : x.Decides r .attribute a.name (some a.type) o := by
  rcases ofKind_ok h with ⟨other, none⟩ | ⟨same, admitted⟩
  · exact Or.inl ⟨by simpa using other, none⟩
  · exact Or.inr ⟨List.mem_singleton.1 same, a.type, rfl, ifAdmitted_ok admitted⟩

theorem plainCalculation_decides (a : Calculation) (o : Option (TypeMember TypeExpr))
    (h : x.plainCalculation r a = .ok o) : x.Decides r .calculation a.name (some a.type) o := by
  rcases ofKind_ok h with ⟨other, none⟩ | ⟨same, admitted⟩
  · exact Or.inl ⟨by simpa using other, none⟩
  · exact Or.inr ⟨List.mem_singleton.1 same, a.type, rfl, ifAdmitted_ok admitted⟩

theorem aggregateType_ok {a : Aggregate} {t : TypeRef} (h : x.aggregateType r a = .ok t) :
    x.catalog.aggregateType? r a = some t := by
  unfold aggregateType at h
  split at h
  · next t' resolved =>
    cases h
    exact Catalog.aggregateType?_eq_some.2 resolved
  · cases h
  · cases h

theorem plainAggregate_decides (a : Aggregate) (o : Option (TypeMember TypeExpr))
    (h : x.plainAggregate r a = .ok o) :
    x.Decides r .aggregate a.name (x.catalog.aggregateType? r a) o := by
  rcases ofKind_ok h with ⟨other, none⟩ | ⟨same, worked⟩
  · exact Or.inl ⟨by simpa using other, none⟩
  · obtain ⟨t, typed, admitted⟩ := Outcome.bind_ok worked
    exact Or.inr ⟨List.mem_singleton.1 same, t, aggregateType_ok typed, ifAdmitted_ok admitted⟩

section
variable {kind : Classification} {name : α → String} {type : α → Option TypeRef}
variable {part : α → Result (Option (TypeMember TypeExpr))} {all : List α} {names : List String}

theorem mem_gather_names
    (h : gather (fun a => (part a).map (Option.map fun _ => name a)) all = .ok names) :
    (∀ a ∈ all, ∃ o, part a = .ok o) ∧
      (f ∈ names ↔ ∃ a ∈ all, name a = f ∧ ∃ m, part a = .ok (some m)) := by
  obtain ⟨sound, gathered⟩ := gather_ok h
  constructor
  · intro a present
    obtain ⟨named, mapped⟩ := sound a present
    obtain ⟨o, worked, -⟩ := Outcome.map_ok mapped
    exact ⟨o, worked⟩
  · rw [gathered]
    constructor
    · rintro ⟨a, member, found⟩
      obtain ⟨o, worked, same⟩ := Outcome.map_ok found
      obtain ⟨m, rfl, rfl⟩ := Option.map_eq_some_iff.1 same
      exact ⟨a, member, rfl, m, worked⟩
    · rintro ⟨a, member, rfl, m, worked⟩
      exact ⟨a, member, by rw [worked]; rfl⟩

theorem settles_gather
    (decides : ∀ a o, part a = .ok o → x.Decides r kind (name a) (type a) o)
    (h : gather (fun a => (part a).map (Option.map fun _ => name a)) (byName name all) =
      .ok names) :
    (x.kindOf r f ≠ kind → f ∉ names) ∧
      (x.kindOf r f = kind →
        x.Settles names f (((byName name all).find? (name · == f)).bind type)) := by
  obtain ⟨sound, listed⟩ := mem_gather_names (f := f) h
  constructor
  · intro other member
    obtain ⟨a, -, rfl, m, worked⟩ := listed.1 member
    rcases decides a _ worked with ⟨-, none⟩ | ⟨same, -⟩
    · contradiction
    · exact other same
  · intro same
    constructor
    · intro member
      obtain ⟨a, present, rfl, m, worked⟩ := listed.1 member
      rcases decides a _ worked with ⟨-, none⟩ | ⟨-, t, typed, -⟩
      · contradiction
      · rw [find?_byName.2 ⟨present, rfl⟩, Option.bind_some, typed, Option.isSome_some]
    · intro t typed
      obtain ⟨a, found, leads⟩ := Option.bind_eq_some_iff.1 typed
      obtain ⟨present, rfl⟩ := find?_byName.1 found
      obtain ⟨o, worked⟩ := sound a present
      rcases decides a o worked with ⟨other, -⟩ | ⟨-, t', typed', refs⟩
      · exact absurd same other
      · rw [leads] at typed'
        obtain rfl := Option.some.inj typed'
        refine ⟨o.isSome, refs, ?_⟩
        rw [listed]
        constructor
        · rintro ⟨b, member, alike, m, shown⟩
          -- names are told apart, so the item that is listed is the one that is found
          have only := find?_byName.2 ⟨member, alike⟩
          rw [found] at only
          obtain rfl := Option.some.inj only
          rw [worked] at shown
          cases shown
          rfl
        · intro some
          obtain ⟨m, rfl⟩ := Option.isSome_iff_exists.1 some
          exact ⟨a, present, rfl, m, worked⟩

end

end Context

def plainType? (c : Catalog) (r : Resource) (f : String) : Option TypeRef :=
  match classify c r f with
  | .attribute => (r.attribute? f).map Attribute.type
  | .calculation => (r.calculation? f).map Calculation.type
  | .aggregate => (r.aggregate? f).bind (c.aggregateType? r)
  | _ => none

namespace Context
variable {x : Context} {r : Resource} {f : String}

theorem plainNames_settles {names : List String} (h : x.plainNames r = .ok names) :
    x.Settles names f (plainType? x.catalog r f) := by
  obtain ⟨stored, first, h⟩ := Outcome.bind_ok h
  obtain ⟨derived, second, h⟩ := Outcome.bind_ok h
  obtain ⟨summed, third, h⟩ := Outcome.bind_ok h
  cases h
  have attributes := settles_gather (f := f) plainAttribute_decides first
  have calculations := settles_gather (f := f) plainCalculation_decides second
  have aggregates := settles_gather (f := f) plainAggregate_decides third
  have member : f ∈ stored ++ derived ++ summed ↔ (f ∈ stored ∨ f ∈ derived) ∨ f ∈ summed := by
    rw [List.mem_append, List.mem_append]
  unfold plainType?
  split
  · next kind =>
    have notDerived : f ∉ derived := calculations.1 (by simp [kindOf, kind])
    have notSummed : f ∉ summed := aggregates.1 (by simp [kindOf, kind])
    rw [Option.map_eq_bind]
    exact (attributes.2 kind).of_iff (by simp [notDerived, notSummed])
  · next kind =>
    have notStored : f ∉ stored := attributes.1 (by simp [kindOf, kind])
    have notSummed : f ∉ summed := aggregates.1 (by simp [kindOf, kind])
    rw [Option.map_eq_bind]
    exact (calculations.2 kind).of_iff (by simp [notStored, notSummed])
  · next kind =>
    have notStored : f ∉ stored := attributes.1 (by simp [kindOf, kind])
    have notDerived : f ∉ derived := calculations.1 (by simp [kindOf, kind])
    exact (aggregates.2 kind).of_iff (by simp [notStored, notDerived])
  · next noAttribute noCalculation noAggregate =>
    constructor
    · intro listed
      rcases member.1 listed with (stored | derived) | summed
      · exact absurd stored (attributes.1 noAttribute)
      · exact absurd derived (calculations.1 noCalculation)
      · exact absurd summed (aggregates.1 noAggregate)
    · intro t typed
      contradiction

def Lists (x : Context) (r : Resource) (f : String) : Prop :=
  ∃ names, x.plainNames r = .ok names ∧ f ∈ names

/-- Why a field is not listed. -/
inductive Omits (x : Context) (r : Resource) (f : String) : Prop
  /-- Nothing is listed at all. -/
  | faulty {failure : Failure} (h : x.plainNames r = .error failure)
  /-- The resource has no plain field of that kind and name. -/
  | untyped (h : plainType? x.catalog r f = none)
  /-- The type of the field refers to a resource outside the exposure. -/
  | hidden {t : TypeRef} {names : List String} {name : String}
      (typed : plainType? x.catalog r f = some t) (refers : typeResources x.catalog t = .ok names)
      (member : name ∈ names) (outside : x.admits name = false)

theorem lists_or_omits (x : Context) (r : Resource) (f : String) : x.Lists r f ∨ x.Omits r f := by
  cases plain : x.plainNames r with
  | error fault => exact Or.inr (.faulty plain)
  | ok names =>
    have settled : x.Settles names f _ := plainNames_settles plain
    cases typed : plainType? x.catalog r f with
    | none => exact Or.inr (.untyped typed)
    | some t =>
      obtain ⟨b, refs, listed⟩ := settled.decided t typed
      obtain ⟨resources, refers, all⟩ := Outcome.bind_ok refs
      cases b with
      | true => exact Or.inl ⟨names, plain, listed.2 rfl⟩
      | false =>
        have some : resources.all x.admits = false := Except.ok.inj all
        obtain ⟨name, member, outside⟩ := List.all_eq_false.1 some
        exact Or.inr (.hidden typed refers member (by simpa using outside))

theorem Lists.not_omits (h : x.Lists r f) : ¬x.Omits r f := by
  obtain ⟨names, plain, member⟩ := h
  have settled : x.Settles names f _ := plainNames_settles plain
  intro omitted
  cases omitted with
  | faulty fault =>
    rw [plain] at fault
    contradiction
  | untyped none =>
    have typed := settled.typed member
    rw [none] at typed
    contradiction
  | @hidden t resources name typed refers mentioned outside =>
    obtain ⟨b, refs, listed⟩ := settled.decided t typed
    rw [listed.1 member, referencesAdmitted, refers] at refs
    have all : resources.all x.admits = true := Except.ok.inj refs
    rw [List.all_eq_true.1 all name mentioned] at outside
    contradiction

theorem Lists.plain (h : x.Lists r f) : (plainType? x.catalog r f).isSome = true := by
  obtain ⟨names, plain, member⟩ := h
  exact (plainNames_settles plain).typed member

end Context
end Schema
end FieldPlan
