import FieldPlan.Proofs.Schema.Followed
import FieldPlan.Proofs.Schema.Sections

/-! When definitions can be written. Most sections look at a type first, and then it need not be
followed if one of its resources is not exposed. A type that no section looks at has to be. -/
namespace FieldPlan
namespace Schema

theorem gather_isOk {α β : Type} {part : α → Result (Option β)} {items : List α} :
    (∃ out, gather part items = .ok out) ↔ ∀ item ∈ items, ∃ o, part item = .ok o := by
  induction items with
  | nil => exact iff_of_true ⟨_, rfl⟩ fun _ absent => absurd absent List.not_mem_nil
  | cons item rest ih => rw [gather, pair_isOk, ih, List.forall_mem_cons]

namespace Context
variable {x : Context} {r : Resource} {f : Field} {t : TypeRef} {name : String}

/-! ### Members that can be written -/

/-- The structs behind the type are there, and if its resources are exposed, then it can be
followed. -/
def Checks (x : Context) (t : TypeRef) : Prop :=
  (∃ b, x.referencesAdmitted t = .ok b) ∧
    (x.referencesAdmitted t = .ok true → x.catalog.Resolves t)

def Reads (x : Context) (r : Resource) (name : String) : Prop :=
  ∀ way, x.kindOf r name ≠ .crashed way

theorem ofKind_isOk {kinds : List Classification} {part : Result (Option (TypeMember TypeExpr))} :
    (∃ o, x.ofKind r name kinds part = .ok o) ↔
      x.Reads r name ∧ (x.kindOf r name ∈ kinds → ∃ o, part = .ok o) := by
  unfold ofKind
  split
  · next way ended => exact iff_of_false (by simp [crash]) fun h => h.1 way ended
  · next reads =>
    have read : x.Reads r name := reads
    rw [and_iff_right read]
    split
    · next listed => simp [List.contains_iff_mem.1 listed]
    · next other =>
      exact iff_of_true ⟨none, rfl⟩ fun listed => absurd (List.contains_iff_mem.2 listed) other

theorem ifAdmitted_isOk {made : Result (TypeMember TypeExpr)} :
    (∃ o, x.ifAdmitted t made = .ok o) ↔ (∃ b, x.referencesAdmitted t = .ok b) ∧
      (x.referencesAdmitted t = .ok true → ∃ m, made = .ok m) := by
  unfold ifAdmitted
  cases x.referencesAdmitted t with
  | error fault => simp [bind, Except.bind]
  | ok b =>
    cases b with
    | false => exact iff_of_true ⟨none, rfl⟩ ⟨⟨false, rfl⟩, nofun⟩
    | true => cases made <;> simp [bind, Except.bind, pure, Except.pure]

theorem expr_isOk {g : TypeExpr → TypeMember TypeExpr} :
    (∃ m, (do return g (← x.expr t) : Result (TypeMember TypeExpr)) = .ok m) ↔
      x.catalog.Resolves t :=
  (map_isOk g (x.expr t)).trans typeExpr_isOk

theorem inputExpr_isOk {g : TypeExpr → TypeMember TypeExpr} :
    (∃ m, (do return g (← x.inputExpr t) : Result (TypeMember TypeExpr)) = .ok m) ↔
      x.catalog.Resolves t :=
  (map_isOk g (x.inputExpr t)).trans typeExpr_isOk

theorem value_isOk {allowNil : Bool} :
    (∃ o, x.ifAdmitted t (x.valueMember r name t allowNil) = .ok o) ↔ x.Checks t := by
  rw [ifAdmitted_isOk]
  exact and_congr_right fun _ => imp_congr_right fun _ => expr_isOk

theorem plainAttribute_isOk {a : Attribute} : (∃ o, x.plainAttribute r a = .ok o) ↔
    x.Reads r a.name ∧ (x.kindOf r a.name ∈ [.attribute] → x.Checks a.type) :=
  ofKind_isOk.trans (and_congr_right fun _ => imp_congr_right fun _ => value_isOk)

theorem plainCalculation_isOk {a : Calculation} : (∃ o, x.plainCalculation r a = .ok o) ↔
    x.Reads r a.name ∧ (x.kindOf r a.name ∈ [.calculation] → x.Checks a.type) :=
  ofKind_isOk.trans (and_congr_right fun _ => imp_congr_right fun _ => value_isOk)

theorem structuredAttribute_isOk {a : Attribute} : (∃ o, x.structuredAttribute r a = .ok o) ↔
    x.Reads r a.name ∧ (x.kindOf r a.name ∈ [.typedStruct, .tuple] → x.Checks a.type) :=
  ofKind_isOk.trans (and_congr_right fun _ => imp_congr_right fun _ => value_isOk)

theorem aggregateMember_isOk {a : Aggregate} {made : TypeRef → Result (TypeMember TypeExpr)}
    (typed : ∀ t, (∃ m, made t = .ok m) ↔ x.catalog.Resolves t) :
    (∃ o, (do let t ← x.aggregateType r a; x.ifAdmitted t (made t)) = .ok o) ↔
      ∃ t, x.catalog.aggregateType? r a = some t ∧ x.Checks t := by
  unfold aggregateType Catalog.aggregateType?
  cases x.catalog.aggregateType r a with
  | missing => simp [bind, Except.bind, fault, Catalog.Resolution.type?]
  | unfinished => simp [bind, Except.bind, crash, Catalog.Resolution.type?]
  | found t =>
    simp only [Catalog.Resolution.type?, Option.some.injEq, exists_eq_left']
    exact ifAdmitted_isOk.trans (and_congr_right fun _ => imp_congr_right fun _ => typed t)

theorem plainAggregate_isOk {a : Aggregate} : (∃ o, x.plainAggregate r a = .ok o) ↔
    x.Reads r a.name ∧ (x.kindOf r a.name ∈ [.aggregate] →
      ∃ t, x.catalog.aggregateType? r a = some t ∧ x.Checks t) :=
  ofKind_isOk.trans <| and_congr_right fun _ => imp_congr_right fun _ =>
    aggregateMember_isOk fun _ => expr_isOk

theorem derivedAggregate_isOk {a : Aggregate} : (∃ o, x.derivedAggregate r a = .ok o) ↔
    x.Reads r a.name ∧ (x.kindOf r a.name ∈ [.complexAggregate] →
      ∃ t, x.catalog.aggregateType? r a = some t ∧ x.Checks t) :=
  ofKind_isOk.trans <| and_congr_right fun _ => imp_congr_right fun _ =>
    aggregateMember_isOk fun _ => expr_isOk

theorem linkMember_isOk {link : Relationship} : (∃ o, x.linkMember r link = .ok o) ↔
    x.catalog.hasResource link.destination = true := by
  unfold linkMember
  cases present : x.catalog.hasResource link.destination with
  | false => exact iff_of_false (by rintro ⟨o, h⟩; cases h) nofun
  | true =>
    have written : ∃ e, resourceExpr x.catalog .output link.destination = .ok e :=
      resourceExpr_isOk.2 present
    obtain ⟨records, same⟩ := written
    refine iff_of_true ?_ rfl
    rw [same]
    cases x.admits link.destination <;> exact ⟨_, rfl⟩

theorem embeddedMember_isOk {a : Attribute} :
    (∃ o, x.embeddedMember r a = .ok o) ↔ x.Reads r a.name := by
  refine ofKind_isOk.trans (and_iff_left fun _ => ?_)
  split
  · exact ⟨none, rfl⟩
  · next embedded held =>
    have present := Catalog.hasResource_of_isEmbedded
      (Catalog.isEmbedded_of_embeddedName (Option.filter_eq_some_iff.1 held).1)
    have written : ∃ e, resourceExpr x.catalog .output embedded = .ok e :=
      resourceExpr_isOk.2 present
    obtain ⟨records, same⟩ := written
    rw [same]
    exact ⟨_, rfl⟩

theorem arguments_isOk {arguments : List Argument} :
    (∃ members, gather (fun arg => some <$> x.argumentMember arg) arguments = .ok members) ↔
      ∀ t ∈ arguments.map Argument.type, x.catalog.Resolves t := by
  rw [gather_isOk, List.forall_mem_map]
  refine forall₂_congr fun arg _ => ?_
  exact (map_isOk some (x.argumentMember arg)).trans inputExpr_isOk

theorem derivedCalculation_isOk {a : Calculation} : (∃ o, x.derivedCalculation r a = .ok o) ↔
    x.Reads r a.name ∧
      (x.kindOf r a.name ∈ [.calculationComplex, .calculationWithArgs] → x.Checks a.type) ∧
      ∀ t ∈ x.argumentTypes r a, x.catalog.Resolves t := by
  have made {g : TypeExpr → List (TypeMember TypeExpr) → TypeMember TypeExpr} :
      (∃ m, (do
        let value ← x.expr a.type
        let arguments ← gather (fun arg => some <$> x.argumentMember arg) a.arguments
        return g value arguments : Result (TypeMember TypeExpr)) = .ok m) ↔
      x.catalog.Resolves a.type ∧ ∀ t ∈ a.arguments.map Argument.type, x.catalog.Resolves t :=
    (pair_isOk g _ _).trans (and_congr typeExpr_isOk arguments_isOk)
  refine ofKind_isOk.trans (and_congr_right fun _ => ?_)
  rw [ifAdmitted_isOk, made]
  simp only [mem_argumentTypes, List.mem_pair, Checks]
  constructor
  · intro h
    refine ⟨fun kind => ⟨(h kind).1, fun may => ((h kind).2 may).1⟩, ?_⟩
    rintro t ⟨kind, may, taken⟩
    exact ((h kind).2 may).2 t taken
  · rintro ⟨checks, given⟩ kind
    refine ⟨(checks kind).1, fun may => ⟨(checks kind).2 may, fun t taken => ?_⟩⟩
    exact given t ⟨kind, may, taken⟩

theorem unionMember_isOk {member : Member TypeRef} : (∃ o, x.unionMember member = .ok o) ↔
    ∀ t ∈ x.memberTypes member, x.catalog.Resolves t := by
  unfold unionMember memberTypes
  split
  · rw [List.forall_mem_singleton]
    exact (map_isOk _ (x.expr member.type)).trans typeExpr_isOk
  · exact iff_of_true ⟨none, rfl⟩ fun _ absent => absurd absent List.not_mem_nil

theorem unionType_isOk {members : List (Member TypeRef)} {many : Bool} :
    (∃ e, x.unionType members many = .ok e) ↔
      ∀ t ∈ members.flatMap x.memberTypes, x.catalog.Resolves t := by
  refine (map_isOk _ (gather x.unionMember members)).trans ?_
  rw [gather_isOk, List.forall_mem_flatMap]
  exact forall₂_congr fun _ _ => unionMember_isOk

theorem unionAttribute_isOk {a : Attribute} : (∃ o, x.unionAttribute r a = .ok o) ↔
    x.Reads r a.name ∧
      (x.kindOf r a.name = .unionAttribute → ∃ members, a.type.inner = .union members) ∧
      ∀ t ∈ x.unionTypes r a, x.catalog.Resolves t := by
  refine ofKind_isOk.trans (and_congr_right fun _ => ?_)
  unfold unionTypes TypeRef.inner
  by_cases kind : x.kindOf r a.name = .unionAttribute
  · rw [if_pos (beq_iff_eq.2 kind), kind, imp_iff_right (List.mem_singleton_self _),
      imp_iff_right rfl]
    split
    · next members many shape =>
      rw [shape, and_iff_right ⟨members, rfl⟩]
      exact (map_isOk _ (x.unionType members many)).trans unionType_isOk
    · next other =>
      refine iff_of_false (by simp [crash]) ?_
      rintro ⟨⟨members, shape⟩, -⟩
      exact other members a.type.unwrapArray.2 (Prod.ext shape rfl)
  · rw [if_neg (by simpa using kind)]
    refine iff_of_true (fun same => absurd (List.mem_singleton.1 same) kind) ⟨?_, ?_⟩
    · exact fun same => absurd same kind
    · exact fun _ absent => absurd absent List.not_mem_nil

/-! ### Definitions that can be written -/

/-- No section stops at the field. The types that a section looks at are checked, and those that
it does not look at can be followed. -/
def Passes (x : Context) (r : Resource) : Field → Prop
  | .attribute a => x.Reads r a.name ∧
      (x.kindOf r a.name ∈ [.attribute, .typedStruct, .tuple] → x.Checks a.type) ∧
      (x.kindOf r a.name = .unionAttribute → ∃ members, a.type.inner = .union members) ∧
      ∀ t ∈ x.unionTypes r a, x.catalog.Resolves t
  | .calculation a => x.Reads r a.name ∧
      (x.kindOf r a.name ∈ [.calculation, .calculationComplex, .calculationWithArgs] →
        x.Checks a.type) ∧ ∀ t ∈ x.argumentTypes r a, x.catalog.Resolves t
  | .aggregate a => x.Reads r a.name ∧
      (x.kindOf r a.name ∈ [.aggregate, .complexAggregate] →
        ∃ t, x.catalog.aggregateType? r a = some t ∧ x.Checks t)
  | .relationship link => x.catalog.hasResource link.destination = true

theorem shows_isOk : (∀ s, ∃ o, x.shows r s f = .ok o) ↔ x.Passes r f := by
  constructor
  · intro h
    cases f with
    | «attribute» a =>
      obtain ⟨reads, plain⟩ := plainAttribute_isOk.1 (h .plain)
      have structured := (structuredAttribute_isOk.1 (h .structured)).2
      refine ⟨reads, fun kind => ?_, (unionAttribute_isOk.1 (h .unions)).2⟩
      rcases List.mem_cons.1 kind with same | others
      · exact plain (List.mem_singleton.2 same)
      · exact structured others
    | calculation a =>
      obtain ⟨reads, plain⟩ := plainCalculation_isOk.1 (h .plain)
      obtain ⟨-, checks, given⟩ := derivedCalculation_isOk.1 (h .derived)
      refine ⟨reads, fun kind => ?_, given⟩
      rcases List.mem_cons.1 kind with same | others
      · exact plain (List.mem_singleton.2 same)
      · exact checks others
    | aggregate a =>
      obtain ⟨reads, plain⟩ := plainAggregate_isOk.1 (h .plain)
      have derived := (derivedAggregate_isOk.1 (h .derived)).2
      refine ⟨reads, fun kind => ?_⟩
      rcases List.mem_cons.1 kind with same | others
      · exact plain (List.mem_singleton.2 same)
      · exact derived others
    | relationship link => exact linkMember_isOk.1 (h .links)
  · intro h s
    unfold shows
    split
    · next a =>
      exact plainAttribute_isOk.2 ⟨h.1, fun same => h.2.1 (by simp [List.mem_singleton.1 same])⟩
    · next a =>
      exact plainCalculation_isOk.2 ⟨h.1, fun same => h.2.1 (by simp [List.mem_singleton.1 same])⟩
    · next a =>
      exact plainAggregate_isOk.2 ⟨h.1, fun same => h.2 (by simp [List.mem_singleton.1 same])⟩
    · next link => exact linkMember_isOk.2 h
    · next a => exact embeddedMember_isOk.2 h.1
    · next a =>
      exact derivedCalculation_isOk.2
        ⟨h.1, fun either => h.2.1 (List.mem_cons_of_mem _ either), h.2.2⟩
    · next a =>
      exact derivedAggregate_isOk.2 ⟨h.1, fun same => h.2 (by simp [List.mem_singleton.1 same])⟩
    · next a => exact unionAttribute_isOk.2 ⟨h.1, h.2.2⟩
    · next a =>
      exact structuredAttribute_isOk.2 ⟨h.1, fun either => h.2.1 (List.mem_cons_of_mem _ either)⟩
    · exact ⟨none, rfl⟩

theorem rows_isOk : (∃ rows, x.rows r = .ok rows) ↔ ∀ f ∈ r.publicFields, x.Passes r f := by
  rw [rows, gather_isOk]
  have row_isOk (p : Section × Field) : (∃ o, x.row r p = .ok o) ↔ ∃ o, x.shows r p.1 p.2 = .ok o :=
    map_isOk _ _
  simp only [row_isOk, ← shows_isOk]
  constructor
  · intro h f listed s
    exact h (s, f) (mem_places.2 listed)
  · rintro h ⟨s, f⟩ place
    exact h f (mem_places.1 place) s

/-- All definitions of the resource can be written. -/
structure Writable (x : Context) (r : Resource) : Prop where
  fields : ∀ f ∈ r.publicFields, x.Passes r f
  input : r.embedded = true → ∀ a ∈ r.publicAttributes, x.catalog.Resolves a.type

theorem members_isOk : (∃ members, x.plainMembers r = .ok members) ∧
    (∃ members, x.structuredMembers r = .ok members) ↔ ∀ f ∈ r.publicFields, x.Passes r f := by
  rw [← rows_isOk, ← map_isOk (List.map Row.member), rows_members]
  exact (pair_isOk _ _ _).symm

theorem fieldResource_found {shown : Resource} (found : x.catalog.resource? shown.name = some r) :
    x.fieldResource shown = .ok r := by
  rw [fieldResource, Catalog.resource, found]

theorem definitions_isOk (found : x.catalog.resource? r.name = some r) :
    (∃ ds, x.definitions r = .ok ds) ↔ x.Writable r := by
  have held := fieldResource_found found
  -- the three definitions stop at the same members, but for the input of embedded resources
  have names : (∃ d, x.fieldNames r = .ok d) ↔ ∃ members, x.plainMembers r = .ok members := by
    rw [fieldNames, held]
    exact map_isOk _ (x.plainMembers r)
  have schema : (∃ d, x.resourceSchema r = .ok d) ↔ ∀ f ∈ r.publicFields, x.Passes r f := by
    rw [resourceSchema, held, ← members_isOk]
    exact pair_isOk _ _ _
  have input : (∃ d, x.inputSchema r = .ok d) ↔
      ∀ a ∈ r.publicAttributes, x.catalog.Resolves a.type := by
    rw [inputSchema, held]
    refine (map_isOk _ (gather (fun a => some <$> x.inputMember r a) r.publicAttributes)).trans ?_
    rw [gather_isOk]
    refine forall₂_congr fun a _ => ?_
    exact (map_isOk some (x.inputMember r a)).trans inputExpr_isOk
  constructor
  · rintro ⟨ds, h⟩
    obtain ⟨_, -, h⟩ := Outcome.bind_ok h
    obtain ⟨d, second, h⟩ := Outcome.bind_ok h
    refine ⟨schema.1 ⟨d, second⟩, fun embedded => ?_⟩
    rw [if_pos embedded] at h
    obtain ⟨d, third, -⟩ := Outcome.bind_ok h
    exact input.1 ⟨d, third⟩
  · rintro ⟨fields, given⟩
    obtain ⟨_, first⟩ := names.2 (members_isOk.2 fields).1
    obtain ⟨_, second⟩ := schema.2 fields
    rw [definitions, first, second]
    cases embedded : r.embedded with
    | false => exact ⟨_, rfl⟩
    | true =>
      obtain ⟨_, third⟩ := input.2 (given embedded)
      rw [third]
      exact ⟨_, rfl⟩

/-- The text is written just if the search ends and all definitions of what it finds can be. -/
theorem document_isOk {roots : Option (List String)} : (∃ text, x.document roots = .ok text) ↔
    ∃ found, reachable x.catalog x.exposure (x.rootNames roots) = .ok found ∧
      ∀ r ∈ found, x.Writable r := by
  have written {found : List Resource}
      (reach : reachable x.catalog x.exposure (x.rootNames roots) = .ok found) :
      (∃ chunks, x.allDefinitions roots = .ok chunks) ↔ ∀ r ∈ found, x.Writable r := by
    rw [allDefinitions, ← rootNames, reach]
    refine gather_isOk.trans (forall₂_congr fun r member => ?_)
    exact (map_isOk _ (x.definitions r)).trans (definitions_isOk (reachable_reached reach r member).2)
  refine (map_isOk _ (x.allDefinitions roots)).trans ?_
  constructor
  · rintro ⟨chunks, h⟩
    obtain ⟨found, reach, -⟩ := Outcome.bind_ok h
    exact ⟨found, reach, (written reach).1 ⟨chunks, h⟩⟩
  · rintro ⟨found, reach, all⟩
    exact (written reach).2 all

end Context
end Schema
end FieldPlan
