import FieldPlan.Proofs.Schema.Reference
import FieldPlan.Proofs.Schema.Sections

/-! Whether the definitions that are named are there. Those of a field's values are: the search
follows the types of fields, and what it finds is defined. Those of a calculation's arguments
need not be, for the search does not look at arguments. -/
namespace FieldPlan

namespace Resource

def endings (r : Resource) : List String :=
  ["FieldName", "ResourceSchema"] ++ if r.embedded then ["InputSchema"] else []

def definitionNames (r : Resource) : List String := r.endings.map (r.schemaName ++ ·)

theorem mem_endings {r : Resource} {ending : String} (h : ending ∈ r.endings) :
    ending ∈ ["FieldName", "ResourceSchema", "InputSchema"] := by
  unfold endings at h
  split at h
  · exact h
  · rw [List.append_nil] at h
    exact List.mem_append_left ["InputSchema"] h

theorem endings_apart {first second ending ending' : String}
    (h : ending ∈ ["FieldName", "ResourceSchema", "InputSchema"])
    (h' : ending' ∈ ["FieldName", "ResourceSchema", "InputSchema"])
    (same : first ++ ending = second ++ ending') : first = second := by
  have turned := congrArg (fun name : String => name.toList.reverse) same
  simp only [String.toList_append, List.reverse_append] at turned
  simp only [List.mem_cons, List.not_mem_nil, or_false] at h h'
  rcases h with rfl | rfl | rfl <;> rcases h' with rfl | rfl | rfl <;>
    simp [String.toList_inj] at turned <;> exact turned

theorem nodup_definitionNames (r : Resource) : r.definitionNames.Nodup := by
  refine List.Nodup.map (fun _ _ same => (String.append_right_inj _).1 same) ?_
  unfold endings
  split <;> decide

theorem definitionNames_disjoint {r r' : Resource} :
    List.Disjoint r.definitionNames r'.definitionNames ↔ r.schemaName ≠ r'.schemaName := by
  constructor
  · intro apart same
    have first : r.schemaName ++ "FieldName" ∈ r.definitionNames := by
      simp [definitionNames, endings]
    have second : r.schemaName ++ "FieldName" ∈ r'.definitionNames := by
      simp [definitionNames, endings, same]
    exact apart first second
  · intro other name first second
    obtain ⟨ending, ends, rfl⟩ := List.mem_map.1 first
    obtain ⟨ending', ends', same⟩ := List.mem_map.1 second
    exact other (endings_apart (mem_endings ends) (mem_endings ends') same.symm)

end Resource

namespace Schema

def Definition.references (d : Definition) : List Reference :=
  match d.body with
  | .alias type => type.references
  | .members members => TypeExpr.referencesOfMembers members

namespace Context
variable {x : Context} {r : Resource} {s : Section} {f : Field} {m : TypeMember TypeExpr}
variable {ref : Reference} {t : TypeRef}

/-! ### Values -/

@[simp] theorem references_linkType (many nullable : Bool) (records : TypeExpr) :
    (linkType many nullable records).references = records.references := by
  cases many <;> simp [linkType, TypeExpr.references, TypeExpr.referencesOfMembers]

@[simp] theorem references_derivedType (value : TypeExpr) (arguments : List (TypeMember TypeExpr)) :
    (derivedType value arguments).references =
      value.references ++ TypeExpr.referencesOfMembers arguments := by
  cases arguments <;> simp [derivedType, TypeExpr.references, TypeExpr.referencesOfMembers]

theorem unionMember_references {member : Member TypeRef}
    (h : x.unionMember member = .ok (some m)) (named : ref ∈ m.type.references) :
    Refers x.catalog .output member.type ref := by
  unfold unionMember at h
  split at h
  · obtain ⟨expr, same, h⟩ := Outcome.bind_ok h
    cases h
    exact (typeExpr_references same).1 named
  · cases h

theorem unionType_references {members : List (Member TypeRef)} {many : Bool} {expr : TypeExpr}
    (h : x.unionType members many = .ok expr) (named : ref ∈ expr.references) :
    Refers x.catalog .output (.union members) ref := by
  obtain ⟨parts, listed, h⟩ := Outcome.bind_ok h
  cases h
  have inParts : ref ∈ TypeExpr.referencesOfMembers parts := by
    cases many <;> simpa [TypeExpr.references, TypeExpr.referencesOfMembers] using named
  obtain ⟨m, made, named⟩ := TypeExpr.mem_referencesOfMembers.1 inParts
  obtain ⟨member, present, worked⟩ := ((gather_ok listed).2 m).1 made
  obtain ⟨mention, stands⟩ := unionMember_references worked named
  have within : ∀ {mention : Mention}, mention ∈ x.catalog.mentions member.type →
      mention ∈ x.catalog.mentions (.union members) :=
    fun mentioned => TypeRef.mem_memberMentions.2 ⟨member, present, mentioned⟩
  exact ⟨mention.imp within within, stands⟩

/-! ### Values that are given -/

theorem inputs_references {α : Type} {part : α → Result (TypeMember TypeExpr)}
    {type : α → TypeRef}
    (typed : ∀ a m, part a = .ok m →
      ∀ ref, ref ∈ m.type.references ↔ Refers x.catalog .input (type a) ref)
    {items : List α} {members : List (TypeMember TypeExpr)}
    (h : gather (fun a => some <$> part a) items = .ok members) :
    ref ∈ TypeExpr.referencesOfMembers members ↔
      ∃ t ∈ items.map type, Refers x.catalog .input t ref := by
  obtain ⟨all, gathered⟩ := gather_ok h
  rw [TypeExpr.mem_referencesOfMembers]
  constructor
  · rintro ⟨m, made, named⟩
    obtain ⟨a, listed, worked⟩ := (gathered m).1 made
    obtain ⟨m', same, shown⟩ := Outcome.map_ok worked
    cases shown
    exact ⟨type a, List.mem_map_of_mem listed, (typed a m same ref).1 named⟩
  · rintro ⟨t, among, refers⟩
    obtain ⟨a, listed, rfl⟩ := List.mem_map.1 among
    obtain ⟨o, worked⟩ := all a listed
    obtain ⟨m, same, rfl⟩ := Outcome.map_ok worked
    exact ⟨m, (gathered m).2 ⟨a, listed, worked⟩, (typed a m same ref).2 refers⟩

theorem argumentMember_references (a : Argument) (m : TypeMember TypeExpr)
    (h : x.argumentMember a = .ok m) (ref : Reference) :
    ref ∈ m.type.references ↔ Refers x.catalog .input a.type ref := by
  obtain ⟨expr, same, h⟩ := Outcome.bind_ok h
  cases h
  rw [TypeExpr.references_orNullIf]
  exact typeExpr_references same

theorem inputMember_references (a : Attribute) (m : TypeMember TypeExpr)
    (h : x.inputMember r a = .ok m) (ref : Reference) :
    ref ∈ m.type.references ↔ Refers x.catalog .input a.type ref := by
  obtain ⟨expr, same, h⟩ := Outcome.bind_ok h
  cases h
  rw [TypeExpr.references_orNullIf]
  exact typeExpr_references same

def givenTypes (x : Context) (r : Resource) : List TypeRef :=
  r.publicCalculations.flatMap (x.argumentTypes r)

/-! ### Members -/

theorem arguments_references {a : Calculation} {arguments : List (TypeMember TypeExpr)}
    (may : x.referencesAdmitted a.type = .ok true) (h : x.Takes r (.calculation a) arguments) :
    ref ∈ TypeExpr.referencesOfMembers arguments ↔
      ∃ t ∈ x.argumentTypes r a, Refers x.catalog .input t ref := by
  obtain ⟨kind, listed⟩ := h
  have taken : ∀ t, t ∈ x.argumentTypes r a ↔ t ∈ a.arguments.map Argument.type :=
    fun t => mem_argumentTypes.trans (by simp only [kind, may, true_and])
  simp only [taken]
  exact inputs_references argumentMember_references listed

theorem shows_references (h : x.shows r s f = .ok (some m)) (named : ref ∈ m.type.references) :
    (∃ t, f.type? x.catalog r = some t ∧ Refers x.catalog .output t ref) ∨
      ∃ a, f = .calculation a ∧ ∃ t ∈ x.argumentTypes r a, Refers x.catalog .input t ref := by
  obtain ⟨-, -, made⟩ := shows_some h
  cases made with
  | @value _ _ _ t _ _ place typed may written type =>
    rw [type, TypeExpr.references_orNullIf] at named
    exact Or.inl ⟨t, typed, (typeExpr_references written).1 named⟩
  | @derived _ _ t _ _ _ typed may written takes type =>
    rw [type, references_derivedType, TypeExpr.references_orNullIf, List.mem_append] at named
    rcases named with inValue | given
    · exact Or.inl ⟨t, typed, (typeExpr_references written).1 inValue⟩
    cases f with
    | calculation a =>
      cases typed
      exact Or.inr ⟨a, rfl, (arguments_references may takes).1 given⟩
    | «attribute» a =>
      cases takes
      exact absurd given List.not_mem_nil
    | aggregate a =>
      cases takes
      exact absurd given List.not_mem_nil
    | relationship link =>
      cases takes
      exact absurd given List.not_mem_nil
  | @records _ _ _ t name _ _ _ place typed held present written type =>
    rw [type, references_linkType, resourceExpr_references written] at named
    obtain ⟨rfl, stands⟩ := named
    refine Or.inl ⟨t, typed, ?_, stands⟩
    rcases held with rfl | embedded
    · exact Or.inl (List.mem_singleton_self _)
    · exact Catalog.mentions_embedded embedded
  | @union a _ members _ _ _ shape written type =>
    rw [type, TypeExpr.references_orNullIf] at named
    obtain ⟨mention, stands⟩ := unionType_references written named
    rw [← shape, Catalog.mentions_inner] at mention
    exact Or.inl ⟨a.type, rfl, mention, stands⟩

theorem derived_references {a : Calculation}
    (h : x.shows r .derived (.calculation a) = .ok (some m)) (taken : t ∈ x.argumentTypes r a)
    (refers : Refers x.catalog .input t ref) : ref ∈ m.type.references := by
  obtain ⟨-, -, made⟩ := shows_some h
  cases made with
  | value place => exact absurd rfl place
  | records place => exact absurd rfl place
  | derived typed may written takes type =>
    cases typed
    rw [type, references_derivedType]
    exact List.mem_append_right _ ((arguments_references may takes).2 ⟨t, taken, refers⟩)

/-! ### Definitions -/

/-- The definition is for a resource that the values of a public field refer to. -/
def HasField (x : Context) (r : Resource) (ref : Reference) : Prop :=
  ∃ f ∈ r.publicFields, ∃ t form, f.type? x.catalog r = some t ∧ Refers x.catalog form t ref

def Gives (x : Context) (r : Resource) (ref : Reference) : Prop :=
  ∃ t ∈ x.givenTypes r, Refers x.catalog .input t ref

theorem resourceSchema_references (ref : Reference) {shown : Resource} {d : Definition}
    (found : x.catalog.resource? shown.name = some r) (h : x.resourceSchema shown = .ok d) :
    (ref ∈ d.references → x.HasField r ref ∨ x.Gives r ref) ∧
      (x.Gives r ref → ref ∈ d.references) := by
  obtain ⟨rows, made, body⟩ := resourceSchema_rows found h
  have inRows : ref ∈ d.references ↔ ∃ row ∈ rows, ref ∈ row.member.type.references := by
    rw [Definition.references, body]
    simp [TypeExpr.referencesOfMembers, TypeExpr.references, TypeExpr.mem_referencesOfMembers]
  rw [inRows]
  constructor
  · rintro ⟨row, member, named⟩
    obtain ⟨listed, shown⟩ := (mem_rows made).1 member
    rcases shows_references shown named with ⟨t, typed, refers⟩ | ⟨a, same, t, taken, refers⟩
    · exact Or.inl ⟨row.field, listed, t, .output, typed, refers⟩
    · have calculated : a ∈ r.publicCalculations := by
        rw [same] at listed
        simpa [Resource.publicFields] using listed
      exact Or.inr ⟨t, List.mem_flatMap.2 ⟨a, calculated, taken⟩, refers⟩
  · rintro ⟨t, taken, refers⟩
    obtain ⟨a, calculated, taken⟩ := List.mem_flatMap.1 taken
    obtain ⟨kind, may, -⟩ := mem_argumentTypes.1 taken
    have listed : .calculation a ∈ r.publicFields := by simp [Resource.publicFields, calculated]
    have place : (.derived, .calculation a) ∈ places r := mem_places.2 listed
    -- the calculation has its member, since its values may be referred to
    obtain ⟨o, worked⟩ := (gather_ok made).1 _ place
    obtain ⟨o, shown, -⟩ := Outcome.map_ok worked
    obtain ⟨m, rfl⟩ := Option.isSome_iff_exists.1 (derivedCalculation_own kind may shown)
    exact ⟨⟨.derived, .calculation a, m⟩, (mem_rows made).2 ⟨listed, shown⟩,
      derived_references shown taken refers⟩

theorem inputSchema_references {shown : Resource} {d : Definition}
    (found : x.catalog.resource? shown.name = some r) (h : x.inputSchema shown = .ok d)
    (named : ref ∈ d.references) : x.HasField r ref := by
  obtain ⟨r', held, h⟩ := Outcome.bind_ok h
  obtain rfl := Option.some.inj (found.symm.trans (fieldResource_ok held))
  obtain ⟨members, listed, h⟩ := Outcome.bind_ok h
  cases h
  obtain ⟨t, typed, refers⟩ := (inputs_references inputMember_references listed).1 named
  obtain ⟨a, stored, rfl⟩ := List.mem_map.1 typed
  exact ⟨.attribute a, by simp [Resource.publicFields, stored], a.type, .input, rfl, refers⟩

theorem fieldNames_references {shown : Resource} {d : Definition} (h : x.fieldNames shown = .ok d) :
    d.references = [] := by
  obtain ⟨r, names, -, -, body⟩ := fieldNames_plain h
  rw [Definition.references, body]
  exact TypeExpr.references_oneOf _

theorem definitions_references {ds : List Definition}
    (found : x.catalog.resource? r.name = some r) (h : x.definitions r = .ok ds) :
    (ref ∈ ds.flatMap Definition.references → x.HasField r ref ∨ x.Gives r ref) ∧
      (x.Gives r ref → ref ∈ ds.flatMap Definition.references) := by
  obtain ⟨names, first, h⟩ := Outcome.bind_ok h
  obtain ⟨schema, second, h⟩ := Outcome.bind_ok h
  have nothing := fieldNames_references first
  obtain ⟨known, given⟩ := resourceSchema_references ref found second
  split at h
  · obtain ⟨input, third, h⟩ := Outcome.bind_ok h
    cases h
    simp only [List.flatMap_cons, List.flatMap_nil, nothing, List.nil_append, List.append_nil,
      List.mem_append]
    refine ⟨?_, fun gives => Or.inl (given gives)⟩
    rintro (inSchema | inInput)
    · exact known inSchema
    · exact Or.inl (inputSchema_references found third inInput)
  · cases h
    simpa only [List.flatMap_cons, List.flatMap_nil, nothing, List.nil_append, List.append_nil]
      using ⟨known, given⟩

theorem definitions_names {ds : List Definition} (h : x.definitions r = .ok ds) :
    ds.map Definition.name = r.definitionNames := by
  obtain ⟨names, first, h⟩ := Outcome.bind_ok h
  obtain ⟨schema, second, h⟩ := Outcome.bind_ok h
  obtain ⟨_, -, first⟩ := Outcome.bind_ok first
  obtain ⟨_, -, first⟩ := Outcome.bind_ok first
  obtain ⟨_, -, second⟩ := Outcome.bind_ok second
  obtain ⟨_, -, second⟩ := Outcome.bind_ok second
  obtain ⟨_, -, second⟩ := Outcome.bind_ok second
  cases first
  cases second
  unfold Resource.definitionNames Resource.endings
  split at h
  · next embedded =>
    obtain ⟨input, third, h⟩ := Outcome.bind_ok h
    obtain ⟨_, -, third⟩ := Outcome.bind_ok third
    obtain ⟨_, -, third⟩ := Outcome.bind_ok third
    cases third
    cases h
    rw [if_pos embedded]
    rfl
  · next plain =>
    cases h
    rw [if_neg plain]
    rfl

end Context

/-! ### The whole text -/

def declared (chunks : List (Resource × List Definition)) : List String :=
  chunks.flatMap fun chunk => chunk.2.map Definition.name

variable {c : Catalog} {formatter : Formatter} {roots : Option (List String)}
variable {chunks : List (Resource × List Definition)}

theorem Stands.declared {form : Form} {ref : Reference} {r : Resource} (h : Stands c form ref)
    (found : c.resource? ref.resource = some r) : ref.definition ∈ r.definitionNames := by
  obtain ⟨r', found', definition⟩ := h.resource
  obtain rfl := Option.some.inj (found.symm.trans found')
  rcases definition with same | ⟨embedded, same⟩
  · simp [Resource.definitionNames, Resource.endings, same]
  · simp [Resource.definitionNames, Resource.endings, same, embedded]

theorem found_of_hasField {x : Context} {found : List Resource} {r : Resource} {ref : Reference}
    (all : x.exposure = none) (searched : Searched x.catalog x.exposure [] found)
    (member : r ∈ found) (h : x.HasField r ref) : ref.resource ∈ found.map Resource.name := by
  obtain ⟨f, listed, t, form, typed, mention, stands⟩ := h
  obtain ⟨refs, referred, known⟩ := searched.covered r member
  have present : x.catalog.hasResource ref.resource = true := by
    obtain ⟨held, found, -⟩ := stands.resource
    rw [Catalog.hasResource, found]
    rfl
  have shown : admits x.catalog x.exposure ref.resource = true := by
    rw [all]
    exact present
  refine (known _ ?_).resolve_left List.not_mem_nil
  rcases Resource.type?_mem listed typed with field | ⟨link, linked, rfl⟩
  · exact mem_references_of_mention referred field mention present shown
  · have same : ref.resource = link.destination := by
      simpa [Catalog.mentions, TypeRef.mentionsWith] using mention
    obtain ⟨-, held, -, rfl⟩ := references_ok.1 referred
    rw [same] at shown ⊢
    exact List.mem_filter.2 ⟨List.mem_append_left _ (List.mem_map_of_mem linked), shown⟩

theorem declared_of_found {x : Context} {form : Form} {ref : Reference}
    (h : x.allDefinitions roots = .ok chunks) (stands : Stands x.catalog form ref)
    (found : ref.resource ∈ (chunks.map Prod.fst).map Resource.name) :
    ref.definition ∈ declared chunks := by
  rw [List.map_map] at found
  obtain ⟨chunk, member, same⟩ := List.mem_map.1 found
  obtain ⟨⟨-, present⟩, written⟩ := allDefinitions_ok h chunk member
  rw [show chunk.1.name = ref.resource from same] at present
  have listed := stands.declared present
  rw [← Context.definitions_names written] at listed
  exact List.mem_flatMap.2 ⟨chunk, member, listed⟩

theorem declared_nodup {x : Context} (h : x.allDefinitions roots = .ok chunks) :
    (declared chunks).Nodup ↔ (chunks.map fun chunk => chunk.1.schemaName).Nodup := by
  have names : declared chunks = chunks.flatMap fun chunk => chunk.1.definitionNames := by
    refine List.flatMap_congr fun chunk member => ?_
    exact Context.definitions_names (allDefinitions_ok h chunk member).2
  rw [names, List.nodup_flatMap, List.Nodup, List.pairwise_map]
  rw [and_iff_right fun chunk _ => chunk.1.nodup_definitionNames]
  exact List.Pairwise.iff fun _ _ => Resource.definitionNames_disjoint

/-- Where all resources are exposed, the text is closed just if the definitions that arguments of
its calculations refer to are in it, and it defines no name twice just if the resources that
it has definitions for have names of their own for them. -/
theorem document_closed_iff {text : String}
    (h : Context.document ⟨c, none, formatter⟩ roots = .ok text) :
    ∃ chunks, Context.allDefinitions ⟨c, none, formatter⟩ roots = .ok chunks ∧
      text = (if chunks.isEmpty then ""
        else "\n\n".intercalate (chunks.map fun chunk => renderChunk chunk.1 chunk.2) ++ "\n") ∧
      ((∀ chunk ∈ chunks, ∀ d ∈ chunk.2, ∀ ref ∈ d.references,
          ref.definition ∈ declared chunks) ↔
        ∀ chunk ∈ chunks, ∀ t ∈ Context.givenTypes ⟨c, none, formatter⟩ chunk.1,
          ∀ ref, Refers c .input t ref → ref.definition ∈ declared chunks) ∧
      ((declared chunks).Nodup ↔ (chunks.map fun chunk => chunk.1.schemaName).Nodup) := by
  obtain ⟨chunks, defined, h⟩ := Outcome.bind_ok h
  cases h
  -- what the fields of a found resource refer to is found, as the queue is empty in the end
  have searched := (reachable_searched (allDefinitions_found defined)).1
  refine ⟨chunks, defined, by rw [List.isEmpty_map], ?_, declared_nodup defined⟩
  constructor
  · intro closed chunk member t given ref refers
    obtain ⟨⟨-, found⟩, written⟩ := allDefinitions_ok defined chunk member
    have named := (Context.definitions_references found written).2 ⟨t, given, refers⟩
    obtain ⟨d, inChunk, named⟩ := List.mem_flatMap.1 named
    exact closed chunk member d inChunk ref named
  · intro given chunk member d inChunk ref named
    obtain ⟨⟨-, found⟩, written⟩ := allDefinitions_ok defined chunk member
    have named := List.mem_flatMap.2 ⟨d, inChunk, named⟩
    rcases (Context.definitions_references found written).1 named with field | ⟨t, taken, refers⟩
    · have reached := found_of_hasField rfl searched (List.mem_map_of_mem member) field
      obtain ⟨f, -, t, form, -, -, stands⟩ := field
      exact declared_of_found defined stands reached
    · exact given chunk member t taken ref refers

/-! ### Rooms

What fits into a room is worked out from a plan, and no field is one. The hall has its
definitions under the name of the room. -/

namespace Venue

def plan : Resource where
  name := "Plan"
  embedded := true
  attributes := [{ name := "seats", type := .primitive .integer [], allowNil := false }]

def room : Resource where
  name := "Room"
  calculations := [{ name := "fits", type := .primitive .boolean [], arguments := [
    { name := "plan", type := .resource "Plan", allowNil := false }] }]

def hall : Resource where
  name := "Hall"
  typeName := some "Room"
  attributes := [{ name := "id", type := .primitive .uuid [], allowNil := false }]

def catalog : Catalog := ⟨[plan, room, hall], []⟩

end Venue

/-- The text for rooms and halls names the input of plans, which it does not define, and defines
the schema of rooms twice. -/
theorem venue_not_closed :
    ∃ text chunks, Context.document ⟨Venue.catalog, none, .camelCase⟩ none = .ok text ∧
      Context.allDefinitions ⟨Venue.catalog, none, .camelCase⟩ none = .ok chunks ∧
      (¬∀ chunk ∈ chunks, ∀ d ∈ chunk.2, ∀ ref ∈ d.references,
        ref.definition ∈ declared chunks) ∧
      ¬(declared chunks).Nodup := by
  have written : ∃ text, Context.document ⟨Venue.catalog, none, .camelCase⟩ none = .ok text :=
    ⟨_, by with_unfolding_all rfl⟩
  have names : (Context.allDefinitions ⟨Venue.catalog, none, .camelCase⟩ none).map
      (fun chunks => (chunks.map Prod.fst, declared chunks)) =
        .ok ([Venue.room, Venue.hall],
          ["RoomFieldName", "RoomResourceSchema", "RoomFieldName", "RoomResourceSchema"]) := by
    with_unfolding_all rfl
  have given : Context.givenTypes ⟨Venue.catalog, none, .camelCase⟩ Venue.room =
      [.resource "Plan"] := by
    with_unfolding_all rfl
  have stands : Stands Venue.catalog .input ⟨"Plan", "PlanInputSchema"⟩ := by
    with_unfolding_all rfl
  obtain ⟨text, rendered⟩ := written
  obtain ⟨chunks, defined, -, closed, distinct⟩ := document_closed_iff rendered
  rw [defined] at names
  obtain ⟨resources, declares⟩ := Prod.mk.inj (Except.ok.inj names)
  refine ⟨text, chunks, rendered, defined, ?_, ?_⟩
  · rw [closed]
    intro all
    have first : Venue.room ∈ chunks.map Prod.fst := by simp [resources]
    obtain ⟨chunk, member, same⟩ := List.mem_map.1 first
    have taken : .resource "Plan" ∈
        Context.givenTypes ⟨Venue.catalog, none, .camelCase⟩ chunk.1 := by
      simp [same, given]
    have mentions : .resource "Plan" ∈ Venue.catalog.mentions (.resource "Plan") :=
      List.mem_singleton_self _
    have there := all chunk member _ taken _ ⟨Or.inl mentions, stands⟩
    rw [declares] at there
    simp at there
  · rw [distinct]
    intro once
    have named := congrArg (List.map Resource.schemaName) resources
    rw [List.map_map] at named
    have twice : (chunks.map fun chunk => chunk.1.schemaName) = ["Room", "Room"] := named
    rw [twice] at once
    simp at once

end Schema
end FieldPlan
