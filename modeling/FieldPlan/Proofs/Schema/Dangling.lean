import FieldPlan.Proofs.Schema.Faults

/-! Catalogs that refer to what is not there. Links, typed structs and aggregates that lead nowhere
stop the writing. A type that refers to a missing resource does not, where its section looks at
it: to the section the resource is a hidden one, and the field is left out. -/
namespace FieldPlan
namespace Schema
namespace Context
variable {x : Context} {r : Resource} {s : Section} {f : Field} {m : TypeMember TypeExpr}
variable {t : TypeRef} {name : String}

theorem admits_of_mention (may : x.referencesAdmitted t = .ok true)
    (mention : .resource name ∈ x.catalog.mentions t) : x.admits name = true := by
  obtain ⟨names, resources, all⟩ := Outcome.bind_ok may
  exact List.all_eq_true.1 (Except.ok.inj all) name ((mem_mentioned resources).2 (Or.inl mention))

theorem present_of_embeddedName {held : String} (h : x.catalog.embeddedName t = some held)
    (mention : .resource name ∈ x.catalog.mentions t) : x.catalog.hasResource name = true := by
  have embedded := Catalog.isEmbedded_of_embeddedName h
  rw [← Catalog.mentions_inner] at mention
  unfold Catalog.embeddedName at h
  split at h
  · next resource shape =>
    rw [shape] at mention
    cases List.mem_singleton.1 mention
    split at h
    · next itself => exact Catalog.hasResource_of_isEmbedded itself
    · cases h
  · next other shape =>
    rw [shape] at mention
    cases List.mem_singleton.1 mention
  · cases h

theorem memberTypes_all (all : x.exposure = none) (member : Member TypeRef) :
    x.memberTypes member = [member.type] := by
  unfold memberTypes
  rw [if_pos]
  cases held : x.catalog.embeddedName member.type with
  | none => rfl
  | some name =>
    have present := Catalog.hasResource_of_isEmbedded (Catalog.isEmbedded_of_embeddedName held)
    rw [Option.all_some, admits, all]
    exact present

theorem shows_present (all : x.exposure = none) (h : x.shows r s f = .ok (some m))
    (typed : f.type? x.catalog r = some t) (mention : .resource name ∈ x.catalog.mentions t) :
    x.catalog.hasResource name = true := by
  have exposed : x.admits name = x.catalog.hasResource name := by
    rw [admits, all]
    rfl
  obtain ⟨-, -, made⟩ := shows_some h
  cases made with
  | value place found may =>
    cases typed.symm.trans found
    rw [← exposed]
    exact admits_of_mention may mention
  | derived found may =>
    cases typed.symm.trans found
    rw [← exposed]
    exact admits_of_mention may mention
  | records place found held present =>
    cases typed.symm.trans found
    rcases held with rfl | embedded
    · cases List.mem_singleton.1 mention
      exact present
    · exact present_of_embeddedName embedded mention
  | @union a _ members _ _ _ shape written =>
    cases typed
    rw [← Catalog.mentions_inner, shape] at mention
    obtain ⟨member, listed, mention⟩ := TypeRef.mem_memberMentions.1 mention
    have followed := unionType_isOk.1 ⟨_, written⟩
    refine present_of_resolves (followed member.type ?_) mention
    refine List.mem_flatMap.2 ⟨member, listed, ?_⟩
    rw [memberTypes_all all]
    exact List.mem_singleton_self _

end Context

variable {c : Catalog} {formatter : Formatter} {roots : Option (List String)}

theorem structs_present {x : Context} {found : List Resource} {r : Resource} {f : Field}
    {t : TypeRef} (searched : Searched x.catalog x.exposure [] found) (member : r ∈ found)
    (listed : f ∈ r.publicFields) (typed : f.type? x.catalog r = some t) (name : String) :
    .missingStruct name ∉ x.catalog.mentions t := by
  obtain ⟨refs, referred, -⟩ := searched.covered r member
  obtain ⟨-, held, resources, -⟩ := references_ok.1 referred
  rcases Resource.type?_mem listed typed with field | ⟨link, -, rfl⟩
  · exact (typesResources_isOk.1 ⟨held, resources⟩ t field).2 name
  · exact fun only => nomatch List.mem_singleton.1 only

/-- The text is written just if the search ends and what it finds can be written; otherwise a
fault names what is missing, or a crash comes at a resource that the roots lead to. Once it is
written, links and structs lead to something and so do aggregates, while a field that refers to a
missing resource is left out of every section. -/
theorem document_dangling (c : Catalog) (formatter : Formatter) (roots : Option (List String)) :
    let x : Context := ⟨c, none, formatter⟩
    ((∃ text, x.document roots = .ok text) ↔
      ∃ found, reachable c none (x.rootNames roots) = .ok found ∧ ∀ r ∈ found, x.Writable r) ∧
    (∀ cause, x.document roots = .error (.fault cause) → cause.Holds c) ∧
    (∀ way, x.document roots = .error (.crashed way) →
      ∃ r, Visited c none (x.rootNames roots) r ∧ way.Befalls c r) ∧
    ∀ text, x.document roots = .ok text →
      ∃ chunks, x.allDefinitions roots = .ok chunks ∧
        text = (if chunks.isEmpty then ""
          else "\n\n".intercalate (chunks.map fun chunk => renderChunk chunk.1 chunk.2) ++ "\n") ∧
        ∀ chunk ∈ chunks,
          (∀ link ∈ chunk.1.publicRelationships, c.hasResource link.destination = true) ∧
          (∀ a ∈ chunk.1.publicAggregates,
            x.kindOf chunk.1 a.name ∈ [.aggregate, .complexAggregate] →
              (c.aggregateType? chunk.1 a).isSome = true) ∧
          ∀ f ∈ chunk.1.publicFields, ∀ t, f.type? c chunk.1 = some t →
            (∀ name, .missingStruct name ∉ c.mentions t) ∧
            ∀ name, .resource name ∈ c.mentions t → c.hasResource name = false →
              ∀ s, x.shows chunk.1 s f = .ok none := by
  intro x
  refine ⟨Context.document_isOk, fun _ => document_fails _, fun _ => document_fails _, ?_⟩
  intro text h
  obtain ⟨found, reach, writable⟩ := Context.document_isOk.1 ⟨text, h⟩
  obtain ⟨chunks, defined, h⟩ := Outcome.bind_ok h
  cases h
  have order := allDefinitions_found defined
  cases reach.symm.trans order
  have searched := (reachable_searched order).1
  refine ⟨chunks, defined, by rw [List.isEmpty_map], ?_⟩
  intro chunk member
  have reached : chunk.1 ∈ chunks.map Prod.fst := List.mem_map_of_mem member
  have passes := (writable chunk.1 reached).fields
  refine ⟨?_, ?_, ?_⟩
  · intro link listed
    exact passes (.relationship link) (by simp [Resource.publicFields, listed])
  · intro a listed kind
    have summed := passes (.aggregate a) (by simp [Resource.publicFields, listed])
    obtain ⟨t, typed, -⟩ := summed.2 kind
    rw [typed]
    rfl
  · intro f listed t typed
    refine ⟨structs_present searched reached listed typed, ?_⟩
    intro name mention missing s
    obtain ⟨o, shown⟩ := Context.shows_isOk.2 (passes f listed) s
    cases o with
    | none => exact shown
    | some m =>
      have present := Context.shows_present rfl shown typed mention
      cases present.symm.trans missing

/-! ### Owners

The keeper of an owner is a resource that is not there. -/

namespace Estate

def keeper : Attribute := { name := "keeper", type := .resource "Person" }

def owner : Resource where
  name := "Owner"
  attributes := [{ name := "id", type := .primitive .uuid [] }, keeper]

def context : Context := ⟨⟨[owner], []⟩, none, .camelCase⟩

end Estate

/-- The definitions of owners are written without their keepers. -/
theorem owner_written_without_keeper :
    ∃ text, Estate.context.document none = .ok text ∧
      Estate.context.catalog.hasResource "Person" = false ∧
      ∀ s, Estate.context.shows Estate.owner s (.attribute Estate.keeper) = .ok none := by
  have written : ∃ text, Estate.context.document none = .ok text := ⟨_, by with_unfolding_all rfl⟩
  have missing : Estate.context.catalog.hasResource "Person" = false := by with_unfolding_all rfl
  have owners : (Estate.context.allDefinitions none).map (List.map Prod.fst) =
      .ok [Estate.owner] := by
    with_unfolding_all rfl
  have fields : .attribute Estate.keeper ∈ Estate.owner.publicFields := by
    have all : Estate.owner.publicFields =
        [.attribute { name := "id", type := .primitive .uuid [] }, .attribute Estate.keeper] := by
      with_unfolding_all rfl
    simp [all]
  obtain ⟨text, rendered⟩ := written
  obtain ⟨-, -, -, dangling⟩ := document_dangling Estate.context.catalog .camelCase none
  obtain ⟨chunks, defined, -, left⟩ := dangling text rendered
  have order : (Estate.context.allDefinitions none).map (List.map Prod.fst) =
      .ok (chunks.map Prod.fst) := congrArg (Except.map (List.map Prod.fst)) defined
  have only := Except.ok.inj (order.symm.trans owners)
  obtain ⟨chunk, alone, same⟩ := List.map_eq_singleton_iff.1 only
  have member : chunk ∈ chunks := by simp [alone]
  obtain ⟨-, -, out⟩ := left chunk member
  rw [same] at out
  obtain ⟨-, unshown⟩ := out _ fields (.resource "Person") rfl
  exact ⟨text, rendered, missing, unshown "Person" (List.mem_singleton_self _) missing⟩

end Schema
end FieldPlan
