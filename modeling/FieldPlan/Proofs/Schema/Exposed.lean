import FieldPlan.Proofs.Embedded
import FieldPlan.Proofs.Schema.Hidden

/-! Where the roots and the embedded resources behind them are exposed, just these get
definitions. Both searches follow the mentions of types: the one those of embedded resources,
the other those of exposed ones and links besides, and neither adds to what the other finds. -/
namespace FieldPlan.Schema
variable {c : Catalog} {e : Exposure} {names : List String} {name held : String}

theorem mem_mentioned {mentions : List Mention} (h : mentioned c mentions = .ok names) :
    name ∈ names ↔
      .resource name ∈ mentions ∨ .instance name ∈ mentions ∧ c.hasResource name = true := by
  induction mentions generalizing names with
  | nil =>
    cases h
    simp
  | cons first rest ih =>
    cases first with
    | resource other =>
      obtain ⟨later, same, rfl⟩ := Outcome.map_ok h
      simp [ih same, or_assoc]
    | «instance» other =>
      rw [mentioned] at h
      split at h
      · next present =>
        obtain ⟨later, same, rfl⟩ := Outcome.map_ok h
        rw [List.mem_cons, ih same]
        simp only [List.mem_cons, reduceCtorEq, false_or, Mention.instance.injEq, or_and_right,
          or_left_comm]
        refine or_congr_left ⟨?_, And.left⟩
        rintro rfl
        exact ⟨rfl, present⟩
      · next absent =>
        rw [ih h]
        simp only [List.mem_cons, reduceCtorEq, false_or, Mention.instance.injEq]
        refine or_congr_right (and_congr_left fun present => (or_iff_right ?_).symm)
        rintro rfl
        exact absent present
    | missingStruct other => cases h
    | endless => cases h

theorem mem_typesResources {types : List TypeRef} (h : typesResources c types = .ok names) :
    name ∈ names ↔ ∃ t ∈ types, .resource name ∈ c.mentions t ∨
      .instance name ∈ c.mentions t ∧ c.hasResource name = true := by
  induction types generalizing names with
  | nil =>
    cases h
    simp
  | cons first rest ih =>
    obtain ⟨here, same, h⟩ := Outcome.bind_ok h
    obtain ⟨later, others, h⟩ := Outcome.bind_ok h
    cases h
    rw [List.mem_append, mem_mentioned same, ih others]
    simp

theorem mem_references {r : Resource} {refs : List String} (h : references c e r = .ok refs) :
    name ∈ refs ↔ (name ∈ r.publicRelationships.map Relationship.destination ∨
      ∃ t ∈ c.fieldTypes r, .resource name ∈ c.mentions t ∨
        .instance name ∈ c.mentions t ∧ c.hasResource name = true) ∧ admits c e name = true := by
  obtain ⟨-, fields, typed, rfl⟩ := references_ok.1 h
  rw [List.mem_filter, List.mem_append, mem_typesResources typed]

theorem mem_references_of_mention {r : Resource} {refs : List String} {t : TypeRef}
    (referred : references c e r = .ok refs) (field : t ∈ c.fieldTypes r)
    (mention : .resource name ∈ c.mentions t ∨ .instance name ∈ c.mentions t)
    (present : c.hasResource name = true) (shown : admits c e name = true) : name ∈ refs :=
  (mem_references referred).2
    ⟨Or.inr ⟨t, field, mention.imp_right fun named => ⟨named, present⟩⟩, shown⟩

theorem mem_references_of_held {r : Resource} {refs : List String}
    (found : c.resource? name = some r) (referred : references c e r = .ok refs)
    (holds : held ∈ c.embeddedIn name) (shown : admits c e held = true) : held ∈ refs := by
  obtain ⟨t, field, m, mentioned, same⟩ := (Catalog.mem_embeddedIn found).1 holds
  obtain ⟨form, embedded⟩ := Catalog.embeddedMention?_iff.1 same
  have mention : .resource held ∈ c.mentions t ∨ .instance held ∈ c.mentions t := by
    rcases form with rfl | ⟨rfl, -⟩
    · exact Or.inl mentioned
    · exact Or.inr mentioned
  exact mem_references_of_mention referred field mention
    (Catalog.hasResource_of_isEmbedded embedded) shown

/-- The two searches find the same resources. -/
theorem reachable_withEmbedded {reached : List Resource}
    (h : reachable c (some (c.withEmbedded names)) names = .ok reached) :
    name ∈ reached.map Resource.name ↔ name ∈ c.withEmbedded names := by
  constructor
  · intro member
    obtain ⟨r, found, rfl⟩ := List.mem_map.1 member
    exact List.contains_iff_mem.1 (reachable_reached h r found).1
  · intro listed
    obtain ⟨searched, roots⟩ := reachable_searched h
    have shown : ∀ name ∈ c.withEmbedded names,
        admits c (some (c.withEmbedded names)) name = true :=
      fun _ member => List.contains_iff_mem.2 member
    -- along the way on which the name came to the list
    induction Catalog.mem_withEmbedded.1 listed with
    | given member => exact roots _ member (shown _ (Catalog.withEmbedded_given member))
    | held holder holds ih =>
      obtain ⟨r, found, same⟩ := List.mem_map.1 (ih (Catalog.mem_withEmbedded.2 holder))
      obtain ⟨refs, referred, known⟩ := searched.covered r found
      have present := searched.present r found
      rw [same] at present
      have refers := mem_references_of_held present referred holds (shown _ listed)
      exact (known _ refers).resolve_left List.not_mem_nil

def Context.rootNames (x : Context) (roots : Option (List String)) : List String :=
  roots.getD ((x.catalog.resources.filter fun r => !r.embedded).map Resource.name)

theorem allDefinitions_found {x : Context} {roots : Option (List String)}
    {chunks : List (Resource × List Definition)} (h : x.allDefinitions roots = .ok chunks) :
    reachable x.catalog x.exposure (x.rootNames roots) = .ok (chunks.map Prod.fst) := by
  obtain ⟨found, reach, gathered⟩ := Outcome.bind_ok h
  have order : chunks.map Prod.fst = found := by
    clear reach h
    induction found generalizing chunks with
    | nil =>
      cases gathered
      rfl
    | cons r rest ih =>
      obtain ⟨first, defined, gathered⟩ := Outcome.bind_ok gathered
      obtain ⟨others, later, gathered⟩ := Outcome.bind_ok gathered
      cases gathered
      obtain ⟨ds, -, rfl⟩ := Outcome.map_ok defined
      rw [Option.toList_some, List.singleton_append, List.map_cons, ih later]
  rw [order]
  exact reach

theorem allDefinitions_resources {x : Context} {roots : List String}
    {chunks : List (Resource × List Definition)} (h : x.allDefinitions (some roots) = .ok chunks) :
    reachable x.catalog x.exposure roots = .ok (chunks.map Prod.fst) :=
  allDefinitions_found h

/-- Where the embedded resources behind the roots are exposed with them, the text has just the
definitions of the exposed resources, each once. -/
theorem document_lists_withEmbedded {c : Catalog} {names : List String} {formatter : Formatter}
    {text : String}
    (h : Context.document ⟨c, some (c.withEmbedded names), formatter⟩ (some names) = .ok text) :
    ∃ chunks,
      Context.allDefinitions ⟨c, some (c.withEmbedded names), formatter⟩ (some names) = .ok chunks ∧
      text = (if chunks.isEmpty then ""
        else "\n\n".intercalate (chunks.map fun chunk => renderChunk chunk.1 chunk.2) ++ "\n") ∧
      (∀ chunk ∈ chunks, c.resource? chunk.1.name = some chunk.1 ∧
        Context.definitions ⟨c, some (c.withEmbedded names), formatter⟩ chunk.1 = .ok chunk.2) ∧
      (chunks.map (·.1.name)).Nodup ∧
      ∀ name, name ∈ chunks.map (·.1.name) ↔ name ∈ c.withEmbedded names := by
  obtain ⟨chunks, defined, h⟩ := Outcome.bind_ok h
  cases h
  have reach := allDefinitions_resources defined
  have resources : chunks.map (·.1.name) = (chunks.map Prod.fst).map Resource.name := by
    rw [List.map_map]
    rfl
  refine ⟨chunks, defined, by rw [List.isEmpty_map], ?_, ?_, ?_⟩
  · intro chunk member
    obtain ⟨⟨-, found⟩, written⟩ := allDefinitions_ok defined chunk member
    exact ⟨found, written⟩
  · rw [resources]
    exact (reachable_searched reach).1.nodup
  · intro name
    rw [resources]
    exact reachable_withEmbedded reach

/-- With trips exposed the definitions are those of trips and of stops. -/
theorem trip_defined_with_stops :
    ∃ text, Context.document
        ⟨Travel.catalog, some (Travel.catalog.withEmbedded ["Trip"]), .camelCase⟩
        (some ["Trip"]) = .ok text ∧
      ∃ chunks, Context.allDefinitions
          ⟨Travel.catalog, some (Travel.catalog.withEmbedded ["Trip"]), .camelCase⟩
          (some ["Trip"]) = .ok chunks ∧
        ∀ name, name ∈ chunks.map (·.1.name) ↔ name = "Trip" ∨ name = "Stop" := by
  have written : ∃ text, Context.document
      ⟨Travel.catalog, some (Travel.catalog.withEmbedded ["Trip"]), .camelCase⟩
      (some ["Trip"]) = .ok text :=
    ⟨_, by with_unfolding_all rfl⟩
  have exposed : Travel.catalog.withEmbedded ["Trip"] = ["Trip", "Stop"] := by
    with_unfolding_all rfl
  obtain ⟨text, rendered⟩ := written
  obtain ⟨chunks, defined, -, -, -, listed⟩ := document_lists_withEmbedded rendered
  refine ⟨text, rendered, chunks, defined, ?_⟩
  intro name
  rw [listed, exposed]
  simp

end FieldPlan.Schema
