import FieldPlan.Proofs.Embedded
import FieldPlan.Proofs.Narrowing

/-! The exposed names with the embedded resources behind them are enough. The work on an
exposed record comes from the types of its fields only to embedded resources that are listed.
So to list more embedded resources changes nothing, unless a link leads to one of them. -/
namespace FieldPlan

namespace Catalog
variable (c : Catalog)

/-- A value of the type is, or has somewhere in its parts, a record of the resource. Records
inside that record do not count. -/
inductive Enters : TypeRef → String → Prop
  | resource (name : String) : Enters (.resource name) name
  | instance (name : String) : c.hasResource name = true → Enters (.struct (some name)) name
  | item {item : TypeRef} {held : String} : Enters item held → Enters (.array item) held
  | part {t part : TypeRef} {held : String} : part ∈ c.parts t → Enters part held → Enters t held

variable {c} {names : List String} {name held : String} {t : TypeRef}

theorem Enters.of_element (h : c.Enters t.element held) : c.Enters t held := by
  fun_induction TypeRef.element t with
  | case1 item ih => exact .item (ih h)
  | case2 t => exact h

theorem Enters.mentioned (h : c.Enters t held) (embedded : c.isEmbedded held = true)
    (named : held ≠ "") : ∃ m ∈ c.mentions t, c.embeddedMention? m = some held := by
  induction h with
  | resource name =>
    exact ⟨.resource name, List.mem_singleton_self _, embeddedMention?_iff.2 ⟨Or.inl rfl, embedded⟩⟩
  | «instance» name =>
    have shown : c.embeddedMention? (.instance name) = some name :=
      embeddedMention?_iff.2 ⟨Or.inr ⟨rfl, named⟩, embedded⟩
    exact ⟨.instance name, List.mem_singleton_self _, shown⟩
  | item _ ih => exact ih embedded named
  | part inside _ ih =>
    obtain ⟨m, mentioned, same⟩ := ih embedded named
    exact ⟨m, mentions_part inside mentioned, same⟩

theorem Enters.embeddedIn {r : Resource} (h : c.Enters t held) (found : c.resource? name = some r)
    (field : t ∈ c.fieldTypes r) (embedded : c.isEmbedded held = true) (named : held ≠ "") :
    held ∈ c.embeddedIn name :=
  (mem_embeddedIn found).2 ⟨t, field, h.mentioned embedded named⟩

/-- The embedded resources of the type are listed, but for one without a name. -/
def Lists (c : Catalog) (listed : List String) (t : TypeRef) : Prop :=
  ∀ held, c.Enters t held → c.isEmbedded held = true → held ≠ "" → held ∈ listed

theorem lists_resource {listed : List String} (h : name ∈ listed) :
    c.Lists listed (.resource name) := by
  intro held entered _ _
  cases entered with
  | resource => exact h
  | part inside _ => exact absurd inside List.not_mem_nil

theorem withEmbedded_lists {r : Resource} (listed : name ∈ c.withEmbedded names)
    (found : c.resource? name = some r) (field : t ∈ c.fieldTypes r) :
    c.Lists (c.withEmbedded names) t := by
  intro held entered embedded named
  exact withEmbedded_closed listed (entered.embeddedIn found field embedded named)

/-- The work does not leave the types whose embedded resources are listed. -/
theorem lists_closed (c : Catalog) (names : List String) :
    Descent.Closed c (some (c.withEmbedded names)) (c.Lists (c.withEmbedded names)) where
  any := by
    intro held entered _ _
    cases entered with
    | part inside _ => exact absurd inside List.not_mem_nil
  part := by
    intro t part lists inside held entered
    exact lists held (.part inside entered.of_element)
  record := by
    intro name lists present held entered
    cases entered with
    | resource => exact lists name (.instance name present)
    | part inside _ => exact absurd inside List.not_mem_nil
  field := by
    intro name r t _ found allowed field held entered
    have listed : name ∈ c.withEmbedded names := List.contains_iff_mem.1 allowed
    exact withEmbedded_lists listed found field held entered.of_element
  link := by
    intro name r link _ _ _ _ shown
    rw [Descent.exposed, Bool.and_eq_true] at shown
    exact lists_resource (List.contains_iff_mem.1 shown.2)

end Catalog

/-- The outcome is that of a field that is not there, because it is a link to one of `more`
and that one is not listed. -/
def Outcome.EndsAtLink {α : Type} (c : Catalog) (listed more : List String) (x : Outcome α) :
    Prop :=
  ∃ r link path spelled, c.resource? r.name = some r ∧ r.name ∈ listed ∧
    link ∈ r.publicRelationships ∧ link.destination ∈ more ∧ link.destination ∉ listed ∧
    x = .error (.rejected
      ⟨.unknownField, path ++ [spelled], some spelled, [("resource", .str r.name)]⟩)

/-- The first outcome is the second, or it ends at a link. -/
def Outcome.upToLinks (c : Catalog) (listed more : List String) : Outcome.Comparison where
  rel x y := x = y ∨ x.EndsAtLink c listed more
  refl _ := Or.inl rfl
  bind {α β x y f g} first next := by
    rcases first with same | ⟨r, link, path, spelled, found, shown, member, inMore, out, ends⟩
    · subst same
      cases x with
      | error failure => exact Or.inl rfl
      | ok a => exact next a rfl
    · subst ends
      exact Or.inr ⟨r, link, path, spelled, found, shown, member, inMore, out, rfl⟩

namespace Descent
variable {c : Catalog} {listed more : List String}

theorem exposes_more (embedded : ∀ held ∈ more, c.isEmbedded held = true ∧ held ≠ "") :
    Exposes (Outcome.upToLinks c listed more) (c.Lists listed) c
      (some listed) (some (listed ++ more)) := by
  have within : Exposure.Within c (some listed) (some (listed ++ more)) :=
    Exposure.within_of_subset (List.subset_append_left _ _)
  have added {name : String} (out : Exposure.allows (some listed) name = false)
      (shown : Exposure.allows (some (listed ++ more)) name = true) :
      name ∈ more ∧ name ∉ listed := by
    have outside : name ∉ listed := by
      intro member
      rw [Exposure.allows, List.contains_iff_mem.2 member] at out
      cases out
    have either := List.mem_append.1 (List.contains_iff_mem.1 shown)
    exact ⟨either.resolve_left outside, outside⟩
  constructor
  · intro name lists path
    rcases enter_of_within within name path with same | ⟨-, hidden, shown⟩
    · exact Or.inl same
    · obtain ⟨inMore, out⟩ := added hidden shown
      obtain ⟨isEmbedded, named⟩ := embedded name inMore
      exact absurd (lists name (.resource name) isEmbedded named) out
  · intro name r _ found allowed field
    rcases visibleKind_of_within within r field with same | ⟨hidden, link, present, out, shown⟩
    · exact Or.inl same
    · rw [exposed, Bool.and_eq_true] at shown
      rw [exposed, shown.1, Bool.true_and] at out
      obtain ⟨inMore, outside⟩ := added out shown.2
      have listed : r.name ∈ listed := by
        rw [Catalog.resource?_name found]
        exact List.contains_iff_mem.1 allowed
      have own : c.resource? r.name = some r := by
        rw [Catalog.resource?_name found]
        exact found
      refine Or.inr ⟨hidden, ?_⟩
      intro path spelled x
      exact Or.inr ⟨r, link, path, spelled, own, listed, List.mem_of_find?_eq_some present, inMore,
        outside, unknown_concat _ _ _⟩

end Descent

/-- Every embedded resource that the type of a field of a listed resource comes to is listed.
So the work on a listed resource never ends at an embedded one that is not: with any more of
them listed it has the same outcome, or it ends at a link to one of these. -/
theorem withEmbedded_suffices {c : Catalog} {names : List String} {name : String} {r : Resource}
    (listed : name ∈ c.withEmbedded names) (found : c.resource? name = some r) :
    (∀ t ∈ c.fieldTypes r, ∀ held, c.Enters t held → c.isEmbedded held = true → held ≠ "" →
      held ∈ c.withEmbedded names) ∧
    ∀ more, (∀ held ∈ more, c.isEmbedded held = true ∧ held ≠ "") →
      ∀ many selection path,
        descend c (some (c.withEmbedded names)) (.records name many) selection path =
          descend c (some (c.withEmbedded names ++ more)) (.records name many) selection path ∨
        (descend c (some (c.withEmbedded names)) (.records name many) selection path).EndsAtLink
          c (c.withEmbedded names) more := by
  refine ⟨fun t field => Catalog.withEmbedded_lists listed found field, ?_⟩
  intro more embedded many selection path
  exact descend_related (Descent.exposes_more embedded) (Catalog.lists_closed c names)
    (.records name many) (Catalog.lists_resource listed) selection path

/-- The stop at the start of the span of a trip is listed with trips, and to list it again
changes no outcome. -/
theorem trip_suffices :
    ("Trip" ∈ Travel.catalog.withEmbedded ["Trip"] ∧
      Travel.catalog.resource? "Trip" = some Travel.trip) ∧
    (Travel.catalog.Enters (.tuple [⟨"from", .resource "Stop", true⟩]) "Stop" ∧
      "Stop" ∈ Travel.catalog.withEmbedded ["Trip"]) ∧
    ∀ many selection path,
      descend Travel.catalog (some (Travel.catalog.withEmbedded ["Trip"]))
          (.records "Trip" many) selection path =
        descend Travel.catalog (some (Travel.catalog.withEmbedded ["Trip"] ++ ["Stop"]))
          (.records "Trip" many) selection path := by
  have listed : "Trip" ∈ Travel.catalog.withEmbedded ["Trip"] :=
    Catalog.withEmbedded_given (List.mem_singleton_self _)
  have found : Travel.catalog.resource? "Trip" = some Travel.trip := by
    with_unfolding_all rfl
  have embedded : Travel.catalog.isEmbedded "Stop" = true := by
    with_unfolding_all rfl
  have span : Travel.trip.attribute? "span" =
      some { name := "span", type := .tuple [⟨"from", .resource "Stop", true⟩] } := by
    with_unfolding_all rfl
  have entered : Travel.catalog.Enters (.tuple [⟨"from", .resource "Stop", true⟩]) "Stop" :=
    .part (List.mem_singleton_self _) (.resource "Stop")
  obtain ⟨fields, more⟩ := withEmbedded_suffices listed found
  have stop : "Stop" ∈ Travel.catalog.withEmbedded ["Trip"] :=
    fields _ (Catalog.attribute_type_mem span) _ entered embedded (by decide)
  refine ⟨⟨listed, found⟩, ⟨entered, stop⟩, ?_⟩
  intro many selection path
  have again : ∀ held ∈ ["Stop"], Travel.catalog.isEmbedded held = true ∧ held ≠ "" := by
    intro held only
    rw [List.mem_singleton.1 only]
    exact ⟨embedded, by decide⟩
  rcases more ["Stop"] again many selection path with same | ends
  · exact same
  · obtain ⟨_, link, _, _, _, _, _, leads, out, _⟩ := ends
    rw [List.mem_singleton.1 leads] at out
    exact absurd stop out

end FieldPlan
