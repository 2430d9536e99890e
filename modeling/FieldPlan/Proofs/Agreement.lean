import FieldPlan.Catalog.Travel
import FieldPlan.Proofs.Accepts.Descent
import FieldPlan.Proofs.Schema.Plain

/-! Bare names in plans and in definitions. Whatever is listed is taken. The converse
fails: a plan does not look at the resources that the type of a bare field refers to. -/
namespace FieldPlan
variable {c : Catalog} {e : Exposure} {root action n f : String} {r : Resource} {a : Action}

theorem takesBare_of_plainType? (found : c.resource? root = some r)
    (h : (Schema.plainType? c r f).isSome = true) :
    (Site.record root).takesBare c f = true := by
  rw [Site.takesBare, Site.kind_record found]
  unfold Schema.plainType? at h
  cases kind : classify c r f <;> rw [kind] at h <;> first | rfl | contradiction

theorem plan_read (found : c.resource? root = some r) (chosen : r.action? action = some a)
    (reads : a.kind = .read) (fields : List Value) :
    plan c root action (.list fields) e = (do
      let entries ← Selection.read r.internalField [] fields
      Descent.collect
        (Descent.recordEntry c (e.withRoot root) (descend c (e.withRoot root)) r []) entries) := by
  have same := Catalog.resource?_name found
  have entered : Descent.enter c (e.withRoot root) root [] = .ok r := by
    rw [Descent.enter, found]
    exact if_pos ((e.allows_withRoot root root).2 (Or.inl rfl))
  have position : Position.ofAction root a = .records root (!a.single) := by
    rw [Position.ofAction, reads]
    rfl
  have start : plan c root action (.list fields) e =
      descend c (e.withRoot r.name) (.ofAction r.name a) (.list fields) [] := by
    simp only [plan, Catalog.resource, found, ofCatalog, chosen, bind, Except.bind]
    rfl
  rw [start, same, position, descend_eq, Descent.layer, entered]
  rfl

theorem read_bare (resolve : String → String) (named : n ≠ "") :
    Selection.read resolve [] [.str n] = .ok [⟨n, resolve n, .bare⟩] := by
  simp [Selection.read, Selection.readFrom, Selection.elementNames, Selection.requests?,
    Selection.requireName, Selection.enrol, named, bind, Except.bind, Except.map, pure, Except.pure]

theorem recordEntry_bare (found : c.resource? root = some r) (work : Descend) :
    (∃ l, Descent.recordEntry c e work r [] ⟨n, f, .bare⟩ = .ok l) ↔
      (Site.record root).takesBare c f = true := by
  constructor
  · rintro ⟨l, h⟩
    have part : Part c e (.record root) f .bare l :=
      Descent.recordEntry_part found (fun v asked => by cases asked) h
    cases part with
    | bare plain => exact plain
    | nested args asked => cases asked
  · intro plain
    rw [Site.takesBare, Site.kind_record found] at plain
    rw [Descent.recordEntry, Descent.visibleKind]
    cases kind : classify c r f <;> rw [kind] at plain <;> first | contradiction | exact ⟨_, rfl⟩

theorem plan_bare_iff (found : c.resource? root = some r) (chosen : r.action? action = some a)
    (reads : a.kind = .read) :
    (∃ l, plan c root action (.list [.str n]) e = .ok l) ↔
      n ≠ "" ∧ (Site.record root).takesBare c (r.internalField n) = true := by
  rw [plan_read found chosen reads]
  constructor
  · rintro ⟨l, h⟩
    obtain ⟨entries, read, collected⟩ := Outcome.bind_ok h
    have named : n ≠ "" := by
      rintro rfl
      cases read
    rw [read_bare _ named] at read
    cases read
    obtain ⟨first, worked, -⟩ := Outcome.bind_ok collected
    exact ⟨named, (recordEntry_bare found _).1 ⟨first, worked⟩⟩
  · rintro ⟨named, plain⟩
    obtain ⟨first, worked⟩ := (recordEntry_bare (n := n) found _).2 plain
    refine ⟨first ++ .empty, ?_⟩
    rw [read_bare _ named]
    change (Descent.recordEntry _ _ _ _ _ _) >>= _ = _
    rw [worked]
    rfl

/-- A read takes a bare name if the definitions list the field, and also if it is a plain
field that they leave out; no field is both. -/
theorem plan_bare_iff_lists (formatter : Formatter) (found : c.resource? root = some r)
    (chosen : r.action? action = some a) (reads : a.kind = .read) :
    let x : Schema.Context := ⟨c, e, formatter⟩
    let f := r.internalField n
    ((∃ l, plan c root action (.list [.str n]) e = .ok l) ↔
      n ≠ "" ∧ (x.Lists r f ∨ (Site.record root).takesBare c f = true ∧ x.Omits r f)) ∧
    ¬(x.Lists r f ∧ x.Omits r f) := by
  intro x f
  constructor
  · rw [plan_bare_iff found chosen reads]
    constructor
    · rintro ⟨named, plain⟩
      rcases x.lists_or_omits r f with listed | omitted
      · exact ⟨named, Or.inl listed⟩
      · exact ⟨named, Or.inr ⟨plain, omitted⟩⟩
    · rintro ⟨named, listed | ⟨plain, -⟩⟩
      · exact ⟨named, takesBare_of_plainType? found listed.plain⟩
      · exact ⟨named, plain⟩
  · rintro ⟨listed, omitted⟩
    exact listed.not_omits omitted

/-- Clients that do not know persons can ask for the keeper of a trip, by a name that no
definition gives them. -/
theorem keeper_taken_unlisted :
    Travel.catalog.resource? "Trip" = some Travel.trip ∧
      Travel.trip.action? "read" = some { name := "read" } ∧
      (∃ l, plan Travel.catalog "Trip" "read" (.list [.str "keeper"]) (some ["Trip"]) = .ok l) ∧
      ¬(⟨Travel.catalog, some ["Trip"], .camelCase⟩ : Schema.Context).Lists Travel.trip "keeper" := by
  have found : Travel.catalog.resource? "Trip" = some Travel.trip := by with_unfolding_all rfl
  have chosen : Travel.trip.action? "read" = some { name := "read" } := by with_unfolding_all rfl
  have same : Travel.trip.internalField "keeper" = "keeper" := by with_unfolding_all rfl
  have plain : (Site.record "Trip").takesBare Travel.catalog "keeper" = true := by
    with_unfolding_all rfl
  obtain ⟨taken, apart⟩ := plan_bare_iff_lists (c := Travel.catalog) (e := some ["Trip"])
    (n := "keeper") .camelCase found chosen rfl
  rw [same] at taken apart
  have typed : Schema.plainType? Travel.catalog Travel.trip "keeper" =
      some (.resource "Person") := by
    with_unfolding_all rfl
  have refers : Schema.typeResources Travel.catalog (.resource "Person") = .ok ["Person"] := by
    with_unfolding_all rfl
  have outside : (⟨Travel.catalog, some ["Trip"], .camelCase⟩ : Schema.Context).admits "Person" =
      false := by
    with_unfolding_all rfl
  have omitted : (⟨Travel.catalog, some ["Trip"], .camelCase⟩ : Schema.Context).Omits Travel.trip
      "keeper" :=
    .hidden typed refers (List.mem_singleton_self _) outside
  exact ⟨found, chosen, taken.2 ⟨by decide, Or.inr ⟨plain, omitted⟩⟩,
    fun listed => apart ⟨listed, omitted⟩⟩

end FieldPlan
