import FieldPlan.Catalog.Travel
import FieldPlan.Descent.Locality
import FieldPlan.Proofs.Site

/-! Exposing less. Under a narrower exposure the work on a selection goes on as under a wider
one until it meets a record or a link that only the wider one shows, and there it ends as at
a field that does not exist. -/
namespace FieldPlan

namespace Exposure
variable {c : Catalog} {e e' : Exposure} {names names' : List String}

/-- Every resource of the catalog that the one exposes is exposed by the other. -/
def Within (c : Catalog) (e e' : Exposure) : Prop :=
  ∀ name, c.hasResource name = true → e.allows name = true → e'.allows name = true

theorem within_all (c : Catalog) (e : Exposure) : e.Within c none := by
  intro name _ _
  rfl

theorem within_of_subset (h : names ⊆ names') : Within c (some names) (some names') := by
  intro name _ allowed
  have listed : name ∈ names := List.contains_iff_mem.1 allowed
  exact List.contains_iff_mem.2 (h listed)

theorem Within.withRoot (h : e.Within c e') (root : String) :
    (e.withRoot root).Within c (e'.withRoot root) := by
  intro name present allowed
  rw [allows_withRoot] at allowed ⊢
  rcases allowed with same | allowed
  · exact Or.inl same
  · exact Or.inr (h name present allowed)

end Exposure

/-- The first outcome is the second, or it is cut short at a field that is not shown. -/
def Outcome.narrower : Outcome.Comparison where
  rel x y := x = y ∨
    ∃ rejection, x = .error (.rejected rejection) ∧ rejection.kind = .unknownField
  refl _ := Or.inl rfl
  bind {α β x y f g} first next := by
    rcases first with same | ⟨rejection, short, kind⟩
    · subst same
      cases x with
      | error failure => exact Or.inl rfl
      | ok a => exact next a rfl
    · subst short
      exact Or.inr ⟨rejection, rfl, kind⟩

theorem Outcome.narrower_unknown {α : Type} (path : List String)
    (detail : List (String × String)) (x : Outcome α) :
    Outcome.narrower.rel (Descent.unknown path detail) x :=
  Or.inr ⟨_, rfl, rfl⟩

namespace Descent
variable {c : Catalog} {e e' : Exposure}

theorem exposed_of_within (h : e.Within c e') {name : String}
    (shown : exposed c e name = true) : exposed c e' name = true := by
  rw [exposed, Bool.and_eq_true] at shown ⊢
  exact ⟨shown.1, h name shown.1 shown.2⟩

/-- Fields are seen alike, but for links that only the wider exposure shows. -/
theorem visibleKind_of_within (h : e.Within c e') (r : Resource) (name : String) :
    visibleKind c e r name = visibleKind c e' r name ∨
      visibleKind c e r name = .notFound ∧ ∃ link, r.relationship? name = some link ∧
        exposed c e link.destination = false ∧ exposed c e' link.destination = true := by
  unfold visibleKind
  split
  · cases r.relationship? name with
    | none => exact Or.inl rfl
    | some link =>
      dsimp only
      cases shown : exposed c e link.destination with
      | true =>
        rw [exposed_of_within h shown]
        exact Or.inl rfl
      | false =>
        cases wider : exposed c e' link.destination with
        | true => exact Or.inr ⟨rfl, link, rfl, shown, wider⟩
        | false => exact Or.inl rfl
  · exact Or.inl rfl

theorem enter_of_within (h : e.Within c e') (name : String) (path : List String) :
    Descent.enter c e name path = Descent.enter c e' name path ∨
      Descent.enter c e name path = unknown path [] ∧
        e.allows name = false ∧ e'.allows name = true := by
  unfold Descent.enter
  cases found : c.resource? name with
  | none => exact Or.inl rfl
  | some r =>
    have present : c.hasResource name = true := by rw [Catalog.hasResource, found]; rfl
    cases allowed : e.allows name with
    | true =>
      left
      simp only [h name present allowed]
    | false =>
      cases wider : e'.allows name with
      | true => exact Or.inr ⟨rfl, rfl, rfl⟩
      | false => exact Or.inl rfl

theorem exposes_narrower (h : e.Within c e') (P : TypeRef → Prop) :
    Exposes Outcome.narrower P c e e' where
  enter {name} _ path := by
    rcases enter_of_within h name path with same | ⟨hidden, -⟩
    · exact Or.inl same
    · rw [hidden]
      exact Outcome.narrower_unknown _ _ _
  visible {_ r} _ _ _ name := by
    rcases visibleKind_of_within h r name with same | ⟨hidden, -⟩
    · exact Or.inl same
    · exact Or.inr ⟨hidden, fun _ _ _ => Outcome.narrower_unknown _ _ _⟩

theorem exposes_same (h : e.Within c e') (h' : e'.Within c e) (P : TypeRef → Prop) :
    Exposes Outcome.same P c e e' where
  enter {name} _ path := by
    rcases enter_of_within h name path with same | ⟨hidden, -⟩
    · exact same
    · rcases enter_of_within h' name path with same | ⟨hidden', -⟩
      · exact same.symm
      · exact hidden.trans hidden'.symm
  visible {_ r} _ _ _ name := by
    left
    rcases visibleKind_of_within h r name with same | ⟨hidden, -⟩
    · exact same
    · rcases visibleKind_of_within h' r name with same | ⟨hidden', -⟩
      · exact same.symm
      · exact hidden.trans hidden'.symm

end Descent

variable {c : Catalog} {e e' : Exposure} {root action : String} {selection : Value}

theorem plan_related {R : Outcome.Comparison}
    (exposes : Descent.Exposes R (fun _ => True) c (e.withRoot root) (e'.withRoot root)) :
    R.rel (plan c root action selection e) (plan c root action selection e') := by
  refine R.bind (R.refl _) ?_
  intro r held
  have found := Catalog.resource_ok (ofCatalog_ok held)
  rw [Catalog.resource?_name found]
  split
  · exact R.refl _
  · exact descend_related exposes (Descent.Closed.all _ _) _ trivial _ _

/-- Exposing less changes nothing, or it turns the selection down for an unknown field. So a
plan under the narrower exposure is the plan under the wider one, and exposures that allow
the same resources of the catalog, in any order and however often, have one outcome. -/
theorem plan_narrows (h : e.Within c e') :
    (plan c root action selection e = plan c root action selection e' ∨
      ∃ rejection, plan c root action selection e = .error (.rejected rejection) ∧
        rejection.kind = .unknownField) ∧
    (∀ l, plan c root action selection e = .ok l → plan c root action selection e' = .ok l) ∧
    (e'.Within c e → plan c root action selection e = plan c root action selection e') := by
  have narrowed : Outcome.narrower.rel (plan c root action selection e)
      (plan c root action selection e') :=
    plan_related (Descent.exposes_narrower (h.withRoot root) _)
  refine ⟨narrowed, ?_, ?_⟩
  · intro l accepted
    rcases narrowed with same | ⟨rejection, short, -⟩
    · rw [← same]
      exact accepted
    · rw [accepted] at short
      cases short
  · intro back
    exact plan_related (Descent.exposes_same (h.withRoot root) (back.withRoot root) _)

/-- Clients that do not know persons are told that a trip has no guide; clients that know all
resources have the same plan as those that know the ones on the way. -/
theorem tour_narrows :
    (Exposure.Within Travel.catalog (some ["Stop", "Stop"]) (some ["Person", "Stop"]) ∧
      ∃ rejection, plan Travel.catalog "Trip" "read" Travel.tour (some ["Stop", "Stop"]) =
        .error (.rejected rejection) ∧ rejection.kind = .unknownField) ∧
    Exposure.Within Travel.catalog (some ["Person", "Stop"]) none ∧
      plan Travel.catalog "Trip" "read" Travel.tour none = .ok Travel.tourPlan := by
  have narrow : Exposure.Within Travel.catalog (some ["Stop", "Stop"]) (some ["Person", "Stop"]) :=
    Exposure.within_of_subset (by simp)
  have wide : Exposure.Within Travel.catalog (some ["Person", "Stop"]) none :=
    Exposure.within_all _ _
  have accepted : plan Travel.catalog "Trip" "read" Travel.tour (some ["Person", "Stop"]) =
      .ok Travel.tourPlan := by
    with_unfolding_all rfl
  have turnedDown : plan Travel.catalog "Trip" "read" Travel.tour (some ["Stop", "Stop"]) =
      .error (.rejected ⟨.unknownField, ["guide"], some "guide", [("resource", .str "Trip")]⟩) := by
    with_unfolding_all rfl
  refine ⟨⟨narrow, ?_⟩, wide, (plan_narrows wide).2.1 _ accepted⟩
  rcases (plan_narrows narrow).1 with same | rejected
  · rw [same, accepted] at turnedDown
    cases turnedDown
  · exact rejected

end FieldPlan
