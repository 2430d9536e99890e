import FieldPlan.Catalog.Travel
import FieldPlan.Proofs.Accepts.Descent

/-! The template of a plan mirrors the selection. -/
namespace FieldPlan

/-- The template that a site gives to the requests of a level: one item for each request,
in the order of the requests, under the declared name. -/
inductive Mirrors (c : Catalog) : Site → List (Value × Request) → List TemplateItem → Prop
  | nil (s : Site) : Mirrors c s [] []
  | bare {s : Site} {spelled : String} {rest : List (Value × Request)}
      {items : List TemplateItem} (others : Mirrors c s rest items) :
      Mirrors c s ((.str spelled, .bare) :: rest) (.field (s.resolve c spelled) :: items)
  | whole {s : Site} {spelled : String} {request : Request} {v : Value}
      {rest : List (Value × Request)} {items : List TemplateItem}
      (asked : request.nested? = some v) (whole : s.isWhole c (s.resolve c spelled) = true)
      (others : Mirrors c s rest items) :
      Mirrors c s ((.str spelled, request) :: rest) (.field (s.resolve c spelled) :: items)
  | nested {s t : Site} {spelled : String} {request : Request} {v : Value}
      {rest : List (Value × Request)} {below items : List TemplateItem}
      (asked : request.nested? = some v) (whole : s.isWhole c (s.resolve c spelled) = false)
      (under : s.under c (s.resolve c spelled) = some t)
      (inner : Mirrors c t (Selection.requested (s.given c (s.resolve c spelled) v)) below)
      (others : Mirrors c s rest items) :
      Mirrors c s ((.str spelled, request) :: rest)
        (.nested (s.resolve c spelled) below :: items)

variable {c : Catalog}

theorem Accepts.mirrors {e : Exposure} {s : Site} {requests : List (Value × Request)} {l : Level}
    (h : Accepts c e s requests l) : Mirrors c s requests l.template := by
  induction h with
  | nil entered => exact .nil _
  | bare resolved plain fresh others ih =>
    subst resolved
    exact .bare ih
  | @nested s t spelled name request v rest below l args resolved asked under inner fresh others
      innerIh ih =>
    subst resolved
    rw [Level.append_template, Site.nestedLevel]
    cases whole : s.isWhole c (s.resolve c spelled) with
    | true => exact .whole asked whole ih
    | false => exact .nested asked whole under innerIh ih

theorem Mirrors.unique {s : Site} {requests : List (Value × Request)}
    {items items' : List TemplateItem} (h : Mirrors c s requests items)
    (h' : Mirrors c s requests items') : items = items' := by
  induction h generalizing items' with
  | nil s =>
    cases h'
    rfl
  | bare others ih =>
    cases h' with
    | bare others' => rw [ih others']
    | whole asked => simp [Request.nested?] at asked
    | nested asked => simp [Request.nested?] at asked
  | whole asked whole others ih =>
    cases h' with
    | bare => simp [Request.nested?] at asked
    | whole asked' whole' others' => rw [ih others']
    | nested asked' whole' => simp [whole] at whole'
  | nested asked whole under inner others innerIh ih =>
    cases h' with
    | bare => simp [Request.nested?] at asked
    | whole asked' whole' => simp [whole] at whole'
    | nested asked' whole' under' inner' others' =>
      rw [asked] at asked'
      obtain rfl := Option.some.inj asked'
      rw [under] at under'
      obtain rfl := Option.some.inj under'
      rw [innerIh inner', ih others']

theorem plan_template_mirrors {root action : String} {selection : Value} {e : Exposure}
    {l : Level} (h : plan c root action selection e = .ok l) :
    ∃ s, Site.ofResult c root action = some s ∧
      Mirrors c s (Selection.requested selection) l.template := by
  obtain ⟨s, result, accepted⟩ := plan_accepts h
  exact ⟨s, result, accepted.mirrors⟩

theorem tour_template_mirrors :
    plan Travel.catalog "Trip" "read" Travel.tour none = .ok Travel.tourPlan ∧
      ∃ s, Site.ofResult Travel.catalog "Trip" "read" = some s ∧
        Mirrors Travel.catalog s (Selection.requested Travel.tour) Travel.tourPlan.template :=
  ⟨Travel.plan_tour, plan_template_mirrors Travel.plan_tour⟩

end FieldPlan
