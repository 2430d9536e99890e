import FieldPlan.Catalog.Travel
import FieldPlan.Proofs.Accepts.Descent

/-! No name twice. The items of each level of a template have names of their own, and so do
the entries of each level of an accepted selection, however they are spelled. -/
namespace FieldPlan

inductive Distinct : List TemplateItem → Prop
  | intro {items : List TemplateItem} (here : (items.map TemplateItem.name).Nodup)
      (below : ∀ name inner, .nested name inner ∈ items → Distinct inner) : Distinct items

/-- A level of a selection, on the way down the names asked for, and the site that it is
about. Nothing is said of whether it is accepted. -/
inductive Asked (c : Catalog) :
    Site → List (Value × Request) → List String → Site → List (Value × Request) → Prop
  | here (s : Site) (requests : List (Value × Request)) : Asked c s requests [] s requests
  | down {s t u : Site} {spelled : String} {request : Request} {v : Value} {path : List String}
      {requests final : List (Value × Request)} (member : (.str spelled, request) ∈ requests)
      (asked : request.nested? = some v) (under : s.under c (s.resolve c spelled) = some t)
      (onward : Asked c t (Selection.requested (s.given c (s.resolve c spelled) v)) path u final) :
      Asked c s requests (s.resolve c spelled :: path) u final

def Site.names (c : Catalog) (s : Site) (requests : List (Value × Request)) : List String :=
  requests.filterMap fun request => request.1.str?.map (s.resolve c)

variable {c : Catalog} {e : Exposure} {s t : Site}
variable {requests : List (Value × Request)} {l : Level}

theorem Distinct.cons {item : TemplateItem} {items : List TemplateItem} (others : Distinct items)
    (fresh : item.name ∉ items.map TemplateItem.name)
    (inside : ∀ name inner, item = .nested name inner → Distinct inner) :
    Distinct (item :: items) := by
  obtain ⟨here, below⟩ := others
  refine .intro (List.nodup_cons.2 ⟨fresh, here⟩) ?_
  intro name inner shown
  rcases List.mem_cons.1 shown with same | later
  · exact inside name inner same.symm
  · exact below name inner later

theorem Accepts.distinct (h : Accepts c e s requests l) : Distinct l.template := by
  induction h with
  | nil entered =>
    refine .intro List.nodup_nil ?_
    intro name inner shown
    exact absurd shown List.not_mem_nil
  | bare resolved plain fresh others ih =>
    refine ih.cons fresh ?_
    intro name inner same
    cases same
  | @nested s t spelled name request v rest below l args resolved asked under inner fresh others
      innerIh ih =>
    rw [Level.append_template, Site.nestedLevel]
    -- a calculation whose value is no structure is shown by its bare name
    cases s.isWhole c name with
    | true =>
      refine ih.cons fresh ?_
      intro name inner same
      cases same
    | false =>
      refine ih.cons fresh ?_
      intro name inner same
      cases same
      exact innerIh

theorem Accepts.names_eq (h : Accepts c e s requests l) :
    s.names c requests = l.template.map TemplateItem.name := by
  refine h.parts (motive := fun requests l =>
    s.names c requests = l.template.map TemplateItem.name) rfl ?_
  intro spelled request part rest l first fresh others
  rw [Level.append_template, List.map_append, first.template_name, ← others]
  rfl

theorem Accepts.names_nodup (h : Accepts c e s requests l) : (s.names c requests).Nodup := by
  obtain ⟨here, below⟩ := h.distinct
  rw [h.names_eq]
  exact here

theorem Accepts.inner_level (h : Accepts c e s requests l) {spelled : String} {request : Request}
    {v : Value} (member : (.str spelled, request) ∈ requests) (asked : request.nested? = some v)
    (under : s.under c (s.resolve c spelled) = some t) :
    ∃ below, Accepts c e t (Selection.requested (s.given c (s.resolve c spelled) v)) below := by
  revert member
  refine h.parts (motive := fun requests _ => (.str spelled, request) ∈ requests → _) ?_ ?_
  · intro absent
    exact absurd absent List.not_mem_nil
  · intro spelled' request' part rest l first fresh others member
    rcases List.mem_cons.1 member with same | later
    · cases same
      cases first with
      | bare plain => cases asked
      | nested args asked' under' inner =>
        rw [asked] at asked'
        obtain rfl := Option.some.inj asked'
        rw [under] at under'
        obtain rfl := Option.some.inj under'
        exact ⟨_, inner⟩
    · exact others later

theorem Accepts.asked {path : List String} {final : List (Value × Request)}
    (h : Accepts c e s requests l) (way : Asked c s requests path t final) :
    ∃ below, Accepts c e t final below := by
  induction way generalizing l with
  | here s requests => exact ⟨l, h⟩
  | down member asked under onward ih =>
    obtain ⟨below, accepted⟩ := h.inner_level member asked under
    exact ih accepted

/-- An accepted selection names no field twice at a level, and neither does its template. So
whatever has two entries for one field at some level is turned down. -/
theorem plan_names_distinct {root action : String} {selection : Value}
    (h : plan c root action selection e = .ok l) :
    ∃ s, Site.ofResult c root action = some s ∧ Distinct l.template ∧
      ∀ path t requests, Asked c s (Selection.requested selection) path t requests →
        (t.names c requests).Nodup := by
  obtain ⟨s, result, accepted⟩ := plan_accepts h
  refine ⟨s, result, accepted.distinct, ?_⟩
  intro path t requests way
  obtain ⟨below, reached⟩ := accepted.asked way
  exact reached.names_nodup

/-- The guide may not be asked for one name in two spellings. -/
theorem tour_names_distinct :
    plan Travel.catalog "Trip" "read" Travel.tour none = .ok Travel.tourPlan ∧
      Distinct Travel.tourPlan.template ∧
      ∀ l, plan Travel.catalog "Trip" "read"
        (.list [Travel.object [("guide", .list [.str "fullName", .str "full_name"])]]) none ≠
          .ok l := by
  refine ⟨Travel.plan_tour, ?_, ?_⟩
  · obtain ⟨s, result, distinct, -⟩ := plan_names_distinct Travel.plan_tour
    exact distinct
  · intro l accepted
    obtain ⟨s, result, -, levels⟩ := plan_names_distinct accepted
    have trip : Site.ofResult Travel.catalog "Trip" "read" = some (.record "Trip") := by
      with_unfolding_all rfl
    obtain rfl := Option.some.inj (trip.symm.trans result)
    have guide : (Site.record "Trip").under Travel.catalog
        ((Site.record "Trip").resolve Travel.catalog "guide") = some (.record "Person") := by
      with_unfolding_all rfl
    have twice : (Site.record "Person").names Travel.catalog
        (Selection.requested (.list [.str "fullName", .str "full_name"])) =
          ["full_name", "full_name"] := by
      with_unfolding_all rfl
    have once := levels ["guide"] _ _ (.down (List.mem_singleton_self _) rfl guide (.here _ _))
    have clash : ["full_name", "full_name"].Nodup := twice ▸ once
    exact absurd clash (by decide)

end FieldPlan
