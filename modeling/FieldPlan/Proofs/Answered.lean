import FieldPlan.Proofs.Worked

/-! What a client asks for and what is left out of the answer. Every name of an accepted
selection has an item of its own in the template, except for what is passed over under a
calculation or an aggregate: the further keys of an object form, and the fields of a value
that is no structure. -/
namespace FieldPlan

namespace Site
variable (c : Catalog)

def isForm (s : Site) (name : String) (v : Value) : Bool :=
  match s.kind c name with
  | .calculationWithArgs => true
  | .calculationComplex => (v.get? Arguments.fieldsKey).isSome
  | .complexAggregate => (v.get? Arguments.fieldsKey).isSome
  | _ => false

/-- The further keys of an object form, beside the arguments and the fields. -/
def further (s : Site) (name : String) (v : Value) : List (Value × Request) :=
  match v with
  | .mapping entries =>
    if s.isForm c name v then
      (entries.filter fun entry => !Arguments.isFormKey entry.1).map fun entry =>
        (entry.1, .keyed entry.2)
    else []
  | _ => []

def asks (s : Site) (name : String) (v : Value) : List (Value × Request) :=
  Selection.requested (s.given c name v) ++ s.further c name v

/-- The names that are passed over. -/
def unread (s : Site) (name : String) (v : Value) : List (Value × Request) :=
  if s.isWhole c name then s.asks c name v else s.further c name v

end Site

/-- Every name has an item of its own, in order, and so has every name under it. -/
inductive Answered (c : Catalog) : Site → List (Value × Request) → List TemplateItem → Prop
  | nil (s : Site) : Answered c s [] []
  | bare {s : Site} {spelled : String} {rest : List (Value × Request)} {items : List TemplateItem}
      (others : Answered c s rest items) :
      Answered c s ((.str spelled, .bare) :: rest) (.field (s.resolve c spelled) :: items)
  | leaf {s : Site} {spelled : String} {request : Request} {v : Value}
      {rest : List (Value × Request)} {items : List TemplateItem}
      (asked : request.nested? = some v) (nothing : s.asks c (s.resolve c spelled) v = [])
      (others : Answered c s rest items) :
      Answered c s ((.str spelled, request) :: rest) (.field (s.resolve c spelled) :: items)
  | nested {s t : Site} {spelled : String} {request : Request} {v : Value}
      {rest : List (Value × Request)} {below items : List TemplateItem}
      (asked : request.nested? = some v) (under : s.under c (s.resolve c spelled) = some t)
      (inner : Answered c t (s.asks c (s.resolve c spelled) v) below)
      (others : Answered c s rest items) :
      Answered c s ((.str spelled, request) :: rest) (.nested (s.resolve c spelled) below :: items)

/-- Nothing is passed over at the level, nor further down. -/
def Site.ReadsAll (c : Catalog) (s : Site) (requests : List (Value × Request)) : Prop :=
  ∀ way t final, Asked c s requests way t final → ∀ spelled request v,
    (.str spelled, request) ∈ final → request.nested? = some v →
      t.unread c (t.resolve c spelled) v = []

variable {c : Catalog} {e : Exposure} {s t : Site} {spelled : String} {request : Request}
variable {requests rest : List (Value × Request)} {v : Value} {l : Level}

theorem Answered.length_eq {items : List TemplateItem} (h : Answered c s requests items) :
    items.length = requests.length := by
  induction h with
  | nil s => rfl
  | bare others ih => rw [List.length_cons, List.length_cons, ih]
  | leaf asked nothing others ih => rw [List.length_cons, List.length_cons, ih]
  | nested asked under inner others innerIh ih => rw [List.length_cons, List.length_cons, ih]

theorem Accepts.length_eq (h : Accepts c e s requests l) :
    l.template.length = requests.length := by
  refine h.parts (motive := fun requests l => l.template.length = requests.length) rfl ?_
  intro spelled request part rest l first fresh others
  have single := congrArg List.length first.template_name
  rw [List.length_map, List.length_singleton] at single
  rw [Level.append_template, List.length_append, single, others, List.length_cons, Nat.add_comm]

/-! ### Levels, entry by entry -/

theorem Site.readsAll_iff :
    s.ReadsAll c requests ↔ ∀ spelled request v, (.str spelled, request) ∈ requests →
      request.nested? = some v → s.unread c (s.resolve c spelled) v = [] ∧
        ∀ t, s.under c (s.resolve c spelled) = some t →
          t.ReadsAll c (Selection.requested (s.given c (s.resolve c spelled) v)) := by
  constructor
  · intro all spelled request v member asked
    refine ⟨all [] s requests (.here s requests) spelled request v member asked, ?_⟩
    intro t under way u final onward
    exact all _ u final (.down member asked under onward)
  · intro entries way t final onward
    cases onward with
    | here =>
      intro spelled request v member asked
      exact (entries spelled request v member asked).1
    | down member asked under onward =>
      exact (entries _ _ _ member asked).2 _ under _ _ _ onward

theorem Site.readsAll_cons :
    s.ReadsAll c ((.str spelled, request) :: rest) ↔
      (∀ v, request.nested? = some v → s.unread c (s.resolve c spelled) v = [] ∧
        ∀ t, s.under c (s.resolve c spelled) = some t →
          t.ReadsAll c (Selection.requested (s.given c (s.resolve c spelled) v))) ∧
      s.ReadsAll c rest := by
  rw [readsAll_iff, @readsAll_iff c s rest]
  constructor
  · intro entries
    refine ⟨fun v => entries spelled request v List.mem_cons_self, ?_⟩
    intro spelled' request' v member
    exact entries spelled' request' v (List.mem_cons_of_mem _ member)
  · intro entries spelled' request' v member
    rcases List.mem_cons.1 member with same | later
    · cases same
      exact entries.1 v
    · exact entries.2 spelled' request' v later

theorem Site.readsAll_nil (s : Site) : s.ReadsAll c [] := by
  rw [readsAll_iff]
  intro spelled request v absent
  exact absurd absent List.not_mem_nil

theorem Site.readsAll_nested (asked : request.nested? = some v)
    (under : s.under c (s.resolve c spelled) = some t) :
    s.ReadsAll c ((.str spelled, request) :: rest) ↔
      s.unread c (s.resolve c spelled) v = [] ∧
        t.ReadsAll c (Selection.requested (s.given c (s.resolve c spelled) v)) ∧
        s.ReadsAll c rest := by
  rw [readsAll_cons, ← and_assoc]
  apply and_congr_left'
  constructor
  · intro entry
    obtain ⟨read, below⟩ := entry v asked
    exact ⟨read, below t under⟩
  · intro entry v' asked'
    rw [asked] at asked'
    cases asked'
    refine ⟨entry.1, ?_⟩
    intro t' under'
    rw [under] at under'
    cases under'
    exact entry.2

/-! ### Whole selections -/

section
variable {name : String} {items : List TemplateItem}

theorem Site.unread_eq_nil (whole : s.isWhole c name = false)
    (shown : items.length = (Selection.requested (s.given c name v)).length) :
    s.unread c name v = [] ↔ items.length = (s.asks c name v).length := by
  rw [unread, whole, if_neg Bool.false_ne_true, asks, List.length_append, ← shown]
  constructor
  · intro nothing
    rw [nothing, List.length_nil, Nat.add_zero]
  · intro same
    exact List.eq_nil_of_length_eq_zero (by omega)

theorem Site.asks_of_unread (whole : s.isWhole c name = false)
    (read : s.unread c name v = []) : s.asks c name v = Selection.requested (s.given c name v) := by
  rw [unread, whole, if_neg Bool.false_ne_true] at read
  rw [asks, read, List.append_nil]

end

theorem Accepts.answered_iff (h : Accepts c e s requests l) :
    Answered c s requests l.template ↔ s.ReadsAll c requests := by
  induction h with
  | @nil s entered => exact iff_of_true (.nil s) s.readsAll_nil
  | bare resolved plain fresh others ih =>
    subst resolved
    rw [Site.readsAll_cons, ← ih]
    constructor
    · intro answered
      refine ⟨nofun, ?_⟩
      cases answered with
      | bare others => exact others
      | leaf asked => cases asked
    · intro read
      exact .bare read.2
  | @nested s t spelled name request v rest below l args resolved asked under inner fresh others
      innerIh ih =>
    subst resolved
    rw [Site.readsAll_nested asked under, ← ih, ← innerIh, Level.append_template,
      Site.nestedLevel]
    cases whole : s.isWhole c (s.resolve c spelled) with
    | true =>
      -- the names under a value that is shown whole have no items
      rw [Site.unread, whole, if_pos rfl]
      constructor
      · intro answered
        cases answered with
        | bare => cases asked
        | leaf asked' nothing others =>
          rw [asked] at asked'
          cases asked'
          have empty := (List.append_eq_nil_iff.1 nothing).1
          have template := inner.length_eq
          rw [empty] at template ⊢
          rw [List.eq_nil_of_length_eq_zero template]
          exact ⟨nothing, .nil t, others⟩
      · intro read
        obtain ⟨nothing, -, others⟩ := read
        exact .leaf asked nothing others
    | false =>
      constructor
      · intro answered
        cases answered with
        | nested asked' under' inner' others =>
          rw [asked] at asked'
          cases asked'
          rw [under] at under'
          cases under'
          have read := (Site.unread_eq_nil whole inner.length_eq).2 inner'.length_eq
          rw [Site.asks_of_unread whole read] at inner'
          exact ⟨read, inner', others⟩
      · intro all
        obtain ⟨read, inner', others⟩ := all
        rw [← Site.asks_of_unread whole read] at inner'
        exact .nested asked under inner' others

/-! ### Objects with arguments -/

theorem Site.Works.isArgsForm {path : List String} {entry : Entry} (h : s.Works c e path entry)
    (asked : entry.request.nested? = some v)
    (kind : s.kind c entry.name = .calculationWithArgs) : Arguments.isArgsForm v = true := by
  cases h with
  | @record resource r _ part entered worked =>
    have found := (Descent.enter_ok entered).1
    rw [kind_record found] at kind
    have visible : Descent.visibleKind c e r entry.name = .calculationWithArgs := by
      rw [Descent.visibleKind, kind]
    simp only [Descent.recordEntry, visible, asked, Descent.structured, Descent.calledField]
      at worked
    split at worked
    · simp [Descent.unknown, reject] at worked
    · split at worked
      · simp [Arguments.invalid, reject] at worked
      · next form => simpa using form
  | _ => contradiction

theorem Site.further_called {name : String} (form : Arguments.isArgsForm v = true) :
    s.further c name v = [] := by
  cases v with
  | mapping entries =>
    rw [Arguments.isArgsForm, Bool.and_eq_true, List.all_eq_true] at form
    have none : entries.filter (fun entry => !Arguments.isFormKey entry.1) = [] := by
      rw [List.filter_eq_nil_iff]
      intro entry member
      rw [form.2 entry member]
      exact Bool.false_ne_true
    rw [further, none, List.map_nil, ite_self]
  | _ => rfl

theorem Site.Worked.further_called {selection : Value} (h : s.Worked c e selection)
    (member : (.str spelled, request) ∈ Selection.requested selection)
    (asked : request.nested? = some v)
    (kind : s.kind c (s.resolve c spelled) = .calculationWithArgs) :
    s.further c (s.resolve c spelled) v = [] := by
  obtain ⟨path, entry, works, nested, named⟩ := h.entry member asked
  rw [← named] at kind
  exact Site.further_called (works.isArgsForm nested kind)

/-! ### Accepted selections -/

/-- Every name of an accepted selection has an item of its own just if nothing is passed over.
Further keys are only passed over beside the fields of a calculation or an aggregate that takes
no arguments. -/
theorem plan_answers_iff {root action : String} {selection : Value}
    (h : plan c root action selection e = .ok l) :
    ∃ s, Site.ofResult c root action = some s ∧
      (Answered c s (Selection.requested selection) l.template ↔
        s.ReadsAll c (Selection.requested selection)) ∧
      ∀ way t final, Asked c s (Selection.requested selection) way t final →
        ∀ spelled request v, (.str spelled, request) ∈ final → request.nested? = some v →
          t.kind c (t.resolve c spelled) = .calculationWithArgs →
            t.further c (t.resolve c spelled) v = [] := by
  obtain ⟨s, result, accepted⟩ := plan_accepts h
  obtain ⟨s', result', worked⟩ := plan_worked h
  rw [result] at result'
  cases result'
  refine ⟨s, result, accepted.answered_iff, ?_⟩
  intro way t final onward spelled request v member asked kind
  obtain ⟨selection', worked, same⟩ := worked.asked onward
  rw [← same] at member
  exact worked.further_called member asked kind

namespace Travel

/-- Trips with a leader, and with notes that are kept in any form. -/
def diary : Catalog :=
  ⟨[{ trip with calculations := [
      { name := "lead", type := .resource "Person" },
      { name := "notes", type := .any,
        arguments := [{ name := "day", type := .primitive .integer [] }] }] },
    person, stop], []⟩

/-- The boss is asked for beside the fields of the leader, and a part of the notes. -/
def passage : Value :=
  .list [object [
    ("lead", object [("fields", .list [.str "fullName"]), ("boss", .list [.str "fullName"])]),
    ("notes", object [("args", object []), ("fields", .list [.str "mood"])])]]

def passagePlan : Level where
  select := []
  load := [.nested "lead" [.field "full_name"], .call "notes" [] []]
  template := [.nested "lead" [.field "full_name"], .field "notes"]

end Travel

theorem passage_unanswered :
    plan Travel.diary "Trip" "read" Travel.passage none = .ok Travel.passagePlan ∧
      ¬Answered Travel.diary (.record "Trip") (Selection.requested Travel.passage)
        Travel.passagePlan.template := by
  have accepted : plan Travel.diary "Trip" "read" Travel.passage none =
      .ok Travel.passagePlan := by
    with_unfolding_all rfl
  have trip : Site.ofResult Travel.diary "Trip" "read" = some (.record "Trip") := by
    with_unfolding_all rfl
  have lead : (Site.record "Trip").unread Travel.diary
      ((Site.record "Trip").resolve Travel.diary "lead")
        (Travel.object [("fields", .list [.str "fullName"]), ("boss", .list [.str "fullName"])]) =
      [(.str "boss", .keyed (.list [.str "fullName"]))] := by
    with_unfolding_all rfl
  obtain ⟨s, result, answers, -⟩ := plan_answers_iff accepted
  rw [trip] at result
  cases result
  refine ⟨accepted, ?_⟩
  intro answered
  have read := answers.1 answered [] _ _ (.here _ _) "lead" _ _ List.mem_cons_self rfl
  rw [lead] at read
  contradiction

end FieldPlan
