import FieldPlan.Proofs.Reading
import FieldPlan.Proofs.Site

/-! What an accepted selection is, entry by entry. `Accepts` says of a site and the
requests of one level which plan they have, without paths, rejections or an order of
checks; `descend_accepts` and `plan_accepts` say that every accepted selection is one. -/
namespace FieldPlan

/-! ### The part of a level that one name makes -/

namespace Site
variable (c : Catalog)

def takesBare : Site → String → Bool
  | .record resource, name =>
    match kind c (.record resource) name with
    | .attribute => true
    | .calculation => true
    | .aggregate => true
    | _ => false
  | .slots declared _, name => (slot? declared name).any fun slot => !c.requiresSelection slot.type
  | .members declared, name => (member? declared name).any fun m => !c.requiresSelection m.type
  | .untyped, _ => true
  | .closed, _ => false

/-- What comes with a record is selected by its name. -/
def selected (s : Site) (name : String) : List String :=
  match s.kind c name with
  | .attribute => [name]
  | .embeddedResource => [name]
  | .embeddedResourceArray => [name]
  | .unionAttribute => [name]
  | .typedStruct => [name]
  | .tuple => [name]
  | _ => []

def bareLoad (s : Site) (name : String) : List LoadItem :=
  match s.kind c name with
  | .calculation => [.field name]
  | .aggregate => [.field name]
  | _ => []

/-- What is loaded below a name is loaded by the plan. Slots and the members of a union
come whole; only a member that is an embedded resource is loaded further. -/
def carries : Site → String → Bool
  | .record resource, name =>
    match kind c (.record resource) name with
    | .typedStruct => false
    | .tuple => false
    | _ => true
  | .members declared, name => (member? declared name).any fun m => (c.embeddedName m.type).isSome
  | _, _ => false

def carried (s : Site) (name : String) (below : Level) : List LoadItem :=
  if s.carries c name then
    match s.kind c name with
    | .relationship => below.fetched
    | .calculationWithArgs => below.fetched
    | .calculationComplex => below.fetched
    | .complexAggregate => below.fetched
    | _ => below.load
  else []

def nestedLoad (s : Site) (name : String) (args : List (String × Value)) (below : Level) :
    List LoadItem :=
  let items := s.carried c name below
  match s.kind c name with
  | .relationship => [.nested name items]
  | .calculationWithArgs => [.call name args items]
  | .calculationComplex => [if items.isEmpty then .field name else .nested name items]
  | .complexAggregate => [if items.isEmpty then .field name else .nested name items]
  | _ => if items.isEmpty then [] else [.nested name items]

def bareLevel (s : Site) (name : String) : Level :=
  ⟨s.selected c name, s.bareLoad c name, [.field name]⟩

def nestedLevel (s : Site) (name : String) (args : List (String × Value)) (below : Level) :
    Level :=
  ⟨s.selected c name, s.nestedLoad c name args below,
    [if s.isWhole c name then .field name else .nested name below.template]⟩

variable {c}

theorem nestedLevel_members {declared : List (Member TypeRef)} {name : String}
    {m : Member TypeRef} {below : Level} (h : member? declared name = some m)
    (args : List (String × Value)) :
    (Site.members declared).nestedLevel c name args below =
      ⟨[], if (c.embeddedName m.type).isSome && !below.load.isEmpty then [.nested name below.load]
        else [], [.nested name below.template]⟩ := by
  cases embedded : (c.embeddedName m.type).isSome <;> cases empty : below.load.isEmpty <;>
    simp [nestedLevel, selected, nestedLoad, carried, carries, kind, isWhole, h, embedded, empty]

theorem kind_record {resource : String} {r : Resource} (h : c.resource? resource = some r)
    (name : String) : kind c (.record resource) name = classify c r name := by
  simp only [kind, h]

/-! ### The parts that fields of records make, by their kinds -/

section
variable {resource : String} {r : Resource} (found : c.resource? resource = some r)
variable {name : String} (below : Level)
include found

theorem nestedLevel_link (kind : classify c r name = .relationship) :
    (Site.record resource).nestedLevel c name [] below =
      ⟨[], [.nested name below.fetched], [.nested name below.template]⟩ := by
  have shape := kind_record found name
  rw [kind] at shape
  simp [nestedLevel, selected, nestedLoad, carried, carries, isWhole, shape, found, kind]

theorem nestedLevel_called {calculation : Calculation} (args : List (String × Value))
    (kind : classify c r name = .calculationWithArgs)
    (present : r.calculation? name = some calculation) :
    (Site.record resource).nestedLevel c name args below =
      ⟨[], [.call name args below.fetched],
        [if c.requiresSelection calculation.type then .nested name below.template
          else .field name]⟩ := by
  have shape := kind_record found name
  rw [kind] at shape
  cases needed : c.requiresSelection calculation.type <;>
    simp [nestedLevel, selected, nestedLoad, carried, carries, isWhole, shape, found, kind,
      present, needed]

theorem nestedLevel_derived
    (kind : classify c r name = .calculationComplex ∨ classify c r name = .complexAggregate) :
    (Site.record resource).nestedLevel c name [] below =
      ⟨[], [if below.fetched.isEmpty then .field name else .nested name below.fetched],
        [.nested name below.template]⟩ := by
  have shape := kind_record found name
  rcases kind with kind | kind <;>
    simp [nestedLevel, selected, nestedLoad, carried, carries, isWhole, shape, found, kind]

theorem nestedLevel_held
    (kind : classify c r name = .embeddedResource ∨ classify c r name = .embeddedResourceArray ∨
      classify c r name = .unionAttribute) :
    (Site.record resource).nestedLevel c name [] below =
      ⟨[name], if below.load.isEmpty then [] else [.nested name below.load],
        [.nested name below.template]⟩ := by
  have shape := kind_record found name
  rcases kind with kind | kind | kind <;>
    simp [nestedLevel, selected, nestedLoad, carried, carries, isWhole, shape, found, kind]

theorem nestedLevel_shaped
    (kind : classify c r name = .typedStruct ∨ classify c r name = .tuple) :
    (Site.record resource).nestedLevel c name [] below =
      ⟨[name], [], [.nested name below.template]⟩ := by
  have shape := kind_record found name
  rcases kind with kind | kind <;>
    simp [nestedLevel, selected, nestedLoad, carried, carries, isWhole, shape, found, kind]

end

variable (c)

/-- Records are entered only where clients may reach them. -/
def Entered (e : Exposure) : Site → Prop
  | .record resource => c.hasResource resource = true ∧ e.allows resource = true
  | _ => True

end Site

inductive Accepts (c : Catalog) (e : Exposure) :
    Site → List (Value × Request) → Level → Prop
  | nil {s : Site} (entered : s.Entered c e) : Accepts c e s [] .empty
  | bare {s : Site} {spelled name : String} {rest : List (Value × Request)} {l : Level}
      (resolved : s.resolve c spelled = name) (plain : s.takesBare c name = true)
      (fresh : name ∉ l.template.map TemplateItem.name) (others : Accepts c e s rest l) :
      Accepts c e s ((.str spelled, .bare) :: rest) (s.bareLevel c name ++ l)
  | nested {s t : Site} {spelled name : String} {request : Request} {v : Value}
      {rest : List (Value × Request)} {below l : Level} (args : List (String × Value))
      (resolved : s.resolve c spelled = name) (asked : request.nested? = some v)
      (under : s.under c name = some t)
      (inner : Accepts c e t (Selection.requested (s.given c name v)) below)
      (fresh : name ∉ l.template.map TemplateItem.name) (others : Accepts c e s rest l) :
      Accepts c e s ((.str spelled, request) :: rest) (s.nestedLevel c name args below ++ l)

inductive Part (c : Catalog) (e : Exposure) (s : Site) (name : String) : Request → Level → Prop
  | bare (plain : s.takesBare c name = true) : Part c e s name .bare (s.bareLevel c name)
  | nested {t : Site} {request : Request} {v : Value} {below : Level}
      (args : List (String × Value)) (asked : request.nested? = some v) (under : s.under c name = some t)
      (inner : Accepts c e t (Selection.requested (s.given c name v)) below) :
      Part c e s name request (s.nestedLevel c name args below)

theorem Part.template_name {c : Catalog} {e : Exposure} {s : Site} {name : String}
    {request : Request} {part : Level} (h : Part c e s name request part) :
    part.template.map TemplateItem.name = [name] := by
  cases h with
  | bare => rfl
  | nested =>
    simp only [Site.nestedLevel, List.map_cons, List.map_nil]
    split <;> rfl

theorem Part.cons {c : Catalog} {e : Exposure} {s : Site} {entry : Entry} {part l : Level}
    {rest : List (Value × Request)} (h : Part c e s entry.name entry.request part)
    (named : s.resolve c entry.spelled = entry.name)
    (fresh : entry.name ∉ l.template.map TemplateItem.name) (others : Accepts c e s rest l) :
    Accepts c e s (entry.asked :: rest) (part ++ l) := by
  obtain ⟨spelled, name, request⟩ := entry
  cases h with
  | bare plain => exact .bare named plain fresh others
  | nested args asked under inner => exact .nested args named asked under inner fresh others

/-- What holds of no requests, and of a level with one more part if it held without it, holds
of every accepted level. -/
theorem Accepts.parts {c : Catalog} {e : Exposure} {s : Site}
    {motive : List (Value × Request) → Level → Prop} (nil : motive [] .empty)
    (cons : ∀ spelled request part rest l,
      Part c e s (s.resolve c spelled) request part →
      s.resolve c spelled ∉ l.template.map TemplateItem.name → motive rest l →
      motive ((.str spelled, request) :: rest) (part ++ l))
    {requests : List (Value × Request)} {l : Level} (h : Accepts c e s requests l) :
    motive requests l := by
  induction h with
  | nil entered => exact nil
  | bare resolved plain fresh others ih =>
    subst resolved
    exact cons _ _ _ _ _ (.bare plain) fresh (ih cons)
  | nested args resolved asked under inner fresh others innerIh ih =>
    subst resolved
    exact cons _ _ _ _ _ (.nested args asked under inner) fresh (ih cons)

theorem Request.eq_bare {request : Request} (h : request.nested? = none) : request = .bare := by
  cases request with
  | bare => rfl
  | _ => simp [Request.nested?] at h

namespace Descent
variable {c : Catalog} {e : Exposure} {f : Descend}

theorem accepts_collect {s : Site} {entries : List Entry} {work : Entry → Outcome Level}
    {l : Level} (entered : s.Entered c e)
    (named : ∀ entry ∈ entries, s.resolve c entry.spelled = entry.name)
    (distinct : (entries.map Entry.name).Nodup)
    (parts : ∀ entry ∈ entries, ∀ part, work entry = .ok part →
      Part c e s entry.name entry.request part)
    (h : collect work entries = .ok l) :
    Accepts c e s (entries.map Entry.asked) l ∧
      l.template.map TemplateItem.name = entries.map Entry.name := by
  induction entries generalizing l with
  | nil =>
    cases h
    exact ⟨.nil entered, rfl⟩
  | cons entry rest ih =>
    simp only [collect] at h
    obtain ⟨first, head, h⟩ := Outcome.bind_ok h
    obtain ⟨others, tail, h⟩ := Outcome.bind_ok h
    cases h
    simp only [List.map_cons, List.nodup_cons] at distinct
    obtain ⟨accepted, same⟩ := ih (fun x member => named x (by simp [member])) distinct.2
      (fun x member => parts x (by simp [member])) tail
    have part := parts entry (by simp) first head
    have fresh : entry.name ∉ others.template.map TemplateItem.name := by
      rw [same]
      exact distinct.1
    refine ⟨part.cons (named entry (by simp)) fresh accepted, ?_⟩
    rw [Level.append_template, List.map_append, part.template_name, same]
    rfl

/-- Below a weight the work accepts only what is accepted. -/
def SoundBelow (c : Catalog) (e : Exposure) (w : Nat) (f : Descend) : Prop :=
  ∀ position v path l, v.weight < w → f position v path = .ok l →
    Accepts c e (Site.ofPosition c position) (Selection.requested v) l

theorem SoundBelow.mono {m n : Nat} (sound : SoundBelow c e n f) (le : m ≤ n) :
    SoundBelow c e m f :=
  fun position v path l lt h => sound position v path l (Nat.lt_of_lt_of_le lt le) h

theorem accepts_read {s : Site} {path : List String} {fields : List Value}
    {work : Entry → Outcome Level} {l : Level} (entered : s.Entered c e)
    (sound : SoundBelow c e (Value.weights fields) f)
    (parts : ∀ entry part,
      (∀ v, entry.request.nested? = some v → SoundBelow c e (v.weight + 1) f) →
      work entry = .ok part → Part c e s entry.name entry.request part)
    (h : (do let entries ← Selection.read (s.resolve c) path fields; collect work entries) =
      .ok l) :
    Accepts c e s (Selection.walk fields) l := by
  obtain ⟨entries, read, h⟩ := Outcome.bind_ok h
  obtain ⟨asked, named, distinct⟩ := Selection.read_ok read
  have resolved : ∀ entry ∈ entries, s.resolve c entry.spelled = entry.name :=
    fun entry member => (named entry member).1.symm
  rw [asked]
  refine (accepts_collect entered resolved distinct ?_ h).1
  intro entry member part worked
  refine parts entry part (fun v nested => sound.mono ?_) worked
  exact Selection.weight_read_lt read member nested

end Descent
end FieldPlan
