import FieldPlan.Proofs.Distinct
import FieldPlan.Proofs.HiddenField

/-! Where a rejection points. Its path leads along names that are asked for, each in the
nested selection of the one before, to the level that is turned down or to one entry of it. -/
namespace FieldPlan

namespace Rejection

/-- The path names a level by the way to it, or an entry of the level by the name that it
stands for. Only an unknown name may be as it is spelled. -/
inductive At (c : Catalog) (r : Rejection) (way : List String) (s : Site)
    (requests : List (Value × Request)) : Prop
  | level (path : r.path = way) : At c r way s requests
  | entry {spelled : String} {request : Request} (asked : (.str spelled, request) ∈ requests)
      (path : r.path = way ++ [s.resolve c spelled]) : At c r way s requests
  | spelled {spelled : String} {request : Request} (asked : (.str spelled, request) ∈ requests)
      (unknown : r.kind = .unknownField) (path : r.path = way ++ [spelled]) : At c r way s requests

/-- From `path` on the rejection follows what is asked for, and its field ends the path. -/
structure Points (c : Catalog) (s : Site) (requests : List (Value × Request))
    (path : List String) (r : Rejection) : Prop where
  place : ∃ way t final, Asked c s requests way t final ∧ r.At c (path ++ way) t final
  field : ∀ name, r.field = some name → r.path.getLast? = some name

end Rejection

def Outcome.Points {α : Type} (c : Catalog) (s : Site) (requests : List (Value × Request))
    (path : List String) (x : Outcome α) : Prop :=
  ∀ r, x = .error (.rejected r) → r.Points c s requests path

/-! ### Steps -/

namespace Outcome.Points
variable {α β : Type} {c : Catalog} {s t : Site} {requests : List (Value × Request)}
variable {path : List String} {spelled : String} {request : Request}

theorem ok (a : α) : Outcome.Points c s requests path (.ok a) := nofun

theorem crash (way : Crash) : Outcome.Points c s requests path (FieldPlan.crash way : Outcome α) := by
  intro r failed
  cases failed

theorem ofCatalog (x : Except Catalog.Fault α) :
    Outcome.Points c s requests path (ofCatalog x) := by
  cases x with
  | ok a => exact .ok a
  | error fault => nofun

theorem bind {x : Outcome α} {f : α → Outcome β} (first : x.Points c s requests path)
    (next : ∀ a, x = .ok a → (f a).Points c s requests path) :
    (x >>= f).Points c s requests path := by
  cases x with
  | ok a => exact next a rfl
  | error failure =>
    intro r failed
    cases failed
    exact first r rfl

theorem map {x : Outcome α} (f : α → β) (first : x.Points c s requests path) :
    Outcome.Points c s requests path (x.map f) := by
  cases x with
  | ok a => exact .ok (f a)
  | error failure =>
    intro r failed
    cases failed
    exact first r rfl

theorem level {kind : Rejection.Kind} {field : Option String} {detail : List (String × String)}
    (last : ∀ name, field = some name → path.getLast? = some name) :
    Outcome.Points c s requests path (reject kind path field detail : Outcome α) := by
  intro r failed
  cases failed
  have here : Asked c s requests [] s requests := .here s requests
  exact ⟨⟨[], s, requests, here, .level (List.append_nil path).symm⟩, last⟩

theorem unknown_level (detail : List (String × String)) :
    Outcome.Points c s requests path (Descent.unknown path detail : Outcome α) :=
  level fun _ last => last

theorem unsupported (kind : String) :
    Outcome.Points c s requests path (Descent.unsupported path kind : Outcome α) :=
  level fun _ last => last

section
variable (asked : (.str spelled, request) ∈ requests)
include asked

theorem at_entry {r : Rejection} (place : r.path = path ++ [s.resolve c spelled])
    (field : r.field = some (s.resolve c spelled)) : r.Points c s requests path := by
  refine ⟨⟨[], s, requests, .here s requests, .entry asked ?_⟩, ?_⟩
  · rw [place, List.append_nil]
  · intro name same
    rw [place, List.getLast?_concat, ← field, same]

theorem entry {kind : Rejection.Kind} {detail : List (String × String)} :
    Outcome.Points c s requests path
      (reject kind (path ++ [s.resolve c spelled]) (some (s.resolve c spelled)) detail :
        Outcome α) := by
  intro r failed
  cases failed
  exact at_entry asked rfl rfl

theorem checked {x : Outcome α}
    (checks : x.Checks (path ++ [s.resolve c spelled]) (s.resolve c spelled)) :
    x.Points c s requests path := by
  intro r failed
  obtain ⟨_, same, known, place, field⟩ := checks _ failed
  cases same
  exact at_entry asked place field

theorem unknown_entry (detail : List (String × String)) :
    Outcome.Points c s requests path
      (Descent.unknown (path ++ [s.resolve c spelled]) detail : Outcome α) := by
  rw [Descent.unknown_concat]
  exact entry asked

theorem unknown_spelled (detail : List (String × String)) :
    Outcome.Points c s requests path (Descent.unknown (path ++ [spelled]) detail : Outcome α) := by
  rw [Descent.unknown_concat]
  intro r failed
  cases failed
  refine ⟨⟨[], s, requests, .here s requests, .spelled asked rfl ?_⟩, ?_⟩
  · rw [List.append_nil]
  · intro name same
    rw [List.getLast?_concat]
    exact same

theorem down {x : Outcome α} {v : Value} (nested : request.nested? = some v)
    (under : s.under c (s.resolve c spelled) = some t)
    (inner : x.Points c t (Selection.requested (s.given c (s.resolve c spelled) v))
      (path ++ [s.resolve c spelled])) : x.Points c s requests path := by
  intro r failed
  obtain ⟨⟨way, u, final, onward, place⟩, field⟩ := inner r failed
  refine ⟨⟨s.resolve c spelled :: way, u, final, .down asked nested under onward, ?_⟩, field⟩
  rwa [List.append_cons]

end
end Outcome.Points

/-! ### Reading a level -/

namespace Selection
variable {c : Catalog} {s : Site} {requests : List (Value × Request)} {path : List String}

theorem malformed_points {α : Type} (v : Value) :
    Outcome.Points c s requests path (malformed path v : Outcome α) :=
  .level nofun

theorem requireName_points (v : Value) :
    (requireName path v).Points c s requests path := by
  unfold requireName
  split
  · split
    · exact malformed_points _
    · exact .ok _
  · exact malformed_points v

theorem elementNames_points (element : Value) :
    (elementNames path element).Points c s requests path := by
  unfold elementNames
  split
  · exact malformed_points element
  · next asked found =>
    clear found
    induction asked with
    | nil =>
      rw [List.mapM_nil]
      exact .ok _
    | cons first rest ih =>
      rw [List.mapM_cons]
      exact ((requireName_points first.1).map _).bind fun _ _ => ih.bind fun _ _ => .ok _

theorem enrol_points {seen : List String} {names : List (String × Request)}
    (asked : ∀ n ∈ names, (Value.str n.1, n.2) ∈ requests) :
    (enrol (s.resolve c) path seen names).Points c s requests path := by
  induction names generalizing seen with
  | nil => exact .ok _
  | cons first rest ih =>
    obtain ⟨here, later⟩ := List.forall_mem_cons.1 asked
    rw [enrol]
    split
    · exact .entry here
    · exact (ih later).map _

theorem readFrom_points {seen : List String} {fields : List Value}
    (asked : walk fields ⊆ requests) :
    (readFrom (s.resolve c) path seen fields).Points c s requests path := by
  induction fields generalizing seen with
  | nil => exact .ok _
  | cons element rest ih =>
    rw [walk, List.flatMap_cons] at asked
    have later : walk rest ⊆ requests := (List.append_subset.1 asked).2
    refine (elementNames_points element).bind ?_
    intro names named
    have here : ∀ n ∈ names, (Value.str n.1, n.2) ∈ requests := by
      intro n member
      apply (List.append_subset.1 asked).1
      rw [(elementNames_ok.1 named).1, Option.getD_some]
      exact List.mem_map_of_mem member
    refine (enrol_points here).bind ?_
    intro entries enrolled
    exact (ih later).bind fun _ _ => .ok _

theorem requireSome_points {kind : String} (v : Value) :
    (requireSome kind path path.getLast? v).Points c s requests path := by
  unfold requireSome
  split
  · exact .level fun _ last => last
  · exact .ok _
  · exact .level fun _ last => last

end Selection

/-! ### Layers over work that points at what it turns down -/

namespace Descent
variable {c : Catalog} {e : Exposure} {f : Descend} {s : Site} {path : List String}

/-- Below a weight the work points at what it turns down. -/
def PointsBelow (c : Catalog) (w : Nat) (f : Descend) : Prop :=
  ∀ position v path, v.weight < w →
    (f position v path).Points c (.ofPosition c position) (Selection.requested v) path

theorem PointsBelow.mono {m n : Nat} (below : PointsBelow c n f) (le : m ≤ n) :
    PointsBelow c m f :=
  fun position v path lt => below position v path (Nat.lt_of_lt_of_le lt le)

theorem collect_points {requests : List (Value × Request)} {entries : List Entry}
    {work : Entry → Outcome Level}
    (parts : ∀ entry ∈ entries, (work entry).Points c s requests path) :
    (collect work entries).Points c s requests path := by
  induction entries with
  | nil => exact .ok _
  | cons entry rest ih =>
    obtain ⟨here, later⟩ := List.forall_mem_cons.1 parts
    exact here.bind fun _ _ => (ih later).bind fun _ _ => .ok _

/-- An entry of a level, with the work that is lighter than what it asks for. -/
structure Entered (c : Catalog) (f : Descend) (s : Site) (requests : List (Value × Request))
    (entry : Entry) : Prop where
  asked : (.str entry.spelled, entry.request) ∈ requests
  named : s.resolve c entry.spelled = entry.name
  below : ∀ v, entry.request.nested? = some v → PointsBelow c (v.weight + 1) f

/-- A level points at what it turns down if its entries do. -/
theorem level_points {fields : List Value} {work : Entry → Outcome Level}
    (below : PointsBelow c (Value.weights fields) f)
    (parts : ∀ entry, Entered c f s (Selection.walk fields) entry →
      (work entry).Points c s (Selection.walk fields) path) :
    (do let entries ← Selection.read (s.resolve c) path fields; collect work entries).Points c s
      (Selection.walk fields) path := by
  refine (Selection.readFrom_points (List.Subset.refl _)).bind ?_
  intro entries read
  obtain ⟨asked, named, -⟩ := Selection.read_ok read
  apply collect_points
  intro entry member
  apply parts
  constructor
  · rw [asked]
    exact List.mem_map_of_mem member
  · exact (named entry member).1.symm
  · intro v nested
    exact below.mono (Selection.weight_read_lt read member nested)

/-! ### Values that are no records -/

section
variable {requests : List (Value × Request)} {entry : Entry}

theorem untypedEntry_points (entered : Entered c f .untyped requests entry) :
    (untypedEntry f path entry).Points c .untyped requests path := by
  obtain ⟨asked, named, below⟩ := entered
  unfold untypedEntry
  split
  · exact .ok _
  · next v nested =>
    rw [← named]
    have inner := below v nested .untyped v (path ++ [entry.spelled]) (Nat.lt_succ_self _)
    exact Outcome.Points.bind (.down asked nested rfl inner) fun _ _ => .ok _

end

theorem untyped_points {selection : Value} (below : PointsBelow c selection.weight f) :
    (untyped f selection path).Points c .untyped (Selection.requested selection) path := by
  have weight := Selection.weight_normalize selection
  simp only [untyped]
  split
  · exact .ok _
  · split
    · next fields same =>
      rw [same, Value.weight] at weight
      rw [Selection.requested_of_normalize same]
      exact level_points (s := .untyped) (below.mono (by omega)) fun _ => untypedEntry_points
    · exact .unsupported _

section
variable {requests : List (Value × Request)} {entry : Entry}

theorem slotEntry_points {kind : String} {declared : List (Slot TypeRef)}
    {externals : List (String × String)}
    (entered : Entered c f (.slots declared externals) requests entry) :
    (slotEntry c f kind declared path entry).Points c (.slots declared externals) requests
      path := by
  obtain ⟨asked, named, below⟩ := entered
  unfold slotEntry
  split
  · exact .unknown_spelled asked _
  · next slot found =>
    have present : Site.slot? declared entry.name = some slot := found
    have name : slot.name = entry.name := (find?_byName.1 found).2
    rw [name, ← named]
    split
    · split
      · exact .entry asked
      · exact .ok _
    · next v nested =>
      have under : (Site.slots declared externals).under c
          ((Site.slots declared externals).resolve c entry.spelled) =
            some (Site.ofType c slot.type) := by
        rw [named, Site.under, present, Option.map_some]
      have inner := below v nested (.ofType slot.type) v
        (path ++ [(Site.slots declared externals).resolve c entry.spelled]) (Nat.lt_succ_self _)
      rw [Site.ofPosition_ofType] at inner
      exact Outcome.Points.bind (.down asked nested under inner) fun _ _ => .ok _

theorem unionEntry_points {declared : List (Member TypeRef)}
    (entered : Entered c f (.members declared) requests entry) :
    (unionEntry c f declared path entry).Points c (.members declared) requests path := by
  obtain ⟨asked, named, below⟩ := entered
  unfold unionEntry
  split
  · exact .level fun _ last => last
  · exact .unknown_spelled asked _
  · next member bare found =>
    have name : member.name = entry.name := (find?_byName.1 found).2
    rw [name, ← named]
    split
    · exact .entry asked
    · exact .ok _
  · next v member keyed found =>
    have present : Site.member? declared entry.name = some member := found
    have name : member.name = entry.name := (find?_byName.1 found).2
    have nested : entry.request.nested? = some v := by rw [keyed]; rfl
    rw [name, ← named]
    have under : (Site.members declared).under c ((Site.members declared).resolve c entry.spelled) =
        some (Site.ofType c member.type) := by
      rw [named, Site.under, present, Option.map_some]
    have inner := below v nested (.ofType member.type) v
      (path ++ [(Site.members declared).resolve c entry.spelled]) (Nat.lt_succ_self _)
    rw [Site.ofPosition_ofType] at inner
    exact Outcome.Points.bind (.down asked nested under inner) fun _ _ => .ok _

end

theorem slots_points {kind : String} {declared : List (Slot TypeRef)}
    {externals : List (String × String)} {fields : List Value}
    (below : PointsBelow c (Value.weights fields) f) :
    (slots c f kind (Selection.slotName (declared.map Slot.name) externals) declared
      (.list fields) path).Points c (.slots declared externals) (Selection.walk fields) path :=
  level_points (s := .slots declared externals) below fun _ => slotEntry_points

theorem noSlots_points {kind : String} {fields : List Value} :
    (plainSlots c f kind [] (.list fields) path).Points c .untyped (Selection.walk fields)
      path := by
  rw [plainSlots, List.map_nil, ← Site.resolve_untyped]
  refine (Selection.readFrom_points (List.Subset.refl _)).bind ?_
  intro entries read
  have asked := (Selection.read_ok read).1
  apply collect_points
  intro entry member
  have present : (.str entry.spelled, entry.request) ∈ Selection.walk fields := by
    rw [asked]
    exact List.mem_map_of_mem member
  exact .unknown_spelled present _

theorem plainSlots_points {kind : String} {declared : List (Slot TypeRef)} {fields : List Value}
    (below : PointsBelow c (Value.weights fields) f) :
    (plainSlots c f kind declared (.list fields) path).Points c (.ofSlots declared)
      (Selection.walk fields) path := by
  cases declared with
  | nil => exact noSlots_points
  | cons slot rest => exact slots_points below

theorem container_points {kind : String} {declared : List (Slot TypeRef)} {selection : Value}
    (below : PointsBelow c selection.weight f) :
    (if declared.isEmpty then untyped f selection path
      else plainSlots c f kind declared (Selection.normalize selection) path).Points c
        (.ofSlots declared) (Selection.requested selection) path := by
  have weight := Selection.weight_normalize selection
  split
  · next none =>
    rw [Site.ofSlots, if_pos none]
    exact untyped_points below
  · cases same : Selection.normalize selection with rw [same] at weight
    | list fields =>
      rw [Selection.requested_of_normalize same]
      exact plainSlots_points (below.mono (Nat.le_of_eq weight))
    | _ => exact .unsupported kind

theorem structMembers_points {name : String} {fields : List Value}
    (below : PointsBelow c (Value.weights fields) f) :
    (structMembers c f name (.list fields) path).Points c (.ofType c (.typedStruct name))
      (Selection.walk fields) path := by
  refine (Outcome.Points.ofCatalog _).bind ?_
  intro struct found
  have present := Catalog.struct_ok (ofCatalog_ok found)
  rw [Site.ofType, present]
  exact slots_points below

theorem unionMembers_points {declared : List (Member TypeRef)} {selection : Value}
    (below : PointsBelow c selection.weight f) :
    (unionMembers c f declared selection path).Points c (.members declared)
      (Selection.requested selection) path := by
  refine (Selection.requireSome_points _).bind ?_
  intro fields found
  have same := Selection.requireSome_eq found
  have weight := Selection.weight_normalize selection
  rw [same, Value.weight] at weight
  rw [Selection.requested_of_normalize same]
  exact level_points (s := .members declared) (below.mono (by omega)) fun _ => unionEntry_points

end Descent
end FieldPlan
