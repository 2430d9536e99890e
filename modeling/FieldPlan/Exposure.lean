import FieldPlan.Classification

/-! Exposure: which resources clients may reach. The embedded resources that the
fields of an exposed one hold are found by following its types, and the types
of the embedded ones in turn; relationships are not followed. -/
namespace FieldPlan

/-- The exposed resources, or none if all are. -/
abbrev Exposure := Option (List String)

namespace Exposure

def allows (e : Exposure) (name : String) : Bool :=
  match e with
  | none => true
  | some names => names.contains name

def withRoot (e : Exposure) (name : String) : Exposure := e.map (name :: ·)

theorem allows_withRoot (e : Exposure) (root name : String) :
    (e.withRoot root).allows name = true ↔ name = root ∨ e.allows name = true := by
  cases e with
  | none => exact iff_of_true rfl (Or.inr rfl)
  | some names => simp [withRoot, allows]

end Exposure

/-- What a type names, in the order of its parts. -/
inductive Mention where
  | resource (name : String)
  | instance (name : String)
  | missingStruct (name : String)
  /-- What a struct inside itself mentions has no end. -/
  | endless
  deriving DecidableEq, Repr

namespace TypeRef

mutual
/-- The mentions of a type, those of a typed struct being given by `ofStruct`. -/
def mentionsWith (ofStruct : String → List Mention) : TypeRef → List Mention
  | .primitive _ _ => []
  | .array item => mentionsWith ofStruct item
  | .map slots => slotMentions ofStruct slots
  | .keyword slots => slotMentions ofStruct slots
  | .tuple slots => slotMentions ofStruct slots
  | .struct none => []
  | .struct (some name) => [.instance name]
  | .typedStruct name => ofStruct name
  | .union members => memberMentions ofStruct members
  | .resource name => [.resource name]
  | .any => []

def slotMentions (ofStruct : String → List Mention) : List (Slot TypeRef) → List Mention
  | [] => []
  | ⟨_, t, _⟩ :: rest => mentionsWith ofStruct t ++ slotMentions ofStruct rest

def memberMentions (ofStruct : String → List Mention) : List (Member TypeRef) → List Mention
  | [] => []
  | ⟨_, t⟩ :: rest => mentionsWith ofStruct t ++ memberMentions ofStruct rest
end

end TypeRef

namespace Catalog
variable (c : Catalog)

/-- The mentions of a typed struct, through at most `n` structs inside each other. -/
def structMentions : Nat → String → List Mention
  | 0, _ => [.endless]
  | n + 1, name =>
    match c.struct? name with
    | none => [.missingStruct name]
    | some s => TypeRef.slotMentions (structMentions n) s.slots

/-- All mentions of a type. No more than all structs, and one that is missing, are
opened inside each other, unless one is inside itself. -/
def mentions (t : TypeRef) : List Mention :=
  t.mentionsWith (c.structMentions (c.structs.length + 1))

/-- The types of the public fields, relationships apart. -/
def fieldTypes (r : Resource) : List TypeRef :=
  r.publicAttributes.map Attribute.type ++ r.publicCalculations.map Calculation.type ++
    r.publicAggregates.filterMap (c.aggregateType? r)

section
variable {c} {r : Resource} {name : String}

theorem attribute_type_mem {a : Attribute} (h : r.attribute? name = some a) :
    a.type ∈ c.fieldTypes r := by
  refine List.mem_append_left _ (List.mem_append_left _ ?_)
  exact List.mem_map_of_mem (List.mem_of_find?_eq_some h)

theorem calculation_type_mem {a : Calculation} (h : r.calculation? name = some a) :
    a.type ∈ c.fieldTypes r := by
  refine List.mem_append_left _ (List.mem_append_right _ ?_)
  exact List.mem_map_of_mem (List.mem_of_find?_eq_some h)

theorem aggregate_type_mem {a : Aggregate} {t : TypeRef} (h : r.aggregate? name = some a)
    (typed : c.aggregateType? r a = some t) : t ∈ c.fieldTypes r :=
  List.mem_append_right _ (List.mem_filterMap.2 ⟨a, List.mem_of_find?_eq_some h, typed⟩)

end

def embeddedMention? : Mention → Option String
  | .resource name => if c.isEmbedded name then some name else none
  | .instance name => if name != "" && c.isEmbedded name then some name else none
  | .missingStruct _ => none
  | .endless => none

def embeddedIn (name : String) : List String :=
  match c.resource? name with
  | none => []
  | some r => (c.fieldTypes r).flatMap fun t => (c.mentions t).filterMap c.embeddedMention?

def addName (names : List String) (name : String) : List String :=
  if names.contains name then names else names ++ [name]

/-- Looks at the names from place `place` on, each once, and appends what they hold. -/
def expose : Nat → Nat → List String → List String
  | 0, _, names => names
  | n + 1, place, names =>
    match names[place]? with
    | none => names
    | some name => expose n (place + 1) ((c.embeddedIn name).foldl addName names)

/-- The names, each once, and after them the embedded resources that can be reached
from them. No more than all resources can be appended. -/
def withEmbedded (names : List String) : List String :=
  c.expose (names.length + c.resources.length) 0 (names.foldl addName [])

/-- The types of the fields cannot all be looked through to the end. -/
def isEndless (r : Resource) : Bool :=
  (r.publicAggregates.any fun a => (c.aggregateType r a).isUnfinished) ||
    (c.fieldTypes r).any fun t => (c.mentions t).contains .endless

/-- The search for the embedded resources, which looks at the fields of all that it lists. -/
def embeddedSearch (names : List String) : Except Crash (List String) :=
  let listed := c.withEmbedded names
  if listed.any fun name => (c.resource? name).any c.isEndless then .error .endless
  else .ok listed

end Catalog
end FieldPlan
