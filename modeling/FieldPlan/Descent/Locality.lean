import FieldPlan.Descent.Weight

/-! A layer hands on only selections that are lighter than its own. So the work on a
selection is one layer over the same work on lighter ones, which is the equation
`descend_eq` by which the work is reasoned about. Both this and the comparison of
the work under two exposures, `descend_related`, come from one lemma for each kind
of level and field. These also follow the types of the positions: work that keeps to some of
the types has to compare only on them. -/
namespace FieldPlan

/-! ### Comparisons -/

/-- A way to compare outcomes that a sequence of steps keeps: every outcome compares with
itself, and what follows a step has to compare only on the results that the step has. -/
structure Outcome.Comparison where
  rel {α : Type} : Outcome α → Outcome α → Prop
  refl {α : Type} (x : Outcome α) : rel x x
  bind {α β : Type} {x y : Outcome α} {f g : α → Outcome β} (first : rel x y)
    (next : ∀ a, x = .ok a → rel (f a) (g a)) : rel (x >>= f) (y >>= g)

def Outcome.same : Outcome.Comparison where
  rel x y := x = y
  refl _ := rfl
  bind {α β x y f g} first next := by
    subst first
    cases x with
    | error failure => rfl
    | ok a => exact next a rfl

/-! ### Where the work gets to -/

namespace TypeRef

theorem element_of_inner {t shape : TypeRef} (h : t.inner = shape)
    (plain : ∀ item, shape ≠ .array item) : t.element = shape := by
  cases t with
  | array item =>
    obtain rfl : item = shape := h
    rw [element]
    cases item with
    | array inner => exact absurd rfl (plain inner)
    | _ => rfl
  | _ => exact h

end TypeRef

namespace Position

def held : Position → TypeRef
  | .records name _ => .resource name
  | .value t => t.element
  | .untyped => .any

@[simp] theorem held_ofType (t : TypeRef) : (ofType (some t)).held = t.element := by
  cases t with
  | array item => cases item <;> rfl
  | _ => rfl

end Position

namespace Catalog

/-- The types of the slots or members that a value of the type has. -/
def parts (c : Catalog) : TypeRef → List TypeRef
  | .map declared => declared.map Slot.type
  | .keyword declared => declared.map Slot.type
  | .tuple declared => declared.map Slot.type
  | .typedStruct name =>
    match c.struct? name with
    | some s => s.slots.map Slot.type
    | none => []
  | .union members => members.map Member.type
  | _ => []

end Catalog

namespace Descent

/-- Types that the work does not leave: whatever a layer at a position that holds one of them
hands on, it hands on at a position that holds one of them. -/
structure Closed (c : Catalog) (e : Exposure) (P : TypeRef → Prop) : Prop where
  any : P .any
  part {t part : TypeRef} : P t → part ∈ c.parts t → P part.element
  record {name : String} : P (.struct (some name)) → c.hasResource name = true →
    P (.resource name)
  field {name : String} {r : Resource} {t : TypeRef} : P (.resource name) →
    c.resource? name = some r → e.allows name = true → t ∈ c.fieldTypes r → P t.element
  link {name : String} {r : Resource} {link : Relationship} : P (.resource name) →
    c.resource? name = some r → e.allows name = true → link ∈ r.publicRelationships →
    exposed c e link.destination = true → P (.resource link.destination)

theorem Closed.all (c : Catalog) (e : Exposure) : Closed c e fun _ => True where
  any := trivial
  part _ _ := trivial
  record _ _ := trivial
  field _ _ _ _ := trivial
  link _ _ _ _ _ := trivial

/-! ### Layers over work that compares on lighter selections -/

/-- The two compare at positions that hold types of `P`, on every selection lighter than `w`. -/
def RelatedBelow (R : Outcome.Comparison) (P : TypeRef → Prop) (w : Nat) (f g : Descend) : Prop :=
  ∀ position, P position.held → ∀ v path, v.weight < w →
    R.rel (f position v path) (g position v path)

variable {R : Outcome.Comparison} {P : TypeRef → Prop} {w : Nat} {f g : Descend}
variable {c : Catalog} {e e' : Exposure}

theorem RelatedBelow.mono {m n : Nat} (h : RelatedBelow R P n f g) (le : m ≤ n) :
    RelatedBelow R P m f g :=
  fun position reached v path lt => h position reached v path (Nat.lt_of_lt_of_le lt le)

theorem RelatedBelow.part {t : TypeRef} {v : Value} {path : List String}
    (h : RelatedBelow R P w f g) (reached : P t.element) (lighter : v.weight < w) :
    R.rel (f (.ofType (some t)) v path) (g (.ofType (some t)) v path) := by
  refine h _ ?_ v path lighter
  rw [Position.held_ofType]
  exact reached

theorem collect_related {a b : Entry → Outcome Level} {entries : List Entry}
    (h : ∀ entry ∈ entries, R.rel (a entry) (b entry)) :
    R.rel (collect a entries) (collect b entries) := by
  induction entries with
  | nil => exact R.refl _
  | cons entry entries ih =>
    have first := h entry (by simp)
    have others := ih fun entry member => h entry (by simp [member])
    exact R.bind first fun _ _ => R.bind others fun _ _ => R.refl _

theorem collect_read_related {a b : Entry → Outcome Level} {resolve : String → String}
    {path : List String} {fields : List Value}
    (h : ∀ entry, (∀ v, entry.request.nested? = some v → v.weight < Value.weights fields) →
      R.rel (a entry) (b entry)) :
    R.rel (Selection.read resolve path fields >>= collect a)
      (Selection.read resolve path fields >>= collect b) := by
  refine R.bind (R.refl _) ?_
  intro entries found
  refine collect_related ?_
  intro entry member
  exact h entry fun _ nested => Selection.weight_read_lt found member nested

theorem untypedEntry_related {path : List String} {entry : Entry} (reached : P .any)
    (h : ∀ v, entry.request.nested? = some v → RelatedBelow R P (v.weight + 1) f g) :
    R.rel (untypedEntry f path entry) (untypedEntry g path entry) := by
  unfold untypedEntry
  split
  · exact R.refl _
  · next v nested =>
    exact R.bind (h v nested .untyped reached v _ (Nat.lt_succ_self _)) fun _ _ => R.refl _

theorem untyped_related {selection : Value} {path : List String} (reached : P .any)
    (h : RelatedBelow R P selection.weight f g) :
    R.rel (untyped f selection path) (untyped g selection path) := by
  have weight := Selection.weight_normalize selection
  simp only [untyped]
  split
  · exact R.refl _
  · split
    · next fields same =>
      rw [same, Value.weight] at weight
      refine collect_read_related ?_
      intro entry lighter
      refine untypedEntry_related reached ?_
      exact fun v nested => h.mono (by have := lighter v nested; omega)
    · exact R.refl _

theorem slotEntry_related {kind : String} {declared : List (Slot TypeRef)} {path : List String}
    {entry : Entry} (reached : ∀ slot ∈ declared, P slot.type.element)
    (h : ∀ v, entry.request.nested? = some v → RelatedBelow R P (v.weight + 1) f g) :
    R.rel (slotEntry c f kind declared path entry) (slotEntry c g kind declared path entry) := by
  unfold slotEntry
  split
  · exact R.refl _
  · next slot found =>
    have member := reached slot (mem_of_byName (find?_byName.1 found).1)
    split
    · exact R.refl _
    · next v nested =>
      exact R.bind ((h v nested).part member (Nat.lt_succ_self _)) fun _ _ => R.refl _

theorem slots_related {kind : String} {resolve : String → String}
    {declared : List (Slot TypeRef)} {selection : Value} {path : List String}
    (reached : ∀ slot ∈ declared, P slot.type.element)
    (h : RelatedBelow R P selection.weight f g) :
    R.rel (slots c f kind resolve declared selection path)
      (slots c g kind resolve declared selection path) := by
  unfold slots
  split
  · next fields =>
    rw [Value.weight] at h
    refine collect_read_related ?_
    intro entry lighter
    refine slotEntry_related reached ?_
    exact fun v nested => h.mono (by have := lighter v nested; omega)
  · exact R.refl _

theorem plainSlots_related {kind : String} {declared : List (Slot TypeRef)} {selection : Value}
    {path : List String} (reached : ∀ slot ∈ declared, P slot.type.element)
    (h : RelatedBelow R P selection.weight f g) :
    R.rel (plainSlots c f kind declared (Selection.normalize selection) path)
      (plainSlots c g kind declared (Selection.normalize selection) path) :=
  slots_related reached (by rwa [Selection.weight_normalize])

theorem unionEntry_related {members : List (Member TypeRef)} {path : List String} {entry : Entry}
    (reached : ∀ m ∈ members, P m.type.element)
    (h : ∀ v, entry.request.nested? = some v → RelatedBelow R P (v.weight + 1) f g) :
    R.rel (unionEntry c f members path entry) (unionEntry c g members path entry) := by
  unfold unionEntry
  split
  · exact R.refl _
  · exact R.refl _
  · exact R.refl _
  · next v member request found =>
    have nested : entry.request.nested? = some v := by rw [request]; rfl
    have held := reached member (mem_of_byName (find?_byName.1 found).1)
    exact R.bind ((h v nested).part held (Nat.lt_succ_self _)) fun _ _ => R.refl _

theorem unionMembers_related {members : List (Member TypeRef)} {selection : Value}
    {path : List String} (reached : ∀ m ∈ members, P m.type.element)
    (h : RelatedBelow R P selection.weight f g) :
    R.rel (unionMembers c f members selection path) (unionMembers c g members selection path) := by
  refine R.bind (R.refl _) ?_
  intro fields found
  have weight := Selection.weight_normalize selection
  rw [Selection.requireSome_eq found, Value.weight] at weight
  refine collect_read_related ?_
  intro entry lighter
  refine unionEntry_related reached ?_
  exact fun v nested => h.mono (by have := lighter v nested; omega)

/-! ### Parts of closed types -/

section
variable (closed : Closed c e P)
include closed

theorem Closed.slots {t : TypeRef} {declared : List (Slot TypeRef)} (reached : P t)
    (parts : c.parts t = declared.map Slot.type) : ∀ slot ∈ declared, P slot.type.element := by
  intro slot member
  refine closed.part reached ?_
  rw [parts]
  exact List.mem_map_of_mem member

theorem Closed.members {members : List (Member TypeRef)} (reached : P (.union members)) :
    ∀ m ∈ members, P m.type.element :=
  fun _ member => closed.part reached (List.mem_map_of_mem member)

theorem structMembers_related {name : String} {selection : Value} {path : List String}
    (reached : P (.typedStruct name)) (h : RelatedBelow R P selection.weight f g) :
    R.rel (structMembers c f name selection path) (structMembers c g name selection path) := by
  refine R.bind (R.refl _) ?_
  intro s found
  refine slots_related ?_ h
  refine closed.slots reached ?_
  rw [Catalog.parts, Catalog.struct_ok (ofCatalog_ok found)]

theorem Closed.embedded {t : TypeRef} {name : String} (reached : P t.element)
    (h : c.embeddedName t = some name) : P (.resource name) := by
  unfold Catalog.embeddedName at h
  split at h
  · next resource shape =>
    rw [TypeRef.element_of_inner shape nofun] at reached
    split at h
    · cases h
      exact reached
    · cases h
  · next resource shape =>
    rw [TypeRef.element_of_inner shape nofun] at reached
    split at h
    · next embedded =>
      cases h
      rw [Bool.and_eq_true] at embedded
      exact closed.record reached (Catalog.hasResource_of_isEmbedded embedded.2)
    · cases h
  · cases h

end

/-! ### Fields -/

theorem attributeType_reached {r : Resource} {name : String} {shape : TypeRef}
    (reached : ∀ t ∈ c.fieldTypes r, P t.element) (typed : attributeType? r name = some shape)
    (plain : ∀ item, shape ≠ .array item) : P shape := by
  obtain ⟨a, present, same⟩ := Option.map_eq_some_iff.1 typed
  have held := reached _ (Catalog.attribute_type_mem present)
  rwa [TypeRef.element_of_inner same plain] at held

section
variable {r : Resource} {name : String} {nested : Value} {path : List String}
variable (h : RelatedBelow R P (nested.weight + 1) f g)
include h

theorem requireSome_related {kind : String} {here : List String} {field : Option String}
    {given : Value} (le : given.weight ≤ nested.weight) (position : Position)
    (reached : P position.held) {a b : Level → Outcome Level} (next : ∀ l, R.rel (a l) (b l)) :
    R.rel
      (Selection.requireSome kind here field (Selection.normalize given) >>= fun fields =>
        f position (.list fields) here >>= a)
      (Selection.requireSome kind here field (Selection.normalize given) >>= fun fields =>
        g position (.list fields) here >>= b) := by
  refine R.bind (R.refl _) ?_
  intro fields found
  have weight := Selection.weight_normalize given
  rw [Selection.requireSome_eq found] at weight
  exact R.bind (h _ reached (.list fields) _ (by omega)) fun l _ => next l

theorem linkField_related
    (reached : ∀ link ∈ r.publicRelationships, r.relationship? name = some link →
      P (.resource link.destination)) :
    R.rel (linkField f r name nested path) (linkField g r name nested path) := by
  simp only [linkField]
  cases present : r.relationship? name with
  | none => exact R.refl _
  | some link =>
    have held := reached link (List.mem_of_find?_eq_some present) present
    exact requireSome_related h (Nat.le_refl _) (.records _ _) held fun _ => R.refl _

theorem derivedField_related {kind : String} {type : Outcome (Option TypeRef)}
    (reached : ∀ t, type = .ok t → P (Position.ofType t).held) :
    R.rel (derivedField f kind type name nested path)
      (derivedField g kind type name nested path) := by
  refine R.bind (R.refl _) ?_
  intro given stripped
  refine R.bind (R.refl _) ?_
  intro t typed
  exact requireSome_related h (weight_withoutForm_le stripped) _ (reached t typed) fun _ => R.refl _

variable (reached : ∀ t ∈ c.fieldTypes r, P t.element)
include reached

theorem calledField_related :
    R.rel (calledField c f r name nested path) (calledField c g r name nested path) := by
  simp only [calledField]
  split
  · exact R.refl _
  · next calculation present =>
    have held := reached _ (Catalog.calculation_type_mem present)
    split
    · exact R.refl _
    · next form =>
      refine R.bind (R.refl _) fun args _ => R.bind (R.refl _) ?_
      intro selection found
      have lighter := weight_calledSelection_le found
      have fields := @weight_formFields_le nested (by simpa using form)
      exact R.bind (h.part held (by omega)) fun _ _ => R.refl _

variable (closed : Closed c e P)
include closed

theorem derivedCalculation_related :
    R.rel (derivedCalculation f r name nested path) (derivedCalculation g r name nested path) := by
  refine derivedField_related h ?_
  rintro t ⟨⟩
  cases present : r.calculation? name with
  | none => exact closed.any
  | some calculation =>
    rw [Option.map_some, Position.held_ofType]
    exact reached _ (Catalog.calculation_type_mem present)

theorem derivedAggregate_related :
    R.rel (derivedAggregate c f r name nested path)
      (derivedAggregate c g r name nested path) := by
  refine derivedField_related h ?_
  intro type found
  obtain rfl := summaryType_ok found
  cases present : r.aggregate? name with
  | none => exact closed.any
  | some a =>
    rw [Option.bind_some]
    cases typed : c.aggregateType? r a with
    | none => exact closed.any
    | some t =>
      rw [Position.held_ofType]
      exact reached _ (Catalog.aggregate_type_mem present typed)

theorem unionField_related :
    R.rel (unionField c f r name nested path) (unionField c g r name nested path) := by
  unfold unionField
  split
  · next members typed =>
    have held := closed.members (attributeType_reached reached typed nofun)
    exact R.bind (unionMembers_related held (h.mono (Nat.le_succ _))) fun _ _ => R.refl _
  · exact R.refl _

theorem structField_related :
    R.rel (structField c f r name nested path) (structField c g r name nested path) := by
  simp only [structField]
  split
  · next struct typed =>
    have held := attributeType_reached reached typed nofun
    refine R.bind (R.refl _) ?_
    intro fields found
    rw [Selection.requireSome_eq found] at h
    exact R.bind (structMembers_related closed held (h.mono (Nat.le_succ _)))
      fun _ _ => R.refl _
  · exact R.refl _

theorem tupleField_related :
    R.rel (tupleField c f r name nested path) (tupleField c g r name nested path) := by
  simp only [tupleField]
  split
  · next declared present =>
    obtain ⟨shape, typed, tuple⟩ := Option.bind_eq_some_iff.1 present
    have held : ∀ slot ∈ declared, P slot.type.element := by
      have reached := attributeType_reached reached typed
      cases shape <;> cases tuple <;> exact closed.slots (reached nofun) rfl
    refine R.bind (R.refl _) ?_
    intro fields found
    rw [Selection.requireSome_eq found] at h
    exact R.bind (slots_related held (h.mono (Nat.le_succ _))) fun _ _ => R.refl _
  · exact R.refl _

theorem embeddedField_related :
    R.rel (embeddedField c f r name nested path) (embeddedField c g r name nested path) := by
  simp only [embeddedField]
  cases present : r.attribute? name with
  | none => exact R.refl _
  | some a =>
    dsimp only
    cases named : c.embeddedName a.type with
    | none => exact R.refl _
    | some embedded =>
      have held := closed.embedded (reached _ (Catalog.attribute_type_mem present)) named
      exact requireSome_related h (Nat.le_refl _) (.records _ _) held fun _ => R.refl _

theorem structured_related {kind : Classification}
    (links : kind = .relationship → ∀ link ∈ r.publicRelationships,
      r.relationship? name = some link → P (.resource link.destination)) :
    R.rel (structured c f r kind name nested path) (structured c g r kind name nested path) := by
  cases kind with
  | relationship => exact linkField_related h (links rfl)
  | embeddedResource => exact embeddedField_related h reached closed
  | embeddedResourceArray => exact embeddedField_related h reached closed
  | calculationWithArgs => exact calledField_related h reached
  | calculationComplex => exact derivedCalculation_related h reached closed
  | complexAggregate => exact derivedAggregate_related h reached closed
  | unionAttribute => exact unionField_related h reached closed
  | typedStruct => exact structField_related h reached closed
  | tuple => exact tupleField_related h reached closed
  | _ => exact R.refl _

end

/-! ### Records -/

/-- Under the first exposure records are entered and fields are seen as under the second,
or what hides a field compares with whatever the second makes of it. -/
structure Exposes (R : Outcome.Comparison) (P : TypeRef → Prop) (c : Catalog)
    (e e' : Exposure) : Prop where
  enter {name : String} : P (.resource name) → ∀ path,
    R.rel (enter c e name path) (enter c e' name path)
  visible {name : String} {r : Resource} : P (.resource name) → c.resource? name = some r →
    e.allows name = true → ∀ field, visibleKind c e r field = visibleKind c e' r field ∨
      visibleKind c e r field = .notFound ∧ ∀ path spelled (x : Outcome Level),
        R.rel (unknown (path ++ [spelled]) [("resource", r.name)]) x

theorem Exposes.refl (R : Outcome.Comparison) (P : TypeRef → Prop) (c : Catalog) (e : Exposure) :
    Exposes R P c e e where
  enter _ _ := R.refl _
  visible _ _ _ _ := Or.inl rfl

variable (exposes : Exposes R P c e e') (closed : Closed c e P)
include exposes closed

theorem recordEntry_related {resource : String} {r : Resource} {path : List String} {entry : Entry}
    (reached : P (.resource resource)) (found : c.resource? resource = some r)
    (allowed : e.allows resource = true)
    (h : ∀ v, entry.request.nested? = some v → RelatedBelow R P (v.weight + 1) f g) :
    R.rel (recordEntry c e f r path entry) (recordEntry c e' g r path entry) := by
  unfold recordEntry
  rcases exposes.visible reached found allowed entry.name with same | ⟨hidden, below⟩
  · rw [← same]
    split
    · exact R.refl _
    · exact R.refl _
    · next kind shown _ =>
      split
      · exact R.refl _
      · next v nested =>
        refine structured_related (h v nested) ?_ closed ?_
        · exact fun t member => closed.field reached found allowed member
        · intro linked link member present
          exact closed.link reached found allowed member (visible_link linked present)
  · rw [hidden]
    exact below _ _ _

theorem entered_related {name : String} {selection : Value} {path : List String}
    (reached : P (.resource name)) (h : RelatedBelow R P selection.weight f g) :
    R.rel (do record c e f (← Descent.enter c e name path) selection path)
      (do record c e' g (← Descent.enter c e' name path) selection path) := by
  refine R.bind (exposes.enter reached path) ?_
  intro r entered
  obtain ⟨found, allowed⟩ := enter_ok entered
  have weight := Selection.weight_normalize selection
  unfold record
  split
  · next fields same =>
    rw [same, Value.weight] at weight
    refine collect_read_related ?_
    intro entry lighter
    refine recordEntry_related exposes closed reached found allowed ?_
    exact fun v nested => h.mono (by have := lighter v nested; omega)
  · exact R.refl _

theorem typed_related {t : TypeRef} {selection : Value} {path : List String}
    (reached : P t.element) (h : RelatedBelow R P selection.weight f g) :
    R.rel (typed c e f t selection path) (typed c e' g t selection path) := by
  have container (kind : String) (declared : List (Slot TypeRef))
      (held : ∀ slot ∈ declared, P slot.type.element) :
      R.rel
        (if declared.isEmpty then untyped f selection path
          else plainSlots c f kind declared (Selection.normalize selection) path)
        (if declared.isEmpty then untyped g selection path
          else plainSlots c g kind declared (Selection.normalize selection) path) := by
    split
    · exact untyped_related closed.any h
    · exact plainSlots_related held h
  unfold typed
  split
  · next name shape => exact entered_related exposes closed (shape ▸ reached) h
  · next declared shape => exact container _ _ (closed.slots (shape ▸ reached) rfl)
  · next declared shape => exact container _ _ (closed.slots (shape ▸ reached) rfl)
  · next declared shape => exact container _ _ (closed.slots (shape ▸ reached) rfl)
  · next name shape =>
    split
    · next present =>
      exact entered_related exposes closed (closed.record (shape ▸ reached) present) h
    · exact untyped_related closed.any h
  · exact untyped_related closed.any h
  · next name shape =>
    refine R.bind (R.refl _) ?_
    intro fields found
    refine structMembers_related closed (shape ▸ reached) ?_
    rw [← Selection.requireSome_eq found, Selection.weight_normalize]
    exact h
  · next members shape => exact unionMembers_related (closed.members (shape ▸ reached)) h
  · exact untyped_related closed.any h
  · exact R.refl _
  · exact untyped_related closed.any h

/-- A layer depends on the work only at selections lighter than its own, and on the exposure
only where records are entered and links are seen. -/
theorem layer_related {position : Position} {selection : Value} {path : List String}
    (reached : P position.held) (h : RelatedBelow R P selection.weight f g) :
    R.rel (layer c e f position selection path) (layer c e' g position selection path) := by
  cases position with
  | records name many => exact entered_related exposes closed reached h
  | value t => exact typed_related exposes closed reached h
  | untyped => exact untyped_related closed.any h

end Descent

/-- A layer depends on the work only at lighter selections. -/
theorem Descent.layer_local {c : Catalog} {e : Exposure} {f g : Descend} {position : Position}
    {selection : Value} {path : List String}
    (h : ∀ position v path, v.weight < selection.weight → f position v path = g position v path) :
    layer c e f position selection path = layer c e g position selection path :=
  layer_related (R := Outcome.same) (Exposes.refl _ _ c e) (Closed.all c e) trivial
    fun position _ v path lighter => h position v path lighter

/-- The work on a selection is one layer over the work on its parts. -/
theorem descend_eq (c : Catalog) (e : Exposure) (position : Position) (selection : Value)
    (path : List String) :
    descend c e position selection path =
      Descent.layer c e (descend c e) position selection path := by
  rw [descend]
  refine Descent.layer_local ?_
  intro position v path lighter
  exact dif_pos lighter

theorem descend_unique {c : Catalog} {e : Exposure} {work : Descend}
    (layered : ∀ position selection path, work position selection path =
      Descent.layer c e work position selection path) : work = descend c e := by
  funext position selection path
  induction weight : selection.weight using Nat.strongRecOn
    generalizing position selection path with
  | ind n ih =>
    subst weight
    rw [layered, descend_eq]
    refine Descent.layer_local ?_
    intro position v path lighter
    exact ih v.weight lighter position v path rfl

/-- Under two exposures the whole work compares if entering records and seeing links does,
on types that the work does not leave. -/
theorem descend_related {R : Outcome.Comparison} {P : TypeRef → Prop} {c : Catalog}
    {e e' : Exposure} (exposes : Descent.Exposes R P c e e') (closed : Descent.Closed c e P)
    (position : Position) (reached : P position.held) (selection : Value) (path : List String) :
    R.rel (descend c e position selection path) (descend c e' position selection path) := by
  induction weight : selection.weight using Nat.strongRecOn
    generalizing position selection path with
  | ind n ih =>
    subst weight
    rw [descend_eq, descend_eq]
    refine Descent.layer_related exposes closed reached ?_
    intro position reached v path lighter
    exact ih v.weight lighter position reached v path rfl

end FieldPlan
