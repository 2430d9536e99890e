import FieldPlan.Descent.Locality
import FieldPlan.Proofs.Admission
import FieldPlan.Proofs.Naming.Plain

/-! What requested names stand for. A name is looked for as it is sent, in the convention of
the clients and in that of the catalog; external names come before declared ones. So a
formatted name is understood where one of these readings leads back before any other name of
the resource does, and an alias may be another kind of field than the name that it stands for. -/
namespace FieldPlan

/-! ### Readings of a name -/

private theorem findSome?_eq_bind {α β : Type} {f : α → Option β} {known : α → Bool}
    (same : ∀ a, known a = (f a).isSome) (items : List α) :
    items.findSome? f = (items.find? known).bind f := by
  induction items with
  | nil => rfl
  | cons a rest ih =>
    rw [List.findSome?_cons, List.find?_cons, same, ih]
    cases found : f a with
    | none => rfl
    | some b => exact found.symm

namespace Name

/-- A name as it is, in the convention of the clients and in that of the catalog. -/
def readings (name : String) : List String := [name, toCamel name, fromCamel name]

theorem readings_format {name : String} (plain : isPlain name = true) (formatter : Formatter)
    {reading : String} (member : reading ∈ readings (formatter.format name))
    (own : isPlain reading = true) : reading = name := by
  have leads := fromCamel_format plain formatter
  have same : reading = formatter.format name → reading = name := by
    rintro rfl
    rw [← fromCamel_plain own, leads]
  simp only [readings, List.mem_cons, List.not_mem_nil, or_false] at member
  rcases member with sent | camel | snake
  · exact same sent
  · rcases toCamel_format plain formatter with kept | camelAlready
    · rw [kept] at camel
      subst camel
      rw [← fromCamel_plain own]
      exact fromCamel_format plain .camelCase
    · exact same (camel.trans camelAlready)
  · exact snake.trans leads

end Name

private theorem find?_only {α : Type} {p : α → Bool} {items : List α} {a : α} (member : a ∈ items)
    (only : ∀ b ∈ items, p b = true → b = a) :
    items.find? p = if p a then some a else none := by
  cases found : items.find? p with
  | some b =>
    have holds : p b = true := List.find?_some found
    obtain rfl := only b (List.mem_of_find?_eq_some found) holds
    rw [if_pos holds]
  | none => rw [if_neg (List.find?_eq_none.1 found a member)]

namespace Resource
variable {r : Resource} {name field : String}

def isExternal (r : Resource) (name : String) : Bool := r.fieldNames.any (·.2 == name)

theorem findSome?_spellings {β : Type} (f : String → Option β) (name : String) :
    (spellings name).findSome? f = (Name.readings name).findSome? f := by
  cases found : f name with
  | some b => simp [spellings, Name.readings, found]
  | none =>
    have camel : (if name.toList.contains '_' then [Name.toCamel name] else []).findSome? f =
        f (Name.toCamel name) := by
      split
      · simp
      · next absent =>
        rw [Name.toCamel_absent (by simpa using absent), found]
        rfl
    have snake : (if Name.fromCamel name == name then [] else [Name.fromCamel name]).findSome? f =
        f (Name.fromCamel name) := by
      split
      · next same => rw [eq_of_beq same, found]; rfl
      · simp
    rw [spellings, List.findSome?_append, List.findSome?_append, camel, snake]
    simp only [Name.readings, List.findSome?_cons, List.findSome?_nil, found]
    cases f (Name.toCamel name) with
    | some b => rfl
    | none => cases f (Name.fromCamel name) <;> rfl

theorem find?_spellings (p : String → Bool) (name : String) :
    (spellings name).find? p = (Name.readings name).find? p := by
  rw [List.find?_eq_findSome?_guard, List.find?_eq_findSome?_guard, findSome?_spellings]

/-- What a requested name stands for: the field of the first reading that is an external name,
without one the first reading that is declared, and without that itself. -/
inductive Means (r : Resource) (name : String) : String → Prop
  | external {external field : String}
      (first : (Name.readings name).find? r.isExternal = some external)
      (entry : (field, external) ∈ r.fieldNames) : Means r name field
  | declared {field : String} (unmapped : (Name.readings name).find? r.isExternal = none)
      (first : (Name.readings name).find? r.hasField = some field) : Means r name field
  | nothing (unmapped : (Name.readings name).find? r.isExternal = none)
      (undeclared : (Name.readings name).find? r.hasField = none) : Means r name name

theorem internalField_eq (r : Resource) (name : String) :
    r.internalField name =
      (((Name.readings name).find? r.isExternal).bind (Table.keyOf? r.fieldNames)).getD
        (((Name.readings name).find? r.hasField).getD name) := by
  have external (reading : String) :
      r.isExternal reading = (Table.keyOf? r.fieldNames reading).isSome :=
    Table.keyOf?_isSome.symm
  rw [internalField, findSome?_spellings, findSome?_eq_bind external, find?_spellings]
  cases ((Name.readings name).find? r.isExternal).bind (Table.keyOf? r.fieldNames) <;> rfl

theorem means_iff (distinct : (r.fieldNames.map (·.2)).Nodup) :
    r.Means name field ↔ r.internalField name = field := by
  rw [internalField_eq]
  constructor
  · intro means
    cases means with
    | external first entry =>
      rw [first, Option.bind_some, (Table.keyOf?_eq_some distinct).2 entry, Option.getD_some]
    | declared unmapped first =>
      rw [unmapped, first, Option.bind_none, Option.getD_none, Option.getD_some]
    | nothing unmapped undeclared =>
      rw [unmapped, undeclared, Option.bind_none, Option.getD_none, Option.getD_none]
  · intro same
    cases first : (Name.readings name).find? r.isExternal with
    | some reading =>
      have known : r.isExternal reading = true := List.find?_some (p := r.isExternal) first
      rw [isExternal, ← Table.keyOf?_isSome] at known
      obtain ⟨key, found⟩ := Option.isSome_iff_exists.1 known
      rw [first, Option.bind_some, found, Option.getD_some] at same
      subst same
      exact .external first (Table.mem_of_keyOf? found)
    | none =>
      rw [first, Option.bind_none, Option.getD_none] at same
      cases declared : (Name.readings name).find? r.hasField with
      | some reading =>
        rw [declared, Option.getD_some] at same
        exact same ▸ .declared first declared
      | none =>
        rw [declared, Option.getD_none] at same
        exact same ▸ .nothing first declared

def declaredNames (r : Resource) : List String :=
  r.publicAttributes.map Attribute.name ++ r.publicCalculations.map Calculation.name ++
    r.publicAggregates.map Aggregate.name ++ r.publicRelationships.map Relationship.name

theorem hasField_iff : r.hasField name = true ↔ name ∈ r.declaredNames := by
  simp [hasField, declaredNames, attribute?, calculation?, aggregate?, relationship?, or_assoc]

def isPlain (r : Resource) : Bool :=
  (r.declaredNames ++ r.fieldNames.map (·.2)).all Name.isPlain

theorem isPlain_declared (plain : r.isPlain = true) (name : String)
    (h : r.hasField name = true) : Name.isPlain name = true :=
  List.all_eq_true.1 plain name (List.mem_append_left _ (hasField_iff.1 h))

theorem isPlain_external (plain : r.isPlain = true) (name : String)
    (h : r.isExternal name = true) : Name.isPlain name = true := by
  obtain ⟨entry, held, same⟩ := List.any_eq_true.1 h
  rw [← eq_of_beq same]
  exact List.all_eq_true.1 plain _ (List.mem_append_right _ (List.mem_map_of_mem held))

/-- A declared field is understood where the first external reading stands for it, or none
is external and it is the first that is declared. -/
theorem understood_iff (distinct : (r.fieldNames.map (·.2)).Nodup)
    (declared : r.hasField field = true) :
    r.internalField name = field ↔
      (∃ external, (Name.readings name).find? r.isExternal = some external ∧
        (field, external) ∈ r.fieldNames) ∨
      (Name.readings name).find? r.isExternal = none ∧
        (Name.readings name).find? r.hasField = some field := by
  rw [← means_iff distinct]
  constructor
  · intro means
    cases means with
    | external first entry => exact Or.inl ⟨_, first, entry⟩
    | declared unmapped first => exact Or.inr ⟨unmapped, first⟩
    | nothing unmapped undeclared =>
      -- the name would be that of the field, which is declared
      have absent := List.find?_eq_none.1 undeclared name List.mem_cons_self
      exact absurd declared absent
  · rintro (⟨external, first, entry⟩ | ⟨unmapped, first⟩)
    · exact .external first entry
    · exact .declared unmapped first

private theorem find?_format (plain : Name.isPlain name = true) (formatter : Formatter)
    {p : String → Bool} (own : ∀ reading, p reading = true → Name.isPlain reading = true) :
    (Name.readings (formatter.format name)).find? p = if p name then some name else none := by
  refine find?_only ?_ ?_
  · have last : Name.fromCamel (formatter.format name) = name :=
      Name.fromCamel_format plain formatter
    simp [Name.readings, last]
  · intro reading member holds
    exact Name.readings_format plain formatter member (own reading holds)

/-- Among plain names a field that is mapped is always understood, and one that is not, unless
its own name stands for another field. -/
theorem understood_plain_iff (distinct : (r.fieldNames.map (·.2)).Nodup)
    (plain : r.isPlain = true) (declared : r.hasField field = true) (formatter : Formatter) :
    r.internalField (formatter.format (r.externalField field)) = field ↔
      (∃ external, (field, external) ∈ r.fieldNames) ∨ r.isExternal field = false := by
  have ofExternal := isPlain_external plain
  have ofDeclared := isPlain_declared plain
  rw [understood_iff distinct declared, externalField]
  cases mapped : Table.get? r.fieldNames field with
  | some external =>
    have entry : (field, external) ∈ r.fieldNames := Table.mem_of_get? mapped
    have known : r.isExternal external = true :=
      List.any_eq_true.2 ⟨_, entry, beq_self_eq_true external⟩
    have found := find?_format (ofExternal external known) formatter ofExternal
    rw [if_pos known] at found
    rw [Option.getD_some]
    exact iff_of_true (Or.inl ⟨external, found, entry⟩) (Or.inl ⟨external, entry⟩)
  | none =>
    have unmapped (external : String) : (field, external) ∉ r.fieldNames :=
      Table.get?_eq_none.1 mapped external
    rw [Option.getD_none, find?_format (ofDeclared field declared) formatter ofExternal,
      find?_format (ofDeclared field declared) formatter ofDeclared, if_pos declared]
    cases r.isExternal field <;> simp [unmapped]

end Resource

namespace StructDef
variable {s : StructDef} {name member : String}

def members (s : StructDef) : List String := s.slots.map Slot.name

def knows (s : StructDef) (name : String) : Bool :=
  s.members.contains name || s.fieldNames.any (·.2 == name)

def named? (s : StructDef) (reading : String) : Option String :=
  if s.members.contains reading then some reading else Table.keyOf? s.fieldNames reading

theorem knows_eq (s : StructDef) (reading : String) :
    s.knows reading = (s.named? reading).isSome := by
  rw [knows, named?]
  cases s.members.contains reading with
  | true => rfl
  | false => exact Table.keyOf?_isSome.symm

theorem named?_eq_some (distinct : (s.fieldNames.map (·.2)).Nodup)
    (declared : member ∈ s.members) {reading : String} :
    s.named? reading = some member ↔
      reading = member ∨ reading ∉ s.members ∧ (member, reading) ∈ s.fieldNames := by
  by_cases known : reading ∈ s.members
  · rw [named?, if_pos (List.contains_iff_mem.2 known), Option.some.injEq]
    simp [known]
  · have apart : reading ≠ member := by
      rintro rfl
      exact known declared
    rw [named?, if_neg (by simpa using known), Table.keyOf?_eq_some distinct]
    simp [known, apart]

theorem slotName_eq (s : StructDef) (name : String) :
    Selection.slotName s.members s.externals name =
      ([name, Name.fromCamel name].findSome? s.named?).getD name := by
  have external : Table.get? s.externals = Table.keyOf? s.fieldNames := by
    funext reading
    exact Table.get?_swapped s.fieldNames reading
  simp only [Selection.slotName, external, named?, List.findSome?_cons, List.findSome?_nil]
  cases s.members.contains name with
  | true => rfl
  | false =>
    cases Table.keyOf? s.fieldNames name with
    | some key => rfl
    | none =>
      cases s.members.contains (Name.fromCamel name) with
      | true => rfl
      | false => cases Table.keyOf? s.fieldNames (Name.fromCamel name) <;> rfl

theorem slotName_iff (distinct : (s.fieldNames.map (·.2)).Nodup) (declared : member ∈ s.members) :
    Selection.slotName s.members s.externals name = member ↔
      ∃ reading, [name, Name.fromCamel name].find? s.knows = some reading ∧
        (reading = member ∨ reading ∉ s.members ∧ (member, reading) ∈ s.fieldNames) := by
  rw [slotName_eq, findSome?_eq_bind s.knows_eq]
  cases first : [name, Name.fromCamel name].find? s.knows with
  | some reading =>
    have known : s.knows reading = true := List.find?_some (p := s.knows) first
    rw [knows_eq] at known
    obtain ⟨found, named⟩ := Option.isSome_iff_exists.1 known
    rw [Option.bind_some, named, Option.getD_some]
    simp only [Option.some.injEq, exists_eq_left', ← named?_eq_some distinct declared, named]
  | none =>
    have unknown : name ∉ s.members := by
      intro present
      have known := List.find?_eq_none.1 first name List.mem_cons_self
      exact known (by rw [knows, List.contains_iff_mem.2 present, Bool.true_or])
    rw [Option.bind_none, Option.getD_none]
    constructor
    · rintro rfl
      exact absurd declared unknown
    · rintro ⟨reading, absent, -⟩
      cases absent

def external (s : StructDef) (member : String) : String :=
  (Table.get? s.fieldNames member).getD member

def isPlain (s : StructDef) : Bool := (s.members ++ s.fieldNames.map (·.2)).all Name.isPlain

theorem isPlain_known (plain : s.isPlain = true) (name : String) (h : s.knows name = true) :
    Name.isPlain name = true := by
  rw [knows, Bool.or_eq_true, List.contains_iff_mem, List.any_eq_true] at h
  refine List.all_eq_true.1 plain name (List.mem_append.2 ?_)
  rcases h with declared | ⟨entry, held, same⟩
  · exact Or.inl declared
  · exact Or.inr (eq_of_beq same ▸ List.mem_map_of_mem held)

theorem external_cases (s : StructDef) (member : String) :
    (member, s.external member) ∈ s.fieldNames ∨ s.external member = member := by
  rw [external]
  cases mapped : Table.get? s.fieldNames member with
  | some name => exact Or.inl (Table.mem_of_get? mapped)
  | none => exact Or.inr rfl

/-- Declared names come first here: among plain names a member can only be mistaken for the
one that its external name is the declared name of. -/
theorem understood_plain_iff (distinct : (s.fieldNames.map (·.2)).Nodup)
    (plain : s.isPlain = true) (declared : member ∈ s.members) (formatter : Formatter) :
    Selection.slotName s.members s.externals (formatter.format (s.external member)) = member ↔
      s.external member = member ∨ s.external member ∉ s.members := by
  have known : s.knows (s.external member) = true := by
    rw [knows, Bool.or_eq_true, List.contains_iff_mem, List.any_eq_true]
    rcases s.external_cases member with entry | same
    · exact Or.inr ⟨_, entry, beq_self_eq_true _⟩
    · exact Or.inl (same.symm ▸ declared)
  have plainName := isPlain_known plain _ known
  have last := Name.fromCamel_format plainName formatter
  have found : [formatter.format (s.external member),
      Name.fromCamel (formatter.format (s.external member))].find? s.knows =
        some (s.external member) := by
    refine (find?_only (a := s.external member) ?_ ?_).trans (if_pos known)
    · simp [last]
    · intro reading present holds
      refine Name.readings_format plainName formatter ?_ (isPlain_known plain reading holds)
      rcases List.mem_cons.1 present with sent | snake
      · exact sent ▸ List.mem_cons_self
      · simp_all [Name.readings]
  rw [slotName_iff distinct declared, found]
  simp only [Option.some.injEq, exists_eq_left']
  constructor
  · rintro (same | ⟨apart, -⟩)
    · exact Or.inl same
    · exact Or.inr apart
  · rintro (same | apart)
    · exact Or.inl same
    · rcases s.external_cases member with entry | same
      · exact Or.inr ⟨apart, entry⟩
      · exact Or.inl same

end StructDef

/-! ### What clients send

It is tried out on tasks with an alias that no plain name is, on places with plain names, and
on items two aliases of which are linked: the one for the price is the name of the cost. -/

namespace Errands

def task : Resource where
  name := "Task"
  attributes := [{ name := "archived?", type := .primitive .boolean [] }]
  fieldNames := [("archived?", "isArchived")]

def place : Resource where
  name := "Place"
  attributes := [{ name := "street_line", type := .primitive .string [] }]

def item : Resource where
  name := "Item"
  attributes := [{ name := "price", type := .primitive .integer [] }]
  calculations := [{ name := "cost", type := .primitive .integer [] }]
  fieldNames := [("price", "cost"), ("cost", "fee")]

def flags : StructDef where
  name := "Flags"
  slots := [⟨"archived?", .primitive .boolean [], true⟩]
  fieldNames := [("archived?", "isArchived")]

def catalog : Catalog := ⟨[task, place, item], [flags]⟩

theorem build_catalog : Catalog.build [task, place, item] [flags] = .ok catalog := by rfl

end Errands

/-- What clients send for a field or a member is its external name as a formatter writes it.
A field is understood where the first external reading of that stands for it, or where none is
external and it is the first declared one; a member of a typed struct where the first reading
that is known is the member or an external name of it. -/
theorem formatted_understood_iff {resources : List Resource} {structs : List StructDef}
    {c : Catalog} (built : Catalog.build resources structs = .ok c) (formatter : Formatter) :
    (∀ r ∈ c.resources, ∀ field, r.hasField field = true →
      let sent := formatter.format (r.externalField field)
      (r.internalField sent = field ↔
        (∃ external, (Name.readings sent).find? r.isExternal = some external ∧
          (field, external) ∈ r.fieldNames) ∨
        (Name.readings sent).find? r.isExternal = none ∧
          (Name.readings sent).find? r.hasField = some field) ∧
      (r.isPlain = true → (r.internalField sent = field ↔
        (∃ external, (field, external) ∈ r.fieldNames) ∨ r.isExternal field = false))) ∧
    (∀ s ∈ c.structs, ∀ member ∈ s.members,
      let sent := formatter.format (s.external member)
      (Selection.slotName s.members s.externals sent = member ↔
        ∃ reading, [sent, Name.fromCamel sent].find? s.knows = some reading ∧
          (reading = member ∨ reading ∉ s.members ∧ (member, reading) ∈ s.fieldNames)) ∧
      (s.isPlain = true → (Selection.slotName s.members s.externals sent = member ↔
        s.external member = member ∨ s.external member ∉ s.members))) := by
  obtain ⟨fields, members⟩ := Catalog.build_ok built
  constructor
  · intro r held field declared sent
    refine ⟨Resource.understood_iff (fields r held) declared, ?_⟩
    exact fun plain => Resource.understood_plain_iff (fields r held) plain declared formatter
  · intro s held member declared sent
    refine ⟨StructDef.slotName_iff (members s held) declared, ?_⟩
    exact fun plain => StructDef.understood_plain_iff (members s held) plain declared formatter

/-- An alias is understood in the convention that it is in, and by the others not always. -/
theorem archived_understood_in_camel_case :
    let sent (formatter : Formatter) := formatter.format (Errands.task.externalField "archived?")
    let sentMember := Formatter.snakeCase.format (Errands.flags.external "archived?")
    Catalog.build [Errands.task, Errands.place, Errands.item] [Errands.flags] =
        .ok Errands.catalog ∧
      Errands.task.internalField (sent .camelCase) = "archived?" ∧
      Errands.task.internalField (sent .snakeCase) = "archived?" ∧
      Errands.task.internalField (sent .pascalCase) ≠ "archived?" ∧
      Selection.slotName Errands.flags.members Errands.flags.externals sentMember ≠ "archived?" ∧
      ∀ formatter : Formatter,
        Errands.place.internalField (formatter.format (Errands.place.externalField "street_line")) =
          "street_line" := by
  have built := Errands.build_catalog
  have task : Errands.task ∈ Errands.catalog.resources := List.mem_cons_self
  have place : Errands.place ∈ Errands.catalog.resources :=
    List.mem_cons_of_mem _ List.mem_cons_self
  have flags : Errands.flags ∈ Errands.catalog.structs := List.mem_cons_self
  have field : Errands.task.hasField "archived?" = true := by with_unfolding_all rfl
  have line : Errands.place.hasField "street_line" = true := by with_unfolding_all rfl
  have plain : Errands.place.isPlain = true := by with_unfolding_all rfl
  have mapped : ("archived?", "isArchived") ∈ Errands.task.fieldNames := List.mem_cons_self
  have unmapped : (Name.readings "IsArchived").find? Errands.task.isExternal = none := by
    with_unfolding_all rfl
  have undeclared : (Name.readings "IsArchived").find? Errands.task.hasField = none := by
    with_unfolding_all rfl
  have unknown :
      ["is_archived", Name.fromCamel "is_archived"].find? Errands.flags.knows = none := by
    with_unfolding_all rfl
  have pascal : Formatter.pascalCase.format (Errands.task.externalField "archived?") =
      "IsArchived" := by with_unfolding_all rfl
  have snake : Formatter.snakeCase.format (Errands.flags.external "archived?") =
      "is_archived" := by with_unfolding_all rfl
  refine ⟨built, ?_, ?_, ?_, ?_, ?_⟩
  · refine (((formatted_understood_iff built .camelCase).1 _ task _ field).1).2 (Or.inl ?_)
    exact ⟨"isArchived", by with_unfolding_all rfl, mapped⟩
  · refine (((formatted_understood_iff built .snakeCase).1 _ task _ field).1).2 (Or.inl ?_)
    exact ⟨"isArchived", by with_unfolding_all rfl, mapped⟩
  · intro understood
    rcases (((formatted_understood_iff built .pascalCase).1 _ task _ field).1).1 understood with
      ⟨external, first, -⟩ | ⟨-, first⟩
    · rw [pascal, unmapped] at first
      cases first
    · rw [pascal, undeclared] at first
      cases first
  · intro understood
    obtain ⟨reading, first, -⟩ :=
      (((formatted_understood_iff built .snakeCase).2 _ flags "archived?"
        List.mem_cons_self).1).1 understood
    rw [snake, unknown] at first
    cases first
  · intro formatter
    refine (((formatted_understood_iff built formatter).1 _ place _ line).2 plain).2 (Or.inr ?_)
    rfl

/-- The external name of a field is of the kind of that field. The field's own name is, where
all that it can mean is of that kind. -/
theorem external_classifies_iff {resources : List Resource} {structs : List StructDef}
    {c : Catalog} (built : Catalog.build resources structs = .ok c) {r : Resource}
    (held : r ∈ c.resources) {field external : String}
    (entry : (field, external) ∈ r.fieldNames) :
    classify c r external = .ofField c r field ∧
      (classify c r external = classify c r field ↔
        ∀ meant, r.Means field meant →
          Classification.ofField c r meant = .ofField c r field) := by
  have distinct := (Catalog.build_ok built).1 r held
  have first : (Name.readings external).find? r.isExternal = some external := by
    rw [Name.readings, List.find?_cons_of_pos]
    exact List.any_eq_true.2 ⟨_, entry, beq_self_eq_true external⟩
  have stands : r.internalField external = field :=
    (Resource.means_iff distinct).1 (.external first entry)
  have own : classify c r external = .ofField c r field := by rw [classify, stands]
  refine ⟨own, ?_⟩
  rw [own]
  constructor
  · intro alike meant means
    rw [← (Resource.means_iff distinct).1 means]
    exact alike.symm
  · intro all
    exact (all _ ((Resource.means_iff distinct).2 rfl)).symm

/-- The external name of the price is the cost's own name. -/
theorem fee_classifies_unlike_cost :
    Catalog.build [Errands.task, Errands.place, Errands.item] [Errands.flags] =
        .ok Errands.catalog ∧
      Errands.item ∈ Errands.catalog.resources ∧ ("cost", "fee") ∈ Errands.item.fieldNames ∧
      classify Errands.catalog Errands.item "fee" = .calculation ∧
      classify Errands.catalog Errands.item "fee" ≠
        classify Errands.catalog Errands.item "cost" := by
  have built := Errands.build_catalog
  have held : Errands.item ∈ Errands.catalog.resources := by simp [Errands.catalog]
  have entry : ("cost", "fee") ∈ Errands.item.fieldNames := by simp [Errands.item]
  obtain ⟨own, alike⟩ := external_classifies_iff built held entry
  have cost : Classification.ofField Errands.catalog Errands.item "cost" = .calculation := by
    with_unfolding_all rfl
  have price : Classification.ofField Errands.catalog Errands.item "price" = .attribute := by
    with_unfolding_all rfl
  refine ⟨built, held, entry, own.trans cost, ?_⟩
  intro same
  have first : (Name.readings "cost").find? Errands.item.isExternal = some "cost" := by
    with_unfolding_all rfl
  have taken : Errands.item.Means "cost" "price" := .external first List.mem_cons_self
  have kinds := alike.1 same "price" taken
  rw [cost, price] at kinds
  cases kinds

end FieldPlan
