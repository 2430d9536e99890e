import FieldPlan.Catalog
import Mathlib

/-! Which catalogs are admitted. Resources and typed structs go through one and the same check:
a new name first, then the name mappings of what has it. What is admitted has tables that can be
read in both directions, and what is not is turned down with a fault that can be pointed at. -/
namespace FieldPlan

namespace Catalog

/-- The name mappings of a catalog, each with what it belongs to. -/
def allMappings (resources : List Resource) (structs : List StructDef) :
    List (NameOwner × List (String × String)) :=
  resources.flatMap mappings ++ structs.map fun s => (.struct s.name, s.fieldNames)

/-- Every table has each of its keys once. -/
def Keyed (resources : List Resource) (structs : List StructDef) : Prop :=
  (∀ entry ∈ allMappings resources structs, (Table.keys entry.2).Nodup) ∧
    ∀ r ∈ resources, (Table.keys r.argumentNames).Nodup

/-- Different internal names have different external ones. -/
def OneToOne (mapping : List (String × String)) : Prop :=
  ∀ a b external, (a, external) ∈ mapping → (b, external) ∈ mapping → a = b

structure Consistent (resources : List Resource) (structs : List StructDef) : Prop where
  mappings : ∀ entry ∈ allMappings resources structs, OneToOne entry.2
  resourceNames : (resources.map Resource.name).Nodup
  structNames : (structs.map StructDef.name).Nodup

/-- The fault points at what is there twice. -/
inductive Blames (resources : List Resource) (structs : List StructDef) : Fault → Prop
  | resource {name : String} : List.Duplicate name (resources.map Resource.name) →
      Blames resources structs (.duplicateResource name)
  | struct {name : String} : List.Duplicate name (structs.map StructDef.name) →
      Blames resources structs (.duplicateStruct name)
  | mapping {entry : NameOwner × List (String × String)} {external : String} :
      entry ∈ allMappings resources structs → List.Duplicate external (entry.2.map (·.2)) →
      Blames resources structs (.repeatedExternal external entry.1)

variable {resources : List Resource} {structs : List StructDef}

/-! ### One mapping -/

def Again (seen names : List String) (name : String) : Prop :=
  List.Duplicate name names ∨ name ∈ seen ∧ name ∈ names

theorem Again.cons {name first : String} {seen names : List String}
    (h : Again (first :: seen) names name) : Again seen (first :: names) name := by
  rcases h with twice | ⟨old, present⟩
  · exact Or.inl (twice.duplicate_cons first)
  · rcases List.mem_cons.1 old with rfl | old
    · exact Or.inl (List.Mem.duplicate_cons_self present)
    · exact Or.inr ⟨old, List.mem_cons_of_mem _ present⟩

theorem firstRepeated_eq_some {seen names : List String} {name : String}
    (h : firstRepeated seen names = some name) : Again seen names name := by
  induction names generalizing seen with
  | nil => cases h
  | cons first rest ih =>
    rw [firstRepeated] at h
    split at h
    · next old =>
      cases h
      exact Or.inr ⟨List.contains_iff_mem.1 old, List.mem_cons_self⟩
    · exact (ih h).cons

theorem firstRepeated_eq_none {seen names : List String} (h : firstRepeated seen names = none) :
    names.Nodup ∧ ∀ name ∈ names, name ∉ seen := by
  induction names generalizing seen with
  | nil => exact ⟨List.nodup_nil, fun _ member => absurd member List.not_mem_nil⟩
  | cons first rest ih =>
    rw [firstRepeated] at h
    split at h
    · cases h
    · next fresh =>
      rw [List.contains_iff_mem] at fresh
      obtain ⟨distinct, apart⟩ := ih h
      have new : first ∉ rest := fun member => apart first member List.mem_cons_self
      refine ⟨List.nodup_cons.2 ⟨new, distinct⟩, List.forall_mem_cons.2 ⟨fresh, ?_⟩⟩
      intro name member old
      exact apart name member (List.mem_cons_of_mem _ old)

theorem checkMapping_cases (owner : NameOwner) (mapping : List (String × String)) :
    checkMapping owner mapping = .ok () ∧ (mapping.map (·.2)).Nodup ∨
      ∃ external, checkMapping owner mapping = .error (.repeatedExternal external owner) ∧
        List.Duplicate external (mapping.map (·.2)) := by
  unfold checkMapping
  split
  · next external repeated =>
    refine Or.inr ⟨external, rfl, ?_⟩
    rcases firstRepeated_eq_some repeated with twice | ⟨old, -⟩
    · exact twice
    · exact absurd old List.not_mem_nil
  · next clean => exact Or.inl ⟨rfl, (firstRepeated_eq_none clean).1⟩

/-! ### Names and what has them -/

/-- The check of resources and of structs: no name again, and each item by itself. -/
def checkNamed {α : Type} (name : α → String) (fault : String → Fault)
    (check : α → Except Fault Unit) (seen : List String) : List α → Except Fault Unit
  | [] => .ok ()
  | a :: rest =>
    if seen.contains (name a) then .error (fault (name a))
    else do
      check a
      checkNamed name fault check (name a :: seen) rest

def checkMappings (entries : List (NameOwner × List (String × String))) : Except Fault Unit :=
  entries.forM fun entry => checkMapping entry.1 entry.2

theorem checkResources_eq (seen : List String) (resources : List Resource) :
    checkResources seen resources = checkNamed Resource.name .duplicateResource
      (fun r => checkMappings (mappings r)) seen resources := by
  induction resources generalizing seen with
  | nil => rfl
  | cons r rest ih =>
    rw [checkResources, checkNamed, ih]
    rfl

theorem checkStructs_eq (seen : List String) (structs : List StructDef) :
    checkStructs seen structs = checkNamed StructDef.name .duplicateStruct
      (fun s => checkMapping (.struct s.name) s.fieldNames) seen structs := by
  induction structs generalizing seen with
  | nil => rfl
  | cons s rest ih => rw [checkStructs, checkNamed, ih]

theorem checkNamed_cases {α : Type} (name : α → String) (fault : String → Fault)
    (check : α → Except Fault Unit) (seen : List String) (items : List α) :
    checkNamed name fault check seen items = .ok () ∧ (items.map name).Nodup ∧
        (∀ a ∈ items, check a = .ok ()) ∨
      (∃ again, checkNamed name fault check seen items = .error (fault again) ∧
        Again seen (items.map name) again) ∨
      ∃ a ∈ items, ∃ bad, checkNamed name fault check seen items = .error bad ∧
        check a = .error bad := by
  suffices walked : checkNamed name fault check seen items = .ok () ∧
      ((items.map name).Nodup ∧ ∀ n ∈ items.map name, n ∉ seen) ∧
        (∀ a ∈ items, check a = .ok ()) ∨ _ from
    walked.imp_left fun good => ⟨good.1, good.2.1.1, good.2.2⟩
  induction items generalizing seen with
  | nil =>
    refine Or.inl ⟨rfl, ⟨List.nodup_nil, ?_⟩, ?_⟩
    · exact fun _ member => absurd member List.not_mem_nil
    · exact fun _ member => absurd member List.not_mem_nil
  | cons first rest ih =>
    rw [checkNamed, List.map_cons]
    by_cases old : name first ∈ seen
    · rw [if_pos (List.contains_iff_mem.2 old)]
      exact Or.inr (Or.inl ⟨name first, rfl, Or.inr ⟨old, List.mem_cons_self⟩⟩)
    · rw [if_neg (mt List.contains_iff_mem.1 old)]
      cases own : check first with
      | error bad => exact Or.inr (Or.inr ⟨first, List.mem_cons_self, bad, rfl, own⟩)
      | ok done =>
        change checkNamed name fault check (name first :: seen) rest = .ok () ∧ _ ∨
          (∃ again, checkNamed name fault check (name first :: seen) rest = _ ∧ _) ∨
          ∃ a ∈ _, ∃ bad, checkNamed name fault check (name first :: seen) rest = _ ∧ _
        rcases ih (name first :: seen) with ⟨passed, ⟨distinct, apart⟩, each⟩ |
          ⟨again, failed, repeated⟩ | ⟨a, member, bad, failed, offends⟩
        · have new : name first ∉ rest.map name :=
            fun member => apart _ member List.mem_cons_self
          refine Or.inl ⟨passed, ⟨List.nodup_cons.2 ⟨new, distinct⟩, ?_⟩, ?_⟩
          · refine List.forall_mem_cons.2 ⟨old, ?_⟩
            intro n member seen
            exact apart n member (List.mem_cons_of_mem _ seen)
          · exact List.forall_mem_cons.2 ⟨own, each⟩
        · exact Or.inr (Or.inl ⟨again, failed, repeated.cons⟩)
        · exact Or.inr (Or.inr ⟨a, List.mem_cons_of_mem _ member, bad, failed, offends⟩)

theorem checkMappings_cons (first : NameOwner × List (String × String))
    (rest : List (NameOwner × List (String × String))) :
    checkMappings (first :: rest) =
      checkMapping first.1 first.2 >>= fun _ => checkMappings rest := rfl

theorem checkMappings_cases (entries : List (NameOwner × List (String × String))) :
    checkMappings entries = .ok () ∧ (∀ entry ∈ entries, (entry.2.map (·.2)).Nodup) ∨
      ∃ entry ∈ entries, ∃ external, List.Duplicate external (entry.2.map (·.2)) ∧
        checkMappings entries = .error (.repeatedExternal external entry.1) := by
  induction entries with
  | nil => exact Or.inl ⟨rfl, fun _ member => absurd member List.not_mem_nil⟩
  | cons first rest ih =>
    rw [checkMappings_cons]
    rcases checkMapping_cases first.1 first.2 with ⟨passed, distinct⟩ | ⟨external, failed, twice⟩
    · have goesOn : (checkMapping first.1 first.2 >>= fun _ => checkMappings rest) =
          checkMappings rest := by rw [passed]; rfl
      rw [goesOn]
      rcases ih with ⟨others, each⟩ | ⟨entry, member, bad⟩
      · exact Or.inl ⟨others, List.forall_mem_cons.2 ⟨distinct, each⟩⟩
      · exact Or.inr ⟨entry, List.mem_cons_of_mem _ member, bad⟩
    · rw [failed]
      exact Or.inr ⟨first, List.mem_cons_self, external, twice, rfl⟩

/-! ### Whole catalogs -/

def ExternalsOnce (resources : List Resource) (structs : List StructDef) : Prop :=
  ∀ entry ∈ allMappings resources structs, (entry.2.map (·.2)).Nodup

theorem mem_allMappings {entry : NameOwner × List (String × String)} :
    entry ∈ allMappings resources structs ↔ (∃ r ∈ resources, entry ∈ mappings r) ∨
      ∃ s ∈ structs, (.struct s.name, s.fieldNames) = entry := by
  rw [allMappings, List.mem_append, List.mem_flatMap, List.mem_map]

theorem Again.duplicate {names : List String} {name : String} (h : Again [] names name) :
    List.Duplicate name names := by
  rcases h with twice | ⟨old, -⟩
  · exact twice
  · exact absurd old List.not_mem_nil

theorem checkResources_cases (resources : List Resource) (structs : List StructDef) :
    checkResources [] resources = .ok () ∧ (resources.map Resource.name).Nodup ∧
        (∀ r ∈ resources, ∀ entry ∈ mappings r, (entry.2.map (·.2)).Nodup) ∨
      ∃ fault, checkResources [] resources = .error fault ∧ Blames resources structs fault := by
  rw [checkResources_eq]
  rcases checkNamed_cases Resource.name Fault.duplicateResource
      (fun r => checkMappings (mappings r)) [] resources with
    ⟨passed, distinct, each⟩ | ⟨name, failed, again⟩ | ⟨r, held, fault, failed, offends⟩
  · refine Or.inl ⟨passed, distinct, ?_⟩
    intro r held
    rcases checkMappings_cases (mappings r) with ⟨-, once⟩ | ⟨entry, -, external, -, failed⟩
    · exact once
    · have passed := each r held
      rw [failed] at passed
      cases passed
  · exact Or.inr ⟨_, failed, .resource again.duplicate⟩
  · rcases checkMappings_cases (mappings r) with ⟨passed, -⟩ | ⟨entry, own, external, twice, bad⟩
    · rw [passed] at offends
      cases offends
    · rw [bad] at offends
      cases offends
      exact Or.inr ⟨_, failed, .mapping (mem_allMappings.2 (Or.inl ⟨r, held, own⟩)) twice⟩

theorem checkStructs_cases (resources : List Resource) (structs : List StructDef) :
    checkStructs [] structs = .ok () ∧ (structs.map StructDef.name).Nodup ∧
        (∀ s ∈ structs, (s.fieldNames.map (·.2)).Nodup) ∨
      ∃ fault, checkStructs [] structs = .error fault ∧ Blames resources structs fault := by
  rw [checkStructs_eq]
  rcases checkNamed_cases StructDef.name Fault.duplicateStruct
      (fun s => checkMapping (.struct s.name) s.fieldNames) [] structs with
    ⟨passed, distinct, each⟩ | ⟨name, failed, again⟩ | ⟨s, held, fault, failed, offends⟩
  · refine Or.inl ⟨passed, distinct, ?_⟩
    intro s held
    rcases checkMapping_cases (.struct s.name) s.fieldNames with ⟨-, once⟩ | ⟨external, failed, -⟩
    · exact once
    · have passed := each s held
      rw [failed] at passed
      cases passed
  · exact Or.inr ⟨_, failed, .struct again.duplicate⟩
  · rcases checkMapping_cases (.struct s.name) s.fieldNames with
      ⟨passed, -⟩ | ⟨external, bad, twice⟩
    · rw [passed] at offends
      cases offends
    · rw [bad] at offends
      cases offends
      have own : (NameOwner.struct s.name, s.fieldNames) ∈ allMappings resources structs :=
        mem_allMappings.2 (Or.inr ⟨s, held, rfl⟩)
      exact Or.inr ⟨_, failed, .mapping own twice⟩

theorem build_cases (resources : List Resource) (structs : List StructDef) :
    build resources structs = .ok ⟨resources, structs⟩ ∧
        ((resources.map Resource.name).Nodup ∧ (structs.map StructDef.name).Nodup) ∧
        ExternalsOnce resources structs ∨
      ∃ fault, build resources structs = .error fault ∧ Blames resources structs fault := by
  rcases checkResources_cases resources structs with ⟨passed, names, once⟩ | ⟨fault, failed, bad⟩
  · rcases checkStructs_cases resources structs with
      ⟨passed', names', once'⟩ | ⟨fault, failed, bad⟩
    · refine Or.inl ⟨?_, ⟨names, names'⟩, ?_⟩
      · rw [build, passed, passed']
        rfl
      · intro entry held
        rcases mem_allMappings.1 held with ⟨r, present, own⟩ | ⟨s, present, rfl⟩
        · exact once r present entry own
        · exact once' s present
    · refine Or.inr ⟨fault, ?_, bad⟩
      rw [build, passed, failed]
      rfl
  · refine Or.inr ⟨fault, ?_, bad⟩
    rw [build, failed]
    rfl

/-- In an admitted catalog no external name stands for two internal ones. -/
theorem build_ok {c : Catalog} (h : build resources structs = .ok c) :
    (∀ r ∈ c.resources, (r.fieldNames.map (·.2)).Nodup) ∧
      ∀ s ∈ c.structs, (s.fieldNames.map (·.2)).Nodup := by
  rcases build_cases resources structs with ⟨built, -, once⟩ | ⟨fault, failed, -⟩
  · rw [built] at h
    cases h
    constructor
    · intro r held
      exact once _ (mem_allMappings.2 (Or.inl ⟨r, held, List.mem_cons_self⟩))
    · intro s held
      exact once _ (mem_allMappings.2 (Or.inr ⟨s, held, rfl⟩))
  · rw [failed] at h
    cases h

/-! ### Tables read in both directions -/

theorem nodup_externals_iff {mapping : List (String × String)}
    (keyed : (Table.keys mapping).Nodup) : (mapping.map (·.2)).Nodup ↔ OneToOne mapping := by
  have pairs : mapping.Nodup := List.Nodup.of_map _ keyed
  rw [List.nodup_map_iff_inj_on pairs]
  constructor
  · intro apart a b external first second
    have same := apart _ first _ second rfl
    exact congrArg Prod.fst same
  · intro apart first held second held' same
    have keys : first.1 = second.1 :=
      apart first.1 second.1 first.2 held (by rw [same]; exact held')
    exact Prod.ext keys same

theorem get?_eq_some_iff {mapping : List (String × String)} (keyed : (Table.keys mapping).Nodup)
    {internal external : String} :
    Table.get? mapping internal = some external ↔ (internal, external) ∈ mapping := by
  refine ⟨Table.mem_of_get?, ?_⟩
  intro member
  cases found : Table.get? mapping internal with
  | none => exact absurd member (Table.get?_eq_none.1 found external)
  | some other =>
    have same := List.inj_on_of_nodup_map keyed (Table.mem_of_get? found) member rfl
    exact congrArg some (congrArg Prod.snd same)

theorem get?_iff_keyOf? {mapping : List (String × String)} (keyed : (Table.keys mapping).Nodup)
    (once : (mapping.map (·.2)).Nodup) {internal external : String} :
    Table.get? mapping internal = some external ↔
      Table.keyOf? mapping external = some internal := by
  rw [get?_eq_some_iff keyed, Table.keyOf?_eq_some once]

theorem consistent_iff (keyed : Keyed resources structs) : Consistent resources structs ↔
    ((resources.map Resource.name).Nodup ∧ (structs.map StructDef.name).Nodup) ∧
      ExternalsOnce resources structs := by
  have each : (∀ entry ∈ allMappings resources structs, OneToOne entry.2) ↔
      ExternalsOnce resources structs :=
    forall₂_congr fun entry held => (nodup_externals_iff (keyed.1 entry held)).symm
  rw [← each]
  exact ⟨fun h => ⟨⟨h.resourceNames, h.structNames⟩, h.mappings⟩, fun h => ⟨h.2, h.1.1, h.1.2⟩⟩

theorem Blames.not_consistent {fault : Fault} (keyed : Keyed resources structs)
    (h : Blames resources structs fault) : ¬Consistent resources structs := by
  rw [consistent_iff keyed]
  intro consistent
  cases h with
  | resource twice => exact twice.not_nodup consistent.1.1
  | struct twice => exact twice.not_nodup consistent.1.2
  | mapping held twice => exact twice.not_nodup (consistent.2 _ held)

theorem find?_of_nodup {α : Type} {name : α → String} {items : List α}
    (distinct : (items.map name).Nodup) {a : α} (held : a ∈ items) :
    items.find? (name · == name a) = some a := by
  cases found : items.find? (name · == name a) with
  | none => exact absurd (beq_self_eq_true _) (List.find?_eq_none.1 found a held)
  | some b =>
    have same : name b = name a := by simpa using List.find?_some found
    rw [List.inj_on_of_nodup_map distinct (List.mem_of_find?_eq_some found) held same]

end Catalog

namespace Resource
variable {r : Resource} {action : String} {mapping : List (String × String)}

theorem argument_table (actions : (Table.keys r.argumentNames).Nodup)
    (held : (action, mapping) ∈ r.argumentNames) :
    Table.get? r.argumentNames action = some mapping := by
  cases found : Table.get? r.argumentNames action with
  | none => exact absurd held (Table.get?_eq_none.1 found mapping)
  | some other =>
    have same := List.inj_on_of_nodup_map actions (Table.mem_of_get? found) held rfl
    exact congrArg some (congrArg Prod.snd same)

theorem argument_names_inverse (found : Table.get? r.argumentNames action = some mapping)
    {internal external : String} (forth : Table.get? mapping internal = some external)
    (back : Table.keyOf? mapping external = some internal) :
    r.externalArgument action internal = external ∧
      r.internalArgument action external = internal := by
  constructor
  · rw [externalArgument, found, Option.getD_some, forth, Option.getD_some]
  · rw [internalArgument, found, Option.getD_some, back, Option.getD_some]

end Resource

namespace Catalog
variable {resources : List Resource} {structs : List StructDef}

theorem ExternalsOnce.inverse (once : ExternalsOnce resources structs)
    (keyed : Keyed resources structs) {entry : NameOwner × List (String × String)}
    (held : entry ∈ allMappings resources structs) (internal external : String) :
    Table.get? entry.2 internal = some external ↔
      Table.keyOf? entry.2 external = some internal :=
  get?_iff_keyOf? (keyed.1 entry held) (once entry held)

theorem ExternalsOnce.arguments (once : ExternalsOnce resources structs)
    (keyed : Keyed resources structs) {r : Resource} (held : r ∈ resources) {action : String}
    {mapping : List (String × String)} (own : (action, mapping) ∈ r.argumentNames) :
    (∀ x ∈ Table.keys mapping, r.internalArgument action (r.externalArgument action x) = x) ∧
      ∀ e ∈ mapping.map (·.2), r.externalArgument action (r.internalArgument action e) = e := by
  have listed : (NameOwner.action action r.name, mapping) ∈ mappings r :=
    List.mem_cons_of_mem _ (List.mem_map.2 ⟨_, own, rfl⟩)
  have held' : (NameOwner.action action r.name, mapping) ∈ allMappings resources structs :=
    mem_allMappings.2 (Or.inl ⟨r, held, listed⟩)
  have found := Resource.argument_table (keyed.2 r held) own
  have lead : ∀ internal external, (internal, external) ∈ mapping →
      r.externalArgument action internal = external ∧
        r.internalArgument action external = internal := by
    intro internal external entry
    have forth := (get?_eq_some_iff (keyed.1 _ held')).2 entry
    exact Resource.argument_names_inverse found forth ((once.inverse keyed held' _ _).1 forth)
  constructor
  · intro x key
    obtain ⟨⟨internal, external⟩, entry, rfl⟩ := List.mem_map.1 key
    obtain ⟨forth, back⟩ := lead internal external entry
    rw [forth, back]
  · intro e value
    obtain ⟨⟨internal, external⟩, entry, rfl⟩ := List.mem_map.1 value
    obtain ⟨forth, back⟩ := lead internal external entry
    rw [back, forth]

theorem ExternalsOnce.members (once : ExternalsOnce resources structs)
    (keyed : Keyed resources structs) (names : (structs.map StructDef.name).Nodup)
    {s : StructDef} (held : s ∈ structs) :
    (Table.keys (memberNames ⟨resources, structs⟩ s.name)).Nodup ∧ ∀ internal external,
      Table.get? (memberNames ⟨resources, structs⟩ s.name) external = some internal ↔
        Table.get? s.fieldNames internal = some external := by
  have listed : (NameOwner.struct s.name, s.fieldNames) ∈ allMappings resources structs :=
    mem_allMappings.2 (Or.inr ⟨s, held, rfl⟩)
  have found : Catalog.struct? ⟨resources, structs⟩ s.name = some s := find?_of_nodup names held
  have swapped : memberNames ⟨resources, structs⟩ s.name = s.externals := by
    rw [memberNames, found]
  rw [swapped, StructDef.externals]
  constructor
  · rw [Table.keys, List.map_map]
    exact once _ listed
  · intro internal external
    rw [Table.get?_swapped]
    exact (once.inverse keyed listed internal external).symm

/-- A catalog is admitted just if it is consistent, and is turned down with a fault that points
at what is there twice. In an admitted one every name mapping and its inverse agree. -/
theorem build_exact (keyed : Keyed resources structs) :
    ((∃ c, build resources structs = .ok c) ↔ Consistent resources structs) ∧
      (∀ fault, build resources structs = .error fault → Blames resources structs fault) ∧
      ∀ c, build resources structs = .ok c →
        (∀ entry ∈ allMappings resources structs, ∀ internal external,
          Table.get? entry.2 internal = some external ↔
            Table.keyOf? entry.2 external = some internal) ∧
        (∀ r ∈ resources, c.resource? r.name = some r ∧
          ∀ action mapping, (action, mapping) ∈ r.argumentNames →
            (∀ x ∈ Table.keys mapping,
              r.internalArgument action (r.externalArgument action x) = x) ∧
            ∀ e ∈ mapping.map (·.2),
              r.externalArgument action (r.internalArgument action e) = e) ∧
        ∀ s ∈ structs, (Table.keys (c.memberNames s.name)).Nodup ∧ ∀ internal external,
          Table.get? (c.memberNames s.name) external = some internal ↔
            Table.get? s.fieldNames internal = some external := by
  rcases build_cases resources structs with ⟨built, names, once⟩ | ⟨fault, failed, blames⟩
  · have consistent := (consistent_iff keyed).2 ⟨names, once⟩
    refine ⟨iff_of_true ⟨_, built⟩ consistent, ?_, ?_⟩
    · intro fault failed
      rw [built] at failed
      cases failed
    · intro c built'
      rw [built] at built'
      cases built'
      refine ⟨fun entry held => once.inverse keyed held, ?_, ?_⟩
      · intro r held
        exact ⟨find?_of_nodup names.1 held, fun action mapping => once.arguments keyed held⟩
      · intro s held
        exact once.members keyed names.2 held
  · have inconsistent := blames.not_consistent keyed
    refine ⟨iff_of_false ?_ inconsistent, ?_, ?_⟩
    · intro built
      obtain ⟨c, built⟩ := built
      rw [failed] at built
      cases built
    · intro fault' failed'
      rw [failed] at failed'
      cases failed'
      exact blames
    · intro c built
      rw [failed] at built
      cases built

/-! An admitted catalog with all kinds of name mappings, one of them with swapped names. -/

namespace Bookings

def desk : Resource where
  name := "Desk"
  fieldNames := [("seats?", "seats"), ("floor_no", "floor")]
  argumentNames := [("book", [("from", "until"), ("until", "from")]), ("free", [("at", "when")])]

def badge : StructDef where
  name := "Badge"
  fieldNames := [("valid?", "valid")]

end Bookings

theorem desk_admitted :
    Keyed [Bookings.desk] [Bookings.badge] ∧
      Consistent [Bookings.desk] [Bookings.badge] ∧
      Bookings.desk.internalArgument "book" (Bookings.desk.externalArgument "book" "from") =
        "from" ∧
      Table.get? (memberNames ⟨[Bookings.desk], [Bookings.badge]⟩ "Badge") "valid" =
        some "valid?" := by
  have keyed : Keyed [Bookings.desk] [Bookings.badge] := by
    simp [Keyed, allMappings, mappings, Bookings.desk, Bookings.badge, Table.keys]
  have built : build [Bookings.desk] [Bookings.badge] =
      .ok ⟨[Bookings.desk], [Bookings.badge]⟩ := by rfl
  obtain ⟨admitted, -, inverse⟩ := build_exact keyed
  obtain ⟨-, arguments, members⟩ := inverse _ built
  have booked := (arguments Bookings.desk List.mem_cons_self).2 "book"
    [("from", "until"), ("until", "from")] List.mem_cons_self
  have valid := (members Bookings.badge List.mem_cons_self).2 "valid?" "valid"
  exact ⟨keyed, admitted.1 ⟨_, built⟩, booked.1 "from" List.mem_cons_self, valid.2 (by decide)⟩

end Catalog
end FieldPlan
