import FieldPlan.Proofs.Schema.Followed

/-! Typed structs inside themselves. Structs are opened inside each other for more levels than
there are structs, and whatever is still being opened then comes back to a struct that it is
inside of. The opening of such a struct never ends. -/
namespace FieldPlan

/-- The mention is made where a struct is opened, and by no type itself. -/
def Mention.opened : Mention → Bool
  | .resource _ => false
  | .instance _ => false
  | .missingStruct _ => true
  | .endless => true

namespace TypeRef
variable {f : String → List Mention} {m : Mention}

mutual
theorem mem_opened (made : m.opened = true) : ∀ t : TypeRef,
    m ∈ t.mentionsWith f ↔ ∃ inner, .missingStruct inner ∈ t.direct ∧ m ∈ f inner
  | .primitive _ _ => by simp [direct, mentionsWith]
  | .array item => mem_opened made item
  | .map slots => mem_slots_opened made slots
  | .keyword slots => mem_slots_opened made slots
  | .tuple slots => mem_slots_opened made slots
  | .struct none => by simp [direct, mentionsWith]
  | .struct (some name) => by
    refine iff_of_false (fun h => ?_) (by simp [direct, mentionsWith])
    cases List.mem_singleton.1 h
    cases made
  | .typedStruct name => by simp [direct, mentionsWith, unopened]
  | .union members => mem_members_opened made members
  | .resource name => by
    refine iff_of_false (fun h => ?_) (by simp [direct, mentionsWith])
    cases List.mem_singleton.1 h
    cases made
  | .any => by simp [direct, mentionsWith]

theorem mem_slots_opened (made : m.opened = true) : ∀ slots : List (Slot TypeRef),
    m ∈ slotMentions f slots ↔
      ∃ inner, .missingStruct inner ∈ slotMentions unopened slots ∧ m ∈ f inner
  | [] => by simp [slotMentions]
  | ⟨_, t, _⟩ :: rest => by
    have first := mem_opened made t
    have others := mem_slots_opened made rest
    simp only [slotMentions, List.mem_append, first, others, direct, or_and_right, exists_or]

theorem mem_members_opened (made : m.opened = true) : ∀ members : List (Member TypeRef),
    m ∈ memberMentions f members ↔
      ∃ inner, .missingStruct inner ∈ memberMentions unopened members ∧ m ∈ f inner
  | [] => by simp [memberMentions]
  | ⟨_, t⟩ :: rest => by
    have first := mem_opened made t
    have others := mem_members_opened made rest
    simp only [memberMentions, List.mem_append, first, others, direct, or_and_right, exists_or]
end

end TypeRef

namespace Catalog
variable {c : Catalog} {t : TypeRef} {n : Nat} {name inner : String} {nest : List String}

/-- The first struct has the second one somewhere in it, and in no other struct there. -/
def HasInside (c : Catalog) (outer inner : String) : Prop :=
  ∃ s, c.struct? outer = some s ∧ .missingStruct inner ∈ TypeRef.slotMentions unopened s.slots

/-- Some struct in the type is inside itself. -/
def Coils (c : Catalog) (t : TypeRef) : Prop :=
  ∃ outer inner, .missingStruct outer ∈ t.direct ∧ Relation.ReflTransGen c.HasInside outer inner ∧
    Relation.TransGen c.HasInside inner inner

theorem struct?_of_missing {missing : String}
    (h : .missingStruct missing ∈ c.structMentions n name) : c.struct? missing = none := by
  induction n generalizing name with
  | zero => cases List.mem_singleton.1 h
  | succ n ih =>
    rw [structMentions] at h
    split at h
    · next absent =>
      cases List.mem_singleton.1 h
      exact absent
    · next s found =>
      obtain ⟨inner, -, h⟩ := (TypeRef.mem_slots_opened rfl s.slots).1 h
      exact ih h

/-! ### Nests -/

/-- Structs of the catalog, each with the next one inside it, and the first of that name. -/
structure Nested (c : Catalog) (name : String) (nest : List String) : Prop where
  first : ∀ outer ∈ nest.head?, outer = name
  linked : nest.IsChain c.HasInside
  present : nest ⊆ c.structs.map StructDef.name

theorem nested_nil : c.Nested name [] := ⟨nofun, .nil, List.nil_subset _⟩

theorem Nested.cons (h : c.Nested inner nest) (inside : c.HasInside name inner) :
    c.Nested name (name :: nest) where
  first := by
    rintro outer ⟨⟩
    rfl
  linked := by
    refine List.isChain_cons.2 ⟨fun next head => ?_, h.linked⟩
    rw [h.first next head]
    exact inside
  present := by
    obtain ⟨s, found, -⟩ := inside
    exact List.cons_subset.2 ⟨mem_struct_names found, h.present⟩

/-- A nest of more structs than there are comes back to one of them. -/
theorem Nested.coils (h : c.Nested name nest) (long : c.structs.length < nest.length)
    (direct : .missingStruct name ∈ t.direct) : c.Coils t := by
  obtain ⟨inner, member, again⟩ := comes_back h.linked h.present (by simpa using long)
  cases nest with
  | nil => exact absurd member List.not_mem_nil
  | cons outer rest =>
    obtain rfl := h.first outer rfl
    exact ⟨outer, inner, direct, chain_reaches h.linked member, again⟩

theorem nested_of_endless (h : .endless ∈ c.structMentions n name) :
    ∃ nest, nest.length = n ∧ c.Nested name nest := by
  induction n generalizing name with
  | zero => exact ⟨[], rfl, nested_nil⟩
  | succ n ih =>
    rw [structMentions] at h
    split at h
    · cases List.mem_singleton.1 h
    · next s found =>
      obtain ⟨inner, inside, h⟩ := (TypeRef.mem_slots_opened rfl s.slots).1 h
      obtain ⟨nest, length, nested⟩ := ih h
      exact ⟨name :: nest, by rw [List.length_cons, length], nested.cons ⟨s, found, inside⟩⟩

theorem endless_of_again (reaches : Relation.ReflTransGen c.HasInside name inner)
    (again : Relation.TransGen c.HasInside inner inner) : .endless ∈ c.structMentions n name := by
  induction n generalizing name with
  | zero => exact List.mem_singleton_self _
  | succ n ih =>
    have onward : ∃ next, c.HasInside name next ∧ Relation.ReflTransGen c.HasInside next inner := by
      rcases reaches.cases_head with rfl | onward
      · exact Relation.TransGen.head'_iff.1 again
      · exact onward
    obtain ⟨next, ⟨s, found, inside⟩, reaches⟩ := onward
    rw [structMentions, found]
    exact (TypeRef.mem_slots_opened rfl s.slots).2 ⟨next, inside, ih reaches⟩

/-- A type is not looked through to its end just if some struct in it is inside itself. -/
theorem endless_iff : .endless ∈ c.mentions t ↔ c.Coils t := by
  rw [mentions, TypeRef.mem_opened rfl]
  constructor
  · rintro ⟨outer, direct, h⟩
    obtain ⟨nest, length, nested⟩ := nested_of_endless h
    exact nested.coils (by omega) direct
  · rintro ⟨outer, inner, direct, reaches, again⟩
    exact ⟨outer, direct, endless_of_again reaches again⟩

end Catalog
end FieldPlan
