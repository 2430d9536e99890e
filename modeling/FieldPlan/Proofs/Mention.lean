import FieldPlan.Descent.Locality
import FieldPlan.Proofs.Depth

/-! The mentions of a type. They are opened to a fixed depth, and that depth is enough: what a
struct mentions at one depth and not before, it mentions through structs that all differ, and
the catalog has only so many. So a type mentions whatever one of its parts does. -/
namespace FieldPlan

namespace TypeRef
variable {f g : String → List Mention} {m : Mention}

theorem mem_slotMentions {slots : List (Slot TypeRef)} :
    m ∈ slotMentions f slots ↔ ∃ slot ∈ slots, m ∈ slot.type.mentionsWith f := by
  induction slots with
  | nil => simp [slotMentions]
  | cons slot rest ih => simp [slotMentions, ih]

theorem mem_memberMentions {members : List (Member TypeRef)} :
    m ∈ memberMentions f members ↔ ∃ member ∈ members, m ∈ member.type.mentionsWith f := by
  induction members with
  | nil => simp [memberMentions]
  | cons member rest ih => simp [memberMentions, ih]

mutual
theorem mentionsWith_mono (more : ∀ name, m ∈ f name → m ∈ g name) :
    ∀ t : TypeRef, m ∈ t.mentionsWith f → m ∈ t.mentionsWith g
  | .primitive _ _, h => h
  | .array item, h => mentionsWith_mono more item h
  | .map slots, h => slotMentions_mono more slots h
  | .keyword slots, h => slotMentions_mono more slots h
  | .tuple slots, h => slotMentions_mono more slots h
  | .struct none, h => h
  | .struct (some _), h => h
  | .typedStruct name, h => more name h
  | .union members, h => memberMentions_mono more members h
  | .resource _, h => h
  | .any, h => h

theorem slotMentions_mono (more : ∀ name, m ∈ f name → m ∈ g name) :
    ∀ slots : List (Slot TypeRef), m ∈ slotMentions f slots → m ∈ slotMentions g slots
  | [], h => h
  | ⟨_, t, _⟩ :: rest, h => by
    rw [slotMentions, List.mem_append] at h ⊢
    exact h.imp (mentionsWith_mono more t) (slotMentions_mono more rest)

theorem memberMentions_mono (more : ∀ name, m ∈ f name → m ∈ g name) :
    ∀ members : List (Member TypeRef), m ∈ memberMentions f members → m ∈ memberMentions g members
  | [], h => h
  | ⟨_, t⟩ :: rest, h => by
    rw [memberMentions, List.mem_append] at h ⊢
    exact h.imp (mentionsWith_mono more t) (memberMentions_mono more rest)
end

end TypeRef

namespace Catalog
variable {c : Catalog} {m : Mention}

/-! ### Structs inside each other -/

theorem structMentions_succ {n : Nat} {name : String} (made : m ≠ .endless)
    (h : m ∈ c.structMentions n name) : m ∈ c.structMentions (n + 1) name := by
  induction n generalizing name with
  | zero => exact absurd (List.mem_singleton.1 h) made
  | succ n ih =>
    rw [structMentions] at h ⊢
    split
    · next missing =>
      rw [missing] at h
      exact h
    · next s found =>
      rw [found] at h
      exact TypeRef.slotMentions_mono (fun _ => ih) s.slots h

theorem endless_pred {n : Nat} {name : String} (h : .endless ∈ c.structMentions (n + 1) name) :
    .endless ∈ c.structMentions n name := by
  induction n generalizing name with
  | zero => exact List.mem_singleton_self _
  | succ n ih =>
    rw [structMentions] at h ⊢
    split
    · next missing =>
      rw [missing] at h
      exact h
    · next s found =>
      rw [found] at h
      exact TypeRef.slotMentions_mono (fun _ => ih) s.slots h

/-- A mention that is made late is made one level earlier inside another struct. -/
theorem structMentions_deepens (made : m ≠ .endless) :
    Deepens (c.structs.map StructDef.name) fun n name => m ∈ c.structMentions n name := by
  refine ⟨fun _ _ => structMentions_succ made, ?_⟩
  intro n name late early
  rw [structMentions] at late early
  cases found : c.struct? name with
  | none =>
    rw [found] at late early
    exact absurd late early
  | some s =>
    rw [found] at late early
    refine ⟨mem_struct_names found, ?_⟩
    by_contra nowhere
    refine early (TypeRef.slotMentions_mono ?_ s.slots late)
    intro inner mentioned
    by_contra absent
    exact nowhere ⟨inner, mentioned, absent⟩

/-- Opening more structs than there are adds nothing. -/
theorem structMentions_enough {n : Nat} {name : String} (made : m ≠ .endless)
    (h : m ∈ c.structMentions n name) : m ∈ c.structMentions (c.structs.length + 1) name := by
  have last := (structMentions_deepens made).enough h
  rwa [List.length_map] at last

/-! ### Parts -/

theorem mentions_slots {slots : List (Slot TypeRef)} {part : TypeRef}
    (h : part ∈ slots.map Slot.type) (mentioned : m ∈ c.mentions part) :
    m ∈ TypeRef.slotMentions (c.structMentions (c.structs.length + 1)) slots := by
  obtain ⟨slot, member, rfl⟩ := List.mem_map.1 h
  exact TypeRef.mem_slotMentions.2 ⟨slot, member, mentioned⟩

theorem mentions_part {t part : TypeRef} (h : part ∈ c.parts t)
    (mentioned : m ∈ c.mentions part) : m ∈ c.mentions t := by
  unfold parts at h
  split at h
  · exact mentions_slots h mentioned
  · exact mentions_slots h mentioned
  · exact mentions_slots h mentioned
  · next name =>
    split at h
    · next s found =>
      have deeper : m ∈ c.structMentions (c.structs.length + 2) name := by
        rw [structMentions, found]
        exact mentions_slots h mentioned
      by_cases made : m = .endless
      · subst made
        exact endless_pred deeper
      · exact structMentions_enough made deeper
    · exact absurd h List.not_mem_nil
  · obtain ⟨member, present, rfl⟩ := List.mem_map.1 h
    exact TypeRef.mem_memberMentions.2 ⟨member, present, mentioned⟩
  · exact absurd h List.not_mem_nil

theorem mentions_inner (t : TypeRef) : c.mentions t.inner = c.mentions t := by
  cases t <;> rfl

theorem mentions_embedded {t : TypeRef} {name : String} (h : c.embeddedName t = some name) :
    .resource name ∈ c.mentions t ∨ .instance name ∈ c.mentions t := by
  rw [← mentions_inner]
  unfold embeddedName at h
  split at h
  · next resource shape =>
    split at h
    · cases h
      rw [shape]
      exact Or.inl (List.mem_singleton_self _)
    · cases h
  · next resource shape =>
    split at h
    · cases h
      rw [shape]
      exact Or.inr (List.mem_singleton_self _)
    · cases h
  · cases h

theorem isEmbedded_of_embeddedName {t : TypeRef} {name : String}
    (h : c.embeddedName t = some name) : c.isEmbedded name = true := by
  unfold embeddedName at h
  split at h
  · split at h
    · next embedded =>
      cases h
      exact embedded
    · cases h
  · split at h
    · next both =>
      cases h
      rw [Bool.and_eq_true] at both
      exact both.2
    · cases h
  · cases h

end Catalog
end FieldPlan
