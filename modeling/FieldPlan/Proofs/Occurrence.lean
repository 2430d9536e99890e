import FieldPlan.Proofs.Sufficient

/-! Which resources stand in a type. Its mentions are opened only so far, and yet they are just
the resources that stand somewhere below its arrays and in its parts, however deep. -/
namespace FieldPlan

def Mention.type? : Mention → Option TypeRef
  | .resource name => some (.resource name)
  | .instance name => some (.struct (some name))
  | .missingStruct name => some (.typedStruct name)
  | .endless => none

namespace Catalog

/-- The second type is the first or stands in it, at any depth. -/
inductive Within (c : Catalog) : TypeRef → TypeRef → Prop
  | itself (t : TypeRef) : Within c t t
  | item {item inner : TypeRef} : Within c item inner → Within c (.array item) inner
  | part {t part inner : TypeRef} : part ∈ c.parts t → Within c part inner → Within c t inner

variable {c : Catalog} {m : Mention} {t inner : TypeRef} {name : String}

theorem Within.mentions (h : c.Within t inner) (mentioned : m ∈ c.mentions inner) :
    m ∈ c.mentions t := by
  induction h with
  | itself t => exact mentioned
  | item _ ih => exact ih mentioned
  | part inside _ ih => exact mentions_part inside (ih mentioned)

/-! ### What is mentioned stands in the type -/

section
variable {ofStruct : String → List Mention}

mutual
theorem within_of_mention (makes : m.type? = some inner)
    (opened : ∀ name, m ∈ ofStruct name → c.Within (.typedStruct name) inner) :
    ∀ t : TypeRef, m ∈ t.mentionsWith ofStruct → c.Within t inner
  | .primitive _ _, h => absurd h List.not_mem_nil
  | .array item, h => .item (within_of_mention makes opened item h)
  | .map slots, h => by
    obtain ⟨part, member, inside⟩ := within_of_slotMention makes opened slots h
    exact .part member inside
  | .keyword slots, h => by
    obtain ⟨part, member, inside⟩ := within_of_slotMention makes opened slots h
    exact .part member inside
  | .tuple slots, h => by
    obtain ⟨part, member, inside⟩ := within_of_slotMention makes opened slots h
    exact .part member inside
  | .struct none, h => absurd h List.not_mem_nil
  | .struct (some name), h => by
    obtain rfl := List.mem_singleton.1 h
    exact Option.some.inj makes ▸ .itself _
  | .typedStruct name, h => opened name h
  | .union members, h => by
    obtain ⟨part, member, inside⟩ := within_of_memberMention makes opened members h
    exact .part member inside
  | .resource name, h => by
    obtain rfl := List.mem_singleton.1 h
    exact Option.some.inj makes ▸ .itself _
  | .any, h => absurd h List.not_mem_nil

theorem within_of_slotMention (makes : m.type? = some inner)
    (opened : ∀ name, m ∈ ofStruct name → c.Within (.typedStruct name) inner) :
    ∀ slots : List (Slot TypeRef), m ∈ TypeRef.slotMentions ofStruct slots →
      ∃ part ∈ slots.map Slot.type, c.Within part inner
  | [], h => absurd h List.not_mem_nil
  | ⟨_, t, _⟩ :: rest, h => by
    rcases List.mem_append.1 h with first | later
    · exact ⟨t, List.mem_cons_self, within_of_mention makes opened t first⟩
    · obtain ⟨part, member, inside⟩ := within_of_slotMention makes opened rest later
      exact ⟨part, List.mem_cons_of_mem _ member, inside⟩

theorem within_of_memberMention (makes : m.type? = some inner)
    (opened : ∀ name, m ∈ ofStruct name → c.Within (.typedStruct name) inner) :
    ∀ members : List (Member TypeRef), m ∈ TypeRef.memberMentions ofStruct members →
      ∃ part ∈ members.map Member.type, c.Within part inner
  | [], h => absurd h List.not_mem_nil
  | ⟨_, t⟩ :: rest, h => by
    rcases List.mem_append.1 h with first | later
    · exact ⟨t, List.mem_cons_self, within_of_mention makes opened t first⟩
    · obtain ⟨part, member, inside⟩ := within_of_memberMention makes opened rest later
      exact ⟨part, List.mem_cons_of_mem _ member, inside⟩
end

end

theorem within_of_structMention {n : Nat} (makes : m.type? = some inner)
    (h : m ∈ c.structMentions n name) : c.Within (.typedStruct name) inner := by
  induction n generalizing name with
  | zero =>
    obtain rfl := List.mem_singleton.1 h
    cases makes
  | succ n ih =>
    rw [structMentions] at h
    split at h
    · obtain rfl := List.mem_singleton.1 h
      exact Option.some.inj makes ▸ .itself _
    · next s found =>
      obtain ⟨part, member, inside⟩ := within_of_slotMention makes (fun _ => ih) s.slots h
      refine .part ?_ inside
      rw [parts, found]
      exact member

theorem within_of_mentions (makes : m.type? = some inner) (h : m ∈ c.mentions t) :
    c.Within t inner :=
  within_of_mention makes (fun _ => within_of_structMention makes) t h

theorem mem_mentions_resource : .resource name ∈ c.mentions t ↔ c.Within t (.resource name) :=
  ⟨within_of_mentions rfl, fun h => h.mentions (List.mem_singleton_self _)⟩

theorem mem_mentions_instance :
    .instance name ∈ c.mentions t ↔ c.Within t (.struct (some name)) :=
  ⟨within_of_mentions rfl, fun h => h.mentions (List.mem_singleton_self _)⟩

/-! ### Records that stand in a type -/

theorem Within.enters (h : c.Within t inner) (entered : c.Enters inner name) : c.Enters t name := by
  induction h with
  | itself t => exact entered
  | item _ ih => exact .item (ih entered)
  | part inside _ ih => exact .part inside (ih entered)

theorem enters_iff : c.Enters t name ↔
    c.Within t (.resource name) ∨ c.Within t (.struct (some name)) ∧ c.hasResource name = true := by
  constructor
  · intro h
    induction h with
    | resource name => exact Or.inl (.itself _)
    | «instance» name present => exact Or.inr ⟨.itself _, present⟩
    | item _ ih => exact ih.imp .item (And.imp_left .item)
    | part inside _ ih => exact ih.imp (.part inside) (And.imp_left (.part inside))
  · rintro (inside | ⟨inside, present⟩)
    · exact inside.enters (.resource name)
    · exact inside.enters (.instance name present)

end Catalog
end FieldPlan
