import FieldPlan.Proofs.Occurrence
import Mathlib.Data.List.Induction
import Mathlib.Data.List.Nodup
import Mathlib.Order.Bounds.Basic

/-! Listing the embedded resources is a closure: it keeps what is given in front, adds no more than
it must, and adds nothing the second time. Only an embedded resource without a name is passed over
where it stands as the instance of a struct, so it may be missing from the list. -/
namespace FieldPlan
namespace Catalog

def Embeds (c : Catalog) (t : TypeRef) (name : String) : Prop :=
  (c.Within t (.resource name) ∨ c.Within t (.struct (some name))) ∧ c.isEmbedded name = true

/-- An embedded resource stands in the type, and as the instance of a struct only by its name. -/
def EmbedsNamed (c : Catalog) (t : TypeRef) (name : String) : Prop :=
  (c.Within t (.resource name) ∨ c.Within t (.struct (some name)) ∧ name ≠ "") ∧
    c.isEmbedded name = true

/-- The names hold the given ones and, with a resource, what stands in the types of its fields. -/
structure Encloses (c : Catalog) (stands : TypeRef → String → Prop) (given : List String)
    (names : Set String) : Prop where
  given : ∀ name ∈ given, name ∈ names
  held : ∀ name ∈ names, ∀ r, c.resource? name = some r → ∀ t ∈ c.fieldTypes r,
    ∀ held, stands t held → held ∈ names

/-- The embedded resource without a name is not listed, though a listed one has an instance of it
in the type of a field. -/
structure MissesUnnamed (c : Catalog) (listed : List String) : Prop where
  embedded : c.isEmbedded "" = true
  unlisted : "" ∉ listed
  inside : ∃ name ∈ listed, ∃ r, c.resource? name = some r ∧
    ∃ t ∈ c.fieldTypes r, c.Within t (.struct (some ""))

variable {c : Catalog} {names more listed : List String} {name held : String} {t : TypeRef}

theorem EmbedsNamed.embeds (h : c.EmbedsNamed t name) : c.Embeds t name :=
  ⟨h.1.imp_right And.left, h.2⟩

theorem mem_embeddedIn_iff {r : Resource} (found : c.resource? name = some r) :
    held ∈ c.embeddedIn name ↔ ∃ t ∈ c.fieldTypes r, c.EmbedsNamed t held := by
  rw [mem_embeddedIn found]
  refine exists_congr fun t => and_congr_right fun _ => ?_
  rw [EmbedsNamed, ← mem_mentions_resource, ← mem_mentions_instance]
  constructor
  · rintro ⟨m, mentioned, shown⟩
    obtain ⟨rfl | ⟨rfl, named⟩, embedded⟩ := embeddedMention?_iff.1 shown
    · exact ⟨Or.inl mentioned, embedded⟩
    · exact ⟨Or.inr ⟨mentioned, named⟩, embedded⟩
  · rintro ⟨mentioned | ⟨mentioned, named⟩, embedded⟩
    · exact ⟨_, mentioned, embeddedMention?_iff.2 ⟨Or.inl rfl, embedded⟩⟩
    · exact ⟨_, mentioned, embeddedMention?_iff.2 ⟨Or.inr ⟨rfl, named⟩, embedded⟩⟩

/-! ### What comes first -/

theorem addNames_new (h : (names ++ more).Nodup) : more.foldl addName names = names ++ more := by
  induction more generalizing names with
  | nil => rw [List.foldl_nil, List.append_nil]
  | cons name more ih =>
    have absent : name ∉ names := fun member => List.disjoint_of_nodup_append h member (.head _)
    have added : addName names name = names ++ [name] :=
      if_neg fun present => absent (List.contains_iff_mem.1 present)
    rw [List.append_cons] at h
    rw [List.foldl_cons, added, ih h, ← List.append_cons]

theorem addNames_eraseDups (names : List String) : names.foldl addName [] = names.eraseDups := by
  induction names using List.reverseRecOn with
  | nil => rfl
  | append_singleton names name ih =>
    rw [List.foldl_append, List.foldl_cons, List.foldl_nil, ih, List.eraseDups_append, addName,
      List.cons_removeAll, List.nil_removeAll]
    have same : names.eraseDups.contains name = names.contains name := by
      rw [Bool.eq_iff_iff, List.contains_iff_mem, List.contains_iff_mem, List.mem_eraseDups]
    rw [same]
    cases names.contains name with
    | true => exact (List.append_nil _).symm
    | false => rfl

theorem expose_extends {n place : Nat} : listed <+: c.expose n place listed := by
  induction n generalizing place listed with
  | zero => exact List.prefix_rfl
  | succ n ih =>
    rw [expose]
    split
    · exact List.prefix_rfl
    · exact addNames_extends.trans ih

theorem withEmbedded_extends : names.eraseDups <+: c.withEmbedded names := by
  rw [withEmbedded, ← addNames_eraseDups]
  exact expose_extends

/-! ### No more than it must -/

theorem withEmbedded_encloses :
    c.Encloses c.EmbedsNamed names {name | name ∈ c.withEmbedded names} where
  given := fun _ => withEmbedded_given
  held := by
    intro name listed r found t field held embeds
    exact withEmbedded_closed listed ((mem_embeddedIn_iff found).2 ⟨t, field, embeds⟩)

theorem Encloses.withEmbedded_subset {within : Set String}
    (h : c.Encloses c.EmbedsNamed names within) : {name | name ∈ c.withEmbedded names} ⊆ within := by
  intro name listed
  induction mem_withEmbedded.1 listed with
  | given member => exact h.given _ member
  | @held name held holder holds ih =>
    cases found : c.resource? name with
    | none =>
      rw [embeddedIn, found] at holds
      exact absurd holds List.not_mem_nil
    | some r =>
      obtain ⟨t, field, embeds⟩ := (mem_embeddedIn_iff found).1 holds
      exact h.held name (ih (mem_withEmbedded.2 holder)) r found t field held embeds

/-- Without a miss the list holds whatever stands in its types. -/
theorem withEmbedded_encloses_all (h : ¬ c.MissesUnnamed (c.withEmbedded names)) :
    c.Encloses c.Embeds names {name | name ∈ c.withEmbedded names} where
  given := fun _ => withEmbedded_given
  held := by
    rintro name listed r found t field held ⟨inside, embedded⟩
    have enclosed := withEmbedded_encloses.held name listed r found t field held
    by_cases named : held = ""
    · subst named
      rcases inside with direct | through
      · exact enclosed ⟨Or.inl direct, embedded⟩
      · by_contra unlisted
        exact h ⟨embedded, unlisted, name, listed, r, found, t, field, through⟩
    · exact enclosed ⟨inside.imp_right fun through => ⟨through, named⟩, embedded⟩

theorem Encloses.not_missesUnnamed (h : c.Encloses c.Embeds names {name | name ∈ listed}) :
    ¬ c.MissesUnnamed listed := by
  rintro ⟨embedded, unlisted, name, member, r, found, t, field, through⟩
  exact unlisted (h.held name member r found t field "" ⟨Or.inr through, embedded⟩)

/-! ### Once and again -/

theorem withEmbedded_mono (within : names ⊆ more) : c.withEmbedded names ⊆ c.withEmbedded more := by
  have given : ∀ name ∈ names, name ∈ c.withEmbedded more :=
    fun _ member => withEmbedded_given (within member)
  have enclosed : c.Encloses c.EmbedsNamed names {name | name ∈ c.withEmbedded more} :=
    ⟨given, withEmbedded_encloses.held⟩
  exact enclosed.withEmbedded_subset

theorem withEmbedded_again : c.withEmbedded (c.withEmbedded names) = c.withEmbedded names := by
  have distinct : (c.withEmbedded names).Nodup := (looked_withEmbedded c names).nodup
  have front : (c.withEmbedded names).eraseDups <+: c.withEmbedded (c.withEmbedded names) :=
    withEmbedded_extends
  rw [← addNames_eraseDups, addNames_new distinct, List.nil_append] at front
  have nothing : c.withEmbedded (c.withEmbedded names) ⊆ c.withEmbedded names := by
    have enclosed : c.Encloses c.EmbedsNamed (c.withEmbedded names)
        {name | name ∈ c.withEmbedded names} :=
      ⟨fun _ member => member, withEmbedded_encloses.held⟩
    exact enclosed.withEmbedded_subset
  have longest := (looked_withEmbedded c (c.withEmbedded names)).nodup.length_le_of_subset nothing
  exact (front.eq_of_length_le longest).symm

/-- Listing is a closure. The list has the given names in front, none twice, and is the least set
with them and with what its resources hold by name; it is the least one with all that they hold,
unless it misses the resource without a name. Listing again gives the same list, and from more
names comes no less. -/
theorem withEmbedded_closure (c : Catalog) (names : List String) :
    names.eraseDups <+: c.withEmbedded names ∧ (c.withEmbedded names).Nodup ∧
    IsLeast {set | c.Encloses c.EmbedsNamed names set} {name | name ∈ c.withEmbedded names} ∧
    (IsLeast {set | c.Encloses c.Embeds names set} {name | name ∈ c.withEmbedded names} ↔
      ¬ c.MissesUnnamed (c.withEmbedded names)) ∧
    c.withEmbedded (c.withEmbedded names) = c.withEmbedded names ∧
    ∀ more, names ⊆ more → c.withEmbedded names ⊆ c.withEmbedded more := by
  refine ⟨withEmbedded_extends, (looked_withEmbedded c names).nodup, ?_, ?_, withEmbedded_again,
    fun more => withEmbedded_mono⟩
  · exact ⟨withEmbedded_encloses, fun set encloses => encloses.withEmbedded_subset⟩
  · refine ⟨fun least => least.1.not_missesUnnamed, fun complete => ?_⟩
    refine ⟨withEmbedded_encloses_all complete, fun set encloses => ?_⟩
    have named : c.Encloses c.EmbedsNamed names set := by
      refine ⟨encloses.given, ?_⟩
      intro name member r found t field held embeds
      exact encloses.held name member r found t field held embeds.embeds
    exact named.withEmbedded_subset

/-- A trip with an instance of an embedded resource that has no name. -/
def unnamedStop : Catalog :=
  ⟨[{ name := "Trip", attributes := [{ name := "stop", type := .struct (some "") }] },
    { Travel.stop with name := "" }], []⟩

/-- The stop without a name is not listed, so the list is not the least one with all it holds. -/
theorem unnamedStop_missed : unnamedStop.withEmbedded ["Trip"] = ["Trip"] ∧
    ¬ IsLeast {set | unnamedStop.Encloses unnamedStop.Embeds ["Trip"] set}
      {name | name ∈ unnamedStop.withEmbedded ["Trip"]} := by
  have listed : unnamedStop.withEmbedded ["Trip"] = ["Trip"] := by with_unfolding_all rfl
  refine ⟨listed, fun least => (withEmbedded_closure unnamedStop ["Trip"]).2.2.2.1.1 least ?_⟩
  rw [listed]
  exact ⟨rfl, by decide, "Trip", .head _, _, rfl, _, .head _, .itself _⟩

end Catalog
end FieldPlan
