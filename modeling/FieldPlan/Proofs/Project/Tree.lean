import FieldPlan.Project.Host

/-! What effects change in a file tree: one file, and the directories on the way to it. -/
namespace FieldPlan
namespace Tree
variable {t made after : Tree} {place other : Place} {text : String}

/-- What holds of a tree after a file has been written at the path. -/
structure Written (t after : Tree) (p : Path) (text : String) : Prop where
  content : after.file? p.resolve.parts = some text
  others : ∀ place, place ≠ p.resolve.parts → after.file? place = t.file? place
  /-- The new directories are those that the path goes through. -/
  directories : ∀ place, after.isDirectory place = true ↔ t.isDirectory place = true ∨
    ∃ front, front <+: p.parts.dropLast ∧ place <+: front.foldl Path.step []
  /-- No file stands in their way. -/
  free : ∀ front, front <+: p.parts.dropLast →
    t.isDirectory (front.foldl Path.step []) = true ∨ t.file? (front.foldl Path.step []) = none

theorem isDirectory_iff :
    t.isDirectory place = true ↔ place = [] ∨ (∃ d ∈ t.directories, place <+: d) ∨
      ∃ key ∈ t.files.keys, place <+: key ∧ place.length < key.length := by
  simp [isDirectory, Table.keys, or_assoc]

theorem isDirectory_above (h : t.isDirectory place = true) (above : other <+: place) :
    t.isDirectory other = true := by
  rw [isDirectory_iff] at h ⊢
  rcases h with rfl | ⟨d, listed, below⟩ | ⟨key, present, below, longer⟩
  · exact Or.inl (List.prefix_nil.1 above)
  · exact Or.inr (Or.inl ⟨d, listed, above.trans below⟩)
  · have shorter := above.length_le
    exact Or.inr (Or.inr ⟨key, present, above.trans below, by omega⟩)

theorem isDirectory_withFile :
    (t.withFile place text).isDirectory other = true ↔ t.isDirectory other = true ∨
      other <+: place ∧ other.length < place.length := by
  have keys : (t.withFile place text).files.keys =
      if t.files.keys.contains place then t.files.keys else t.files.keys ++ [place] :=
    Table.keys_insertBy t.files place text
  have present (key : Place) :
      key ∈ (t.withFile place text).files.keys ↔ key ∈ t.files.keys ∨ key = place := by
    rw [keys]
    split
    · next old =>
      rw [List.contains_iff_mem] at old
      apply Iff.symm
      apply or_iff_left_of_imp
      intro same
      rw [same]
      exact old
    · rw [List.mem_append, List.mem_singleton]
  rw [isDirectory_iff, isDirectory_iff]
  simp only [present, or_and_right, exists_or, exists_eq_left]
  rw [← or_assoc, ← or_assoc, ← or_assoc, withFile]

/-- A file's place is no directory, and everything above it is one. -/
structure Stands (t : Tree) (p : Path) (place : Place) : Prop where
  resolved : place = p.resolve.parts
  free : t.isDirectory place = false
  above : ∀ other, other <+: place → other.length < place.length → t.isDirectory other = true
  way : ∀ front, front <+: p.parts.dropLast → t.isDirectory (front.foldl Path.step []) = true

variable {p : Path}

theorem Stands.isDirectory_withFile (h : t.Stands p place) (text : String) :
    (t.withFile place text).isDirectory other = t.isDirectory other := by
  rw [Bool.eq_iff_iff, Tree.isDirectory_withFile]
  apply or_iff_left_of_imp
  intro inside
  exact h.above other inside.1 inside.2

end Tree

/-! ### What effects touch -/

/-- At most the file at the path has changed, to an empty one or to the text, and directories on
the way to it have been made. -/
structure Tree.Touches (t after : Tree) (p : Path) (text : String) : Prop where
  content : after.file? p.resolve.parts = t.file? p.resolve.parts ∨
    after.file? p.resolve.parts = some "" ∨ after.file? p.resolve.parts = some text
  others : ∀ place, place ≠ p.resolve.parts → after.file? place = t.file? place
  keeps : ∀ place, t.isDirectory place = true → after.isDirectory place = true
  makes : ∀ place, after.isDirectory place = true → t.isDirectory place = true ∨
    ∃ front, front <+: p.parts.dropLast ∧ place <+: front.foldl Path.step []

namespace Tree
variable {t between made after : Tree} {p : Path} {place : Place} {text : String}

theorem Touches.refl (t : Tree) (p : Path) (text : String) : t.Touches t p text :=
  ⟨Or.inl rfl, fun _ _ => rfl, fun _ => id, fun _ => Or.inl⟩

theorem Touches.trans (first : t.Touches between p text) (second : between.Touches after p text) :
    t.Touches after p text := by
  refine ⟨?_, ?_, fun place old => second.keeps place (first.keeps place old), ?_⟩
  · rcases second.content with same | new
    · rw [same]
      exact first.content
    · exact Or.inr new
  · intro place other
    exact (second.others place other).trans (first.others place other)
  · intro place new
    rcases second.makes place new with old | way
    · exact first.makes place old
    · exact Or.inr way

theorem Stands.content (h : t.Stands p place) (text : String) :
    (t.withFile place text).file? p.resolve.parts = some text := by
  rw [← h.resolved, file?_withFile, beq_self_eq_true, if_pos rfl]

theorem Stands.others (h : t.Stands p place) (text : String) {other : Place}
    (apart : other ≠ p.resolve.parts) : (t.withFile place text).file? other = t.file? other := by
  rw [← h.resolved, ← bne_iff_ne, bne, Bool.not_eq_true'] at apart
  rw [file?_withFile, apart, if_neg Bool.false_ne_true]

theorem Stands.written (h : made.Stands p place) (text : String)
    (touched : t.Touches made p text) (files : ∀ place, made.file? place = t.file? place)
    (free : ∀ front, front <+: p.parts.dropLast →
      t.isDirectory (front.foldl Path.step []) = true ∨ t.file? (front.foldl Path.step []) = none) :
    t.Written ((made.withFile place "").withFile place text) p text := by
  have opened : (made.withFile place "").Stands p place :=
    ⟨h.resolved, by rw [h.isDirectory_withFile, h.free],
      fun other above shorter => by rw [h.isDirectory_withFile, h.above other above shorter],
      fun front short => by rw [h.isDirectory_withFile, h.way front short]⟩
  refine ⟨opened.content text, ?_, ?_, free⟩
  · intro other apart
    rw [opened.others text apart, h.others "" apart, files]
  · intro other
    rw [opened.isDirectory_withFile, h.isDirectory_withFile]
    refine ⟨touched.makes other, ?_⟩
    rintro (old | ⟨front, short, below⟩)
    · exact touched.keeps other old
    · exact isDirectory_above (h.way front short) below

end Tree

namespace Effect
variable {host : Host} {t after : Tree} {p : Path} {text line : String}
variable {refusal : Option Breakdown} {effect : Effect} {effects : List Effect}

end Effect
end FieldPlan
