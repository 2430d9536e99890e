import FieldPlan.Breakdown
import FieldPlan.Project.Path
import FieldPlan.Table

/-! File trees. A place is the list of names on the way to it from the root; a
directory is there if it is listed or if anything lies below it. -/
namespace FieldPlan

abbrev Place := List String

structure Tree where
  files : Table Place String
  directories : List Place
  deriving DecidableEq, Repr

namespace Tree

inductive Obstacle where
  | absent
  | noDirectory
  | isDirectory
  | breakdown (b : Breakdown)
  deriving DecidableEq, Repr

def empty : Tree := ⟨[], []⟩

def file? (t : Tree) (place : Place) : Option String := Table.get? t.files place

def isDirectory (t : Tree) (place : Place) : Bool :=
  place.isEmpty || t.directories.any place.isPrefixOf ||
    t.files.any fun entry => place.isPrefixOf entry.1 && place.length < entry.1.length

def enter (t : Tree) (place : Place) (part : String) : Except Obstacle Place :=
  if t.isDirectory place then .ok (Path.step place part)
  else .error (if (t.file? place).isSome then .noDirectory else .absent)

def locate (t : Tree) (p : Path) : Except Obstacle Place := p.parts.foldlM t.enter []

def read (t : Tree) (p : Path) : Except Obstacle String := do
  let place ← t.locate p
  match t.file? place with
  | some text => return text
  | none => throw (if t.isDirectory place then .isDirectory else .absent)

def isThere (t : Tree) (p : Path) : Bool :=
  match t.locate p with
  | .ok place => (t.file? place).isSome || t.isDirectory place
  | .error _ => false

/-- Makes a directory unless there is one; none if a file is there. -/
def withDirectory (t : Tree) (place : Place) : Option Tree :=
  if t.isDirectory place then some t
  else if (t.file? place).isSome then none
  else some { t with directories := t.directories ++ [place] }

/-- Makes all directories on a path, and gives the place at its end if nothing was in the way.
What has been made before that stays. -/
def withDirectories (t : Tree) : Place → List String → Tree × Option Place
  | place, [] => (t, some place)
  | place, part :: rest =>
    let next := Path.step place part
    match t.withDirectory next with
    | some t => t.withDirectories next rest
    | none => (t, none)

def withFile (t : Tree) (place : Place) (text : String) : Tree :=
  { t with files := Table.insertBy (· == ·) place text t.files }

theorem file?_withFile (t : Tree) (place other : Place) (text : String) :
    (t.withFile place text).file? other = if other == place then some text else t.file? other :=
  Table.get?_insertBy t.files place other text

/-- The place where a file can be written: no directory, and in one that is there. -/
def fileAt? (t : Tree) (p : Path) : Option Place :=
  match t.locate p with
  | .ok place => if t.isDirectory place then none else some place
  | .error _ => none

end Tree
end FieldPlan
