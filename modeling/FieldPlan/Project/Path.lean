import FieldPlan.Text.Split

/-! Paths: names between slashes. Empty parts and single dots say nothing; a double
dot leads one level up and is kept until the path is resolved. -/
namespace FieldPlan

structure Path where
  isAbsolute : Bool
  parts : List String
  deriving DecidableEq, Repr

namespace Path

def ofText (text : String) : Path :=
  ⟨text.toList.head? == some '/',
    ((Text.split '/' text.toList).map String.ofList).filter fun part => part != "" && part != "."⟩

def text (p : Path) : String :=
  let joined := "/".intercalate p.parts
  if p.isAbsolute then "/" ++ joined else if p.parts.isEmpty then "." else joined

def under (base p : Path) : Path :=
  if p.isAbsolute then p else { base with parts := base.parts ++ p.parts }

def step (place : List String) (part : String) : List String :=
  if part == ".." then place.dropLast else place ++ [part]

/-- Without double dots, each one taking away the part before it. -/
def resolve (p : Path) : Path := { p with parts := p.parts.foldl step [] }

end Path
end FieldPlan
