import FieldPlan.Catalog.Document
import FieldPlan.Catalog.Source
import FieldPlan.Project.Tree
import FieldPlan.Yaml

/-! What commands have around them, and what they do to it. An effect can be refused; the
directories that have been made till then stay, and so does a file that has been emptied. -/
namespace FieldPlan

/-- The readers of documents and catalogs, and what files and the terminal take. -/
structure Host where
  load : Load
  validate : Catalog.Validate
  isName : String → Bool
  isContent : String → Bool
  isPrintable : String → Bool

namespace Host

/-- Files with texts of any characters, under names of all characters but the zero. -/
def usual : Host where
  load := Yaml.load
  validate := Check.catalog
  isName name := !name.toList.contains '\x00'
  isContent _ := true
  isPrintable _ := true

variable (host : Host) (t : Tree)

def takes (p : Path) : Bool := p.parts.all host.isName

/-- A path that no file can have leads to nothing. -/
def finds (p : Path) : Bool := host.takes p && t.isThere p

def read (p : Path) : Except Tree.Obstacle String :=
  if !host.takes p then .error (.breakdown .name)
  else do
    let text ← t.read p
    if host.isContent text then return text else throw (.breakdown .content)

end Host

/-! ### Effects -/

inductive Effect where
  | makeDirectories (p : Path)
  /-- Opens a file to write it anew, which empties it. -/
  | openFile (p : Path)
  | write (p : Path) (text : String)
  | print (text : String)
  deriving DecidableEq, Repr

namespace Effect
variable (host : Host) (t : Tree)

/-- The tree after an effect, and why it has been refused if it has. -/
def apply : Effect → Tree × Option Breakdown
  | .makeDirectories p =>
    if !host.takes p then (t, some .name)
    else match t.withDirectories [] p.parts with
      | (made, some _) => (made, none)
      | (made, none) => (made, some .refused)
  | .openFile p =>
    if !host.takes p then (t, some .name)
    else match t.fileAt? p with
      | some place => (t.withFile place "", none)
      | none => (t, some .refused)
  | .write p text =>
    if !host.isContent text then (t, some .content)
    else match t.fileAt? p with
      | some place => (t.withFile place text, none)
      | none => (t, some .refused)
  | .print text => (t, if host.isPrintable text then none else some .output)

/-- One effect after the other, up to the first that is refused. -/
def run (t : Tree) : List Effect → Tree × Option Breakdown
  | [] => (t, none)
  | effect :: rest =>
    match effect.apply host t with
    | (after, none) => run after rest
    | (after, some b) => (after, some b)

end Effect
end FieldPlan
