import FieldPlan.Load
import FieldPlan.Yaml.Node

/-! The value of a document. A merge key brings in the entries of other mappings, which
the mapping's own entries override; lists and mappings cannot be keys. -/
namespace FieldPlan.Yaml

def isKey : Value → Bool
  | .list _ => false
  | .mapping _ => false
  | _ => true

structure Entries where
  merged : List (Value × Value)
  own : List (Value × Value)

def Entries.all (e : Entries) : List (Value × Value) := e.merged ++ e.own

namespace Node

def isMerge : Node → Bool
  | .scalar .merge _ => true
  | _ => false

mutual
def value? : Node → Option Value
  | .scalar tag text => tag.value? text
  | .sequence tag items => if tag = .seq then (values? items).map .list else none
  | .mapping tag entries =>
    if tag = .map then (entries? entries).map fun e => .ofPairs e.all else none

def values? : List Node → Option (List Value)
  | [] => some []
  | item :: rest => do return (← value? item) :: (← values? rest)

def key? : Node → Option Value
  | .scalar .default text => some (.str text)
  | node => do
    let key ← value? node
    if isKey key then some key else none

def entries? : List (Node × Node) → Option Entries
  | [] => some ⟨[], []⟩
  | (key, item) :: rest =>
    if isMerge key then do
      let brought ← merged? item
      let others ← entries? rest
      return { others with merged := brought ++ others.merged }
    else do
      let key ← key? key
      let value ← value? item
      let others ← entries? rest
      return { others with own := (key, value) :: others.own }

/-- The entries that a merge brings in; of a list the last mapping comes first, so
that the earlier ones override it. -/
def merged? : Node → Option (List (Value × Value))
  | .mapping _ entries => (entries? entries).map Entries.all
  | .sequence _ items => mergedAll? items
  | .scalar _ _ => none

def mergedAll? : List Node → Option (List (Value × Value))
  | [] => some []
  | .mapping _ entries :: rest => do
    let first ← entries? entries
    let others ← mergedAll? rest
    return others ++ first.all
  | _ :: _ => none
end

end Node

/-! ### What goes wrong -/

/-- Why a text has no value: it is not well formed, or one of its scalars has the tag of truth
values, numbers or times and is none of them. -/
inductive Failure where
  | malformed
  | unread (tag : Tag) (text : String)
  deriving DecidableEq, Repr

/-- What goes wrong at each depth of a tree, at each from left to right. Values are made level
by level: what a list or a mapping holds is looked at when all of its own level is done. -/
abbrev Levels := List (List Failure)

def Levels.beside : Levels → Levels → Levels
  | [], others => others
  | levels, [] => levels
  | level :: levels, other :: others => (level ++ other) :: Levels.beside levels others

/-- What goes wrong in a mapping: when other mappings are brought into it, then in their entries,
then in its own. -/
structure MappingLevels where
  merging : List Failure
  merged : Levels
  own : Levels

def MappingLevels.all (m : MappingLevels) : Levels :=
  Levels.beside [m.merging] (m.merged.beside m.own)

namespace Node

/-- A tag of a kind of node that this one is not. If it is that of lists or of mappings, this is
noticed when what the node holds is looked at. -/
def misplaced (tag : Tag) : Levels :=
  if tag = .seq ∨ tag = .map then [[], [.malformed]] else [[.malformed]]

def scalarLevels (tag : Tag) (text : String) : Levels :=
  if (tag.value? text).isSome then []
  else if tag ∈ [Tag.bool, .int, .float, .time] then [[.unread tag text]]
  else misplaced tag

def keyLevels : Node → Levels
  | .scalar .default _ => []
  | .scalar tag text => [(scalarLevels tag text).flatten]
  | _ => [[.malformed]]

mutual
def levels : Node → Levels
  | .scalar tag text => scalarLevels tag text
  | .sequence tag items => if tag = .seq then [] :: itemLevels items else misplaced tag
  | .mapping tag entries => if tag = .map then [] :: (entryLevels entries).all else misplaced tag

def itemLevels : List Node → Levels
  | [] => []
  | item :: rest => (levels item).beside (itemLevels rest)

def entryLevels : List (Node × Node) → MappingLevels
  | [] => ⟨[], [], []⟩
  | (key, item) :: rest =>
    let others := entryLevels rest
    if isMerge key then
      let (merging, merged) := mergedLevels item
      ⟨merging ++ others.merging, merged.beside others.merged, others.own⟩
    else { others with own := (keyLevels key).beside ((levels item).beside others.own) }

def mergedLevels : Node → List Failure × Levels
  | .mapping _ entries =>
    let m := entryLevels entries
    (m.merging, m.merged.beside m.own)
  | .sequence _ items => mergedAllLevels items
  | .scalar _ _ => ([.malformed], [])

def mergedAllLevels : List Node → List Failure × Levels
  | [] => ([], [])
  | .mapping _ entries :: rest =>
    let m := entryLevels entries
    let (merging, merged) := mergedAllLevels rest
    (m.merging ++ merging, merged.beside (m.merged.beside m.own))
  | _ :: _ => ([.malformed], [])
end

def read (node : Node) : Except Failure Value :=
  match node.value? with
  | some v => .ok v
  | none => .error (node.levels.flatten.head?.getD .malformed)

end Node

def read (text : String) : Except Failure Value :=
  match Node.parse? text with
  | some root => root.read
  | none => .error .malformed

/-- A scalar without a value stops the reader. -/
def Failure.stop : Failure → Load.Failure
  | .malformed => .malformed
  | .unread _ scalar => .stopped scalar

def load : Load := fun text => (read text).mapError Failure.stop

end FieldPlan.Yaml
