import FieldPlan.Value

/-! Plans: the fields to select, the fields to load and the shape of the result, for
one level and all levels below it. As a document an item with nested items is a
mapping of one key. -/
namespace FieldPlan

inductive LoadItem where
  | field (name : String)
  | nested (name : String) (items : List LoadItem)
  /-- A calculation with its arguments and what to fetch of its value. -/
  | call (name : String) (args : List (String × Value)) (fields : List LoadItem)

inductive TemplateItem where
  | field (name : String)
  | nested (name : String) (items : List TemplateItem)

namespace LoadItem

def name : LoadItem → String
  | .field n => n
  | .nested n _ => n
  | .call n _ _ => n

end LoadItem

namespace TemplateItem

def name : TemplateItem → String
  | .field n => n
  | .nested n _ => n

end TemplateItem

/-- What one level of a selection asks for. -/
structure Level where
  select : List String
  load : List LoadItem
  template : List TemplateItem

namespace Level

def empty : Level := ⟨[], [], []⟩

instance : Append Level :=
  ⟨fun a b => ⟨a.select ++ b.select, a.load ++ b.load, a.template ++ b.template⟩⟩

@[simp] theorem append_select (a b : Level) : (a ++ b).select = a.select ++ b.select := rfl
@[simp] theorem append_load (a b : Level) : (a ++ b).load = a.load ++ b.load := rfl
@[simp] theorem append_template (a b : Level) :
    (a ++ b).template = a.template ++ b.template := rfl

theorem append_assoc (a b d : Level) : a ++ b ++ d = a ++ (b ++ d) := by
  change Level.mk _ _ _ = Level.mk _ _ _
  simp only [append_select, append_load, append_template, List.append_assoc]

def fetched (l : Level) : List LoadItem := l.select.map LoadItem.field ++ l.load

end Level

namespace Plan

def pair (name : String) (v : Value) : Value := .tuple [.str name, v]

mutual
def loadValue : LoadItem → Value
  | .field name => .str name
  | .nested name items => pair name (.list (loadValues items))
  | .call name args fields =>
    let argsEntry := (.str "args", .mapping (args.map fun arg => (.str arg.1, arg.2)))
    match fields with
    | [] => pair name (.mapping [argsEntry])
    | _ => pair name (.mapping [argsEntry, (.str "fields", .list (loadValues fields))])

def loadValues : List LoadItem → List Value
  | [] => []
  | item :: rest => loadValue item :: loadValues rest
end

mutual
def templateValue : TemplateItem → Value
  | .field name => .str name
  | .nested name items => pair name (.list (templateValues items))

def templateValues : List TemplateItem → List Value
  | [] => []
  | item :: rest => templateValue item :: templateValues rest
end

mutual
/-- Pairs become mappings of one key, with the lists inside them. Anything else,
argument values among it, stays as it is. -/
def itemDocument : Value → Value
  | .tuple [name, .list items] => .mapping [(name, .list (itemDocuments items))]
  | .tuple [name, .mapping entries] => .mapping [(name, .mapping (entryDocuments entries))]
  | .tuple [name, v] => .mapping [(name, v)]
  | v => v

def itemDocuments : List Value → List Value
  | [] => []
  | item :: rest => itemDocument item :: itemDocuments rest

def entryDocuments : List (Value × Value) → List (Value × Value)
  | [] => []
  | (key, .list items) :: rest => (key, .list (itemDocuments items)) :: entryDocuments rest
  | (key, v) :: rest => (key, v) :: entryDocuments rest
end

def documentOf (select load template : List Value) : Value :=
  .mapping [(.str "select", .list select), (.str "load", .list (itemDocuments load)),
    (.str "template", .list (itemDocuments template))]

end Plan

def Level.document (l : Level) : Value :=
  Plan.documentOf (l.select.map Value.str) (Plan.loadValues l.load)
    (Plan.templateValues l.template)

end FieldPlan
