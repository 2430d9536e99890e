import FieldPlan.Plan

/-! Plans read back from their documents. A bare name, a name with items and a call have
documents of three shapes, and what stands under `args` is copied, whatever it holds. So no two
plans have one document. -/
namespace FieldPlan

namespace Plan

def argument? (entry : Value × Value) : Option (String × Value) :=
  entry.1.str?.map fun name => (name, entry.2)

mutual
def loadItem? : Value → Option LoadItem
  | .str name => some (.field name)
  | .mapping [(.str name, .list items)] => (loadItems? items).map (.nested name)
  | .mapping [(.str name, .mapping [(.str "args", .mapping args)])] =>
    (args.mapM argument?).map fun args => .call name args []
  | .mapping [(.str name, .mapping [(.str "args", .mapping args), (.str "fields", .list fields)])] => do
    return .call name (← args.mapM argument?) (← loadItems? fields)
  | _ => none

def loadItems? : List Value → Option (List LoadItem)
  | [] => some []
  | item :: rest => do return (← loadItem? item) :: (← loadItems? rest)
end

mutual
def templateItem? : Value → Option TemplateItem
  | .str name => some (.field name)
  | .mapping [(.str name, .list items)] => (templateItems? items).map (.nested name)
  | _ => none

def templateItems? : List Value → Option (List TemplateItem)
  | [] => some []
  | item :: rest => do return (← templateItem? item) :: (← templateItems? rest)
end

end Plan

def Level.ofDocument? (document : Value) : Option Level :=
  match document with
  | .mapping [(.str "select", .list names), (.str "load", .list load),
      (.str "template", .list template)] => do
    return ⟨← names.mapM Value.str?, ← Plan.loadItems? load, ← Plan.templateItems? template⟩
  | _ => none

namespace Plan

theorem mapM_back {α β : Type} (f : β → Option α) (g : α → β) (back : ∀ a, f (g a) = some a)
    (items : List α) : (items.map g).mapM f = some items := by
  induction items with
  | nil => rfl
  | cons a rest ih =>
    rw [List.map_cons, List.mapM_cons, back, ih]
    rfl

theorem arguments_back (args : List (String × Value)) :
    (args.map fun arg => (Value.str arg.1, arg.2)).mapM argument? = some args :=
  mapM_back argument? (fun arg => (Value.str arg.1, arg.2)) (fun _ => rfl) args

/-! ### Items -/

theorem itemDocument_nested (name : String) (items : List LoadItem) :
    itemDocument (loadValue (.nested name items)) =
      .mapping [(.str name, .list (itemDocuments (loadValues items)))] := by
  rw [loadValue, pair, itemDocument]

theorem itemDocument_call (name : String) (args : List (String × Value)) :
    itemDocument (loadValue (.call name args [])) =
      .mapping [(.str name, .mapping
        [(.str "args", .mapping (args.map fun arg => (.str arg.1, arg.2)))])] := by
  simp only [loadValue, pair, itemDocument, entryDocuments]

theorem itemDocument_call_fields (name : String) (args : List (String × Value))
    (first : LoadItem) (rest : List LoadItem) :
    itemDocument (loadValue (.call name args (first :: rest))) =
      .mapping [(.str name, .mapping
        [(.str "args", .mapping (args.map fun arg => (.str arg.1, arg.2))),
          (.str "fields", .list (itemDocuments (loadValues (first :: rest))))])] := by
  simp only [loadValue, pair, itemDocument, entryDocuments]

mutual
theorem loadItem_back : (item : LoadItem) →
    loadItem? (itemDocument (loadValue item)) = some item
  | .field name => rfl
  | .nested name items => by
    rw [itemDocument_nested, loadItem?, loadItems_back items]
    rfl
  | .call name args [] => by
    rw [itemDocument_call, loadItem?, arguments_back]
    rfl
  | .call name args (first :: rest) => by
    rw [itemDocument_call_fields, loadItem?, arguments_back, loadItems_back (first :: rest)]
    rfl

theorem loadItems_back : (items : List LoadItem) →
    loadItems? (itemDocuments (loadValues items)) = some items
  | [] => rfl
  | item :: rest => by
    rw [loadValues, itemDocuments, loadItems?, loadItem_back item, loadItems_back rest]
    rfl
end

mutual
theorem templateItem_back : (item : TemplateItem) →
    templateItem? (itemDocument (templateValue item)) = some item
  | .field name => rfl
  | .nested name items => by
    rw [templateValue, pair, itemDocument, templateItem?, templateItems_back items]
    rfl

theorem templateItems_back : (items : List TemplateItem) →
    templateItems? (itemDocuments (templateValues items)) = some items
  | [] => rfl
  | item :: rest => by
    rw [templateValues, itemDocuments, templateItems?, templateItem_back item,
      templateItems_back rest]
    rfl
end

end Plan

namespace Level

theorem ofDocument?_document (p : Level) : ofDocument? p.document = some p := by
  have names : (p.select.map Value.str).mapM Value.str? = some p.select :=
    Plan.mapM_back Value.str? Value.str (fun _ => rfl) p.select
  rw [document, Plan.documentOf, ofDocument?, names, Plan.loadItems_back,
    Plan.templateItems_back]
  rfl

/-- Every plan can be read back from its document, arguments and all, so that the document
determines the plan. -/
theorem document_determines (p : Level) :
    ofDocument? p.document = some p ∧ ∀ q : Level, p.document = q.document ↔ p = q := by
  refine ⟨ofDocument?_document p, ?_⟩
  intro q
  constructor
  · intro same
    have read := ofDocument?_document p
    rw [same, ofDocument?_document q] at read
    exact (Option.some.inj read).symm
  · intro same
    rw [same]

end Level
end FieldPlan
