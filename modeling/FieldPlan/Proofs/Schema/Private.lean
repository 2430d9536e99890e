import FieldPlan.Proofs.Private
import FieldPlan.Schema.Definition

/-! Private fields in definitions. They are written, reached and turned down as if the private
fields were not there; the main result says this of plans and exposures as well. -/
namespace FieldPlan
namespace Schema

/-! ### Type expressions -/

section
variable (c : Catalog) (formatter : Formatter) (form : Form)

@[simp] theorem resourceExpr_publicOnly : resourceExpr c.publicOnly form = resourceExpr c form := by
  funext name
  rw [resourceExpr, resourceExpr, Catalog.resource?_publicOnly]
  cases c.resource? name <;> rfl

section
variable (ofStruct : String → Result TypeExpr)

mutual
theorem typeExprWith_publicOnly : ∀ t : TypeRef,
    typeExprWith c.publicOnly formatter form ofStruct t = typeExprWith c formatter form ofStruct t
  | .any => rfl
  | .primitive _ _ => rfl
  | .array item => by rw [typeExprWith, typeExprWith, typeExprWith_publicOnly item]
  | .map slots => by rw [typeExprWith, typeExprWith, slotExprs_publicOnly]
  | .keyword slots => by rw [typeExprWith, typeExprWith, slotExprs_publicOnly]
  | .tuple slots => by rw [typeExprWith, typeExprWith, slotExprs_publicOnly]
  | .struct none => rfl
  | .struct (some name) => by simp [typeExprWith]
  | .typedStruct _ => rfl
  | .union members => by rw [typeExprWith, typeExprWith, memberExprs_publicOnly]
  | .resource name => by simp [typeExprWith]

theorem slotExprs_publicOnly (names : List (String × String)) : ∀ slots : List (Slot TypeRef),
    slotExprs c.publicOnly formatter form ofStruct names slots =
      slotExprs c formatter form ofStruct names slots
  | [] => rfl
  | ⟨name, t, allowNil⟩ :: rest => by
    rw [slotExprs, slotExprs, typeExprWith_publicOnly t, slotExprs_publicOnly names rest]

theorem memberExprs_publicOnly : ∀ members : List (Member TypeRef),
    memberExprs c.publicOnly formatter form ofStruct members =
      memberExprs c formatter form ofStruct members
  | [] => rfl
  | ⟨name, t⟩ :: rest => by
    rw [memberExprs, memberExprs, typeExprWith_publicOnly t, memberExprs_publicOnly rest]
end

end

theorem structExprWithin_publicOnly (n : Nat) :
    structExprWithin c.publicOnly formatter form n = structExprWithin c formatter form n := by
  induction n with
  | zero => rfl
  | succ n ih =>
    funext name
    rw [structExprWithin, structExprWithin, Catalog.struct?_publicOnly, ih]
    simp only [slotExprs_publicOnly]

@[simp] theorem typeExpr_publicOnly :
    typeExpr c.publicOnly formatter form = typeExpr c formatter form := by
  funext t
  have structs : structExpr c.publicOnly formatter form = structExpr c formatter form :=
    structExprWithin_publicOnly c formatter form _
  rw [typeExpr, typeExpr, structs, typeExprWith_publicOnly]

end

/-! ### Reach -/

section
variable (c : Catalog) (e : Exposure)

@[simp] theorem admits_publicOnly : admits c.publicOnly e = admits c e := by
  funext name
  simp [admits]

@[simp] theorem mentioned_publicOnly (mentions : List Mention) :
    mentioned c.publicOnly mentions = mentioned c mentions := by
  induction mentions with
  | nil => rfl
  | cons mention rest ih => cases mention <;> simp [mentioned, ih]

@[simp] theorem typeResources_publicOnly : typeResources c.publicOnly = typeResources c := by
  funext t
  simp [typeResources]

theorem typesResources_publicOnly (types : List TypeRef) :
    typesResources c.publicOnly types = typesResources c types := by
  induction types with
  | nil => rfl
  | cons t rest ih => simp [typesResources, ih]

theorem summaryResources_publicOnly (r : Resource) (summaries : List Aggregate) :
    summaryResources c.publicOnly r.publicOnly summaries = summaryResources c r summaries := by
  induction summaries with
  | nil => rfl
  | cons a rest ih => simp [summaryResources, ih]

theorem references_publicOnly (r : Resource) :
    references c.publicOnly e r.publicOnly = references c e r := by
  simp [references, typesResources_publicOnly, summaryResources_publicOnly]

theorem admittedRoots_publicOnly (roots : List String) :
    admittedRoots c.publicOnly e roots = admittedRoots c e roots := by
  induction roots with
  | nil => rfl
  | cons root rest ih => simp [admittedRoots, ih]

theorem reachFrom_publicOnly (n : Nat) (queue : List String) (found : List Resource) :
    reachFrom c.publicOnly e n queue (found.map Resource.publicOnly) =
      (reachFrom c e n queue found).map (List.map Resource.publicOnly) := by
  induction n generalizing queue found with
  | zero => rfl
  | succ n ih =>
    have left : (fun name => (found.map Resource.publicOnly).any (·.name == name)) =
        fun name => found.any (·.name == name) := by
      funext name
      simp [List.any_map, Function.comp_def]
    rw [reachFrom, reachFrom, left]
    cases queue.dropWhile fun name => found.any (·.name == name) with
    | nil => rfl
    | cons name rest =>
      simp only [Catalog.resource?_publicOnly]
      cases c.resource? name with
      | none => rfl
      | some r =>
        simp only [Option.map_some, references_publicOnly]
        cases references c e r with
        | error fault => rfl
        | ok refs =>
          have later := ih (rest ++ refs) (found ++ [r])
          rw [List.map_append] at later
          exact later

theorem reachable_publicOnly (roots : List String) :
    reachable c.publicOnly e roots =
      (reachable c e roots).map (List.map Resource.publicOnly) := by
  rw [reachable, reachable, admittedRoots_publicOnly]
  cases admittedRoots c e roots with
  | error fault => rfl
  | ok queue =>
    have searched := reachFrom_publicOnly c e (c.resources.length + 1) queue []
    simpa [Catalog.publicOnly, bind, Except.bind] using searched

end

/-! ### Definitions -/

namespace Context
variable (x : Context)

def publicOnly : Context := { x with catalog := x.catalog.publicOnly }

@[simp] theorem publicOnly_catalog : x.publicOnly.catalog = x.catalog.publicOnly := rfl
@[simp] theorem publicOnly_exposure : x.publicOnly.exposure = x.exposure := rfl
@[simp] theorem publicOnly_formatter : x.publicOnly.formatter = x.formatter := rfl

@[simp] theorem publicOnly_admits : x.publicOnly.admits = x.admits :=
  admits_publicOnly x.catalog x.exposure

@[simp] theorem publicOnly_expr : x.publicOnly.expr = x.expr :=
  typeExpr_publicOnly x.catalog x.formatter .output

@[simp] theorem publicOnly_inputExpr : x.publicOnly.inputExpr = x.inputExpr :=
  typeExpr_publicOnly x.catalog x.formatter .input

@[simp] theorem publicOnly_kindOf (r : Resource) :
    x.publicOnly.kindOf r.publicOnly = x.kindOf r :=
  classify_publicOnly x.catalog r

@[simp] theorem publicOnly_external (r : Resource) :
    x.publicOnly.external r.publicOnly = x.external r := rfl

@[simp] theorem publicOnly_member (r : Resource) :
    x.publicOnly.member r.publicOnly = x.member r := rfl

@[simp] theorem publicOnly_aggregateType (r : Resource) :
    x.publicOnly.aggregateType r.publicOnly = x.aggregateType r := by
  funext a
  simp [aggregateType]

@[simp] theorem publicOnly_ofKind (r : Resource) :
    x.publicOnly.ofKind r.publicOnly = x.ofKind r := by
  funext name kinds part
  simp [ofKind]

@[simp] theorem publicOnly_ifAdmitted : x.publicOnly.ifAdmitted = x.ifAdmitted := by
  funext t m
  simp [ifAdmitted, referencesAdmitted]

@[simp] theorem publicOnly_plainMembers (r : Resource) :
    x.publicOnly.plainMembers r.publicOnly = x.plainMembers r := by
  have stored : x.publicOnly.plainAttribute r.publicOnly = x.plainAttribute r := by
    funext a
    simp [plainAttribute, valueMember]
  have derived : x.publicOnly.plainCalculation r.publicOnly = x.plainCalculation r := by
    funext a
    simp [plainCalculation, valueMember]
  have summed : x.publicOnly.plainAggregate r.publicOnly = x.plainAggregate r := by
    funext a
    simp [plainAggregate]
  simp [plainMembers, stored, derived, summed]

@[simp] theorem publicOnly_argumentMember : x.publicOnly.argumentMember = x.argumentMember := by
  funext a
  simp [argumentMember]

@[simp] theorem publicOnly_unionType : x.publicOnly.unionType = x.unionType := by
  funext members many
  have parts : x.publicOnly.unionMember = x.unionMember := by
    funext m
    simp [unionMember]
  simp [unionType, parts]

@[simp] theorem publicOnly_structuredMembers (r : Resource) :
    x.publicOnly.structuredMembers r.publicOnly = x.structuredMembers r := by
  have linked : x.publicOnly.linkMember r.publicOnly = x.linkMember r := by
    funext link
    simp [linkMember]
  have embedded : x.publicOnly.embeddedMember r.publicOnly = x.embeddedMember r := by
    funext a
    simp [embeddedMember]
  have derived : x.publicOnly.derivedCalculation r.publicOnly = x.derivedCalculation r := by
    funext a
    simp [derivedCalculation]
  have summed : x.publicOnly.derivedAggregate r.publicOnly = x.derivedAggregate r := by
    funext a
    simp [derivedAggregate]
  have joined : x.publicOnly.unionAttribute r.publicOnly = x.unionAttribute r := by
    funext a
    simp [unionAttribute]
  have structured : x.publicOnly.structuredAttribute r.publicOnly = x.structuredAttribute r := by
    funext a
    simp [structuredAttribute, valueMember]
  simp [structuredMembers, linked, embedded, derived, summed, joined, structured]

@[simp] theorem publicOnly_inputMember (r : Resource) :
    x.publicOnly.inputMember r.publicOnly = x.inputMember r := by
  funext a
  simp [inputMember]

@[simp] theorem publicOnly_fieldResource (shown : Resource) :
    x.publicOnly.fieldResource shown.publicOnly =
      Resource.publicOnly <$> x.fieldResource shown := by
  rw [fieldResource, fieldResource, publicOnly_catalog, Catalog.resource_publicOnly,
    Resource.publicOnly_name]
  cases x.catalog.resource shown.name <;> rfl

@[simp] theorem publicOnly_fieldNames (shown : Resource) :
    x.publicOnly.fieldNames shown.publicOnly = x.fieldNames shown := by
  simp [fieldNames]

@[simp] theorem publicOnly_resourceSchema (shown : Resource) :
    x.publicOnly.resourceSchema shown.publicOnly = x.resourceSchema shown := by
  simp [resourceSchema]

@[simp] theorem publicOnly_inputSchema (shown : Resource) :
    x.publicOnly.inputSchema shown.publicOnly = x.inputSchema shown := by
  simp [inputSchema]

@[simp] theorem publicOnly_definitions (shown : Resource) :
    x.publicOnly.definitions shown.publicOnly = x.definitions shown := by
  simp [definitions]

end Context

@[simp] theorem renderChunk_publicOnly (shown : Resource) :
    renderChunk shown.publicOnly = renderChunk shown := by
  funext ds
  rcases ds with _ | ⟨names, _ | ⟨schema, rest⟩⟩ <;> rfl

namespace Context

/-- All that can be asked for about one resource: its plain names, its schema, its input and
the text of its definitions. -/
def written (x : Context) (shown : Resource) :
    Result Definition × Result Definition × Result Definition × Result String :=
  (x.fieldNames shown, x.resourceSchema shown, x.inputSchema shown,
    (x.definitions shown).map (renderChunk shown))

theorem publicOnly_written (x : Context) (shown : Resource) :
    x.publicOnly.written shown.publicOnly = x.written shown := by
  simp [written]

theorem written_publicOnly (x : Context) (shown : Resource) :
    x.written shown.publicOnly = x.written shown := by
  rw [written, renderChunk_publicOnly]
  rfl

end Context

theorem gather_publicOnly (x : Context) (found : List Resource) :
    gather (fun r => (x.publicOnly.definitions r).map fun ds => some (r, ds))
        (found.map Resource.publicOnly) =
      (gather (fun r => (x.definitions r).map fun ds => some (r, ds)) found).map
        (List.map fun chunk => (chunk.1.publicOnly, chunk.2)) := by
  induction found with
  | nil => rfl
  | cons r rest ih =>
    rw [List.map_cons, gather, gather, Context.publicOnly_definitions, ih]
    cases x.definitions r with
    | error fault => rfl
    | ok ds =>
      cases gather (fun r => (x.definitions r).map fun ds => some (r, ds)) rest <;> rfl

theorem publicOnly_allDefinitions (x : Context) (roots : Option (List String)) :
    x.publicOnly.allDefinitions roots =
      (x.allDefinitions roots).map (List.map fun chunk => (chunk.1.publicOnly, chunk.2)) := by
  have standing : (x.catalog.publicOnly.resources.filter fun r => !r.embedded).map Resource.name =
      (x.catalog.resources.filter fun r => !r.embedded).map Resource.name := by
    simp [Catalog.publicOnly, List.filter_map, Function.comp_def]
  rw [Context.allDefinitions, Context.allDefinitions, Context.publicOnly_catalog, standing,
    Context.publicOnly_exposure, reachable_publicOnly]
  cases reachable x.catalog x.exposure _ with
  | error fault => rfl
  | ok found => exact gather_publicOnly x found

theorem publicOnly_document (x : Context) (roots : Option (List String)) :
    x.publicOnly.document roots = x.document roots := by
  rw [Context.document, Context.document, publicOnly_allDefinitions]
  cases x.allDefinitions roots with
  | error fault => rfl
  | ok chunks =>
    have same : (chunks.map fun chunk => (chunk.1.publicOnly, chunk.2)).map
        (fun chunk => renderChunk chunk.1 chunk.2) =
          chunks.map fun chunk => renderChunk chunk.1 chunk.2 := by
      rw [List.map_map]
      refine List.map_congr_left ?_
      intro chunk _
      exact congrFun (renderChunk_publicOnly chunk.1) chunk.2
    simp only [Except.map, bind, Except.bind, same]

end Schema

theorem Catalog.build_publicOnly (c : Catalog) :
    build c.publicOnly.resources c.publicOnly.structs =
      (build c.resources c.structs).map Catalog.publicOnly := by
  have checked (seen : List String) (resources : List Resource) :
      checkResources seen (resources.map Resource.publicOnly) = checkResources seen resources := by
    induction resources generalizing seen with
    | nil => rfl
    | cons r rest ih =>
      rw [List.map_cons, checkResources, checkResources, ih]
      rfl
  simp only [build, publicOnly, checked]
  cases checkResources [] c.resources with
  | error fault => rfl
  | ok _ => cases checkStructs [] c.structs <;> rfl

/-- A catalog without its private fields is admitted just if the catalog is, and then all answers
are the same: plans and rejections, exposures, types of aggregates and the text of definitions. -/
theorem private_fields_unseen (c : Catalog) (e : Exposure) (formatter : Formatter) :
    let x : Schema.Context := ⟨c, e, formatter⟩
    let x' : Schema.Context := ⟨c.publicOnly, e, formatter⟩
    Catalog.build c.publicOnly.resources c.publicOnly.structs =
        (Catalog.build c.resources c.structs).map Catalog.publicOnly ∧
      (∀ root action selection,
        plan c.publicOnly root action selection e = plan c root action selection e) ∧
      (∀ names, c.publicOnly.withEmbedded names = c.withEmbedded names) ∧
      (∀ r a, c.publicOnly.aggregateType r.publicOnly a = c.aggregateType r a) ∧
      (∀ shown, x'.written shown = x.written shown ∧
        x'.written shown.publicOnly = x.written shown) ∧
      ∀ roots, x'.document roots = x.document roots := by
  intro x x'
  have same : x' = x.publicOnly := rfl
  rw [same]
  refine ⟨c.build_publicOnly, ?_, ?_, ?_, ?_, ?_⟩
  · exact plan_publicOnly c e
  · intro names
    rw [Catalog.withEmbedded_publicOnly]
  · intro r a
    rw [Catalog.aggregateType_publicOnly]
  · intro shown
    constructor
    · rw [← x.publicOnly.written_publicOnly, x.publicOnly_written]
    · exact x.publicOnly_written shown
  · exact Schema.publicOnly_document x

end FieldPlan
