import FieldPlan.Breakdown
import FieldPlan.Resource

/-! The catalog: resources and typed structs by name. It is admitted only if no two
resources and no two structs share a name and no name mapping gives one
external name to two internal ones. -/
namespace FieldPlan

structure Catalog where
  resources : List Resource
  structs : List StructDef

namespace Catalog

inductive NameOwner where
  | resource (name : String)
  | struct (name : String)
  | action (name resource : String)
  deriving DecidableEq, Repr

inductive Fault where
  | duplicateResource (name : String)
  | duplicateStruct (name : String)
  | repeatedExternal (external : String) (owner : NameOwner)
  | unknownResource (name : String)
  | unknownStruct (name : String)
  deriving DecidableEq, Repr

def NameOwner.describe : NameOwner → String
  | .resource name => "field names of resource '" ++ name ++ "'"
  | .struct name => "field names of typed struct '" ++ name ++ "'"
  | .action name owner =>
    "argument names of action '" ++ name ++ "' on resource '" ++ owner ++ "'"

def Fault.message : Fault → String
  | .duplicateResource name => "Duplicate resource name '" ++ name ++ "'"
  | .duplicateStruct name => "Duplicate typed struct name '" ++ name ++ "'"
  | .repeatedExternal external owner =>
    "External name '" ++ external ++ "' is used twice in " ++ owner.describe
  | .unknownResource name => "Resource '" ++ name ++ "' is not part of the catalog"
  | .unknownStruct name => "Typed struct '" ++ name ++ "' is not part of the catalog"

def firstRepeated (seen : List String) : List String → Option String
  | [] => none
  | name :: rest => if seen.contains name then some name else firstRepeated (name :: seen) rest

def checkMapping (owner : NameOwner) (mapping : List (String × String)) : Except Fault Unit :=
  match firstRepeated [] (mapping.map (·.2)) with
  | some external => .error (.repeatedExternal external owner)
  | none => .ok ()

def mappings (r : Resource) : List (NameOwner × List (String × String)) :=
  (.resource r.name, r.fieldNames) ::
    r.argumentNames.map fun entry => (.action entry.1 r.name, entry.2)

def checkResources (seen : List String) : List Resource → Except Fault Unit
  | [] => .ok ()
  | r :: rest =>
    if seen.contains r.name then .error (.duplicateResource r.name)
    else do
      (mappings r).forM fun entry => checkMapping entry.1 entry.2
      checkResources (r.name :: seen) rest

def checkStructs (seen : List String) : List StructDef → Except Fault Unit
  | [] => .ok ()
  | s :: rest =>
    if seen.contains s.name then .error (.duplicateStruct s.name)
    else do
      checkMapping (.struct s.name) s.fieldNames
      checkStructs (s.name :: seen) rest

def build (resources : List Resource) (structs : List StructDef) : Except Fault Catalog := do
  checkResources [] resources
  checkStructs [] structs
  return ⟨resources, structs⟩

def resource? (c : Catalog) (name : String) : Option Resource :=
  c.resources.find? (·.name == name)

def struct? (c : Catalog) (name : String) : Option StructDef :=
  c.structs.find? (·.name == name)

def hasResource (c : Catalog) (name : String) : Bool := (c.resource? name).isSome

def isEmbedded (c : Catalog) (name : String) : Bool :=
  match c.resource? name with
  | some r => r.embedded
  | none => false

def resource (c : Catalog) (name : String) : Except Fault Resource :=
  match c.resource? name with
  | some r => .ok r
  | none => .error (.unknownResource name)

def struct (c : Catalog) (name : String) : Except Fault StructDef :=
  match c.struct? name with
  | some s => .ok s
  | none => .error (.unknownStruct name)

theorem resource_ok {c : Catalog} {name : String} {r : Resource} (h : c.resource name = .ok r) :
    c.resource? name = some r := by
  unfold resource at h
  split at h
  · next r' found =>
    cases h
    exact found
  · contradiction

theorem struct_ok {c : Catalog} {name : String} {s : StructDef} (h : c.struct name = .ok s) :
    c.struct? name = some s := by
  unfold struct at h
  split at h
  · next s' found =>
    cases h
    exact found
  · contradiction

theorem resource?_name {c : Catalog} {name : String} {r : Resource}
    (h : c.resource? name = some r) : r.name = name := by
  simpa using List.find?_some h

theorem mem_resource_names {c : Catalog} {name : String} (h : c.hasResource name = true) :
    name ∈ c.resources.map Resource.name := by
  obtain ⟨r, found⟩ := Option.isSome_iff_exists.1 h
  rw [← resource?_name found]
  exact List.mem_map_of_mem (List.mem_of_find?_eq_some found)

theorem mem_struct_names {c : Catalog} {name : String} {s : StructDef}
    (h : c.struct? name = some s) : name ∈ c.structs.map StructDef.name := by
  have named : s.name = name := by simpa using List.find?_some h
  rw [← named]
  exact List.mem_map_of_mem (List.mem_of_find?_eq_some h)

theorem hasResource_of_isEmbedded {c : Catalog} {name : String} (h : c.isEmbedded name = true) :
    c.hasResource name = true := by
  unfold isEmbedded at h
  unfold hasResource
  split at h
  · next r found => simp [found]
  · contradiction

def memberNames (c : Catalog) (name : String) : List (String × String) :=
  match c.struct? name with
  | some s => s.externals
  | none => []

end Catalog
end FieldPlan
