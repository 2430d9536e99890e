import FieldPlan.Descent

/-! A small catalog of trips: links, embedded records, a union, a tuple and calculations, and a
person for some clients only. The theorems are tried out on it. -/
namespace FieldPlan

namespace Travel

def stop : Resource where
  name := "Stop"
  embedded := true
  attributes := [{ name := "town", type := .primitive .string [] }]
  calculations := [{ name := "label", type := .primitive .string [] }]

def person : Resource where
  name := "Person"
  attributes := [{ name := "full_name", type := .primitive .string [] }]
  relationships := [{ name := "boss", destination := "Person" }]

def trip : Resource where
  name := "Trip"
  attributes := [
    { name := "id", type := .primitive .uuid [] },
    { name := "keeper", type := .resource "Person" },
    { name := "halts", type := .array (.resource "Stop") },
    { name := "span", type := .tuple [⟨"from", .resource "Stop", true⟩] },
    { name := "goal", type := .union [
      { name := "place", type := .resource "Stop" },
      { name := "note", type := .primitive .string [] }] }]
  calculations := [
    { name := "price", type := .primitive .integer [],
      arguments := [{ name := "currency", type := .primitive .string [] }] },
    { name := "days", type := .primitive .integer [] }]
  relationships := [{ name := "guide", destination := "Person" }]
  actions := [{ name := "read" }]
  fieldNames := [("price", "cost")]

def catalog : Catalog := ⟨[trip, person, stop], []⟩

def object (fields : List (String × Value)) : Value :=
  .mapping (fields.map fun field => (.str field.1, field.2))

def tour : Value :=
  .list [.str "id",
    object [
      ("guide", .list [.str "fullName", object [("boss", .list [.str "full_name"])]]),
      ("cost", object [("args", object [])])],
    .tuple [.str "span", .list [object [("from", .list [.str "label"])]]],
    object [("goal", .list [.str "note", object [("place", .list [.str "town"])]])],
    object [("halts", .list [.str "town", .str "label"])]]

def tourPlan : Level where
  select := ["id", "span", "goal", "halts"]
  load := [
    .nested "guide" [.field "full_name", .nested "boss" [.field "full_name"]],
    .call "price" [] [],
    .nested "halts" [.field "label"]]
  template := [.field "id",
    .nested "guide" [.field "full_name", .nested "boss" [.field "full_name"]],
    .field "price",
    .nested "span" [.nested "from" [.field "label"]],
    .nested "goal" [.field "note", .nested "place" [.field "town"]],
    .nested "halts" [.field "town", .field "label"]]

theorem plan_tour : plan catalog "Trip" "read" tour none = .ok tourPlan := by
  with_unfolding_all rfl

end Travel
end FieldPlan
