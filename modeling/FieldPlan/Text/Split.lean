/-! Cutting a text at every occurrence of a character. -/
namespace FieldPlan.Text

/-- The parts between the separators, empty ones included. -/
def split (separator : Char) : List Char → List (List Char)
  | [] => [[]]
  | c :: rest =>
    if c = separator then [] :: split separator rest
    else match split separator rest with
      | [] => [[c]]
      | part :: others => (c :: part) :: others

end FieldPlan.Text
