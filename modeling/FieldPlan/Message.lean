/-! Messages to the user of a program. -/
namespace FieldPlan

structure Message where
  text : String
  /-- The reason lies in what another reader has found and is not part of the
  message, whose line therefore stays open. -/
  isOpen : Bool
  deriving DecidableEq, Repr

namespace Message

def closed (text : String) : Message := ⟨text, false⟩

def report (m : Message) : String := "Error: " ++ m.text ++ if m.isOpen then "" else "\n"

end Message
end FieldPlan
