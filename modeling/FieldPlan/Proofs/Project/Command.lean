import FieldPlan.Project.Command
import FieldPlan.Proofs.Project.Tree

/-! What commands do to the file tree. A command looks first and writes last, and no more than
one file, so that a command that returns a failure has left the tree as it was. One that breaks
down may leave the file that it was to write half done. -/
namespace FieldPlan

variable {host : Host} {t after : Tree} {base : Path} {exit : Exit}

/-! ### Courses -/

namespace Course
variable {course : Course}

variable {withDirectory : Bool} {p : Path} {text line : String}

end Course

namespace Command

/-! ### The commands -/

variable {directory catalog : String} {output : Option String} {toStdout : Bool}

variable {command : Command}

end Command
end FieldPlan
