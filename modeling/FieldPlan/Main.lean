import FieldPlan.Project.Command

/-! The program. It looks at the paths that matter to a command, and does to the files what the
command comes to on what it has seen. -/
namespace FieldPlan.Program

def placeText (place : Place) : String := (Path.mk true place).text

def look (t : Tree) (place : Place) : IO Tree := do
  if (t.file? place).isSome || t.isDirectory place then return t
  try
    return t.withFile place (← IO.FS.readFile (placeText place))
  catch _ =>
    try
      let _ ← IO.FS.realPath (placeText place)
      return { t with directories := t.directories ++ [place] }
    catch _ => return t

def placesOn (p : Path) : List Place :=
  (p.parts.foldl (fun places part =>
    places ++ [Path.step (places.getLast?.getD []) part]) [] : List Place)

def lookAlong (t : Tree) (p : Path) : IO Tree := (placesOn p).foldlM look t

def perform : Effect → IO Unit
  | .makeDirectories p => IO.FS.createDirAll p.text
  | .openFile p => IO.FS.writeFile p.text ""
  | .write p text => IO.FS.writeFile p.text text
  | .print text => IO.print text

/-- Says whether all effects have been carried out. Whether the system refuses one is left to
the system. -/
def performAll (t : Tree) : List Effect → IO Bool
  | [] => return true
  | effect :: rest => do
    let (after, refusal) := effect.apply .usual t
    if refusal.all (· == .refused) then
      perform effect
      performAll after rest
    else return false

def course (t : Tree) (base : Path) (arguments : List String) : IO (Tree × Course) := do
  match Command.ofArguments arguments with
  | .error stop => return (t, .ofStop stop)
  | .ok command =>
    let seen ← (command.paths .usual t base).foldlM lookAlong t
    let known ← (command.paths .usual seen base).foldlM lookAlong seen
    return (known, command.course .usual known base)

end FieldPlan.Program

def main (arguments : List String) : IO UInt32 := do
  let base := FieldPlan.Path.ofText (toString (← IO.currentDir))
  match ← FieldPlan.Program.course .empty base arguments with
  | (_, .error _) => return 1
  | (t, .ok steps) =>
    if ← FieldPlan.Program.performAll t steps.effects then
      IO.eprint steps.report.stderr
      return steps.report.exit.toUInt32
    else return 1
