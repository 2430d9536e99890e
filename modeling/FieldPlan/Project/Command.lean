import FieldPlan.Descent
import FieldPlan.Json.Reader
import FieldPlan.Json.Writer
import FieldPlan.Project.CommandLine
import FieldPlan.Project.Config
import FieldPlan.Project.Host
import FieldPlan.Schema.Definition

/-! The commands on a project: to create one, to write its definitions and to check
one selection against it. A command looks at the file tree, and comes to effects and to a report
for when all of them have been carried out. -/
namespace FieldPlan

inductive Command where
  | init (directory catalog : String)
  | generate (directory : String) (output : Option String) (toStdout : Bool)
  | checkFields (directory resource action fields : String)
  deriving DecidableEq, Repr

/-- What a command has printed and the status that it returns. -/
structure Report where
  exit : Nat
  stdout : String
  stderr : String
  deriving DecidableEq, Repr

namespace Report

def success (stdout : String) : Report := ⟨0, stdout, ""⟩

def failure (m : Message) : Report := ⟨1, "", m.report⟩

end Report

/-! ### Command lines -/

namespace Command
open CommandLine

def generalOptions : List Opt := [.help, ⟨"verbose", some 'v', .flag⟩]

def initOptions : List Opt := [.help, ⟨"catalog", none, .value⟩]

def generateOptions : List Opt := [.help, ⟨"output", none, .value⟩, ⟨"stdout", none, .flag⟩]

def checkOptions : List Opt :=
  [.help, ⟨"resource", none, .value⟩, ⟨"action", none, .value⟩, ⟨"fields", none, .value⟩]

def directoryOf (g : Given) : String := (g.argument.getD none).getD "."

def named (name : String) (arguments : List String) : Except Stop (Command × Bool) :=
  match name with
  | "init" => do
    let g ← given initOptions arguments
    return (.init (directoryOf g) ((g.value? "catalog").getD "resources.yaml"), !g.hasExtra)
  | "generate" => do
    let g ← given generateOptions arguments
    return (.generate (directoryOf g) (g.value? "output") (g.has "stdout"), !g.hasExtra)
  | "check-fields" => do
    let g ← given checkOptions arguments
    let resource ← g.required "resource"
    let action ← g.required "action"
    let fields ← g.required "fields"
    return (.checkFields (directoryOf g) resource action fields, !g.hasExtra)
  | _ => .error .misuse

def ofArguments (arguments : List String) : Except Stop Command := do
  let forms ← words generalOptions arguments
  let (g, rest) ← splitCommand generalOptions .start (forms.zip arguments)
  match rest with
  | none => throw (if g.hasExtra then .misuse else .help)
  | some (name, arguments) =>
    let (command, isComplete) ← named name arguments
    if isComplete && !g.hasExtra then return command else throw .misuse

def usage : String :=
  "\n".intercalate [
    "usage: rpcshape [-h] [-v] COMMAND ...", "",
    "commands:",
    "  init [directory] [--catalog CATALOG]",
    "  generate [directory] [--output OUTPUT] [--stdout]",
    "  check-fields [directory] --resource RESOURCE --action ACTION --fields FIELDS", ""]

end Command

/-! ### Projects -/

structure Project where
  directory : Path
  config : Config
  catalog : Catalog

namespace Project

def configPath (directory : Path) : Path := directory.under (.ofText Config.fileName)

def readConfig (host : Host) (t : Tree) (p : Path) : Except Config.Problem Config :=
  match host.read t p with
  | .ok text => Config.ofText host.load text
  | .error .absent => .error .absent
  | .error (.breakdown b) => .error (.breakdown b)
  | .error _ => .error .unreadable

def readCatalog (host : Host) (t : Tree) (p : Path) : Except Catalog.SourceError Catalog :=
  match host.read t p with
  | .ok text => Catalog.ofText host.load host.validate text
  | .error (.breakdown b) => .error (.breakdown b)
  | .error _ => .error .unreadable

def load (host : Host) (t : Tree) (base : Path) (directory : String) : Except Trouble Project := do
  let given := base.under (.ofText directory)
  if !host.takes given then throw (.breakdown .name)
  let directory := given.resolve
  if !host.finds t directory then
    throw (.told (.closed ("directory '" ++ directory.text ++ "' does not exist.")))
  let configFile := configPath directory
  if !host.finds t configFile then
    throw (.told (.closed ("no rpcshape project found at '" ++ directory.text ++
      "'. Run 'rpcshape init' to create one.")))
  let config ← (readConfig host t configFile).mapError (Config.Problem.trouble configFile.text)
  let catalogFile := directory.under (.ofText config.catalog)
  let catalog ← (readCatalog host t catalogFile).mapError
    (Catalog.SourceError.trouble catalogFile.text)
  match config.resources.filter fun name => !catalog.hasResource name with
  | [] => return ⟨directory, config, catalog⟩
  | unknown => throw (.told (.closed ("unknown resource(s) in '" ++ Config.fileName ++ "': " ++
      ", ".intercalate unknown)))

def roots (p : Project) : Option (List String) :=
  if p.config.resources.isEmpty then none else some p.config.resources

/-- The exposed resources with the embedded ones that they use, or all. -/
def exposure (p : Project) : Except Crash Exposure :=
  match p.roots with
  | none => .ok none
  | some names => (p.catalog.embeddedSearch names).map some

def definitions (p : Project) (e : Exposure) : Schema.Result String :=
  Schema.Context.document ⟨p.catalog, e, p.config.formatter⟩ p.roots

def output (p : Project) : Path := p.directory.under (.ofText p.config.output)

/-- The paths that matter to a project, as far as the tree tells them. -/
def paths (host : Host) (t : Tree) (base : Path) (directory : String) : List Path :=
  let directory := (base.under (.ofText directory)).resolve
  configPath directory :: match readConfig host t (configPath directory) with
    | .ok config =>
      [directory.under (.ofText config.catalog), directory.under (.ofText config.output)]
    | .error _ => []

end Project

/-! ### Running a command -/

/-- What a command does once it has looked around, and what it reports then. -/
structure Steps where
  effects : List Effect
  report : Report

/-- What a command comes to: its steps, or a breakdown before the first one. -/
abbrev Course := Except Breakdown Steps

namespace Course

def report (r : Report) : Course := .ok ⟨[], r⟩

def printing (r : Report) : Course := .ok ⟨[.print r.stdout], r⟩

def ofTrouble : Trouble → Course
  | .told m => report (.failure m)
  | .breakdown b => .error b

def ofStop : CommandLine.Stop → Course
  | .help => printing ⟨0, Command.usage, ""⟩
  | .misuse => report ⟨2, "", Command.usage⟩

def ofOutcome : Outcome Level → Course
  | .ok level => printing (.success (Json.render level.document ++ "\n"))
  | .error (.fault f) => report (.failure (.closed f.message))
  | .error (.crashed way) => .error (.crash way)
  | .error (.rejected r) =>
    printing ⟨1, Json.render r.document ++ "\n", (Message.closed r.message).report⟩

def writing (withDirectory : Bool) (p : Path) (text line : String) : Course :=
  let directory := { p with parts := p.parts.dropLast }
  .ok ⟨(if withDirectory then [.makeDirectories directory] else []) ++
    [.openFile p, .write p text, .print line], .success line⟩

end Course

/-- How a command ends: it returns a status, or it breaks down. -/
inductive Exit where
  | returned (r : Report)
  | brokeDown (b : Breakdown)
  deriving DecidableEq, Repr

def Course.carryOut (host : Host) (t : Tree) : Course → Exit × Tree
  | .error b => (.brokeDown b, t)
  | .ok steps =>
    match Effect.run host t steps.effects with
    | (after, none) => (.returned steps.report, after)
    | (after, some b) => (.brokeDown b, after)

namespace Command
variable (host : Host) (t : Tree) (base : Path)

def initCourse (directory catalog : String) : Course :=
  let given := base.under (.ofText directory)
  let directory := given.resolve
  let file := Project.configPath directory
  if !host.takes given then .error .name
  else if !host.finds t directory then
    .report (.failure (.closed ("directory '" ++ directory.text ++ "' does not exist.")))
  else if host.finds t file then
    .report (.failure (.closed ("project already exists at '" ++ file.text ++ "'.")))
  else
    .writing false file (Config.initialText catalog)
      ("Initialized rpcshape project at '" ++ file.text ++ "'.\n")

def target (p : Project) (output : Option String) : Path :=
  match output with
  | some name => if name == "" then p.output else .ofText name
  | none => p.output

def generateCourse (directory : String) (output : Option String) (toStdout : Bool) : Course :=
  match Project.load host t base directory with
  | .error trouble => .ofTrouble trouble
  | .ok p =>
    match p.exposure with
    | .error way => .error (.crash way)
    | .ok e =>
      match p.definitions e with
      | .error (.fault f) => .report (.failure (.closed f.message))
      | .error (.crashed way) => .error (.crash way)
      | .ok text =>
        let file := target p output
        if toStdout then .printing (.success text)
        else
          .writing true (base.under file) text
            ("Wrote TypeScript schemas to '" ++ file.text ++ "'.\n")

def checkCourse (directory resource action fields : String) : Course :=
  match Json.parse? fields with
  | none => .report (.failure ⟨"--fields is not valid JSON", true⟩)
  | some selection =>
    match Project.load host t base directory with
    | .error trouble => .ofTrouble trouble
    | .ok p =>
      match p.exposure with
      | .error way => .error (.crash way)
      | .ok e => .ofOutcome (plan p.catalog resource action selection e)

def course : Command → Course
  | .init directory catalog => initCourse host t base directory catalog
  | .generate directory output toStdout => generateCourse host t base directory output toStdout
  | .checkFields directory resource action fields =>
    checkCourse host t base directory resource action fields

def run (command : Command) : Exit × Tree := (command.course host t base).carryOut host t

def paths : Command → List Path
  | .init directory _ => Project.paths host t base directory
  | .generate directory output _ =>
    Project.paths host t base directory ++ output.toList.map fun name => base.under (.ofText name)
  | .checkFields directory _ _ _ => Project.paths host t base directory

def runArguments (arguments : List String) : Exit × Tree :=
  match ofArguments arguments with
  | .ok command => command.run host t base
  | .error stop => (Course.ofStop stop).carryOut host t

end Command
end FieldPlan
