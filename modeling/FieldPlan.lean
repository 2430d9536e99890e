import FieldPlan.Text.Printable
import FieldPlan.Text.LetterCase
import FieldPlan.Decimal.Notation
import FieldPlan.Value.Text
import FieldPlan.Json.Reader
import FieldPlan.Json.Writer
import FieldPlan.Resource
import FieldPlan.Exposure
import FieldPlan.Plan
import FieldPlan.Arguments
import FieldPlan.Descent
import FieldPlan.Catalog.Document
import FieldPlan.Catalog.Dump
import FieldPlan.Schema.Definition
import FieldPlan.Text.Split
import FieldPlan.Yaml.Cursor
import FieldPlan.Yaml.Scalar
import FieldPlan.Yaml.Token
import FieldPlan.Yaml
import FieldPlan.Catalog.Source
import FieldPlan.Project.Command
import FieldPlan.Main
import FieldPlan.Descent.Locality
import FieldPlan.Proofs.Site
import FieldPlan.Proofs.Accepts
import FieldPlan.Proofs.Accepts.Descent
import FieldPlan.Proofs.Mirror
import FieldPlan.Proofs.Walk
import FieldPlan.Proofs.Load
import FieldPlan.Proofs.Agreement
import FieldPlan.Proofs.Narrowing
import FieldPlan.Proofs.Distinct
import FieldPlan.Proofs.Fetch
import FieldPlan.Proofs.Schema.Hidden
import FieldPlan.Proofs.Composition
import FieldPlan.Proofs.Admission
import FieldPlan.Proofs.Naming
import FieldPlan.Proofs.Naming.RoundTrip
import FieldPlan.Proofs.Document
import FieldPlan.Proofs.Project.InitialText
import FieldPlan.Proofs.Respelled.Descent
import FieldPlan.Proofs.Schema.Private
import FieldPlan.Proofs.Sufficient
import FieldPlan.Proofs.Occurrence
import FieldPlan.Proofs.Closure
import FieldPlan.Proofs.Arguments
import FieldPlan.Proofs.Offence
import FieldPlan.Proofs.Untyped
import FieldPlan.Proofs.Schema.Breadth
import FieldPlan.Proofs.Schema.Exposed
import FieldPlan.Proofs.HiddenField
import FieldPlan.Proofs.Schema.Sections
import FieldPlan.Proofs.Schema.Closed
import FieldPlan.Proofs.Schema.Followed
import FieldPlan.Proofs.Schema.Writable
import FieldPlan.Proofs.Schema.Faults
import FieldPlan.Proofs.Schema.Dangling
import FieldPlan.Proofs.Schema.Inhabitant
import FieldPlan.Proofs.Pointing.Fields
import FieldPlan.Proofs.Filled
import FieldPlan.Proofs.Answered
import FieldPlan.Proofs.Project.Command
import FieldPlan.Proofs.Arrays
import FieldPlan.Proofs.Summaries
import FieldPlan.Proofs.Ending
import FieldPlan.Proofs.Listed
import FieldPlan.Proofs.Listed.Descent
import FieldPlan.Proofs.LevelCheck
import FieldPlan.Proofs.Structured
import FieldPlan.Proofs.Summaries.Chain
import FieldPlan.Proofs.Project.Config
