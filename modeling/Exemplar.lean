import Exemplar.CommandLine.Command
import Exemplar.CommandLine.Options
import Exemplar.Config
import Exemplar.Decimal.Basic
import Exemplar.Decimal.Literal
import Exemplar.Decimal.Rounding
import Exemplar.Decimal.Text
import Exemplar.Double
import Exemplar.Draws
import Exemplar.Failure
import Exemplar.Fault
import Exemplar.Files.Path
import Exemplar.Files.Tree
import Exemplar.Files.Write
import Exemplar.Generation.Example
import Exemplar.Generation.Run
import Exemplar.Json.Basic
import Exemplar.Json.Printer
import Exemplar.Json.Reader
import Exemplar.Main
import Exemplar.Number
import Exemplar.Page
import Exemplar.Schema.Definitions
import Exemplar.Schema.Shape
import Exemplar.Session
import Exemplar.Text.Classes
import Exemplar.Text.Hexadecimal
import Exemplar.Text.Integer
import Exemplar.Text.Lines
import Exemplar.Text.Printable
import Exemplar.Text.Quoted
import Exemplar.Text.Str
import Exemplar.Proofs.Double.Rank
import Exemplar.Proofs.Double.Magnitude
import Exemplar.Proofs.Double.UnitInterval
import Exemplar.Proofs.Double.Fraction
import Exemplar.Proofs.Decimal.Rounding
import Exemplar.Proofs.Decimal.Reading
import Exemplar.Proofs.Json.Numbers
import Exemplar.Proofs.Json.RoundTrip
import Exemplar.Proofs.Schema.Lookup
import Exemplar.Proofs.Schema.WellFormed
import Exemplar.Proofs.Schema.Position
import Exemplar.Proofs.Generation.Ensures
import Exemplar.Proofs.Generation.Choice
import Exemplar.Proofs.Generation.Reach
import Exemplar.Proofs.Generation.Conformance
import Exemplar.Proofs.Generation.Completeness
import Exemplar.Proofs.Generation.Congruence
import Exemplar.Proofs.Generation.Bisimulation
import Exemplar.Proofs.Generation.Allowance
import Exemplar.Proofs.Generation.Sketch
import Exemplar.Proofs.Generation.DepthLimit
import Exemplar.Proofs.Generation.Inlining
import Exemplar.Proofs.Generation.Safety
import Exemplar.Proofs.Files.Directories
import Exemplar.Proofs.Files.Atomicity
import Exemplar.Proofs.Files.Session
import Exemplar.Proofs.Files.Validation
import Exemplar.Proofs.Files.Room
import Exemplar.Proofs.Files.Creation
import Exemplar.Proofs.Json.Rendering
import Exemplar.Proofs.CommandLine.Output
import Exemplar.Proofs.CommandLine.Delivery
import Exemplar.Proofs.Schema.Equivalence
import Exemplar.Proofs.Generation.Keywords
import Exemplar.Proofs.Generation.Encounters
import Exemplar.Proofs.Generation.Revisions
import Exemplar.Proofs.Generation.Termination
import Exemplar.Proofs.CommandLine.PageDelivery
import Exemplar.Proofs.Files.Interleaving
import Exemplar.Proofs.Generation.Supply
import Exemplar.Proofs.Session
import Exemplar.Proofs.Double.Order
import Exemplar.Proofs.Generation.Bounds
import Exemplar.Proofs.Page.Escaping
import Exemplar.Proofs.Page.Skeleton
import Exemplar.Proofs.Generation.Accounting
import Exemplar.Proofs.Schema.LinearScan
import Exemplar.Proofs.Config
import Exemplar.Proofs.Decimal.Order
import Exemplar.Proofs.Generation.Points
import Exemplar.Proofs.Generation.Indices
import Exemplar.Proofs.Decimal.Grid
import Exemplar.Proofs.Decimal.Shortest
import Exemplar.Proofs.Decimal.Places
import Exemplar.Proofs.Decimal.Idempotence
import Exemplar.Proofs.Generation.FixedPoints
import Exemplar.Proofs.Schema.Reordering
import Exemplar.Proofs.Generation.ConstantDraws
import Exemplar.Proofs.Generation.Agreement
import Exemplar.Proofs.Generation.SiblingOrder
import Exemplar.Proofs.Files.Following
import Exemplar.Proofs.Files.Making
import Exemplar.Proofs.Files.Outcome
import Exemplar.Proofs.Files.Leftovers
import Exemplar.Proofs.Double.Headroom
import Exemplar.Proofs.Json.Parts
import Exemplar.Proofs.Json.Words
import Exemplar.Proofs.Generation.Origins
import Exemplar.Proofs.Generation.Finiteness
