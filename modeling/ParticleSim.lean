import ParticleSim.Command.Outcome
import ParticleSim.Main
import ParticleSim.Outline.Block
import ParticleSim.Outline.Writer
import ParticleSim.Schema.Compile
import ParticleSim.Schema.Scenario
import ParticleSim.Session.Basic
import ParticleSim.Settings.Reader
import ParticleSim.View.Overlay
import ParticleSim.View.Text
import ParticleSim.World.Build
import ParticleSim.World.Energy
import ParticleSim.World.Motion
import ParticleSim.World.Record
import ParticleSim.Proofs.Number.Binary64
import ParticleSim.Proofs.Number.Rounding
import ParticleSim.Proofs.Number.Digits
import ParticleSim.Proofs.Number.Literal
import ParticleSim.Proofs.Number.Shortest
import ParticleSim.Proofs.Number.Text
import ParticleSim.Proofs.Tree.Shape
import ParticleSim.Proofs.Outline.Scalar
import ParticleSim.Proofs.Outline.Bare
import ParticleSim.Proofs.Outline.Quoted
import ParticleSim.Proofs.Outline.Scan
import ParticleSim.Proofs.Outline.Source
import ParticleSim.Proofs.Tree.Fields
import ParticleSim.Proofs.Outline.Entry
import ParticleSim.Proofs.Outline.RoundTrip
import ParticleSim.Proofs.Number.Order
import ParticleSim.Proofs.Schema.Meaning
import ParticleSim.Proofs.Schema.Facets
import ParticleSim.Proofs.Schema.Soundness
import ParticleSim.Proofs.Schema.References
import ParticleSim.Proofs.Schema.Validity
import ParticleSim.Proofs.World.Document
import ParticleSim.Proofs.World.Reading
import ParticleSim.Proofs.Schema.Keywords
import ParticleSim.Proofs.Schema.Scenario
import ParticleSim.Proofs.World.Agreement
import ParticleSim.Proofs.World.Stepping
import ParticleSim.Proofs.Session.Calls
import ParticleSim.Proofs.Number.Equality
import ParticleSim.Proofs.Tree.Equality
import ParticleSim.Proofs.Schema.Agreement
import ParticleSim.Proofs.Schema.Twins
import ParticleSim.Proofs.Schema.Patches
import ParticleSim.Proofs.Schema.EqualSchemas
import ParticleSim.Proofs.World.EqualTrees
import ParticleSim.Proofs.World.Independence
import ParticleSim.Proofs.Outline.Layout
import ParticleSim.Proofs.Number.Reciprocal
import ParticleSim.Proofs.Session.Unfailing
import ParticleSim.Proofs.Command.Run
import ParticleSim.Proofs.Schema.Visits
import ParticleSim.Proofs.Schema.Recursion
import ParticleSim.Proofs.Schema.Reading
import ParticleSim.Proofs.Schema.Positions
import ParticleSim.Proofs.Schema.Pointers
import ParticleSim.Proofs.Number.Units
import ParticleSim.Proofs.Number.Sum
import ParticleSim.Proofs.Number.Remainder
import ParticleSim.Proofs.Text.ByteOrder
import ParticleSim.Proofs.Session.Elapsed
import ParticleSim.Proofs.World.Refusal
import ParticleSim.Proofs.World.Walls
import ParticleSim.Proofs.Number.Product
import ParticleSim.Proofs.World.Conservation
import ParticleSim.Proofs.Session.Failure
import ParticleSim.Proofs.Schema.Origins
import ParticleSim.Proofs.Schema.Locality
import ParticleSim.Proofs.Outline.QuotedForms
import ParticleSim.Proofs.Schema.Culprits
import ParticleSim.Proofs.World.Culprits
import ParticleSim.Proofs.Schema.Nesting
import ParticleSim.Proofs.Schema.Resolved
import ParticleSim.Proofs.Number.Numeral
import ParticleSim.Proofs.Outline.PlainForms
import ParticleSim.Proofs.Outline.Outside
import ParticleSim.Proofs.Outline.OneLine
import ParticleSim.Proofs.Outline.PlainText
import ParticleSim.Proofs.Outline.FlowEntry
import ParticleSim.Proofs.Outline.AcceptedLines
import ParticleSim.Proofs.Outline.Unsupported
import ParticleSim.Proofs.Text.Unambiguous
import ParticleSim.Proofs.Text.Escaped
import ParticleSim.Proofs.Tree.PathText
import ParticleSim.Proofs.Tree.EqualityLaws
import ParticleSim.Proofs.World.StateHash
import ParticleSim.Proofs.Json.Strings
import ParticleSim.Proofs.Json.Numbers
import ParticleSim.Proofs.Json.Scalars
import ParticleSim.Proofs.Json.ExactFloats
import ParticleSim.Proofs.Json.Trees
import ParticleSim.Proofs.Json.RoundTrip
import ParticleSim.Proofs.Tree.Insertion
import ParticleSim.Proofs.Number.Scaling
import ParticleSim.Proofs.Number.Difference
import ParticleSim.Proofs.View.Grid
import ParticleSim.Proofs.View.Framing
import ParticleSim.Proofs.Outline.ClosingQuotes
