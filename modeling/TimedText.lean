import TimedText.Finding.Rendering
import TimedText.Proofs.Account.Composition
import TimedText.Proofs.Account.Document
import TimedText.Proofs.Account.Presentation
import TimedText.Proofs.Applicability
import TimedText.Proofs.Cascade.Cycles
import TimedText.Proofs.Cascade.Merge
import TimedText.Proofs.Cascade.Report
import TimedText.Proofs.Codes
import TimedText.Proofs.Codes.Document
import TimedText.Proofs.Codes.Scripts
import TimedText.Proofs.Codes.Timing
import TimedText.Proofs.Collation
import TimedText.Proofs.CommaSeparated
import TimedText.Proofs.Completion.Composition
import TimedText.Proofs.Computed
import TimedText.Proofs.Computed.Inheritance
import TimedText.Proofs.Computed.Outcome
import TimedText.Proofs.Computed.Report
import TimedText.Proofs.Computed.Size
import TimedText.Proofs.ContentDescriptor
import TimedText.Proofs.Coverage
import TimedText.Proofs.DocumentOrder
import TimedText.Proofs.DoubleEncoding
import TimedText.Proofs.Exit
import TimedText.Proofs.Finds
import TimedText.Proofs.FontFamily
import TimedText.Proofs.Frame
import TimedText.Proofs.Frame.Composition
import TimedText.Proofs.Indifference.Scripts
import TimedText.Proofs.Markup.AttributeNames
import TimedText.Proofs.Markup.Construction
import TimedText.Proofs.Markup.DefaultNamespace
import TimedText.Proofs.Markup.EncodingDeclaration
import TimedText.Proofs.Markup.EntityDeclaration
import TimedText.Proofs.Markup.Fragment
import TimedText.Proofs.Markup.Reference
import TimedText.Proofs.Markup.RenamedDocument
import TimedText.Proofs.Mending
import TimedText.Proofs.NestedTiming
import TimedText.Proofs.Number.Arithmetic
import TimedText.Proofs.Number.Decimal
import TimedText.Proofs.Number.Finite
import TimedText.Proofs.Number.Place
import TimedText.Proofs.Number.Reading
import TimedText.Proofs.Number.Rounding
import TimedText.Proofs.Number.Size
import TimedText.Proofs.Number.Sum
import TimedText.Proofs.Number.Unsigned
import TimedText.Proofs.Omission
import TimedText.Proofs.Omission.Lookup
import TimedText.Proofs.Parameter.ActiveArea
import TimedText.Proofs.Parameter.Cells
import TimedText.Proofs.PercentagePair
import TimedText.Proofs.Placement
import TimedText.Proofs.PlainReport
import TimedText.Proofs.Pruning.Outline
import TimedText.Proofs.Quantity
import TimedText.Proofs.Stages
import TimedText.Proofs.Tally
import TimedText.Proofs.Text.Boundary
import TimedText.Proofs.Text.Decoding
import TimedText.Proofs.Text.Digit
import TimedText.Proofs.Text.Encoding
import TimedText.Proofs.Text.Language
import TimedText.Proofs.Text.Split
import TimedText.Proofs.Text.Utf8
import TimedText.Proofs.Text.Words
import TimedText.Proofs.Time.Classification
import TimedText.Proofs.Time.Grammar
import TimedText.Proofs.Time.Multiplier
import TimedText.Proofs.Time.Rates
import TimedText.Proofs.Timing.Crossing
import TimedText.Proofs.Timing.Defects
import TimedText.Proofs.Timing.Gap
import TimedText.Proofs.Timing.Interval
import TimedText.Proofs.Timing.Lineage
import TimedText.Proofs.Timing.Nesting
import TimedText.Proofs.Timing.Overlap
import TimedText.Proofs.Timing.Record
import TimedText.Proofs.Timing.Reversal
import TimedText.Proofs.Timing.RuleSet
import TimedText.Proofs.Timing.Segment
import TimedText.Proofs.Timing.Timecode
import TimedText.Proofs.Timing.Timeline
import TimedText.Proofs.Timing.Visits
import TimedText.Proofs.Timing.Walk
import TimedText.Validation
