import TypedData.Text.CodeRange
import TypedData.Text.Blank
import TypedData.Text.Cased
import TypedData.Text.Combining
import TypedData.Text.Escaped
import TypedData.Text.Hexadecimal
import TypedData.Text.LetterCase
import TypedData.Text.Position
import TypedData.Text.Unprintable
import TypedData.Text.Quoted
import TypedData.Text.Word
import TypedData.Number.Double
import TypedData.Number.Integer
import TypedData.Number.Decimal
import TypedData.Number.Layout
import TypedData.Diagnostic
import TypedData.Template
import TypedData.Token
import TypedData.Token.Error
import TypedData.Token.Lexeme
import TypedData.Token.Scan
import TypedData.Document.Tree
import TypedData.Document.Canonical
import TypedData.Document.Error
import TypedData.Document.Parser.Basic
import TypedData.Document.Parser.Data
import TypedData.Document.Precedence
import TypedData.Document.Parser.Expr
import TypedData.Document.Parser.Item
import TypedData.Document.Printer
import TypedData.Value
import TypedData.Value.Follow
import TypedData.Condition.Error
import TypedData.Condition.Operand
import TypedData.Condition.Function
import TypedData.Condition.Eval
import TypedData.Typing.Ty
import TypedData.Typing.Error
import TypedData.Typing.Registry
import TypedData.Rule.Segment
import TypedData.Rule
import TypedData.Failure
import TypedData.Building.State
import TypedData.Building.Fit
import TypedData.Building.Record
import TypedData.Building.Text
import TypedData.Building.Data
import TypedData.Building
import TypedData.Load
import TypedData.Export.Tree
import TypedData.Export.Json
import TypedData.Export.Yaml.Scalar
import TypedData.Export.Yaml
import TypedData.Export
import TypedData.Proofs.Result
import TypedData.Proofs.Lists
import TypedData.Proofs.Value.Part
import TypedData.Proofs.Value.Walk
import TypedData.Proofs.Value.Settlement
import TypedData.Proofs.Typing.Registry
import TypedData.Proofs.Typing.Widening
import TypedData.Proofs.Typing.Denotation
import TypedData.Proofs.Typing.Declared
import TypedData.Proofs.Typing.Lookup
import TypedData.Proofs.Value.Conforms
import TypedData.Proofs.Condition.Extension
import TypedData.Proofs.Condition.Early
import TypedData.Proofs.Condition.Plain
import TypedData.Proofs.Condition.Missing
import TypedData.Proofs.Condition.Operation
import TypedData.Proofs.Condition.Arithmetic
import TypedData.Proofs.Condition.Equality
import TypedData.Proofs.Condition.Names
import TypedData.Proofs.Condition.Waiting
import TypedData.Proofs.Building.Outcome
import TypedData.Proofs.Building.Growth
import TypedData.Proofs.Building.Built
import TypedData.Proofs.Building.Sound
import TypedData.Proofs.Building.Record
import TypedData.Proofs.Building.Text
import TypedData.Proofs.Building.Data
import TypedData.Proofs.Building.Placing
import TypedData.Proofs.Building.Construction
import TypedData.Proofs.Building.Run
import TypedData.Proofs.Building.Complete
import TypedData.Proofs.Canonical.Declarations
import TypedData.Proofs.Canonical.Building
import TypedData.Proofs.Canonical.Meaning
import TypedData.Proofs.Loaded.Basic
import TypedData.Proofs.Loaded.Constraints
import TypedData.Proofs.Loaded.Types
import TypedData.Proofs.Loaded.References
import TypedData.Proofs.Relocation.Tree
import TypedData.Proofs.Relocation.Condition
import TypedData.Proofs.Relocation.Declarations
import TypedData.Proofs.Renumbering.Value
import TypedData.Proofs.Renumbering.Condition
import TypedData.Proofs.Simulation.Record
import TypedData.Proofs.Simulation.Data
import TypedData.Proofs.Relocation.Run
import TypedData.Proofs.Simulation.Rebuilding
import TypedData.Proofs.Simulation.Agreement
import TypedData.Proofs.Dependency.Written
import TypedData.Proofs.Dependency.Chain
import TypedData.Proofs.Dependency.Reading
import TypedData.Proofs.Dependency.Document
import TypedData.Proofs.Simulation.Following
import TypedData.Proofs.Building.Position
import TypedData.Proofs.Building.Discipline
import TypedData.Proofs.Building.Transitions
import TypedData.Proofs.Dependency.SelfDependency
import TypedData.Proofs.Dependency.Deferred
import TypedData.Proofs.Simulation.Depth
import TypedData.Proofs.Building.Slots
import TypedData.Proofs.Building.Typed
import TypedData.Proofs.Building.Referring
import TypedData.Proofs.Simulation.Ending
import TypedData.Proofs.Loaded.Locality
import TypedData.Proofs.Rule.Target
import TypedData.Proofs.Loaded.Order
import TypedData.Proofs.Number.Rounding
import TypedData.Proofs.Number.Integral
import TypedData.Proofs.Number.Text
import TypedData.Proofs.Reading.Lexeme
import TypedData.Proofs.Reading.Line
import TypedData.Proofs.Reading.Parser
import TypedData.Proofs.Reading.Material
import TypedData.Proofs.Reading.Scanning
import TypedData.Proofs.Reading.Making
import TypedData.Proofs.Reading.Names
import TypedData.Proofs.Reading.Row
import TypedData.Proofs.Reading.Data
import TypedData.Proofs.Value.Written
import TypedData.Proofs.Building.Written
import TypedData.Proofs.Loaded.ReadBack
import TypedData.Proofs.Loaded.Names
import TypedData.Proofs.Export.Members
import TypedData.Proofs.Export.Tree
import TypedData.Proofs.Loaded.Export
import TypedData.Proofs.Rule.Fitting
import TypedData.Proofs.Rule.Remembering
import TypedData.Proofs.Rule.Template
import TypedData.Proofs.Rule.Captures
import TypedData.Proofs.Rule.Matching
import TypedData.Proofs.Rule.Names
import TypedData.Proofs.Reading.Height
import TypedData.Proofs.Relocation.Settled
import TypedData.Proofs.Loaded.Places
import TypedData.Proofs.Parsing.Cursor
import TypedData.Proofs.Parsing.SpanTree
import TypedData.Proofs.Parsing.Going
import TypedData.Proofs.Parsing.Nesting
import TypedData.Proofs.Parsing.Progress
import TypedData.Proofs.Parsing.Alongside
import TypedData.Proofs.Parsing.Tracking
import TypedData.Proofs.Parsing.Grouping
import TypedData.Proofs.Parsing.LineBreaks
import TypedData.Proofs.Canonical.Printing
import TypedData.Proofs.Reading.Phrase
import TypedData.Proofs.Reading.Types
import TypedData.Proofs.Typing.Printing
import TypedData.Proofs.Reading.Expressions
import TypedData.Proofs.Reading.Operands
import TypedData.Proofs.Reading.Spellable
import TypedData.Proofs.Reading.Passing
import TypedData.Proofs.Reading.Separators
import TypedData.Proofs.Reading.LaidOut
import TypedData.Proofs.Reading.Layout
import TypedData.Proofs.Reading.Declarations
import TypedData.Proofs.Reading.Items
import TypedData.Proofs.Reading.Legibility
import TypedData.Proofs.Reading.FixedPoint
import TypedData.Proofs.Reading.Indentation
import TypedData.Proofs.Reading.Blocks
import TypedData.Proofs.Reading.Outline
import TypedData.Proofs.Scanning.Extent
import TypedData.Proofs.Scanning.Round
import TypedData.Proofs.Scanning.Region
import TypedData.Proofs.Scanning.Stream
import TypedData.Proofs.Scanning.BlankLines
import TypedData.Proofs.Scanning.LineEnds
import TypedData.Proofs.Scanning.LineBreaks
import TypedData.Proofs.Scanning.Literals
import TypedData.Proofs.Canonical.Final
import TypedData.Proofs.Rule.Regularity
import TypedData.Proofs.Scanning.Keys
import TypedData.Proofs.Counting.Basic
import TypedData.Proofs.Counting.Expressions
import TypedData.Proofs.Counting.Data
import TypedData.Proofs.Counting.Documents
import TypedData.Proofs.Location
import TypedData.Proofs.Building.Naming
import TypedData.Proofs.Loaded.Printing
