import SicXe.Text.Basic
import SicXe.Text.Ranges
import SicXe.Text.Blank
import SicXe.Text.Lines
import SicXe.Text.Digit
import SicXe.Text.Printable
import SicXe.Text.Upper
import SicXe.Numeral.Basic
import SicXe.Numeral.Decimal
import SicXe.Numeral.Hex
import SicXe.Text.Quoted
import SicXe.Text.ControlSequence
import SicXe.Text.Utf8
import SicXe.Addressing
import SicXe.Register
import SicXe.Directive
import SicXe.Constant
import SicXe.Diagnostic
import SicXe.Event
import SicXe.Logged
import SicXe.Table
import SicXe.Catalog.Instruction
import SicXe.Catalog.Basic
import SicXe.Catalog.Standard
import SicXe.Section.SymbolTable
import SicXe.Section.LiteralTable
import SicXe.Section.Patch
import SicXe.AddressExpression
import SicXe.Operand
import SicXe.Statement.Basic
import SicXe.Statement.Reader
import SicXe.Section.Basic
import SicXe.Section.Growth
import SicXe.Layout
import SicXe.Record
import SicXe.Encoding
import SicXe.ObjectModule
import SicXe.Assembly
import SicXe.Files.Path
import SicXe.Files.Basic
import SicXe.Files.Store
import SicXe.Failure
import SicXe.Task
import SicXe.Session
import SicXe.Command.Arguments
import SicXe.Command.Run
import SicXe.Main
import SicXe.Proofs.Outcome
import SicXe.Proofs.Section.Step
import SicXe.Proofs.Statement.Reading
import SicXe.Proofs.Layout.Step
import SicXe.Proofs.Section.Location
import SicXe.Proofs.Table
import SicXe.Proofs.Section.Tables
import SicXe.Proofs.Section.Pool
import SicXe.Proofs.Code.Bytes
import SicXe.Proofs.Code.Width
import SicXe.Proofs.Code.Fill
import SicXe.Proofs.Assembly.Sections
import SicXe.Proofs.Assembly.CodeSizes
import SicXe.Proofs.Image.Basic
import SicXe.Proofs.Module.Emission
import SicXe.Proofs.Image.Load
import SicXe.Proofs.Image.Program
import SicXe.Proofs.Layout.History
import SicXe.Proofs.Section.External
import SicXe.Proofs.Section.Patches
import SicXe.Proofs.Assembly.Patches
import SicXe.Proofs.Assembly.PatchFields
import SicXe.Proofs.Assembly.LiteralReferences
import SicXe.Proofs.Assembly.Shift
import SicXe.Proofs.Assembly.Independence
import SicXe.Proofs.Undefined.Layout
import SicXe.Proofs.Undefined.Missing
import SicXe.Proofs.Assembly.StrictMode
import SicXe.Proofs.Assembly.UndefinedSymbols
import SicXe.Proofs.Statement.Names
import SicXe.Proofs.Assembly.LinkNames
import SicXe.Proofs.Section.Definitions
import SicXe.Proofs.Section.Placement
import SicXe.Proofs.Assembly.HeaderLength
import SicXe.Proofs.Assembly.TextLimits
import SicXe.Proofs.Layout.Lines
import SicXe.Proofs.Failure.Cause
import SicXe.Proofs.Assembly.Failures
import SicXe.Proofs.Assembly.EntryPoint
import SicXe.Proofs.Assembly.RecordOrder
import SicXe.Proofs.Module.LinkText
import SicXe.Proofs.Catalog.Load
import SicXe.Proofs.Code.Decode
import SicXe.Proofs.Assembly.TextRuns
import SicXe.Proofs.Files.Path
import SicXe.Proofs.Files.Lawful
import SicXe.Proofs.Files.Task
import SicXe.Proofs.Text.Lines
import SicXe.Proofs.Text.Utf8
import SicXe.Proofs.Catalog.Files
import SicXe.Proofs.Command.Options
import SicXe.Proofs.Command.Outputs
import SicXe.Proofs.Module.ReadBack
import SicXe.Proofs.Assembly.Progress
import SicXe.Proofs.Text.Numerals
import SicXe.Proofs.Statement.Expressions
import SicXe.Proofs.Code.Targets
import SicXe.Proofs.Numeral.Field
import SicXe.Proofs.Catalog.Lines
import SicXe.Proofs.Section.Updates
import SicXe.Proofs.Statement.Fields
