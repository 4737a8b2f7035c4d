import LinkedSheet.Aggregate
import LinkedSheet.Binary64
import LinkedSheet.Cell
import LinkedSheet.CommandLine
import LinkedSheet.CommandLine.Arguments
import LinkedSheet.Coordinate
import LinkedSheet.Cycle
import LinkedSheet.Decimal.Numeral
import LinkedSheet.Decimal.Rounding
import LinkedSheet.Decimal.Shortest
import LinkedSheet.Document
import LinkedSheet.Document.Reader
import LinkedSheet.Document.Writer
import LinkedSheet.Export.Csv
import LinkedSheet.Export.Markdown
import LinkedSheet.Export.Text
import LinkedSheet.FileSystem
import LinkedSheet.FileSystem.Path
import LinkedSheet.FileSystem.Tree
import LinkedSheet.Function
import LinkedSheet.Main
import LinkedSheet.Operation
import LinkedSheet.Operation.Description
import LinkedSheet.Region
import LinkedSheet.Schedule
import LinkedSheet.Script.Builtin
import LinkedSheet.Script.Datum
import LinkedSheet.Script.Engine
import LinkedSheet.Script.Evaluation
import LinkedSheet.Script.Expr
import LinkedSheet.Script.Interpreter
import LinkedSheet.Script.Layout
import LinkedSheet.Script.Operator
import LinkedSheet.Script.Program
import LinkedSheet.Script.Run
import LinkedSheet.Script.Simplification
import LinkedSheet.Script.Token
import LinkedSheet.Selection
import LinkedSheet.Sheet
import LinkedSheet.Table
import LinkedSheet.Table.Session
import LinkedSheet.Table.Storage
import LinkedSheet.Text.Blank
import LinkedSheet.Text.Digits
import LinkedSheet.Text.Printable
import LinkedSheet.Text.Quoted
import LinkedSheet.Toml.Content
import LinkedSheet.Toml.Item
import LinkedSheet.Toml.Number
import LinkedSheet.Toml.Quoted
import LinkedSheet.Toml.Reader
import LinkedSheet.Toml.Writer
import LinkedSheet.Value
import LinkedSheet.Word
import LinkedSheet.Proofs.GreedySequence
import LinkedSheet.Proofs.OperationSchedule
import LinkedSheet.Proofs.RegionReads
import LinkedSheet.Proofs.TableRun
import LinkedSheet.Proofs.TomlNumbers
import LinkedSheet.Proofs.TomlStrings
import LinkedSheet.Proofs.TomlLiterals
import LinkedSheet.Proofs.TomlStatements
import LinkedSheet.Proofs.TomlTables
import LinkedSheet.Proofs.TableEvaluation
import LinkedSheet.Proofs.TableExtension
import LinkedSheet.Proofs.BinaryNumbers
import LinkedSheet.Proofs.BlockPlacement
import LinkedSheet.Proofs.TableOutputs
import LinkedSheet.Proofs.TableFailure
import LinkedSheet.Proofs.TableCalls
import LinkedSheet.Proofs.TableFrame
import LinkedSheet.Proofs.CellReference
import LinkedSheet.Proofs.ShortestDecimal
import LinkedSheet.Proofs.TableBounds
import LinkedSheet.Proofs.SessionSteps
import LinkedSheet.Proofs.SessionRequests
import LinkedSheet.Proofs.CustomFunctions
import LinkedSheet.Proofs.SessionHistory
import LinkedSheet.Proofs.DocumentTables
import LinkedSheet.Proofs.DocumentText
import LinkedSheet.Proofs.TomlRange
import LinkedSheet.Proofs.DocumentRoundTrip
import LinkedSheet.Proofs.PathSteps
import LinkedSheet.Proofs.FilePlaces
import LinkedSheet.Proofs.FunctionFiles
import LinkedSheet.Proofs.OpenedTable
import LinkedSheet.Proofs.SheetAgreement
import LinkedSheet.Proofs.PinnedSchedule
import LinkedSheet.Proofs.IndependentOperations
import LinkedSheet.Proofs.ScriptReductions
import LinkedSheet.Proofs.TableExtent
import LinkedSheet.Proofs.SeparatedValues
import LinkedSheet.Proofs.MarkdownGrid
import LinkedSheet.Proofs.RefusedExport
import LinkedSheet.Proofs.TomlNesting
import LinkedSheet.Proofs.SavedDocument
import LinkedSheet.Proofs.ReachableLoops
import LinkedSheet.Proofs.ReferenceText
import LinkedSheet.Proofs.AppliedOperation
import LinkedSheet.Proofs.SelectedCells
import LinkedSheet.Proofs.CopiedCells
import LinkedSheet.Proofs.ScriptBlocks
import LinkedSheet.Proofs.ScriptSelection
import LinkedSheet.Proofs.RectangleNotations
import LinkedSheet.Proofs.NestedOffsets
import LinkedSheet.Proofs.FormulaGuard
import LinkedSheet.Proofs.NumberFields
import LinkedSheet.Proofs.TextLines
import LinkedSheet.Proofs.TextColumns
import LinkedSheet.Proofs.MovedDocument
import LinkedSheet.Proofs.CellReads
import LinkedSheet.Proofs.LeastRegion
import LinkedSheet.Proofs.ShownNumbers
