import Sentential.Bracket
import Sentential.Circuit.Basic
import Sentential.Circuit.Build
import Sentential.Circuit.GateType
import Sentential.Circuit.Levels
import Sentential.Circuit.Value
import Sentential.Cli.Arguments
import Sentential.Cli.Run
import Sentential.Cli.Word
import Sentential.Failure
import Sentential.Fault
import Sentential.Files
import Sentential.Formula.Basic
import Sentential.Formula.Evaluation
import Sentential.Formula.Sketch
import Sentential.Formula.Unconditional
import Sentential.Grammar
import Sentential.Log
import Sentential.Main
import Sentential.Operator
import Sentential.Parse
import Sentential.Postfix
import Sentential.Record
import Sentential.Report.Basic
import Sentential.Report.Encode
import Sentential.Request
import Sentential.Session
import Sentential.Settings.Basic
import Sentential.Settings.Decimal
import Sentential.Settings.Draft
import Sentential.Settings.Fault
import Sentential.Settings.Load
import Sentential.Settings.Path
import Sentential.Settings.Value
import Sentential.Spelling
import Sentential.Steps
import Sentential.Text.Blank
import Sentential.Text.Digit
import Sentential.Text.Integer
import Sentential.Text.Letter
import Sentential.Text.Pieces
import Sentential.Text.Printable
import Sentential.Text.Quoted
import Sentential.Text.Radix
import Sentential.Text.Range
import Sentential.Token
import Sentential.Token.Lexer
import Sentential.Trace
import Sentential.TruthTable.Basic
import Sentential.TruthTable.Render
import Sentential.TruthTable.Verdict
import Sentential.Variables
import Sentential.Yaml.Cursor
import Sentential.Yaml.Document
import Sentential.Yaml.Lexer
import Sentential.Yaml.Node
import Sentential.Yaml.Plain
import Sentential.Yaml.Scalar
import Sentential.Yaml.Token
import Sentential.Proofs.Grammar.Level
import Sentential.Proofs.Outcome
import Sentential.Proofs.Postfix.Assembly
import Sentential.Proofs.Postfix.Step
import Sentential.Proofs.Postfix.Language
import Sentential.Proofs.Postfix.Postorder
import Sentential.Proofs.Grammar.Adjacent
import Sentential.Proofs.Grammar.Chain
import Sentential.Proofs.Formula.Valuation
import Sentential.Proofs.Token.Scan
import Sentential.Proofs.Variables.Rows
import Sentential.Proofs.Grammar.Derivation
import Sentential.Proofs.Parsed
import Sentential.Proofs.TruthTable.Results
import Sentential.Proofs.Request
import Sentential.Proofs.TruthTable.Verdict
import Sentential.Proofs.Circuit.Numbering
import Sentential.Proofs.Circuit.Value
import Sentential.Proofs.Bracket.Depth
import Sentential.Proofs.Bracket.Spans
import Sentential.Proofs.Spelling
import Sentential.Proofs.Spelling.Settled
import Sentential.Proofs.Grammar.Group
import Sentential.Proofs.Distinct
import Sentential.Proofs.Text.Trim
import Sentential.Proofs.Steps.Build
import Sentential.Proofs.TruthTable.Filled
import Sentential.Proofs.Steps.Neutral
import Sentential.Proofs.Postfix.Value
import Sentential.Proofs.Token.Written
import Sentential.Proofs.Parsed.Spelling
import Sentential.Proofs.Formula.NormalForm
import Sentential.Proofs.Parsed.RoundTrip
import Sentential.Proofs.Bracket.Unmatched
import Sentential.Proofs.Token.Offence
import Sentential.Proofs.Variables.Refusal
import Sentential.Proofs.Parsed.Refusal
import Sentential.Proofs.Token.Layout
import Sentential.Proofs.Request.Refusal
import Sentential.Proofs.Formula.Unconditional
import Sentential.Proofs.Token.Position
import Sentential.Proofs.Request.Position
import Sentential.Proofs.Steps.Compositional
import Sentential.Proofs.Circuit.Levels
import Sentential.Proofs.Circuit.Structure
import Sentential.Proofs.Circuit.Parts
import Sentential.Proofs.Request.Declaration
import Sentential.Proofs.TruthTable.Printed
import Sentential.Proofs.Cli.Agreement
import Sentential.Proofs.Settings.Refusal
import Sentential.Proofs.Postfix.Viable
import Sentential.Proofs.Variables.Order
import Sentential.Proofs.Circuit.Acyclic
import Sentential.Proofs.Steps.Columns
import Sentential.Proofs.Text.Pieces
import Sentential.Proofs.TruthTable.Line
import Sentential.Proofs.TruthTable.ReadBack
import Sentential.Proofs.TruthTable.Aligned
import Sentential.Proofs.Steps.Texts
import Sentential.Proofs.Request.Layout
import Sentential.Proofs.Request.Report
import Sentential.Proofs.Settings.Override
import Sentential.Proofs.Bracket.Nesting
import Sentential.Proofs.Circuit.Tree
import Sentential.Proofs.Cli.Listing
import Sentential.Proofs.Variables.Acceptance
