import ShellTemplate.Atom
import ShellTemplate.Checked
import ShellTemplate.CommandLine.Assignment
import ShellTemplate.CommandLine.Basic
import ShellTemplate.CommandLine.Options
import ShellTemplate.Config.Basic
import ShellTemplate.Config.Load
import ShellTemplate.Context
import ShellTemplate.Error
import ShellTemplate.Expansion
import ShellTemplate.Files.Path
import ShellTemplate.Files.Tree
import ShellTemplate.Json.Grammar
import ShellTemplate.Json.Parts
import ShellTemplate.Json.Scan
import ShellTemplate.Json.Text
import ShellTemplate.Main
import ShellTemplate.Number.Binary64
import ShellTemplate.Number.Decimal
import ShellTemplate.Number.Numeral
import ShellTemplate.Number.Shortest
import ShellTemplate.Page.Basic
import ShellTemplate.Page.Reader
import ShellTemplate.Part
import ShellTemplate.Proofs.AsciiRuns
import ShellTemplate.Proofs.CommandWord
import ShellTemplate.Proofs.Composition
import ShellTemplate.Proofs.ErrorPlaces
import ShellTemplate.Proofs.Expanding
import ShellTemplate.Proofs.JsonRoundtrip
import ShellTemplate.Proofs.JsonStrings
import ShellTemplate.Proofs.LineWords
import ShellTemplate.Proofs.NamedValues
import ShellTemplate.Proofs.Names
import ShellTemplate.Proofs.NumberTexts
import ShellTemplate.Proofs.PlainContexts
import ShellTemplate.Proofs.PlainNumbers
import ShellTemplate.Proofs.PrintedWords
import ShellTemplate.Proofs.RenderArguments
import ShellTemplate.Proofs.RenderOutcome
import ShellTemplate.Proofs.ShellReading
import ShellTemplate.Proofs.TemplateComposition
import ShellTemplate.Proofs.TemplateGrammar
import ShellTemplate.Proofs.VariableRules
import ShellTemplate.Proofs.WrittenTemplates
import ShellTemplate.Shell.Command
import ShellTemplate.Shell.Quote
import ShellTemplate.Shell.Words
import ShellTemplate.Template.Basic
import ShellTemplate.Template.Grammar
import ShellTemplate.Template.Printer
import ShellTemplate.Template.Reader
import ShellTemplate.Terminal
import ShellTemplate.Text.Blank
import ShellTemplate.Text.Digit
import ShellTemplate.Text.Newline
import ShellTemplate.Text.Printable
import ShellTemplate.Text.Quotation
import ShellTemplate.Text.Utf8
import ShellTemplate.Value.Basic
import ShellTemplate.Value.Equality
import ShellTemplate.Value.Items
import ShellTemplate.Value.Written
import ShellTemplate.Yaml.Base64
import ShellTemplate.Yaml.Cursor
import ShellTemplate.Yaml.Document
import ShellTemplate.Yaml.Node
import ShellTemplate.Yaml.Number
import ShellTemplate.Yaml.Scalar
import ShellTemplate.Yaml.Tag
import ShellTemplate.Yaml.Timestamp
import ShellTemplate.Yaml.Token
import ShellTemplate.Proofs.OverridingValues
import ShellTemplate.Proofs.CallerVariables
import ShellTemplate.Proofs.ContextTrees
import ShellTemplate.Proofs.RefusedTemplates
import ShellTemplate.Proofs.JsonSpelling
import ShellTemplate.Proofs.JsonObjects
import ShellTemplate.Proofs.JsonDocuments
import ShellTemplate.Proofs.PageWords
import ShellTemplate.Proofs.PrintedParts
import ShellTemplate.Proofs.YamlReading
import ShellTemplate.Proofs.YamlValues
import ShellTemplate.Proofs.ConfigFiles
import ShellTemplate.Proofs.FaultColumns
import ShellTemplate.Proofs.LineTemplates
import ShellTemplate.Proofs.QuotedValues
import ShellTemplate.Files.Location
import ShellTemplate.Proofs.NearestConfig
import ShellTemplate.Proofs.DecimalTexts
import ShellTemplate.Proofs.InertNumbers
import ShellTemplate.Proofs.Assignments
import ShellTemplate.Template.Scanner
import ShellTemplate.Proofs.ScannerBounds
