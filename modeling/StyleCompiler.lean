import StyleCompiler.OrderedMap
import StyleCompiler.Name
import StyleCompiler.Double
import StyleCompiler.Decimal.Shortest
import StyleCompiler.Decimal.Text
import StyleCompiler.Dimension
import StyleCompiler.OutputPath
import StyleCompiler.Declaration
import StyleCompiler.Stylesheet
import StyleCompiler.Registry
import StyleCompiler.Options
import StyleCompiler.Text.Utf16
import StyleCompiler.Json.Text
import StyleCompiler.Json.Declaration
import StyleCompiler.Json.Options
import StyleCompiler.Tree
import StyleCompiler.Value
import StyleCompiler.Diagnostic
import StyleCompiler.Call
import StyleCompiler.Compile
import StyleCompiler.Text.LetterTable
import StyleCompiler.Source.Character
import StyleCompiler.Source.Literal
import StyleCompiler.Source.Dialect
import StyleCompiler.Source.Token
import StyleCompiler.Source.Parser
import StyleCompiler.Source.Template
import StyleCompiler.Source.Binding
import StyleCompiler.Source.TypeAnnotation
import StyleCompiler.Source.Target
import StyleCompiler.Source.Function
import StyleCompiler.Source.Markup
import StyleCompiler.Source.Expression
import StyleCompiler.Source.Exchange
import StyleCompiler.Source.Statement
import StyleCompiler.Source.Module
import StyleCompiler.Proofs.OrderedMap
import StyleCompiler.Proofs.Registry
import StyleCompiler.Proofs.Call
import StyleCompiler.Proofs.Run
import StyleCompiler.Proofs.NonInterference
import StyleCompiler.Proofs.Trace
import StyleCompiler.Proofs.History
import StyleCompiler.Proofs.VariablesInOutput
import StyleCompiler.Proofs.Cleaning.Definition
import StyleCompiler.Proofs.Cleaning.Pass
import StyleCompiler.Proofs.Cleaning.Outcome
import StyleCompiler.Proofs.Erasure.Definition
import StyleCompiler.Proofs.Erasure.Outcome
import StyleCompiler.Proofs.Merge
import StyleCompiler.Proofs.Name
import StyleCompiler.Proofs.Dimension
import StyleCompiler.Proofs.OutputPath
import StyleCompiler.Proofs.SharedVariables
import StyleCompiler.Proofs.UniqueReading
import StyleCompiler.Proofs.JsonRoundTrip
import StyleCompiler.Proofs.NormalNames
import StyleCompiler.Proofs.Reachable
import StyleCompiler.Proofs.ContractPath
import StyleCompiler.Proofs.Operations
import StyleCompiler.Proofs.Stability
import StyleCompiler.Proofs.Simulation
import StyleCompiler.Proofs.Renaming.Definition
import StyleCompiler.Proofs.Renaming.Outcome
import StyleCompiler.Proofs.ThemeOfContract
import StyleCompiler.Proofs.StyleBody
import StyleCompiler.Proofs.LastWrite
import StyleCompiler.Proofs.MemberChain
import StyleCompiler.Proofs.Template
import StyleCompiler.Proofs.Respelling.Definition
import StyleCompiler.Proofs.Respelling.Outcome
import StyleCompiler.Proofs.Rounding
import StyleCompiler.Proofs.Shortest
import StyleCompiler.Proofs.Numeral
import StyleCompiler.Proofs.NumberText
