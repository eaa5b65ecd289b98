import ChatCommand.Argument.Basic
import ChatCommand.Argument.Lookup
import ChatCommand.Config.Reader
import ChatCommand.Config.Source
import ChatCommand.Config.Toml.Document
import ChatCommand.Config.Toml.Layout
import ChatCommand.Config.Toml.Scalar
import ChatCommand.Config.Toml.Section
import ChatCommand.Config.Value
import ChatCommand.Console
import ChatCommand.Entity.Basic
import ChatCommand.Entity.Directory
import ChatCommand.Entity.Id
import ChatCommand.Environment
import ChatCommand.Line
import ChatCommand.Main
import ChatCommand.Matching.Attempt
import ChatCommand.Matching.Choice
import ChatCommand.Matching.Failure
import ChatCommand.Number.Binary64
import ChatCommand.Number.Decimal
import ChatCommand.Number.Shortest
import ChatCommand.Path
import ChatCommand.Program
import ChatCommand.Template.Basic
import ChatCommand.Template.Parser
import ChatCommand.Template.Render
import ChatCommand.Text.Basic
import ChatCommand.Text.CaseTable
import ChatCommand.Text.Lowercase
import ChatCommand.Text.Quoted
import ChatCommand.Usage.Basic
import ChatCommand.Usage.Parser
import ChatCommand.Proofs.Text.Spacing
import ChatCommand.Proofs.Line.Words
import ChatCommand.Proofs.Line.Quoted
import ChatCommand.Proofs.Line.Tokenization
import ChatCommand.Proofs.Line.Joining
import ChatCommand.Proofs.Matching.Lag
import ChatCommand.Proofs.Fallible
import ChatCommand.Proofs.Usage.Compiled
import ChatCommand.Proofs.Usage.Grammar
import ChatCommand.Proofs.Usage.Greedy
import ChatCommand.Proofs.Usage.Printing
import ChatCommand.Proofs.Matching.Places
import ChatCommand.Proofs.Matching.Positional
import ChatCommand.Proofs.Matching.Quoting
import ChatCommand.Proofs.Matching.Declared
import ChatCommand.Proofs.Matching.Remainder
import ChatCommand.Proofs.Matching.Keys
import ChatCommand.Proofs.Console.Declared
import ChatCommand.Proofs.Console.Faults
import ChatCommand.Proofs.Template.Filling
import ChatCommand.Proofs.Template.Splitting
import ChatCommand.Proofs.Template.Grammar
import ChatCommand.Proofs.Template.Printing
import ChatCommand.Proofs.Console.Errors
import ChatCommand.Proofs.Argument.Lookup
import ChatCommand.Proofs.Console.NotFound
import ChatCommand.Proofs.Console.Channels
import ChatCommand.Proofs.Text.LetterCase
import ChatCommand.Proofs.Matching.Matchable
import ChatCommand.Proofs.Line.LetterCase
import ChatCommand.Proofs.Matching.LetterCase
import ChatCommand.Proofs.Matching.Leftover
import ChatCommand.Proofs.Argument.Strings
import ChatCommand.Proofs.Entity.Id
import ChatCommand.Proofs.Entity.Mention
import ChatCommand.Proofs.Argument.Ranking
import ChatCommand.Proofs.Template.Rendering
import ChatCommand.Proofs.Console.Order
import ChatCommand.Proofs.Entity.Appearance
import ChatCommand.Proofs.Console.Selection
import ChatCommand.Proofs.Number.Rounding
import ChatCommand.Proofs.Number.Grammar
import ChatCommand.Proofs.Argument.Numbers
import ChatCommand.Proofs.Matching.Boundary
