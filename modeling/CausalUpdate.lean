import CausalUpdate.AnswerSet.Basic
import CausalUpdate.AnswerSet.Parse
import CausalUpdate.CommandLine.Arguments
import CausalUpdate.CommandLine.Dialogue
import CausalUpdate.CommandLine.Display
import CausalUpdate.CommandLine.Prompt
import CausalUpdate.CommandLine.Run
import CausalUpdate.Conflict.Basic
import CausalUpdate.Conflict.Extract
import CausalUpdate.Decimal.Binary
import CausalUpdate.Decimal.Form
import CausalUpdate.Decimal.Notation
import CausalUpdate.Decimal.Reader
import CausalUpdate.Decimal.Shortest
import CausalUpdate.Detection.Basic
import CausalUpdate.Detection.Detect
import CausalUpdate.Distance.Assignment
import CausalUpdate.Distance.Basic
import CausalUpdate.Document.Basic
import CausalUpdate.FileTree.Basic
import CausalUpdate.Journal.Asked
import CausalUpdate.Journal.Basic
import CausalUpdate.Journal.Call
import CausalUpdate.Journal.Kind.Basic
import CausalUpdate.Journal.Kind.Catalogue
import CausalUpdate.Journal.Kind.Holders
import CausalUpdate.Journal.Kind.Member
import CausalUpdate.Journal.Kind.Numbers
import CausalUpdate.Journal.Kind.Operations
import CausalUpdate.Journal.Kind.Roots
import CausalUpdate.Journal.Kind.Texts
import CausalUpdate.Journal.Sink
import CausalUpdate.Journal.Template
import CausalUpdate.Journal.Value
import CausalUpdate.Literal.Basic
import CausalUpdate.Literal.Parse
import CausalUpdate.Main
import CausalUpdate.ParseError
import CausalUpdate.Program.Absent
import CausalUpdate.Program.Basic
import CausalUpdate.Program.Edit
import CausalUpdate.Program.Parse
import CausalUpdate.Rule.Basic
import CausalUpdate.Rule.Parse
import CausalUpdate.Settings.Basic
import CausalUpdate.Settings.Environment
import CausalUpdate.Solution.Apply
import CausalUpdate.Solution.Basic
import CausalUpdate.Solver.Basic
import CausalUpdate.Solver.GroundTerm
import CausalUpdate.Solver.Instances
import CausalUpdate.Solver.Matching
import CausalUpdate.Solver.Models
import CausalUpdate.Solver.Reading
import CausalUpdate.Solver.Simplified
import CausalUpdate.Solver.Symbol
import CausalUpdate.Solver.Term
import CausalUpdate.Solver.Token
import CausalUpdate.StableModel.Basic
import CausalUpdate.StableModel.Search
import CausalUpdate.Store.Basic
import CausalUpdate.Store.Name
import CausalUpdate.Store.Pattern
import CausalUpdate.Store.Selection
import CausalUpdate.Strategy.Basic
import CausalUpdate.Strategy.Modifications
import CausalUpdate.Text.Blank
import CausalUpdate.Text.Digit
import CausalUpdate.Text.Json
import CausalUpdate.Text.Layout
import CausalUpdate.Text.Line
import CausalUpdate.Text.Pieces
import CausalUpdate.Text.Printable
import CausalUpdate.Text.Quoted
import CausalUpdate.Text.Ranges
import CausalUpdate.Text.Similar
import CausalUpdate.Text.Terminal
import CausalUpdate.UpdateProgram.Basic
import CausalUpdate.UpdateSequence.Basic
import CausalUpdate.UpdateSequence.Resolve
import CausalUpdate.Work
import CausalUpdate.Proofs.Literal.Text
import CausalUpdate.Proofs.Literal.Reading
import CausalUpdate.Proofs.StableModel.Basic
import CausalUpdate.Proofs.Program.Gathering
import CausalUpdate.Proofs.Program.Clean
import CausalUpdate.Proofs.UpdateProgram.Vocabulary
import CausalUpdate.Proofs.UpdateProgram.Clauses
import CausalUpdate.Proofs.UpdateProgram.Ground
import CausalUpdate.Proofs.UpdateProgram.CausalRejection
import CausalUpdate.Proofs.UpdateProgram.Listing
import CausalUpdate.Proofs.Conflict.Recording
import CausalUpdate.Proofs.AnswerSet.Reading
import CausalUpdate.Proofs.StableModel.Rendering
import CausalUpdate.Proofs.UpdateProgram.Models
import CausalUpdate.Proofs.Conflict.Exactness
import CausalUpdate.Proofs.StableModel.Chaining
import CausalUpdate.Proofs.StableModel.Enumeration
import CausalUpdate.Proofs.Solver.Exact
import CausalUpdate.Proofs.UpdateProgram.Merging
import CausalUpdate.Proofs.Supply
import CausalUpdate.Proofs.Detection.Running
import CausalUpdate.Proofs.Detection.Pair
import CausalUpdate.Proofs.Detection.Sequence
import CausalUpdate.Proofs.UpdateSequence.Offering
import CausalUpdate.Proofs.UpdateSequence.Agreement
import CausalUpdate.Proofs.Strategy.Versions
import CausalUpdate.Proofs.Program.Orderly
import CausalUpdate.Proofs.Program.Live
import CausalUpdate.Proofs.Program.Replacing
import CausalUpdate.Proofs.Detection.Comparing
import CausalUpdate.Proofs.Detection.Unblocked
import CausalUpdate.Proofs.Rule.Weight
import CausalUpdate.Proofs.Strategy.Alike
import CausalUpdate.Proofs.Solution.Applying
import CausalUpdate.Proofs.Solution.Settling
import CausalUpdate.Proofs.Solution.Progress
import CausalUpdate.Proofs.Strategy.Finding
import CausalUpdate.Proofs.UpdateSequence.Accepting
import CausalUpdate.Proofs.Program.Reading
import CausalUpdate.Proofs.UpdateSequence.Session
import CausalUpdate.Proofs.UpdateSequence.Courses
import CausalUpdate.Proofs.UpdateSequence.Resolving
import CausalUpdate.Proofs.Text.Trimming
import CausalUpdate.Proofs.StableModel.Reduct
import CausalUpdate.Proofs.Grammar.Basic
import CausalUpdate.Proofs.Grammar.Parts
import CausalUpdate.Proofs.Grammar.Literal
import CausalUpdate.Proofs.Grammar.Rule
import CausalUpdate.Proofs.Grammar.Text
import CausalUpdate.Proofs.Grammar.Rendering
import CausalUpdate.Proofs.Program.Language
import CausalUpdate.Proofs.Program.Renaming
import CausalUpdate.Proofs.UpdateProgram.Renaming
import CausalUpdate.Proofs.Detection.Surviving
import CausalUpdate.Proofs.UpdateSequence.Renaming
import CausalUpdate.Proofs.UpdateSequence.Refusing
import CausalUpdate.Proofs.Program.Skipping
import CausalUpdate.Proofs.UpdateSequence.Desk
import CausalUpdate.Proofs.UpdateProgram.Swapping
import CausalUpdate.Proofs.UpdateSequence.Swapping
import CausalUpdate.Proofs.Program.Made
import CausalUpdate.Proofs.UpdateProgram.Guarding
import CausalUpdate.Proofs.UpdateSequence.Guarding
import CausalUpdate.Proofs.Solution.Placing
import CausalUpdate.Proofs.Strategy.PowerSet
import CausalUpdate.Proofs.UpdateSequence.Tally
import CausalUpdate.Proofs.Program.Labels
import CausalUpdate.Proofs.UpdateSequence.Labels
import CausalUpdate.Proofs.Solution.Choosing
import CausalUpdate.Proofs.UpdateSequence.Unopposed
import CausalUpdate.Proofs.Distance.Assignment
import CausalUpdate.Proofs.Distance.AnswerSets
import CausalUpdate.Proofs.UpdateProgram.Splitting
import CausalUpdate.Proofs.Detection.Stopping
import CausalUpdate.Proofs.UpdateSequence.Scoring
import CausalUpdate.Proofs.UpdateSequence.Appending
import CausalUpdate.Proofs.Strategy.Exclusion
import CausalUpdate.Proofs.Program.Joining
import CausalUpdate.Proofs.Detection.Folding
import CausalUpdate.Proofs.Solution.Effect
import CausalUpdate.Proofs.Distance.Pairing
import CausalUpdate.Proofs.Distance.Metric
import CausalUpdate.Proofs.Distance.Versions
import CausalUpdate.Proofs.Detection.Legible
import CausalUpdate.Proofs.Store.Name
import CausalUpdate.Proofs.FileTree.Files
import CausalUpdate.Proofs.Store.Listing
import CausalUpdate.Proofs.Store.Files
import CausalUpdate.Proofs.Store.Map
import CausalUpdate.Proofs.Literal.Distinct
import CausalUpdate.Proofs.Program.Index
import CausalUpdate.Proofs.Text.Parentheses
