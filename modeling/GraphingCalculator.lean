import GraphingCalculator.Text.Quoted
import GraphingCalculator.Text.Lowercase
import GraphingCalculator.Text.Blank
import GraphingCalculator.Decimal.Positional
import GraphingCalculator.Decimal.Numeral
import GraphingCalculator.Name
import GraphingCalculator.Operator
import GraphingCalculator.Token.Basic
import GraphingCalculator.SyntaxError
import GraphingCalculator.Builtin
import GraphingCalculator.DomainError
import GraphingCalculator.Source.Identifiers
import GraphingCalculator.Source.Tokens
import GraphingCalculator.Token.Adjacency
import GraphingCalculator.Token.Postfix
import GraphingCalculator.Expression.Building
import GraphingCalculator.Environment.Compilation
import GraphingCalculator.Environment.Evaluation
import GraphingCalculator.Definition.Splitting
import GraphingCalculator.Environment.Editing
import GraphingCalculator.Secant
import GraphingCalculator.Plot.Sampling
import GraphingCalculator.Environment.Calculation
import GraphingCalculator.Worksheet.Editing
import GraphingCalculator.Main
import GraphingCalculator.Proofs.Sequence
import GraphingCalculator.Proofs.Folding
import GraphingCalculator.Proofs.Relabelling
import GraphingCalculator.Proofs.Environment.Lookup
import GraphingCalculator.Proofs.Source.Reading
import GraphingCalculator.Proofs.Token.Tree
import GraphingCalculator.Proofs.Token.Stacks
import GraphingCalculator.Proofs.Compilation.References
import GraphingCalculator.Proofs.Compilation.Dependence
import GraphingCalculator.Proofs.Compilation.Resolution
import GraphingCalculator.Proofs.Source.Spelling
import GraphingCalculator.Proofs.Grammar.Derivation
import GraphingCalculator.Proofs.Grammar.Conversion
import GraphingCalculator.Proofs.Grammar.Balance
import GraphingCalculator.Proofs.Grammar.Meaning
import GraphingCalculator.Proofs.Grammar.Recognition
import GraphingCalculator.Proofs.Source.Checking
import GraphingCalculator.Proofs.Grammar.Compilation
import GraphingCalculator.Proofs.Source.Renaming
import GraphingCalculator.Proofs.Source.Replacement
import GraphingCalculator.Proofs.Compilation.Renaming
import GraphingCalculator.Proofs.Worksheet.Operation
import GraphingCalculator.Proofs.Worksheet.Consistency
import GraphingCalculator.Proofs.Worksheet.Agreement
import GraphingCalculator.Proofs.Worksheet.Insertion
import GraphingCalculator.Proofs.Environment.Evaluation
import GraphingCalculator.Proofs.Environment.Renaming
import GraphingCalculator.Proofs.Environment.Nesting
import GraphingCalculator.Proofs.Environment.Limits
import GraphingCalculator.Proofs.Environment.Operation
import GraphingCalculator.Proofs.Environment.Grounding
import GraphingCalculator.Proofs.Environment.Definedness
import GraphingCalculator.Proofs.Environment.Commutation
import GraphingCalculator.Proofs.Environment.Table
import GraphingCalculator.Proofs.Environment.Naming
import GraphingCalculator.Proofs.Worksheet.Naming
import GraphingCalculator.Proofs.Worksheet.Freshness
import GraphingCalculator.Proofs.Worksheet.Tracking
import GraphingCalculator.Proofs.Worksheet.Overtaking
import GraphingCalculator.Proofs.Worksheet.Dependence
import GraphingCalculator.Proofs.Worksheet.Passes
import GraphingCalculator.Proofs.Worksheet.Refreshing
import GraphingCalculator.Proofs.Worksheet.Renaming
import GraphingCalculator.Proofs.Worksheet.Equivalence
import GraphingCalculator.Proofs.Worksheet.Separation
import GraphingCalculator.Proofs.Worksheet.Correspondence
import GraphingCalculator.Proofs.Worksheet.Retention
import GraphingCalculator.Proofs.Worksheet.Shifting
import GraphingCalculator.Proofs.Worksheet.Orphaning
import GraphingCalculator.Proofs.Worksheet.Removal
import GraphingCalculator.Proofs.Grammar.Refusal
import GraphingCalculator.Proofs.Environment.Cutoff
import GraphingCalculator.Proofs.Environment.Locality
import GraphingCalculator.Proofs.Environment.Constancy
import GraphingCalculator.Proofs.Environment.Generations
import GraphingCalculator.Proofs.Environment.InPlace
import GraphingCalculator.Proofs.Worksheet.Generations
import GraphingCalculator.Proofs.Source.Parts
import GraphingCalculator.Proofs.Source.Legibility
import GraphingCalculator.Proofs.Source.Definitions
import GraphingCalculator.Proofs.Compilation.Positions
import GraphingCalculator.Proofs.Worksheet.Histories
import GraphingCalculator.Proofs.Worksheet.Layout
import GraphingCalculator.Proofs.Worksheet.Slicing
import GraphingCalculator.Proofs.Worksheet.Pointing
import GraphingCalculator.Proofs.Worksheet.Retyping
import GraphingCalculator.Proofs.Source.Spacing
import GraphingCalculator.Proofs.Compilation.Spacing
import GraphingCalculator.Proofs.Source.Slices
import GraphingCalculator.Proofs.Source.Lexing
import GraphingCalculator.Proofs.Compilation.Blame
import GraphingCalculator.Proofs.Token.Conservation
import GraphingCalculator.Proofs.Source.Exactness
import GraphingCalculator.Proofs.Worksheet.Searching
import GraphingCalculator.Proofs.Worksheet.Typing
import GraphingCalculator.Proofs.Worksheet.Containment
import GraphingCalculator.Proofs.Grammar.Postorder
import GraphingCalculator.Proofs.Secant
import GraphingCalculator.Proofs.Plot.MaximalBlocks
import GraphingCalculator.Proofs.Worksheet.Plotting
import GraphingCalculator.Proofs.Parenthesis.Matching
import GraphingCalculator.Proofs.Parenthesis.Passes
import GraphingCalculator.Proofs.Source.Recovery
import GraphingCalculator.Proofs.Source.Coverage
import GraphingCalculator.Proofs.Source.Listing
import GraphingCalculator.Proofs.Source.Assembly
