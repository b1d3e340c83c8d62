import Binding.Main
import Binding.Proofs.Code.Meaning
import Binding.Proofs.Code.Pipe
import Binding.Proofs.Code.Reading
import Binding.Proofs.Grammar.Acceptance
import Binding.Proofs.Grammar.Completeness
import Binding.Proofs.Grammar.Height
import Binding.Proofs.Grammar.Limit
import Binding.Proofs.Grammar.Nesting
import Binding.Proofs.Grammar.Phrase
import Binding.Proofs.Grammar.Soundness
import Binding.Proofs.Grammar.Subtree
import Binding.Proofs.Number.Canonical
import Binding.Proofs.Parser.Coupling
import Binding.Proofs.Parser.Lockstep
import Binding.Proofs.Parser.Success
import Binding.Proofs.Token.Spelling
import Binding.Proofs.Token.Tokens
import Binding.Proofs.Token.Written
import Binding.Token.Lexer
import Binding.Proofs.Expr.Traversal
import Binding.Proofs.Parser.PostOrder
import Binding.Proofs.Token.Lexemes
import Binding.Proofs.Parser.Locality
import Binding.Proofs.Grammar.Failure
import Binding.Proofs.Grammar.Viability
import Binding.Proofs.Grammar.Diagnosis
import Binding.Proofs.Expr.Everywhere
import Binding.Proofs.Grammar.WellFormed
import Binding.Proofs.Token.Pieces
import Binding.Proofs.Code.Layout
import Binding.Proofs.Code.Names
import Binding.Proofs.Code.Boundaries
import Binding.Proofs.Parser.Calls
import Binding.Proofs.Token.Places
import Binding.Proofs.Parser.Reuse
import Binding.Proofs.Token.LongestMatch
import Binding.Proofs.Token.Tiling
import Binding.Proofs.Token.Sessions
import Binding.Proofs.Parser.Positions
import Binding.Proofs.Command.Agreement
import Binding.Proofs.Code.Strings
import Binding.Proofs.Number.Value
import Binding.Proofs.Token.Spacing
import Binding.Proofs.Parser.Spacing
import Binding.Proofs.Json.Equality
import Binding.Proofs.Expr.Dump
import Binding.Proofs.Code.Template
import Binding.Proofs.Code.Path
import Binding.Proofs.Parser.Conservation
import Binding.Proofs.Parser.Rounds
import Binding.Proofs.Parser.Changes
import Binding.Proofs.Parser.Onward
