import CounterFormula.Ascending
import CounterFormula.Assignment
import CounterFormula.Block
import CounterFormula.Clean
import CounterFormula.Clean.Erasure
import CounterFormula.Clean.Glyph
import CounterFormula.Clean.Rules
import CounterFormula.CommandLine
import CounterFormula.CommandLine.Arguments
import CounterFormula.CommandLine.Directory
import CounterFormula.Config
import CounterFormula.Decimal.Shortest
import CounterFormula.Fault
import CounterFormula.Fault.File
import CounterFormula.Json.Basic
import CounterFormula.Json.Canonical
import CounterFormula.Json.Decode
import CounterFormula.Json.Number
import CounterFormula.Json.Spelling
import CounterFormula.Main
import CounterFormula.Outcome
import CounterFormula.Proofs.Assignment.Pairs
import CounterFormula.Proofs.Assignment.Resolved
import CounterFormula.Proofs.Assignment.Signs
import CounterFormula.Proofs.Assignment.Sweep
import CounterFormula.Proofs.Assignment.Tokenwise
import CounterFormula.Proofs.Assignment.Value
import CounterFormula.Proofs.Block.Following
import CounterFormula.Proofs.Checked.Assignment
import CounterFormula.Proofs.Checked.Block
import CounterFormula.Proofs.Checked.Lexer
import CounterFormula.Proofs.Checked.Reference
import CounterFormula.Proofs.Checked.Run
import CounterFormula.Proofs.Checked.Summation
import CounterFormula.Proofs.Clean.Folding
import CounterFormula.Proofs.Clean.Footnotes
import CounterFormula.Proofs.Clean.Lists
import CounterFormula.Proofs.Clean.Matches
import CounterFormula.Proofs.Clean.Normal
import CounterFormula.Proofs.Clean.Parted
import CounterFormula.Proofs.Clean.Passing
import CounterFormula.Proofs.Clean.Rounds
import CounterFormula.Proofs.Fault.Severity
import CounterFormula.Proofs.Index
import CounterFormula.Proofs.Reference.Grammar
import CounterFormula.Proofs.Reference.Mention
import CounterFormula.Proofs.Reference.Occurrence
import CounterFormula.Proofs.Reference.StandIn
import CounterFormula.Proofs.Reference.Substitution
import CounterFormula.Proofs.Reference.Surroundings
import CounterFormula.Proofs.Reference.Transparent
import CounterFormula.Proofs.Registry.Versions
import CounterFormula.Proofs.Run.Colons
import CounterFormula.Proofs.Run.Context
import CounterFormula.Proofs.Run.Cycle
import CounterFormula.Proofs.Run.Hygiene
import CounterFormula.Proofs.Run.Independence
import CounterFormula.Proofs.Run.Inner
import CounterFormula.Proofs.Run.Locality
import CounterFormula.Proofs.Run.Modes
import CounterFormula.Proofs.Run.Nesting
import CounterFormula.Proofs.Run.Plain
import CounterFormula.Proofs.Run.Propagation
import CounterFormula.Proofs.Run.Recording
import CounterFormula.Proofs.Run.References
import CounterFormula.Proofs.Run.SelfContained
import CounterFormula.Proofs.Run.Symbols
import CounterFormula.Proofs.Run.Trace
import CounterFormula.Proofs.Run.Trust
import CounterFormula.Proofs.Run.Unmet
import CounterFormula.Proofs.Run.WellNested
import CounterFormula.Proofs.Summation.Expansion
import CounterFormula.Proofs.Summation.Faultless
import CounterFormula.Proofs.Summation.Grammar
import CounterFormula.Proofs.Summation.Rewriting
import CounterFormula.Proofs.Summation.Screenings
import CounterFormula.Proofs.Summation.Vanishing
import CounterFormula.Proofs.Text.Bytes
import CounterFormula.Proofs.Text.Nested
import CounterFormula.Proofs.Text.Outside
import CounterFormula.Proofs.Text.Patch
import CounterFormula.Proofs.Text.Replace
import CounterFormula.Proofs.Token.Boundary
import CounterFormula.Proofs.Token.Class
import CounterFormula.Proofs.Token.Errors
import CounterFormula.Proofs.Token.LongestMatch
import CounterFormula.Proofs.Token.Machine
import CounterFormula.Proofs.Token.Order
import CounterFormula.Proofs.Token.Parts
import CounterFormula.Proofs.Token.Patched
import CounterFormula.Proofs.Token.Pieces
import CounterFormula.Proofs.Token.Relaxed
import CounterFormula.Proofs.Token.Resume
import CounterFormula.Proofs.Token.Scan
import CounterFormula.Proofs.Token.Single
import CounterFormula.Proofs.Token.Surroundings
import CounterFormula.Proofs.Token.Written
import CounterFormula.Reference
import CounterFormula.Registry
import CounterFormula.Registry.File
import CounterFormula.Registry.Kpi
import CounterFormula.Registry.Screening
import CounterFormula.Run
import CounterFormula.Settings
import CounterFormula.Settings.Toml
import CounterFormula.Summation
import CounterFormula.SymbolTable
import CounterFormula.Text.Basic
import CounterFormula.Text.Blank
import CounterFormula.Text.Lowercase
import CounterFormula.Text.Printable
import CounterFormula.Text.Quoted
import CounterFormula.Token.Basic
import CounterFormula.Token.Lexer
