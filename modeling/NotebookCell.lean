import NotebookCell.Main
import NotebookCell.Provenance.Split
import NotebookCell.Syntax.Walk
import NotebookCell.Edit.Calls
import NotebookCell.Proofs.Edit.Patch
import NotebookCell.Proofs.Pass.Runs
import NotebookCell.Proofs.Provenance.Marks
import NotebookCell.Proofs.Cell.Provenance
import NotebookCell.Proofs.Text.Numerals
import NotebookCell.Proofs.Trace.References
import NotebookCell.Proofs.Trace.Locations
import NotebookCell.Proofs.Edit.Parts
import NotebookCell.Proofs.Scope.Rendering
import NotebookCell.Proofs.Scope.Walk
import NotebookCell.Proofs.Scope.Planned
import NotebookCell.Proofs.Scope.Kinds
import NotebookCell.Proofs.Scope.Frames
import NotebookCell.Proofs.Pass.Bodies
import NotebookCell.Proofs.Scope.Pass
import NotebookCell.Proofs.Import.Rewriting
import NotebookCell.Proofs.Import.Bindings
import NotebookCell.Proofs.Import.Walk
import NotebookCell.Proofs.Import.Clauses
import NotebookCell.Proofs.Import.Statements
import NotebookCell.Proofs.Edit.Remainders
import NotebookCell.Proofs.Import.Pass
import NotebookCell.Proofs.Text.Pieces
import NotebookCell.Proofs.SourceMap.Digits
import NotebookCell.Proofs.SourceMap.Reading
import NotebookCell.Proofs.SourceMap.Runs
import NotebookCell.Proofs.SourceMap.RoundTrip
import NotebookCell.Proofs.SourceMap.Spellings
import NotebookCell.Proofs.Scope.Names
import NotebookCell.Proofs.Scope.Changes
import NotebookCell.Proofs.Scope.Moves
import NotebookCell.Proofs.Scope.Statements
import NotebookCell.Proofs.Scope.Bindings
import NotebookCell.Proofs.Syntax.Layout
import NotebookCell.Proofs.Import.Spelling
import NotebookCell.Proofs.Import.Targets
import NotebookCell.Proofs.Import.Assignment
import NotebookCell.Proofs.Syntax.Leaves
import NotebookCell.Proofs.Syntax.Faithful
import NotebookCell.Proofs.Syntax.Enclosed
import NotebookCell.Proofs.Cell.Wrapper
import NotebookCell.Proofs.Cell.Calls
import NotebookCell.Proofs.Cell.Store
import NotebookCell.Proofs.Cell.Interleaving
import NotebookCell.Proofs.Cell.Order
import NotebookCell.Proofs.CommandLine.Lines
import NotebookCell.Proofs.CommandLine.Session
import NotebookCell.Proofs.Syntax.Nesting
import NotebookCell.Proofs.Pass.Mirrors
import NotebookCell.Proofs.Edit.Templates
import NotebookCell.Proofs.Hidden.Nodes
import NotebookCell.Proofs.Hidden.Outline
import NotebookCell.Proofs.Hidden.Steps
import NotebookCell.Proofs.Hidden.Scope
import NotebookCell.Proofs.Hidden.Imports
import NotebookCell.Proofs.Hidden.Bodies
import NotebookCell.Proofs.Hidden.Runs
import NotebookCell.Proofs.Hidden.Passes
import NotebookCell.Proofs.Edit.Orders
import NotebookCell.Proofs.Provenance.Lines
import NotebookCell.Proofs.Trace.Locating
import NotebookCell.Proofs.Syntax.Places
import NotebookCell.Proofs.Syntax.Paths
import NotebookCell.Proofs.Trace.Truncation
import NotebookCell.Proofs.Syntax.Faults
import NotebookCell.Proofs.Edit.Calls
import NotebookCell.Proofs.Trace.Reading
import NotebookCell.Proofs.Trace.Resolution
import NotebookCell.Proofs.Syntax.Bytes
import NotebookCell.Proofs.Text.Occurrences
import NotebookCell.Proofs.Provenance.Splitting
import NotebookCell.Proofs.Cell.Embedding
import NotebookCell.Proofs.Cell.Recency
import NotebookCell.Proofs.Pass.Visitors
import NotebookCell.Proofs.Pass.Walks
