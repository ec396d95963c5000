import SqlTree.Main
import SqlTree.Query.Remembered
import SqlTree.Proofs.Membership.Meaning
import SqlTree.Proofs.Membership.Capture
import SqlTree.Proofs.Combination.Grouping
import SqlTree.Proofs.Tree.Passes
import SqlTree.Proofs.Builder.Rules
import SqlTree.Proofs.Tree.RevisionFaults
import SqlTree.Proofs.Membership.Revised
import SqlTree.Proofs.Writing.Congruence
import SqlTree.Proofs.Writing.Revised
import SqlTree.Proofs.Writing.Projection
import SqlTree.Proofs.Lexical.SelfDelimiting
import SqlTree.Proofs.Lexical.Lexeme
import SqlTree.Proofs.Lexical.Enclosed
import SqlTree.Proofs.Lexical.Alike
import SqlTree.Proofs.Lexical.Spelling
import SqlTree.Proofs.Lexical.Statement
import SqlTree.Proofs.Writing.Nameless
import SqlTree.Proofs.Clauses.Interleaving
import SqlTree.Proofs.Builder.Wrapping
import SqlTree.Proofs.Writing.Nesting
import SqlTree.Proofs.Reading.Opening
import SqlTree.Proofs.Reading.Shown
import SqlTree.Proofs.Reading.Argument
import SqlTree.Proofs.Reading.Readable
import SqlTree.Proofs.Reading.Unique
import SqlTree.Proofs.Tree.Parts
import SqlTree.Proofs.Faults.IllFormed
import SqlTree.Proofs.Clauses.Pieces
import SqlTree.Proofs.Scoping.Ownership
import SqlTree.Proofs.Ordering.Reversal
import SqlTree.Proofs.Grouping.Operands
import SqlTree.Proofs.Membership.Repeated
import SqlTree.Proofs.Writing.Renumbered
import SqlTree.Proofs.Writing.Width
import SqlTree.Proofs.Membership.Shorter
import SqlTree.Proofs.Memory.Fresh
import SqlTree.Proofs.Memory.Running
import SqlTree.Proofs.Tree.Explicit
import SqlTree.Proofs.Naming.Identifier
import SqlTree.Proofs.Naming.Clash
import SqlTree.Proofs.Naming.Given
import SqlTree.Proofs.Naming.Numbering
import SqlTree.Proofs.Combination.Arms
import SqlTree.Proofs.Builder.RowAccess
import SqlTree.Proofs.Reading.Literals
import SqlTree.Proofs.Report.Alignment
import SqlTree.Proofs.Grouping.Paired
import SqlTree.Proofs.Grouping.Clauses
