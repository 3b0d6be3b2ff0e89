import MemberRefs.Text.CodePoints
import MemberRefs.Text.Blank
import MemberRefs.Text.Decimal
import MemberRefs.Text.WordChar
import MemberRefs.Text.Printable
import MemberRefs.Text.Quoted
import MemberRefs.Text.Pieces
import MemberRefs.Source.Location
import MemberRefs.Source.Span
import MemberRefs.Source.Offset
import MemberRefs.Json.Basic
import MemberRefs.Json.Parser
import MemberRefs.Json.Printer
import MemberRefs.Json.Record
import MemberRefs.Ty.Basic
import MemberRefs.Ty.Printer
import MemberRefs.Ty.Parser
import MemberRefs.Signature
import MemberRefs.Name
import MemberRefs.Tree.Expr
import MemberRefs.Tree.Stmt
import MemberRefs.Tree.Token
import MemberRefs.Tree.Decl
import MemberRefs.Tree.DeclRef
import MemberRefs.Tree.Outline
import MemberRefs.Format.Encode
import MemberRefs.Format.Decode
import MemberRefs.Unresolved
import MemberRefs.Error
import MemberRefs.Diagnostic
import MemberRefs.Table.Basic
import MemberRefs.Table.Cycles
import MemberRefs.Table.Build
import MemberRefs.Table.Inheritance
import MemberRefs.Table.Lookup
import MemberRefs.Table.Overload
import MemberRefs.Resolve.Scope
import MemberRefs.Resolve.Names
import MemberRefs.Resolve.Expr
import MemberRefs.Resolve.Body
import MemberRefs.NameRange
import MemberRefs.References
import MemberRefs.Highlights
import MemberRefs.Selection
import MemberRefs.MemberPath.Basic
import MemberRefs.MemberPath.Parser
import MemberRefs.Format.Options
import MemberRefs.Folder
import MemberRefs.CommandLine
import MemberRefs.Main
import MemberRefs.Proofs.Except
import MemberRefs.Proofs.Table.Ascent
import MemberRefs.Proofs.Table.Acyclic
import MemberRefs.Proofs.Table.Built
import MemberRefs.Proofs.Table.Lookup
import MemberRefs.Proofs.Resolve.Site
import MemberRefs.Proofs.Resolve.Scoping
import MemberRefs.Proofs.Resolve.Census
import MemberRefs.Proofs.Resolve.Soundness
import MemberRefs.Proofs.Table.Layout
import MemberRefs.Proofs.Table.Effective
import MemberRefs.Proofs.Table.Linked
import MemberRefs.Proofs.Resolve.Forms
import MemberRefs.Proofs.References
import MemberRefs.Proofs.Table.Acceptance
import MemberRefs.Proofs.Text.Blank
import MemberRefs.Proofs.Ty.Spelling
import MemberRefs.Proofs.MemberPath.Params
import MemberRefs.Proofs.Source.Notation
import MemberRefs.Proofs.MemberPath.Forms
import MemberRefs.Proofs.MemberPath.ReadsBack
import MemberRefs.Proofs.Table.Contents
import MemberRefs.Proofs.Format.Leaves
import MemberRefs.Proofs.Json.Record
import MemberRefs.Proofs.Format.Decoded
import MemberRefs.Proofs.Format.RoundTrip
import MemberRefs.Proofs.MemberPath.Addressed
import MemberRefs.Proofs.NameRange
import MemberRefs.Proofs.Reorder.Rearranged
import MemberRefs.Proofs.Reorder.Renumbered
import MemberRefs.Proofs.Reorder.Resolved
import MemberRefs.Proofs.Reorder.Units
import MemberRefs.Proofs.Reorder.Tables
import MemberRefs.Proofs.Table.BestRank
import MemberRefs.Proofs.CommandLine
import MemberRefs.Proofs.Resolve.ThisObject
import MemberRefs.Proofs.Table.Emptied
import MemberRefs.Proofs.Resolve.Emptied
import MemberRefs.Proofs.Resolve.Contexts
import MemberRefs.Proofs.Resolve.Outside
import MemberRefs.Proofs.Resolve.Definite
import MemberRefs.Proofs.Resolve.Unknown
import MemberRefs.Proofs.Table.Cycles
import MemberRefs.Proofs.Table.PostOrder
import MemberRefs.Proofs.Table.Hiding
import MemberRefs.Proofs.Resolve.Operators
import MemberRefs.Proofs.Resolve.Constness
import MemberRefs.Proofs.Selection
import MemberRefs.Proofs.NameRange.Comments
import MemberRefs.Proofs.NameRange.PlainNames
import MemberRefs.Proofs.Resolve.Declared
import MemberRefs.Proofs.Highlights
import MemberRefs.Proofs.Source.Reading
import MemberRefs.Proofs.Diagnostic
import MemberRefs.Proofs.Tree.Writing
import MemberRefs.Proofs.Ty.Grammar
import MemberRefs.Proofs.Ty.Decay
import MemberRefs.Proofs.Tree.Parts
import MemberRefs.Proofs.Tree.Compositional
import MemberRefs.Proofs.Tree.Locals
import MemberRefs.Proofs.Source.Offset
