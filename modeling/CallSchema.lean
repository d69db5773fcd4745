import CallSchema.Catalogue
import CallSchema.Codec.Schema
import CallSchema.Codec.Signature
import CallSchema.Proofs.Docstring.Access
import CallSchema.Proofs.Docstring.Asides
import CallSchema.Proofs.Docstring.EntryLines
import CallSchema.Proofs.Docstring.Names
import CallSchema.Proofs.Docstring.ParamPattern
import CallSchema.Proofs.Docstring.SharedEntries
import CallSchema.Proofs.Item.ByHand
import CallSchema.Proofs.Layout.NormalForm
import CallSchema.Proofs.Rendering.OptionalRemark
import CallSchema.Proofs.Schema.Building
import CallSchema.Proofs.Schema.Choices
import CallSchema.Proofs.Schema.Rearrangement
import CallSchema.Proofs.Schema.ReturnProperty
import CallSchema.Proofs.Codec.RoundTrip
import CallSchema.Proofs.Text.LowerCase
import CallSchema.Proofs.TypeHint.CutPoints
import CallSchema.Proofs.TypeHint.Bars
import CallSchema.Proofs.TypeHint.Expr
import CallSchema.Proofs.TypeHint.Atoms
import CallSchema.Proofs.TypeHint.Wrappers
import CallSchema.Proofs.TypeHint.Members
import CallSchema.Proofs.TypeHint.ExprText
import CallSchema.Proofs.TypeHint.Meaning
import CallSchema.Proofs.TypeHint.References
import CallSchema.Proofs.TypeHint.OptionalForms
import CallSchema.Proofs.TypeHint.NullParts
import CallSchema.Proofs.TypeHint.LiteralTrees
import CallSchema.Proofs.TypeHint.TypeNames
import CallSchema.Proofs.TypeHint.ScannedSets
import CallSchema.Proofs.TypeHint.OuterRemark
import CallSchema.Proofs.TypeHint.Slices
