import Frontend.Builder
import Frontend.Markup.Basic
import Frontend.Message
import Frontend.Options.Reader
import Frontend.Options.Writer
import Frontend.Outline
import Frontend.Proofs.NamePool
import Frontend.Proofs.SymbolTable.Invariant
import Frontend.Session.Script
import Frontend.SymbolTable.Names
import Frontend.SymbolTable.Scopes
import Frontend.Text.Control
import Frontend.Tree.Release
import Frontend.Tree.Teardown
import Frontend.Tree.Walk
import Frontend.Proofs.SymbolTable.Growth
import Frontend.Proofs.SymbolTable.Ancestry
import Frontend.Proofs.SymbolTable.Sweep
import Frontend.Proofs.SymbolTable.Run
import Frontend.Proofs.SymbolTable.Arena
import Frontend.Proofs.SymbolTable.Crowding
import Frontend.Proofs.SymbolTable.Consistency
import Frontend.Proofs.SymbolTable.Destruction
import Frontend.Proofs.SymbolTable.Staleness
import Frontend.Proofs.Builder.Shape
import Frontend.Proofs.Markup.Lossless
import Frontend.Proofs.Markup.WellFormed
import Frontend.Proofs.Text.Control
import Frontend.Proofs.Page
import Frontend.Proofs.Outline.Lines
import Frontend.Proofs.Outline.Lossless
import Frontend.Proofs.SymbolTable.Lookup
import Frontend.Proofs.SymbolTable.Stability
import Frontend.Proofs.Tree.Preorder
import Frontend.Proofs.Tree.Release
import Frontend.Proofs.Builder.Budget
import Frontend.Proofs.Builder.Conservation
import Frontend.Proofs.Rendering.Symbols
import Frontend.Proofs.Rendering.Destruction
import Frontend.Proofs.Builder.CachedType
import Frontend.Proofs.Builder.Spine
import Frontend.Proofs.SymbolTable.Queries
import Frontend.Proofs.Builder.Policy
import Frontend.Proofs.SymbolTable.Parallel
import Frontend.Proofs.SymbolTable.Resemblance
import Frontend.Proofs.SymbolTable.DeclarationOrder
import Frontend.Proofs.SymbolTable.Hiding
import Frontend.Proofs.Decimal.Numeral
import Frontend.Proofs.Decimal.Reader
import Frontend.Proofs.Json.Grammar
import Frontend.Proofs.Json.Scalars
import Frontend.Proofs.SymbolTable.Reuse
import Frontend.Proofs.Json.Skipping
import Frontend.Proofs.Json.Members
import Frontend.Proofs.Options.Document
import Frontend.Proofs.Decimal.Layout
import Frontend.Proofs.Decimal.Rounding
import Frontend.Proofs.Options.RoundTrip
import Frontend.Proofs.Double.Text
import Frontend.Proofs.SymbolTable.Declaration
import Frontend.Proofs.Outline.Correspondence
import Frontend.Proofs.Text.Replace
import Frontend.Proofs.Message
import Frontend.Proofs.Markup.Decoding
import Frontend.Proofs.Rendering.Equality
import Frontend.Proofs.Tree.Teardown
import Frontend.Proofs.Literal
