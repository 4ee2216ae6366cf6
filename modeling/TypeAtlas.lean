import TypeAtlas.Binary
import TypeAtlas.Blob.Error
import TypeAtlas.Blob.Format
import TypeAtlas.Blob.Pool
import TypeAtlas.Blob.Reader
import TypeAtlas.Blob.Writer
import TypeAtlas.Build.Assembly
import TypeAtlas.Build.Catalog
import TypeAtlas.Build.Compile
import TypeAtlas.Build.Declaration
import TypeAtlas.Build.Description
import TypeAtlas.Build.Directive
import TypeAtlas.Build.Error
import TypeAtlas.Build.Lineage
import TypeAtlas.Build.Listing
import TypeAtlas.Build.Run
import TypeAtlas.Build.Seed
import TypeAtlas.Build.Selection
import TypeAtlas.Build.Settings
import TypeAtlas.Directory.Basic
import TypeAtlas.Directory.Search
import TypeAtlas.Engine.Call
import TypeAtlas.Engine.Error
import TypeAtlas.Engine.Handle
import TypeAtlas.Engine.Lookup
import TypeAtlas.Engine.Memo
import TypeAtlas.Engine.Provider
import TypeAtlas.Engine.Session
import TypeAtlas.Engine.Threads
import TypeAtlas.Graph.Basic
import TypeAtlas.Host.Bindings
import TypeAtlas.Host.CallTable
import TypeAtlas.Host.Error
import TypeAtlas.Host.Proxy
import TypeAtlas.Host.Script
import TypeAtlas.Host.Store
import TypeAtlas.Host.Value
import TypeAtlas.Name.Array
import TypeAtlas.Name.Basic
import TypeAtlas.Name.Hash
import TypeAtlas.Name.Normal
import TypeAtlas.Name.Primitive
import TypeAtlas.Proofs.Blob.Canonical
import TypeAtlas.Proofs.Blob.Guards
import TypeAtlas.Proofs.Blob.Interning
import TypeAtlas.Proofs.Blob.Parts
import TypeAtlas.Proofs.Blob.Pool
import TypeAtlas.Proofs.Blob.PrefixFree
import TypeAtlas.Proofs.Blob.Rewriting
import TypeAtlas.Proofs.Blob.RoundTrip
import TypeAtlas.Proofs.Blob.Writable
import TypeAtlas.Proofs.Build.Ancestors
import TypeAtlas.Proofs.Build.Answered
import TypeAtlas.Proofs.Build.Assembly
import TypeAtlas.Proofs.Build.Catalog
import TypeAtlas.Proofs.Build.Coherence
import TypeAtlas.Proofs.Build.Compile
import TypeAtlas.Proofs.Build.Lines
import TypeAtlas.Proofs.Build.Links
import TypeAtlas.Proofs.Build.Listing
import TypeAtlas.Proofs.Build.Mentioned
import TypeAtlas.Proofs.Build.Order
import TypeAtlas.Proofs.Build.Outcomes
import TypeAtlas.Proofs.Build.Products
import TypeAtlas.Proofs.Build.Related
import TypeAtlas.Proofs.Build.Scanning
import TypeAtlas.Proofs.Build.Selection
import TypeAtlas.Proofs.Build.Source
import TypeAtlas.Proofs.Build.Spelling
import TypeAtlas.Proofs.Build.Subtyping
import TypeAtlas.Proofs.Build.Union
import TypeAtlas.Proofs.Build.WellFormed
import TypeAtlas.Proofs.Build.Written
import TypeAtlas.Proofs.Directory.Count
import TypeAtlas.Proofs.Directory.Lookup
import TypeAtlas.Proofs.Engine.Answering
import TypeAtlas.Proofs.Engine.Ascent
import TypeAtlas.Proofs.Engine.BuiltIn
import TypeAtlas.Proofs.Engine.Dependencies
import TypeAtlas.Proofs.Engine.Fresh
import TypeAtlas.Proofs.Engine.Lookup
import TypeAtlas.Proofs.Engine.Marks
import TypeAtlas.Proofs.Engine.Members
import TypeAtlas.Proofs.Engine.Moves
import TypeAtlas.Proofs.Engine.Overtaken
import TypeAtlas.Proofs.Engine.Ownership
import TypeAtlas.Proofs.Engine.StandIn
import TypeAtlas.Proofs.Engine.Static
import TypeAtlas.Proofs.Engine.Steady
import TypeAtlas.Proofs.Engine.Transparency
import TypeAtlas.Proofs.Engine.Waiting
import TypeAtlas.Proofs.Engine.Walk
import TypeAtlas.Proofs.Except
import TypeAtlas.Proofs.Graph
import TypeAtlas.Proofs.Graph.Preorder
import TypeAtlas.Proofs.Host.Consistent
import TypeAtlas.Proofs.Host.Fields
import TypeAtlas.Proofs.Host.Gate
import TypeAtlas.Proofs.Host.Judgement
import TypeAtlas.Proofs.Host.Strict
import TypeAtlas.Proofs.Name.Component
import TypeAtlas.Proofs.Name.Element
import TypeAtlas.Proofs.Name.Normal
import TypeAtlas.Proofs.Name.Signature
import TypeAtlas.Proofs.Table
import TypeAtlas.Proofs.Text.Base64
import TypeAtlas.Proofs.Text.Quoted
import TypeAtlas.Proofs.Wire.Reading
import TypeAtlas.Proofs.Wire.Reads
import TypeAtlas.Proofs.Wire.Takes
import TypeAtlas.Shape.Annotation
import TypeAtlas.Shape.Basic
import TypeAtlas.Shape.Builtin
import TypeAtlas.Shape.TypeExpr
import TypeAtlas.Table
import TypeAtlas.Text.Affix
import TypeAtlas.Text.Base64
import TypeAtlas.Text.Blank
import TypeAtlas.Text.Printable
import TypeAtlas.Text.Quoted
import TypeAtlas.Toml.Document
import TypeAtlas.Toml.Literal
import TypeAtlas.Toml.Scalar
import TypeAtlas.Toml.Value
import TypeAtlas.Wire.Bytes
import TypeAtlas.Wire.Cursor
import TypeAtlas.Wire.Width
