import TexBundle.Source.Include
import TexBundle.Source.Figure
import TexBundle.Path
import TexBundle.Bibliography.Reader
import TexBundle.References
import TexBundle.Lookup
import TexBundle.Text.Quoted
import TexBundle.Binary64
import TexBundle.Json.Basic
import TexBundle.Codec.Document
import TexBundle.Codec.Outline
import TexBundle.Codec.Results
import TexBundle.Codec.Settings
import TexBundle.Text.Utf8
import TexBundle.FileSystem.Tree
import TexBundle.Storage.Memory
import TexBundle.Storage.Directory
import TexBundle.Storage.Traced
import TexBundle.Bundler
import TexBundle.Main
import TexBundle.Proofs.Expansion.Budget
import TexBundle.Proofs.Expansion.Layout
import TexBundle.Proofs.Expansion.Limits
import TexBundle.Proofs.Path
import TexBundle.Proofs.Expansion.Markers
import TexBundle.Proofs.Expansion.Nesting
import TexBundle.Proofs.Collection
import TexBundle.Proofs.Bundler.Run
import TexBundle.Proofs.Bundler.Cycles
import TexBundle.Proofs.Bundler.Packing
import TexBundle.Proofs.Source.Figure
import TexBundle.Proofs.Asset
import TexBundle.Proofs.Collection.Isolation
import TexBundle.Proofs.Path.Climbing
import TexBundle.Proofs.Bundler.Confinement
import TexBundle.Proofs.Bibliography.Printing
import TexBundle.Proofs.Bibliography.RoundTrip
import TexBundle.Proofs.Bibliography.Keys
import TexBundle.Proofs.Bibliography.Ranges
import TexBundle.Proofs.Bibliography.Joining
import TexBundle.Proofs.Bibliography.LooseText
import TexBundle.Proofs.Bibliography.Tails
import TexBundle.Proofs.Source.Comment
import TexBundle.Proofs.Source.Reader
import TexBundle.Proofs.Source.Influence
import TexBundle.Proofs.Source.Escaping
import TexBundle.Proofs.Text.Collapsing
import TexBundle.Proofs.References.Clamping
import TexBundle.Proofs.References.Lines
import TexBundle.Proofs.Lookup
import TexBundle.Proofs.FileSystem.Tree
import TexBundle.Proofs.Storage.Keeping
import TexBundle.Proofs.Storage.Watched
import TexBundle.Proofs.Bundler.Serving
import TexBundle.Proofs.Bundler.Views
import TexBundle.Proofs.Bundler.Leniency
import TexBundle.Proofs.Bundler.Citing
import TexBundle.Proofs.Storage.Refinement
import TexBundle.Proofs.Storage.Rounds
import TexBundle.Proofs.Storage.Buckets
import TexBundle.Proofs.Storage.Failing
import TexBundle.Proofs.Storage.Confinement
import TexBundle.Proofs.Codec.RoundTrip
import TexBundle.Proofs.Expansion.Paragraphs
import TexBundle.Proofs.CommandLine.Confinement
import TexBundle.Proofs.CommandLine.Leftovers
import TexBundle.Proofs.Expansion.Composition
import TexBundle.Proofs.Expansion.Sources
import TexBundle.Proofs.Source.Directives
import TexBundle.Proofs.Source.PrintedFigures
import TexBundle.Proofs.Source.PrintedCitations
import TexBundle.Proofs.Offsets.Bibliography
import TexBundle.Proofs.Offsets.Expansion
import TexBundle.Proofs.Path.Canonical
import TexBundle.Proofs.Lookup.Completion
import TexBundle.Proofs.Lookup.Leading
import TexBundle.Proofs.Text.Sigma
import TexBundle.Proofs.Lookup.Literal
import TexBundle.Proofs.Bundler.Fetching
import TexBundle.Proofs.Bundler.Distinct
