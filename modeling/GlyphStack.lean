import GlyphStack.Blocks
import GlyphStack.Command
import GlyphStack.Editor.Session
import GlyphStack.Engine.Report
import GlyphStack.Lexer.Report
import GlyphStack.Listing
import GlyphStack.Main
import GlyphStack.RunId
import GlyphStack.Snapshot.Codec
import GlyphStack.Proofs.Effects
import GlyphStack.Proofs.Memory
import GlyphStack.Proofs.Steps
import GlyphStack.Proofs.Runs
import GlyphStack.Proofs.Bounds
import GlyphStack.Proofs.Gate
import GlyphStack.Proofs.Blocks
import GlyphStack.Proofs.Nesting
import GlyphStack.Proofs.Refinement
import GlyphStack.Proofs.Glyphs
import GlyphStack.Proofs.Literals
import GlyphStack.Proofs.Reading
import GlyphStack.Proofs.Scanning
import GlyphStack.Proofs.Language
import GlyphStack.Proofs.Origins
import GlyphStack.Proofs.Order
import GlyphStack.Proofs.Places
import GlyphStack.Proofs.Printing
import GlyphStack.Proofs.Utf32
import GlyphStack.Proofs.Faults
import GlyphStack.Proofs.Widening
import GlyphStack.Proofs.Chunks
import GlyphStack.Proofs.Items
import GlyphStack.Proofs.Files
import GlyphStack.Proofs.Snapshots
import GlyphStack.Proofs.Dumps
import GlyphStack.Proofs.Erasure
import GlyphStack.Proofs.Marks
import GlyphStack.Proofs.Aborts
import GlyphStack.Proofs.Quoting
import GlyphStack.Proofs.Documents
import GlyphStack.Proofs.Reuse
import GlyphStack.Proofs.Skipping
import GlyphStack.Proofs.Deliveries
import GlyphStack.Proofs.Heights
import GlyphStack.Proofs.Bitwise
import GlyphStack.Proofs.Exactness
import GlyphStack.Proofs.Closure
import GlyphStack.Proofs.Accumulation
import GlyphStack.Proofs.Concatenation
import GlyphStack.Proofs.Trimming
import GlyphStack.Proofs.CodePoints
import GlyphStack.Proofs.Matching
import GlyphStack.Proofs.Listings
import GlyphStack.Proofs.Lines
import GlyphStack.Proofs.Diagnostics
import GlyphStack.Proofs.Hovers
import GlyphStack.Proofs.Reports
import GlyphStack.Proofs.Paths
import GlyphStack.Proofs.Settings
import GlyphStack.Proofs.Lookups
import GlyphStack.Proofs.Locality
import GlyphStack.Proofs.Damage
