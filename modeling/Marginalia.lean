import Marginalia.Binary
import Marginalia.Binary.Nearest
import Marginalia.Binary.Shortest
import Marginalia.Chance
import Marginalia.Document
import Marginalia.Document.Assembly
import Marginalia.Document.Lookup
import Marginalia.Document.Notes
import Marginalia.Document.Text
import Marginalia.Fault
import Marginalia.Identity
import Marginalia.Joining
import Marginalia.Keyed
import Marginalia.Layout
import Marginalia.Note
import Marginalia.Outline
import Marginalia.Overlay
import Marginalia.Policy
import Marginalia.Proofs.Assembly
import Marginalia.Proofs.Covers
import Marginalia.Proofs.Slices
import Marginalia.Query
import Marginalia.Record
import Marginalia.Record.Lexis
import Marginalia.Record.Reader
import Marginalia.Record.Writer
import Marginalia.Segmenting
import Marginalia.Sentence
import Marginalia.Settings
import Marginalia.Snippet
import Marginalia.Span
import Marginalia.Splitter
import Marginalia.Text.Blank
import Marginalia.Text.Bytes
import Marginalia.Text.ColumnClass
import Marginalia.Text.Columns
import Marginalia.Text.Cutter
import Marginalia.Text.Marks
import Marginalia.Text.Printable
import Marginalia.Text.Quoted
import Marginalia.Text.Ranges
import Marginalia.Text.SentenceClass
import Marginalia.Text.Sentences
import Marginalia.Text.WordClass
import Marginalia.Text.Words
import Marginalia.Token
import Marginalia.Toml.Reader
import Marginalia.Toml.Tree
import Marginalia.Underline
import Marginalia.Proofs.Ranges
import Marginalia.Proofs.Layouts
import Marginalia.Proofs.Texts
import Marginalia.Proofs.Appending
import Marginalia.Proofs.Homes
import Marginalia.Proofs.WellLaid
import Marginalia.Proofs.Cuts
import Marginalia.Proofs.Segmented
import Marginalia.Proofs.LaidOut
import Marginalia.Proofs.Excerpts
import Marginalia.Proofs.Selections
import Marginalia.Proofs.Blocks
import Marginalia.Proofs.Decimals
import Marginalia.Proofs.Quoting
import Marginalia.Proofs.Reloading
import Marginalia.Proofs.Layers
import Marginalia.Proofs.Lookups
import Marginalia.Proofs.Regrouping
import Marginalia.Proofs.Origins
import Marginalia.Proofs.Slots
import Marginalia.Proofs.Joints
import Marginalia.Proofs.Positions
import Marginalia.Proofs.Copies
import Marginalia.Proofs.Searches
import Marginalia.Proofs.Nesting
import Marginalia.Proofs.TreeCopies
import Marginalia.Proofs.Rows
import Marginalia.Proofs.Runs
import Marginalia.Proofs.Extracts
import Marginalia.Proofs.Moves
import Marginalia.Proofs.Replacements
import Marginalia.Proofs.Rewording
import Marginalia.Proofs.Spacing
import Marginalia.Proofs.Upkeep
import Marginalia.Proofs.Sameness
import Marginalia.Proofs.Overlaps
import Marginalia.Proofs.Filters
import Marginalia.Proofs.Tagging
import Marginalia.Proofs.Rendering
import Marginalia.Proofs.Shuffles
import Marginalia.Proofs.Saturation
