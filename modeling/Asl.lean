import Asl.Cursor
import Asl.Diagnostic
import Asl.Main
import Asl.Proofs.Grammar
import Asl.Proofs.Munch
import Asl.Proofs.Calls
import Asl.Proofs.MaximalMunch
import Asl.Proofs.Places
import Asl.Proofs.Tiling
import Asl.Proofs.LineLocality
import Asl.Proofs.EventStream
import Asl.Proofs.EntryPoints
import Asl.Proofs.ErrorKinds
import Asl.Proofs.Decoding
import Asl.Proofs.LiteralValues
import Asl.Proofs.StringBodies
import Asl.Proofs.Layout
import Asl.Proofs.Lookahead
import Asl.Proofs.ReportLines
import Asl.Proofs.ShownLines
import Asl.Proofs.Courses
import Asl.Proofs.Endings
import Asl.Proofs.AllOrNothing
import Asl.Proofs.LineEnds
import Asl.Proofs.RoundTrip
import Asl.Proofs.EditorAgreement
import Asl.Proofs.Spelling
import Asl.Proofs.Ranges
import Asl.Proofs.LinePairs
import Asl.Proofs.CursorRuns
import Asl.Proofs.Excerpts
import Asl.Proofs.Carets
import Asl.Proofs.StringExtent
import Asl.Proofs.CommandLines
import Asl.Proofs.Precedence
import Asl.Proofs.EditorReading
import Asl.Proofs.Numerals
import Asl.Proofs.Utf16
import Asl.Proofs.TextListing
import Asl.Proofs.Json
import Asl.Proofs.JsonListing
import Asl.Proofs.Suffixes
import Asl.Proofs.Head
import Asl.Proofs.Lapses
