import SearchBox.Disk.FileTree
import SearchBox.Main
import SearchBox.Proofs.Calendar.DaySpan
import SearchBox.Proofs.CommandLine.Endings
import SearchBox.Proofs.Lexicon.Merged
import SearchBox.Proofs.Query.Append
import SearchBox.Proofs.Query.Exclusions
import SearchBox.Proofs.Query.FreeText
import SearchBox.Proofs.Query.Keywords
import SearchBox.Proofs.Query.Reading
import SearchBox.Proofs.Query.Respelling
import SearchBox.Proofs.Query.Stored
import SearchBox.Proofs.Query.Total
import SearchBox.Proofs.Query.WellFormed
import SearchBox.Proofs.Query.WrittenDay
import SearchBox.Proofs.Record.Sites
import SearchBox.Proofs.Report.Document
import SearchBox.Proofs.Report.Runs
import SearchBox.Proofs.Search.Beside
import SearchBox.Proofs.Search.Combined
import SearchBox.Proofs.Search.Created
import SearchBox.Proofs.Search.Cutoffs
import SearchBox.Proofs.Search.Forms
import SearchBox.Proofs.Search.Ordered
import SearchBox.Proofs.Search.Phrases
import SearchBox.Proofs.Search.Pool
import SearchBox.Proofs.Search.Vacuous
import SearchBox.Proofs.Settings.Accepted
import SearchBox.Proofs.Settings.Layers
import SearchBox.Proofs.Store.BadLines
import SearchBox.Proofs.Store.Layouts
import SearchBox.Proofs.Store.Rows
