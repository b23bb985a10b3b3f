import Offside.Diagnostics
import Offside.Main
import Offside.Proofs.Scan
import Offside.Proofs.OffsideRule
import Offside.Proofs.HeadGrammar
import Offside.Proofs.RoundTrip
import Offside.Proofs.Tidy
import Offside.Proofs.MarkupReader
import Offside.Proofs.SafeMarkup
import Offside.Proofs.PageShape
import Offside.Proofs.Actions
import Offside.Proofs.FileStore
import Offside.Proofs.CompileFile
import Offside.Proofs.CacheTransparency
import Offside.Proofs.DirectoryReport
import Offside.Proofs.Watching
import Offside.Proofs.FirstFault
import Offside.Proofs.Positions
import Offside.Proofs.Layout
import Offside.Proofs.FormatterOutcomes
import Offside.Proofs.OutlineReading
import Offside.Proofs.CacheHistory
import Offside.Proofs.CacheCleanup
import Offside.Proofs.DirectoryTree
import Offside.Proofs.DirectoryWalk
import Offside.Proofs.ExactReport
import Offside.Proofs.NewProject
import Offside.Proofs.ReportedFailures
import Offside.Proofs.ExitCodes
import Offside.Proofs.TidyForm
import Offside.Proofs.PageLines
import Offside.Proofs.TextBlocks
import Offside.Proofs.SourceLayout
import Offside.Proofs.Joining
import Offside.Proofs.Words
import Offside.Proofs.TextRuns
import Offside.Proofs.WatchCoverage
import Offside.Proofs.WatchPolls
import Offside.Proofs.FailedCalls
import Offside.Proofs.SecondLook
import Offside.Proofs.CompilerLife
import Offside.Proofs.ConfigOverride
