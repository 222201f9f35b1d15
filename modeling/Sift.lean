import Sift.Main
import Sift.Proofs.Analyzer.Between
import Sift.Proofs.Analyzer.Link
import Sift.Proofs.Analyzer.Order
import Sift.Proofs.Baseline.Invariance
import Sift.Proofs.Baseline.Kept
import Sift.Proofs.Baseline.Layout
import Sift.Proofs.Baseline.Leftover
import Sift.Proofs.Language.Normal
import Sift.Proofs.Language.Resolver
import Sift.Proofs.Path.Relative
import Sift.Proofs.Processor.Concurrent
import Sift.Proofs.Remote.Browse
import Sift.Proofs.Report.Ends
import Sift.Proofs.Report.Format
import Sift.Proofs.Report.Sarif
import Sift.Proofs.Repository.Gate
import Sift.Proofs.RuleSet.Applies
import Sift.Proofs.Scan.Literal
import Sift.Proofs.Segment.Automaton
import Sift.Proofs.Watch.Cover
import Sift.Proofs.Watch.Loop
import Sift.Proofs.Workers.Calls
