import Dsio.AccessPaths
import Dsio.Agreement
import Dsio.Advising
import Dsio.BackendLaws
import Dsio.QueueDepth
import Dsio.Align
import Dsio.AlignedReads
import Dsio.Dataset.BackedLoop
import Dsio.Dataset.BackedProgress
import Dsio.Dataset.BackedRuns
import Dsio.Dataset.BackedSafety
import Dsio.Dataset.Completeness
import Dsio.Dataset.Contiguity
import Dsio.Dataset.PipelineEndings
import Dsio.Dataset.PipelineSetup
import Dsio.Dataset.PlainReads
import Dsio.Dataset.ReadErrors
import Dsio.Dataset.RollBack
import Dsio.Dataset.Scanning
import Dsio.Dataset.SlotAccounting
import Dsio.Dataset.Sources
import Dsio.Discover
import Dsio.Divisions
import Dsio.ManifestRoundTrip
import Dsio.ManifestSaving
import Dsio.OpenBackend
import Dsio.Ownership
import Dsio.ReaderSession
import Dsio.ShardArithmetic
import Dsio.SinkReading
import Dsio.UringReaping
import Dsio.Dataset.Depth
import Dsio.Dataset.DirectReads
import Dsio.Dataset.Footprint
