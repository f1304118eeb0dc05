import Pgr.Core.Decoding
import Pgr.Core.Utf8Lossy
import Pgr.Core.Csv
import Pgr.Extension.CaptureEncoder
import Pgr.Replay.Capture
import Pgr.Replay.CaptureDump
import Pgr.Pipeline.CaptureFormat
import Pgr.Replay.Frontend
import Pgr.Pipeline.ByteFidelity
import Pgr.Analysis.Storage
import Pgr.Analysis.Viewer
import Pgr.Pipeline.ParamsFile
import Pgr.Analysis.Analyzer
import Pgr.Extension.Trace
import Pgr.Pipeline.FrameNumbering
import Pgr.Extension.RingInvariant
import Pgr.Extension.SyncPoint
import Pgr.Extension.ExactlyOnce
import Pgr.Extension.FileIsolation
import Pgr.Extension.Registration
import Pgr.Extension.StatementCount
import Pgr.Extension.CapturedStream
import Pgr.Extension.SessionSnapshot
import Pgr.Pipeline.SessionRoundTrip
import Pgr.Replay.Scheduling
import Pgr.Replay.EmittedFrames
import Pgr.Replay.Gating
import Pgr.Replay.CheckedRead
import Pgr.Analysis.Chunks
import Pgr.Analysis.MergeExact
import Pgr.Pipeline.ComparePairing
import Pgr.Pipeline.QueriesFile
import Pgr.Replay.Clock
import Pgr.Extension.TraceDurations
import Pgr.Extension.ReserveId
import Pgr.Extension.Latch
import Pgr.Extension.ChannelDrain
import Pgr.Extension.WholeMessages
import Pgr.Analysis.CompareLeftmost
import Pgr.Analysis.ViewerLookup
import Pgr.Analysis.ViewerPage
import Pgr.Analysis.ViewerChart
import Pgr.Replay.Fidelity
import Pgr.Pipeline.SessionNames
import Pgr.Pipeline.SessionListing
import Pgr.Pipeline.EventFiles
import Pgr.Pipeline.CaptureFiles
import Pgr.Pipeline.ReplayId
import Pgr.Replay.StreamQueue
import Pgr.Replay.DispatchEnds
import Pgr.Replay.Wakeups
