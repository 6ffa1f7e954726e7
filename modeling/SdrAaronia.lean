import SdrAaronia.Lib.F64
import SdrAaronia.Lib.Delimited
import SdrAaronia.Lib.Framing
import SdrAaronia.Error
import SdrAaronia.HttpStreaming.Metadata
import SdrAaronia.HttpStreaming.Scan
import SdrAaronia.HttpStreaming.FirstHeader
import SdrAaronia.HttpStreaming.Parser
import SdrAaronia.HttpStreaming.Decoding
import SdrAaronia.HttpStreaming.Refinement
import SdrAaronia.HttpStreaming.Chunking
import SdrAaronia.HttpStreaming.Counters
import SdrAaronia.HttpStreaming.RoundTrip
import SdrAaronia.HttpStreaming.Oversized
import SdrAaronia.Lib.Marks
import SdrAaronia.Lib.Forest
import SdrAaronia.Lib.Text
import SdrAaronia.HttpEndpoints.Discovery
import SdrAaronia.HttpEndpoints.ConfigItem
import SdrAaronia.HttpEndpoints.WriteProbe
import SdrAaronia.HttpEndpoints.Capabilities
import SdrAaronia.HttpEndpoints.RateLadder
import SdrAaronia.HttpEndpoints.DeviceSettings
import SdrAaronia.StreamBreak
import SdrAaronia.HttpStreaming.DropDetector
import SdrAaronia.HttpStreaming.DropHistory
import SdrAaronia.HttpSource.State
import SdrAaronia.HttpSource.Publish
import SdrAaronia.HttpSource.Playback
import SdrAaronia.HttpSource.Breaks
import SdrAaronia.HttpSource.Geometry
import SdrAaronia.HttpStreaming.Accounting
import SdrAaronia.HttpSource.Work
import SdrAaronia.HttpSource.Capacity
import SdrAaronia.Lib.Channel
import SdrAaronia.HttpSource.Pipeline
import SdrAaronia.HttpSource.OneShot
import SdrAaronia.Lib.Segments
import SdrAaronia.UnifiedSource.State
import SdrAaronia.UnifiedSource.Session
import SdrAaronia.UnifiedSource.Boundaries
import SdrAaronia.UnifiedSource.Connections
import SdrAaronia.UnifiedSource.Overrun
import SdrAaronia.UnifiedSource.Tuning
import SdrAaronia.UnifiedSource.Reader
import SdrAaronia.Lib.Bits
import SdrAaronia.Lib.Butterfly
import SdrAaronia.Lib.Checked
import SdrAaronia.Decompression.BitReader
import SdrAaronia.Decompression.Unpack
import SdrAaronia.Decompression.Wavelet
import SdrAaronia.Decompression.Orthogonal
import SdrAaronia.Decompression.Decompress
import SdrAaronia.Decompression.Strict
import SdrAaronia.Decompression.Total
import SdrAaronia.FileSource.State
import SdrAaronia.FileSource.Scan
import SdrAaronia.FileSource.Bounds
import SdrAaronia.FileSource.Index
import SdrAaronia.FileSource.Playback
import SdrAaronia.FileSource.Sequential
import SdrAaronia.FileSource.Resume
import SdrAaronia.Lib.LittleEndian
import SdrAaronia.Lib.Utf8
import SdrAaronia.FileSource.ChunkReader
import SdrAaronia.FileSource.Written
import SdrAaronia.FileSource.MetaType
import SdrAaronia.FileSource.MetaTypeCodec
import SdrAaronia.FileSource.ChunkScan
import SdrAaronia.FileSource.ChunkWalk
import SdrAaronia.FileSource.ChunkChain
import SdrAaronia.Lib.Trail
import SdrAaronia.FileSource.Preview
import SdrAaronia.FileSource.PreviewTree
import SdrAaronia.Lib.Search
import SdrAaronia.FileSource.ChunkFields
import SdrAaronia.FileSource.Locate
import SdrAaronia.FileSource.Chains
import SdrAaronia.FileSource.Layout
import SdrAaronia.FileSource.Open
import SdrAaronia.FileSource.Opened
import SdrAaronia.FileSource.Capture
import SdrAaronia.FileSource.Recording
import SdrAaronia.FileSource.Recorded
import SdrAaronia.FileSource.Undecodable
import SdrAaronia.Lib.Registers
import SdrAaronia.Lib.Backlog
import SdrAaronia.HttpStreaming.PacketStream
import SdrAaronia.HttpStreaming.Delivery
import SdrAaronia.HttpSource.SharedStats
import SdrAaronia.LinkBudget
import SdrAaronia.LinkMeasurement
import SdrAaronia.HttpSource.LinkCheck
import SdrAaronia.HttpSource.RateTrackers
import SdrAaronia.HttpSource.LinkVerdict
import SdrAaronia.Lib.Machine
import SdrAaronia.HttpSink.State
import SdrAaronia.HttpSink.Batching
import SdrAaronia.NativeSdk.Packet
import SdrAaronia.NativeSdk.Read
import SdrAaronia.NativeSdk.Conserve
import SdrAaronia.NativeSdk.Geometry
import SdrAaronia.NativeSdk.Deadline
import SdrAaronia.NativeSdk.Session
import SdrAaronia.NativeSdk.Lifecycle
import SdrAaronia.NativeSdk.Forfeit
import SdrAaronia.CApi.ReadSamples
import SdrAaronia.CApi.FailingReads
import SdrAaronia.Seify.Streamer
import SdrAaronia.Seify.Overruns
import SdrAaronia.HttpStreaming.BufferInvariant
import SdrAaronia.FileSource.Arithmetic
