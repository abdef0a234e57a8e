import AqMD3.FixedWidth
import AqMD3.Overwrite
import AqMD3.Segments
import AqMD3.Transitions
import AqMD3.QueueStage
import AqMD3.AcquisitionBuffer
import AqMD3.Digitizer
import AqMD3.Markers
import AqMD3.Zs1Context
import AqMD3.MarkerWalk
import AqMD3.ServedStream
import AqMD3.SamplesFetch
import AqMD3.CallSequence
import AqMD3.CountedLoop
import AqMD3.RunLength
import AqMD3.UimfAcquisitionRecord
import AqMD3.RecordedGate
import AqMD3.SpectrumEncoding
import AqMD3.GateReads
import AqMD3.ZmqAcquiredDataSubscriber
import AqMD3.RefusedFrames
import AqMD3.AcquirePublisherWorker
import AqMD3.FrameStatuses
import AqMD3.FrameTiling
import AqMD3.SubscriberChain
import AqMD3.ChainDelivery
import AqMD3.CommandThread
import AqMD3.HandleLifetime
import AqMD3.ChainShutdown
import AqMD3.AcquisitionBufferPool
import AqMD3.CommandHandler
import AqMD3.GapPieces
import AqMD3.LostBatches
import AqMD3.PoolHandles
import AqMD3.RequestFraming
import AqMD3.RequestReplies
import AqMD3.RunningPeak
import AqMD3.ScanPieces
import AqMD3.ScanSummary
import AqMD3.UimfWriter
import AqMD3.SameScans
import AqMD3.SkippedGates
import AqMD3.AcquireHandler
import AqMD3.FetchBound
import AqMD3.PoolCapacity
import AqMD3.BinSums
import AqMD3.GateOpenings
import AqMD3.WrappedGates
import AqMD3.CstContext
import AqMD3.FetchDeadline
import AqMD3.CstTriggers
import AqMD3.TriggerDecoders
import AqMD3.CommittedRows
import AqMD3.CompressedSpectra
import AqMD3.TriggerNotes
import AqMD3.ReplayedFrames
import AqMD3.RecordSize
import AqMD3.OrderStatistic
import AqMD3.TriggerPeriod
import AqMD3.Bracketing
import AqMD3.PeriodMeasurement
import AqMD3.KeyedLines
import AqMD3.NumberText
import AqMD3.ConfigSettings
import AqMD3.NamedSettings
import AqMD3.AcquireFrame
import AqMD3.MarkersSession
import AqMD3.HunksInside
import AqMD3.BackReferences
import AqMD3.LzfDecompress
import AqMD3.LzfCompress
import AqMD3.LzfRoundTrip
import AqMD3.LzfConfined
import AqMD3.CompressedBlob
import AqMD3.RecordedCalls
import AqMD3.StoredFrame
import AqMD3.LiveFrame
import AqMD3.CardCalls
import AqMD3.CardSession
import AqMD3.FramesAlone
import AqMD3.SerialFrames
import AqMD3.StatusTopic
import AqMD3.NumberedScans
import AqMD3.ChainOrder
import AqMD3.WrittenFiles
import AqMD3.TaggedFields
import AqMD3.ProtobufRuntime
import AqMD3.PublishedMessage
import AqMD3.RequestMessage
