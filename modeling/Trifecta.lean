import Trifecta.Library.RingBuffer
import Trifecta.Library.Block
import Trifecta.Library.CText
import Trifecta.Library.Registers
import Trifecta.Library.Segments
import Trifecta.Defs
import Trifecta.Commands
import Trifecta.CommandSegments
import Trifecta.CommandDrain
import Trifecta.CommandFields
import Trifecta.CommandLengths
import Trifecta.CommandChunks
import Trifecta.Base64
import Trifecta.Base64Decode
import Trifecta.Library.PaddedBase64
import Trifecta.Base64Format
import Trifecta.Library.BitwiseCrc
import Trifecta.FrameCrc
import Trifecta.FrameIndependence
import Trifecta.SerialFramer
import Trifecta.ByteRing
import Trifecta.SerialSegments
import Trifecta.DelimiterScan
import Trifecta.SerialRounds
import Trifecta.FramerProgress
import Trifecta.FrameDelivery
import Trifecta.Handshake
import Trifecta.Library.Lines
import Trifecta.Library.JoinedCells
import Trifecta.Library.FixedText
import Trifecta.ReplayFile
import Trifecta.ReplayCursor
import Trifecta.LineReads
import Trifecta.ReplayIndex
import Trifecta.Saver
import Trifecta.SavedRows
import Trifecta.RowColumns
import Trifecta.ColumnOrder
import Trifecta.SavedCapture
import Trifecta.RowLengths
import Trifecta.StreamSegments
import Trifecta.StreamSplits
import Trifecta.MessageStreams
import Trifecta.BinaryFrames
import Trifecta.Datagrams
import Trifecta.PacketCounts
import Trifecta.DecoderReads
import Trifecta.LatestValues
import Trifecta.PacketQueue
import Trifecta.PacketHelpers
import Trifecta.DrainedQueue
import Trifecta.RingInterleaving
import Trifecta.SerialCommands
import Trifecta.Library.Transitions
import Trifecta.SaveSession
import Trifecta.Library.Ledger
import Trifecta.SaverLifecycle
import Trifecta.SessionMode
import Trifecta.Library.Usage
import Trifecta.Startup
import Trifecta.ConfigurationMessages
import Trifecta.FailedStarts
import Trifecta.LinuxDrivers
import Trifecta.UdpPorts
import Trifecta.Library.RoundRobin
import Trifecta.PortAssignment
import Trifecta.Library.FirstSeen
import Trifecta.NetworkDiscovery
import Trifecta.Descriptors
import Trifecta.SerialThread
import Trifecta.PingCounter
import Trifecta.PacketHandover
import Trifecta.MixedStreams
import Trifecta.CapturePipeline
import Trifecta.NetworkThreads
import Trifecta.NetworkStop
import Trifecta.NetworkPing
import Trifecta.NetworkSides
import Trifecta.Library.SharedScratch
import Trifecta.ReplayHandles
import Trifecta.ReplayPointers
import Trifecta.ReplayResources
import Trifecta.ControlMessages
import Trifecta.SavedFlushes
import Trifecta.Library.SharedTable
import Trifecta.SavingThreads
import Trifecta.DeviceStreams
import Trifecta.DecodeThreads
import Trifecta.Library.CrcDistance
import Trifecta.FrameFlips
