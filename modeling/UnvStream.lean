import UnvStream.CheckedMemory
import UnvStream.MarkedFraming
import UnvStream.Vocabulary
import UnvStream.FragmentLoop
import UnvStream.FrameSender
import UnvStream.ClientReceiver
import UnvStream.ReassemblyLaw
import UnvStream.ReassemblyBounds
import UnvStream.FragmentedDelivery
import UnvStream.AccumulatorBounds
import UnvStream.FlushFidelity
import UnvStream.SavedVideo
import UnvStream.LossyDelivery
import UnvStream.WholeFrameDelivery
import UnvStream.FlushInterleaving
import UnvStream.DecimalText
import UnvStream.DelimitedText
import UnvStream.RtspMessages
import UnvStream.RtspSequence
import UnvStream.RtspServer
import UnvStream.SessionOrder
import UnvStream.ParserSafety
import UnvStream.ControlSegmentation
import UnvStream.RtspClient
import UnvStream.RtspAgreement
import UnvStream.MediaChannel
import UnvStream.RtpPacket
import UnvStream.RtpRoundTrip
import UnvStream.RtpReencoding
import UnvStream.PacketObjects
import UnvStream.PacketHistory
import UnvStream.PlayoutControl
import UnvStream.NamedHost
import UnvStream.ReceivedBytes
import UnvStream.PacketLog
import UnvStream.DayClock
import UnvStream.FrameLimit
import UnvStream.AverageDelay
import UnvStream.ModeSelection
import UnvStream.PixmapFormat
import UnvStream.SavedFrames
import UnvStream.ConcurrentQueue
import UnvStream.QueueMutex
import UnvStream.DescriptorOwnership
import UnvStream.NumberTable
import UnvStream.VideoLoop
import UnvStream.VideoOutputs
import UnvStream.ListEdits
import UnvStream.SocketTable
import UnvStream.MediaPorts
import UnvStream.SendOutcomes
import UnvStream.GetoptLong
import UnvStream.ServerOptions
import UnvStream.ShellWords
import UnvStream.ClientLaunch
import UnvStream.DelayClock
import UnvStream.TestingMode
import UnvStream.VideoGate
import UnvStream.LiveSession
import UnvStream.FragmentedSession
import UnvStream.ClientThreads
