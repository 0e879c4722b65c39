import SkinGetBE.Octets
import SkinGetBE.Inflate
import SkinGetBE.Png
import SkinGetBE.Text
import SkinGetBE.JsonText
import SkinGetBE.Buffer
import SkinGetBE.Base64
import SkinGetBE.Jwt
import SkinGetBE.Login
import SkinGetBE.LoginLayout
import SkinGetBE.Batch
import SkinGetBE.DecompressBounds
import SkinGetBE.DecompressForms
import SkinGetBE.SessionBatch
import SkinGetBE.Skin
import SkinGetBE.SavedCaptures
import SkinGetBE.SkinImage
import SkinGetBE.NetherSession
import SkinGetBE.SessionProtocol
import SkinGetBE.LoginCapture
import SkinGetBE.LoginRoundTrip
import SkinGetBE.Tables
import SkinGetBE.Versions
import SkinGetBE.RakNetProtocol
import SkinGetBE.FrameSafety
import SkinGetBE.RakNetSession
import SkinGetBE.RakNetFrames
import SkinGetBE.FrameRoundTrip
import SkinGetBE.RakNetBedrock
import SkinGetBE.RakNetReadBack
import SkinGetBE.RakNetServer
import SkinGetBE.RakNetEffects
import SkinGetBE.OrderedQueue
import SkinGetBE.OrderedStream
import SkinGetBE.StreamEnds
import SkinGetBE.OrderedDelivery
import SkinGetBE.Completions
import SkinGetBE.SplitBuffers
import SkinGetBE.SplitReassembly
import SkinGetBE.FragmentedStream
import SkinGetBE.ReliableDelivery
import SkinGetBE.RakNetHandshake
import SkinGetBE.RakNetSteps
import SkinGetBE.PeerIsolation
import SkinGetBE.InFlight
import SkinGetBE.SendPlan
import SkinGetBE.AckLookup
import SkinGetBE.SentNumbers
import SkinGetBE.SequenceRanges
import SkinGetBE.AckEffects
import SkinGetBE.SessionJournal
import SkinGetBE.Congestion
import SkinGetBE.Retransmission
import SkinGetBE.VersionPairs
import SkinGetBE.ClosedSessions
import SkinGetBE.FrameEncoding
import SkinGetBE.StandardFrames
import SkinGetBE.FrameConcat
import SkinGetBE.LegacyLogin
import SkinGetBE.CaptureFiles
import SkinGetBE.NumberedSaves
import SkinGetBE.SavesApart
import SkinGetBE.CaptureNames
import SkinGetBE.SaturatingSearch
import SkinGetBE.FreeStems
import SkinGetBE.LoginProtocol
import SkinGetBE.JsonReader
import SkinGetBE.Config
import SkinGetBE.ConfigText
import SkinGetBE.ConfigReload
import SkinGetBE.ConfigComments
import SkinGetBE.VarIntValue
import SkinGetBE.BufferFifo
import SkinGetBE.BufferReads
import SkinGetBE.JwtPadding
import SkinGetBE.LooseBase64
import SkinGetBE.LoginNames
import SkinGetBE.ChainJson
import SkinGetBE.LossyLink
import SkinGetBE.LoginBounds
import SkinGetBE.LoginChecked
import SkinGetBE.SkinSizes
import SkinGetBE.Stun
import SkinGetBE.FrameRanges
import SkinGetBE.ServerAcks
import SkinGetBE.ServerEffects
import SkinGetBE.ServerFiles
import SkinGetBE.ServerLink
import SkinGetBE.ServerRuns
import SkinGetBE.ServerTables
import SkinGetBE.ServerTraffic
import SkinGetBE.SkinLogin
import SkinGetBE.CaptureSession
import SkinGetBE.AwaitedLogin
import SkinGetBE.ServerCapture
import SkinGetBE.SessionTasks
import SkinGetBE.SessionFleet
import SkinGetBE.SessionShadows
import SkinGetBE.SessionProgress
import SkinGetBE.Dialogues
import SkinGetBE.Transports
import SkinGetBE.HandshakeReplies
import SkinGetBE.ServerAnswers
import SkinGetBE.LabelledTraces
import SkinGetBE.Conversations
