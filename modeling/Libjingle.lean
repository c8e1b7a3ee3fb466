import Libjingle.Base.ByteBuffer
import Libjingle.Base.ByteBufferSession
import Libjingle.Stun.Coverage
import Libjingle.Stun.AsyncStunTCPSocket
import Libjingle.Stun.Transactions
import Libjingle.Base.SocketAddress
import Libjingle.PseudoTcp.Link
import Libjingle.PseudoTcp.RetransmitTimer
import Libjingle.PseudoTcp.ClockCheck
import Libjingle.PseudoTcp.CongestionRange
import Libjingle.PseudoTcp.FastRecovery
import Libjingle.PseudoTcp.ConnectOptions
import Libjingle.PseudoTcp.AckArithmetic
import Libjingle.PseudoTcp.PacketBounds
import Libjingle.P2p.Transport
import Libjingle.Turn.Relay
import Libjingle.Stun.IntegrityReads
import Libjingle.Turn.NonceLifetime
import Libjingle.Turn.NonceReuse
import Libjingle.P2p.SessionAgreement
import Libjingle.P2p.RoleConflict
import Libjingle.P2p.SessionTable
import Libjingle.Media.SrtpActivity
import Libjingle.P2p.DtlsTransportChannel
import Libjingle.P2p.ContentRoundTrip
import Libjingle.Media.CallBookkeeping
import Libjingle.P2p.RelayAccount
import Libjingle.Xmpp.LoginRun
import Libjingle.Media.CryptoAgreement
import Libjingle.Media.RtpDataTransfer
import Libjingle.Base.MessageAccounts
import Libjingle.Base.TaskSteps
import Libjingle.P2p.ConnectionOrder
import Libjingle.Base.AddressComparison
import Libjingle.Turn.ChannelBindings
import Libjingle.Turn.AllocationLifetime
import Libjingle.Turn.Replies
import Libjingle.Turn.SocketLiveness
import Libjingle.P2p.StunUsername
import Libjingle.P2p.RemoteCandidates
import Libjingle.P2p.PortRoles
import Libjingle.P2p.ConnectionDeletion
import Libjingle.P2p.ChannelOwnership
import Libjingle.P2p.Muxing
import Libjingle.P2p.SessionWatchdog
import Libjingle.P2p.ProtocolNegotiation
import Libjingle.P2p.MessageAtomicity
import Libjingle.P2p.SessionLifetime
import Libjingle.P2p.CandidateSignaling
import Libjingle.P2p.CandidateParsing
import Libjingle.Media.AnswerContents
import Libjingle.Media.SctpSids
import Libjingle.Media.RtxAttachment
import Libjingle.Media.UniqueSsrcs
import Libjingle.Xmpp.RosterContact
import Libjingle.Xmpp.Jid
import Libjingle.Xmpp.RosterRefinement
import Libjingle.Media.SrtpStat
import Libjingle.P2p.DtlsRoles
import Libjingle.Media.CallTimeout
import Libjingle.Media.RecvStreams
import Libjingle.P2p.RelayLifetime
import Libjingle.Xmpp.DispatchOrder
import Libjingle.Base.Flow
import Libjingle.Client.ContactAnnouncements
import Libjingle.Client.PresenceDecoding
import Libjingle.Client.PresenceRoundTrip
import Libjingle.Base.AddressForms
import Libjingle.Base.TextCodecs
import Libjingle.Base.Crc32
import Libjingle.Base.MessageDigest
import Libjingle.Base.HttpParser
