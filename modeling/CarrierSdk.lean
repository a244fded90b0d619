import CarrierSdk.Library.Machine
import CarrierSdk.Library.Table
import CarrierSdk.Library.Pieces
import CarrierSdk.Carrier.Fragmentation
import CarrierSdk.Carrier.ResponseAuthenticity
import CarrierSdk.Carrier.CallbackLifetime
import CarrierSdk.Carrier.FriendInterference
import CarrierSdk.Carrier.ReplyRetry
import CarrierSdk.Session.Session
import CarrierSdk.Library.Base58
import CarrierSdk.Session.CryptoHandler
import CarrierSdk.Session.KeyAgreement
import CarrierSdk.Session.NonceReuse
import CarrierSdk.Mux.Link
import CarrierSdk.Mux.Incarnation
import CarrierSdk.Mux.Pairing
import CarrierSdk.FileTransfer.Transfer
import CarrierSdk.FileTransfer.Delivery
import CarrierSdk.Carrier.InviteAnswers
import CarrierSdk.Friends.FriendInfo
import CarrierSdk.Storage.PersistenceFile
import CarrierSdk.Library.FileSystem
import CarrierSdk.Storage.CrashSafety
import CarrierSdk.Friends.KeyCodec
import CarrierSdk.Friends.Calls
import CarrierSdk.Friends.Loading
import CarrierSdk.Friends.Labels
import CarrierSdk.Friends.Events
import CarrierSdk.Friends.Connections
import CarrierSdk.Session.Candidates
import CarrierSdk.Session.Negotiation
import CarrierSdk.Mux.Framing
import CarrierSdk.Mux.Handler
import CarrierSdk.Mux.OpenAnswer
import CarrierSdk.Mux.ReceiveSafety
import CarrierSdk.Mux.Lifecycle
import CarrierSdk.Mux.Cookies
import CarrierSdk.Session.BundleDispatch
import CarrierSdk.FileTransfer.ConnectionState
import CarrierSdk.FileTransfer.EasyFile
import CarrierSdk.FileTransfer.Offers
import CarrierSdk.Library.Replica
import CarrierSdk.Storage.Migration
import CarrierSdk.Session.Pipeline
import CarrierSdk.FileTransfer.FilePairing
import CarrierSdk.FileTransfer.Agreement
import CarrierSdk.Carrier.Reassembly
import CarrierSdk.Carrier.InviteAddress
import CarrierSdk.Friends.PeerStrings
import CarrierSdk.Storage.LabelBounds
import CarrierSdk.Session.SdpBounds
import CarrierSdk.Session.FailedStart
import CarrierSdk.FileTransfer.OfferSurvival
import CarrierSdk.FileTransfer.FileIds
import CarrierSdk.FileTransfer.Lookups
import CarrierSdk.FileTransfer.SendingFile
import CarrierSdk.Session.ReliableClock
import CarrierSdk.Carrier.ErrorText
import CarrierSdk.Session.WriteResult
import CarrierSdk.Carrier.ElacpObject
import CarrierSdk.FileTransfer.ChannelLookup
import CarrierSdk.Library.WallClock
import CarrierSdk.Mux.KeepAlive
import CarrierSdk.Library.RingBuffer
import CarrierSdk.Library.SerialNumber
import CarrierSdk.PseudoTcp.Fifo
import CarrierSdk.PseudoTcp.Socket
import CarrierSdk.PseudoTcp.Sending
import CarrierSdk.PseudoTcp.Process
import CarrierSdk.PseudoTcp.Wire
import CarrierSdk.Library.Tiling
import CarrierSdk.PseudoTcp.SendQueue
import CarrierSdk.PseudoTcp.Acknowledging
import CarrierSdk.PseudoTcp.Calls
import CarrierSdk.Library.Reassembly
import CarrierSdk.PseudoTcp.ReceiveQueue
import CarrierSdk.PseudoTcp.Processing
import CarrierSdk.PseudoTcp.Connection
