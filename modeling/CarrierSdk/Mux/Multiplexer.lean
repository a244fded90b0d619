import CarrierSdk.Library.Table
import Mathlib.Data.UInt

/-! The multiplexer of one peer: its channels, the packets it sends, and what an arriving
packet does. Channels and packets carry a tag for the open call they stem from, of an
arbitrary type, which nothing here looks into. -/
namespace CarrierSdk.Mux

abbrev ChannelId := UInt16

def maxChannelId : ChannelId := 2048
def elaMaxUserDataLen : Nat := 2048

inductive PacketType
  | channelOpen
  | channelOpenConfirmation
  | channelData
  | channelKeepAlive
  | channelPending
  | channelResume
  | channelClose
  deriving DecidableEq

inductive ChannelType | user | udpPortForwarding | tcpPortForwarding
  deriving DecidableEq

/-- ChannelStatus_Closing is never assigned. -/
inductive ChannelStatus | opening | «open» | pending
  deriving DecidableEq

inductive CloseReason | normal | timeout | error
  deriving DecidableEq

inductive MuxError
  | invalidArgs
  | outOfMemory
  | limitExceeded
  | notExist
  | wrongState
  | write
  deriving DecidableEq

/-- struct ProtocolBuffer. The local id is the receiver's channel, the remote id the sender's. -/
structure ProtocolBuffer (Tag : Type) where
  type : PacketType
  option : ChannelType
  localChannelId : ChannelId
  remoteChannelId : ChannelId
  payload : List UInt8
  tag : Tag
  deriving DecidableEq

/-- struct Channel. Its id is the key it is stored under. -/
structure Channel (Tag : Type) where
  remoteId : ChannelId
  status : ChannelStatus
  tag : Tag
  deriving DecidableEq

/-- The channels of a handler. The ids of the heap in use are the keys. -/
abbrev Channels (Tag : Type) := Table ChannelId (Channel Tag)

/-- What the application gets to see. -/
inductive MuxEvent
  | channelOpen (c : ChannelId) (cookie : List UInt8)
  | channelOpened (c : ChannelId)
  | channelClose (c : ChannelId) (reason : CloseReason)
  | channelData (c : ChannelId) (data : List UInt8)
  | channelPending (c : ChannelId)
  | channelResume (c : ChannelId)
  | streamData (data : List UInt8)
  deriving DecidableEq

/-- The channels after a call, the packets that went out, the callbacks and the result. -/
structure MuxResult (Tag : Type) where
  channels : Channels Tag
  sent : List (ProtocolBuffer Tag)
  events : List MuxEvent
  ret : Except MuxError Unit

/-- The allocation of a channel object and of its id. -/
inductive Alloc
  | outOfMemory
  | limitExceeded
  | id (c : ChannelId)
  deriving DecidableEq

variable {Tag : Type}

/-- multiplex_handler_send_packet, which swaps the two ids. -/
def sendPacket (type : PacketType) (option : ChannelType) (localId remoteId : ChannelId)
    (payload : List UInt8) (tag : Tag) : ProtocolBuffer Tag :=
  { type, option, localChannelId := remoteId, remoteChannelId := localId, payload, tag }

/-! Calls of the application. Each gets told whether its packet went out. -/

/-- multiplex_handler_open_channel for a channel of the user. -/
def openChannel (chs : Channels Tag) (alloc : Alloc) (cookie : List UInt8) (sent : Bool) (tag : Tag) :
    MuxResult Tag :=
  match alloc with
  | .outOfMemory => ⟨chs, [], [], .error .outOfMemory⟩
  | .limitExceeded => ⟨chs, [], [], .error .limitExceeded⟩
  | .id c =>
    let opened := chs.insert c ⟨0, .opening, tag⟩
    if sent then ⟨opened, [sendPacket .channelOpen .user c 0 cookie tag], [], .ok ()⟩
    else ⟨opened.erase c, [], [], .error .write⟩

/-- multiplex_handler_close_channel. A channel whose remote id is still 0 goes without a
word to the peer, and the result of the sending is not looked at. -/
def closeChannel (chs : Channels Tag) (c : ChannelId) (sent : Bool) : MuxResult Tag :=
  match chs.lookup c with
  | none => ⟨chs, [], [], .error .notExist⟩
  | some ch =>
    let packets :=
      if ch.remoteId ≠ 0 ∧ sent then [sendPacket .channelClose .user c ch.remoteId [] ch.tag] else []
    ⟨chs.erase c, packets, [.channelClose c .normal], .ok ()⟩

/-- What writing, pending and resuming do alike: a packet to the other end of an open channel. -/
def sendOnChannel (type : PacketType) (chs : Channels Tag) (c : ChannelId) (payload : List UInt8)
    (sent : Bool) : MuxResult Tag :=
  match chs.lookup c with
  | none => ⟨chs, [], [], .error .notExist⟩
  | some ch =>
    if ch.status ≠ .open ∧ ch.status ≠ .pending then ⟨chs, [], [], .error .wrongState⟩
    else if ch.remoteId = 0 then ⟨chs, [], [], .error .wrongState⟩
    else if sent then ⟨chs, [sendPacket type .user c ch.remoteId payload ch.tag], [], .ok ()⟩
    else ⟨chs, [], [], .error .write⟩

/-- multiplex_handler_write_channel. Channel 0 stands for the stream itself. -/
def writeChannel (chs : Channels Tag) (c : ChannelId) (payload : List UInt8) (sent : Bool)
    (streamTag : Tag) : MuxResult Tag :=
  if c = 0 then
    if sent then ⟨chs, [sendPacket .channelData .user 0 0 payload streamTag], [], .ok ()⟩
    else ⟨chs, [], [], .error .write⟩
  else sendOnChannel .channelData chs c payload sent

/-- ela_stream_write_channel on a connected stream. -/
def elaStreamWriteChannel (chs : Channels Tag) (c : ChannelId) (payload : List UInt8) (sent : Bool)
    (streamTag : Tag) : MuxResult Tag :=
  if payload.length > elaMaxUserDataLen then ⟨chs, [], [], .error .invalidArgs⟩
  else writeChannel chs c payload sent streamTag

/-- multiplex_handler_pend_channel -/
def pendChannel (chs : Channels Tag) (c : ChannelId) (sent : Bool) : MuxResult Tag :=
  sendOnChannel .channelPending chs c [] sent

/-- multiplex_handler_resume_channel -/
def resumeChannel (chs : Channels Tag) (c : ChannelId) (sent : Bool) : MuxResult Tag :=
  sendOnChannel .channelResume chs c [] sent

/-! Arriving packets. -/

/-- What the handler meets while it works on a packet: the allocation for a new channel,
the answers of the open callback and of the data callback, and the sending of a confirmation. -/
structure NotifyEnv where
  alloc : Alloc
  accept : Bool
  keep : Bool
  sent : Bool
  deriving DecidableEq

/-- The branch for open packets. The channel object of a failed id allocation still has
remote id 0, and that is where the confirmation goes. -/
def notifyOpen (chs : Channels Tag) (pb : ProtocolBuffer Tag) (env : NotifyEnv) : MuxResult Tag :=
  match env.alloc with
  | .outOfMemory => ⟨chs, [], [], .ok ()⟩
  | .limitExceeded =>
    ⟨chs, if env.sent then [sendPacket .channelOpenConfirmation .user 0 0 [] pb.tag] else [], [], .ok ()⟩
  | .id c =>
    let opening := chs.insert c ⟨pb.remoteChannelId, .opening, pb.tag⟩
    let cid := if env.accept then c else 0
    let packets :=
      if env.sent then [sendPacket .channelOpenConfirmation .user cid pb.remoteChannelId [] pb.tag]
      else []
    if !env.accept then ⟨opening.erase c, packets, [.channelOpen c pb.payload], .ok ()⟩
    else if !env.sent then
      ⟨opening.erase c, packets, [.channelOpen c pb.payload, .channelClose c .error], .ok ()⟩
    else
      ⟨opening.insert c ⟨pb.remoteChannelId, .open, pb.tag⟩, packets,
        [.channelOpen c pb.payload, .channelOpened c], .ok ()⟩

/-- The branches for packets to a channel that exists. -/
def notifyChannel (chs : Channels Tag) (ch : Channel Tag) (pb : ProtocolBuffer Tag) (env : NotifyEnv) :
    MuxResult Tag :=
  let c := pb.localChannelId
  match pb.type with
  | .channelOpen => ⟨chs, [], [], .ok ()⟩
  | .channelOpenConfirmation =>
    if ch.status ≠ .opening then ⟨chs, [], [], .ok ()⟩
    else if pb.remoteChannelId ≠ 0 then
      ⟨chs.insert c { ch with status := .open, remoteId := pb.remoteChannelId }, [],
        [.channelOpened c], .ok ()⟩
    else ⟨chs.erase c, [], [.channelClose c .error], .ok ()⟩
  | .channelData =>
    if ch.status ≠ .pending ∧ ch.status ≠ .open then ⟨chs, [], [], .ok ()⟩
    else if !env.keep then
      ⟨chs.erase c, [], [.channelData c pb.payload, .channelClose c .error], .ok ()⟩
    else ⟨chs, [], [.channelData c pb.payload], .ok ()⟩
  | .channelKeepAlive => ⟨chs, [], [], .ok ()⟩
  | .channelPending =>
    if ch.status ≠ .open then ⟨chs, [], [], .ok ()⟩
    else ⟨chs.insert c { ch with status := .pending }, [], [.channelPending c], .ok ()⟩
  | .channelResume =>
    if ch.status ≠ .pending then ⟨chs, [], [], .ok ()⟩
    else ⟨chs.insert c { ch with status := .open }, [], [.channelResume c], .ok ()⟩
  | .channelClose => ⟨chs.erase c, [], [.channelClose c .normal], .ok ()⟩

/-- multiplex_handler_notify_packet, on a stream without port forwarding. -/
def notifyPacket (chs : Channels Tag) (pb : ProtocolBuffer Tag) (env : NotifyEnv) : MuxResult Tag :=
  if pb.remoteChannelId = 0 ∧ pb.localChannelId = 0 ∧ pb.type = .channelData then
    ⟨chs, [], [.streamData pb.payload], .ok ()⟩
  else if pb.type = .channelOpen then
    if pb.option = .user then notifyOpen chs pb env else ⟨chs, [], [], .ok ()⟩
  else match chs.lookup pb.localChannelId with
    | none => ⟨chs, [], [], .ok ()⟩
    | some ch => notifyChannel chs ch pb env

end CarrierSdk.Mux
