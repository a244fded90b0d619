import CarrierSdk.PseudoTcp.Fifo
import CarrierSdk.Library.Bytes
import CarrierSdk.Library.SerialNumber

/-! The pseudo-TCP socket: its data, its arithmetic of sequence numbers and times, its states, and the segments on
the wire. Lengths are bounded by the buffers and by a packet, so they are natural numbers; what wraps has its width.
Undefined results stand for failed assertions. -/
namespace CarrierSdk

/-! Network constants. -/

def packetMaximums : List UInt16 := [65535, 32000, 17914, 8166, 4352, 2002, 1492, 1006, 508, 296, 0]

def defMtu : UInt32 := 1400
def maxPacket : Nat := 65532
def minPacket : UInt32 := 296
def headerSize : Nat := 24
def packetOverhead : UInt32 := 24 + 8 + 20 + 64

def minRto : UInt32 := 1000
def defRto : UInt32 := 1000
def maxRto : UInt32 := 60000
def defaultAckDelay : UInt32 := 100
def defaultRcvBufSize : Nat := 60 * 1024
def defaultSndBufSize : Nat := 90 * 1024

def tcpOptEol : UInt8 := 0
def tcpOptNoop : UInt8 := 1
def tcpOptWndScale : UInt8 := 3
def tcpOptFinAck : UInt8 := 254

def flagNone : UInt8 := 0
def flagFin : UInt8 := 1
def flagCtl : UInt8 := 2
def flagRst : UInt8 := 4

def ctlConnect : UInt8 := 0

def defaultTimeout : UInt32 := 4000
def closedTimeout : UInt32 := 60 * 1000
def timeWaitTimeout : UInt32 := 1

def einval : UInt32 := 22
def epipe : UInt32 := 32
def emsgsize : UInt32 := 90
def econnaborted : UInt32 := 103
def econnreset : UInt32 := 104
def enotconn : UInt32 := 107
def etimedout : UInt32 := 110
def eagain : UInt32 := 11  -- EWOULDBLOCK

/-- A flag is set. -/
def hasFlag (flags flag : UInt8) : Bool := flags &&& flag != 0

def bound (lower middle upper : UInt32) : UInt32 := min (max lower middle) upper

/-! Times and sequence numbers around the end of 32 bits. -/

def timeIsBetween (later middle earlier : UInt32) : Bool :=
  if earlier ≤ later then decide (earlier ≤ middle) && decide (middle ≤ later)
  else !(decide (later < middle) && decide (middle < earlier))

/-- The result is a gint32. -/
def timeDiff (later earlier : UInt32) : Int :=
  let last : UInt32 := 0xFFFFFFFF
  let half : UInt32 := 0x80000000
  let d : Int :=
    if timeIsBetween (earlier + half) later earlier then
      if earlier ≤ later then (later - earlier).toNat else (later + (last - earlier) + 1).toNat
    else if later ≤ earlier then -(earlier - later).toNat else -(earlier + (last - later) + 1).toNat
  (Int32.ofInt d).toInt

def larger (a b : UInt32) : Bool := a - b - 1 < 0x7FFFFFFF
def largerOrEqual (a b : UInt32) : Bool := a - b < 0x7FFFFFFF
def smaller (a b : UInt32) : Bool := larger b a
def smallerOrEqual (a b : UInt32) : Bool := largerOrEqual b a

/-! The data. -/

inductive PseudoTcpState
  | listen | synSent | synReceived | established | closed | finWait1 | finWait2 | closing | timeWait
  | closeWait | lastAck
  deriving DecidableEq

inductive PseudoTcpWriteResult | success | tooLarge | fail
  deriving DecidableEq

inductive PseudoTcpShutdown | rd | wr | rdwr
  deriving DecidableEq

/-- Only used where FIN-ACK is not supported. -/
inductive Shutdown | sdNone | sdGraceful | sdForceful
  deriving DecidableEq

inductive SendFlags | sfNone | sfDelayedAck | sfImmediateAck | sfFin | sfRst | sfDuplicateAck
  deriving DecidableEq

inductive ClosedownSource | closedownLocal | closedownRemote
  deriving DecidableEq

/-- A segment of the peer; its len is the length of the data. -/
structure Segment where
  conv : UInt32
  seq : UInt32
  ack : UInt32
  flags : UInt8
  wnd : UInt16
  data : List UInt8
  tsval : UInt32
  tsecr : UInt32
  deriving DecidableEq

structure SSegment where
  seq : UInt32
  len : Nat
  xmit : UInt8
  flags : UInt8
  deriving DecidableEq

structure RSegment where
  seq : UInt32
  len : Nat
  deriving DecidableEq

/-- A call of one of the callbacks. -/
inductive PseudoTcpCall
  | opened
  | readable
  | writable
  | closed (error : UInt32)
  | writePacket (buffer : List UInt8)
  deriving DecidableEq

/-- Incoming data -/
structure Incoming where
  rlist : List RSegment
  rbufLen : Nat
  rcvNxt : UInt32
  rcvWnd : UInt32
  lastrecv : UInt32
  rwndScale : UInt8
  rbuf : PseudoTcpFifo
  rcvFin : UInt32
  deriving DecidableEq

/-- Outgoing data. The list slist is sent followed by unsent, and unsent_slist is unsent. -/
structure Outgoing where
  sent : List SSegment
  unsent : List SSegment
  sbufLen : Nat
  sndNxt : UInt32
  sndWnd : UInt32
  lastsend : UInt32
  sndUna : UInt32
  swndScale : UInt8
  sbuf : PseudoTcpFifo
  deriving DecidableEq

/-- The socket, with the calls of its callbacks so far in place of the callbacks. -/
structure PseudoTcpSocket where
  called : List PseudoTcpCall
  shutdown : Shutdown
  shutdownReads : Bool
  error : UInt32
  state : PseudoTcpState
  conv : UInt32
  bReadEnable : Bool
  bWriteEnable : Bool
  bOutgoing : Bool
  lastTraffic : UInt32
  rcv : Incoming
  snd : Outgoing
  mss : UInt32
  msslevel : Nat
  largest : Nat
  mtuAdvise : UInt32
  rtoBase : UInt32
  tsRecent : UInt32
  tsLastack : UInt32
  rxRttvar : UInt32
  rxSrtt : UInt32
  rxRto : UInt32
  ssthresh : UInt32
  cwnd : UInt32
  dupAcks : UInt8
  recover : UInt32
  fastRecovery : Bool
  tAck : UInt32
  lastAckedTs : UInt32
  useNagling : Bool
  ackDelay : UInt32
  supportWndScale : Bool
  supportFinAck : Bool
  deriving DecidableEq

/-- What a call into the socket finds: the time, and what WritePacket returns after the calls so far. -/
structure PseudoTcpEnv where
  now : UInt32
  writePacket : List PseudoTcpCall → List UInt8 → PseudoTcpWriteResult

namespace PseudoTcpState

/-- The state has sent a FIN. -/
def hasSentFin : PseudoTcpState → Bool
  | .listen | .synSent | .synReceived | .established | .closeWait => false
  | .closed | .finWait1 | .finWait2 | .closing | .timeWait | .lastAck => true

/-- The state has received a FIN. -/
def hasReceivedFin : PseudoTcpState → Bool
  | .listen | .synSent | .synReceived | .established | .finWait1 | .finWait2 => false
  | .closed | .closing | .timeWait | .closeWait | .lastAck => true

/-- The state has received the acknowledgement of its FIN, and a FIN. -/
def hasReceivedFinAck : PseudoTcpState → Bool
  | .closed | .timeWait => true
  | _ => false

/-- The transitions that set_state asserts. -/
def validTransition : PseudoTcpState → PseudoTcpState → Bool
  | .closed, .synSent | .synSent, .closed | .closed, .listen | .listen, .closed | .listen, .synSent
  | .listen, .synReceived | .synSent, .synReceived | .synReceived, .established | .synSent, .established
  | .synReceived, .finWait1 | .established, .finWait1 | .established, .closeWait | .finWait1, .finWait2
  | .finWait1, .closing | .closeWait, .lastAck | .finWait2, .timeWait | .closing, .timeWait
  | .lastAck, .closed | .timeWait, .closed | .synReceived, .listen | .finWait1, .timeWait => true
  | _, _ => false

end PseudoTcpState

namespace PseudoTcpSocket

/-- pseudo_tcp_socket_new -/
def new (conversation : UInt32) : PseudoTcpSocket :=
  { called := []
    shutdown := .sdNone
    shutdownReads := false
    error := 0
    state := .listen
    conv := conversation
    bReadEnable := true
    bWriteEnable := false
    bOutgoing := false
    lastTraffic := 0
    rcv :=
      { rlist := []
        rbufLen := defaultRcvBufSize
        rcvNxt := 0
        rcvWnd := UInt32.ofNat defaultRcvBufSize
        lastrecv := 0
        rwndScale := 0
        rbuf := .init defaultRcvBufSize
        rcvFin := 0 }
    snd :=
      { sent := []
        unsent := []
        sbufLen := defaultSndBufSize
        sndNxt := 0
        sndWnd := 1
        lastsend := 0
        sndUna := 0
        swndScale := 0
        sbuf := .init defaultSndBufSize }
    mss := minPacket - packetOverhead
    msslevel := 0
    largest := 0
    mtuAdvise := defMtu
    rtoBase := 0
    tsRecent := 0
    tsLastack := 0
    rxRttvar := 0
    rxSrtt := 0
    rxRto := defRto
    ssthresh := UInt32.ofNat defaultRcvBufSize
    cwnd := 2 * (minPacket - packetOverhead)
    dupAcks := 0
    recover := 0
    fastRecovery := false
    tAck := 0
    lastAckedTs := 0
    useNagling := true
    ackDelay := defaultAckDelay
    supportWndScale := true
    supportFinAck := true }

variable (s : PseudoTcpSocket)

def call (c : PseudoTcpCall) : PseudoTcpSocket := { s with called := s.called ++ [c] }

def withState (state : PseudoTcpState) : PseudoTcpSocket := { s with state := state }

def setState (newState : PseudoTcpState) : Option PseudoTcpSocket :=
  if newState = s.state then some s
  else if s.state.validTransition newState then some (s.withState newState)
  else none

/-- The level is that of the first maximum within the MTU, or the last. -/
def msslevelOf (mtu : UInt32) : List UInt16 → Nat
  | maximum :: next :: rest =>
    if 0 < next then if maximum.toUInt32 ≤ mtu then 0 else msslevelOf mtu (next :: rest) + 1 else 0
  | _ => 0

def adjustMTU : PseudoTcpSocket :=
  let mss := s.mtuAdvise - packetOverhead
  { s with msslevel := msslevelOf s.mtuAdvise packetMaximums
           mss := mss
           ssthresh := max s.ssthresh (2 * mss)
           cwnd := max s.cwnd mss }

def setStateEstablished : Option PseudoTcpSocket :=
  (s.setState .established).map fun s => s.adjustMTU.call .opened

def setStateClosed (err : UInt32) : Option PseudoTcpSocket :=
  (s.setState .closed).map fun s => if err ≠ 0 then s.call (.closed err) else s

/-- The walk of closedown to a state from which the socket may close. -/
def walkToClosed : Option PseudoTcpSocket :=
  match s.state with
  | .synReceived | .established => do
    let s ← s.setState .finWait1
    let s ← s.setState .finWait2
    s.setState .timeWait
  | .finWait1 => do
    let s ← s.setState .finWait2
    s.setState .timeWait
  | .finWait2 | .closing => s.setState .timeWait
  | .closeWait => s.setState .lastAck
  | .listen | .synSent | .lastAck | .timeWait | .closed => some s

/-- The rest of closedown, after what it sends. -/
def closedownWalk (err : UInt32) : Option PseudoTcpSocket := do
  let s ← s.walkToClosed
  s.setStateClosed err

def isClosed : Bool := s.state = .closed

def isClosedRemotely : Bool := s.state.hasReceivedFin

/-! Segments on the wire. -/

/-- The header of 24 bytes, in network order. -/
def packetHeader (seg : Segment) : List UInt8 :=
  Bytes.bigEndian 4 seg.conv.toNat ++ (Bytes.bigEndian 4 seg.seq.toNat ++ (Bytes.bigEndian 4 seg.ack.toNat ++
  ([0, seg.flags] ++ (Bytes.bigEndian 2 seg.wnd.toNat ++ (Bytes.bigEndian 4 seg.tsval.toNat ++
  Bytes.bigEndian 4 seg.tsecr.toNat)))))

def packetBytes (seg : Segment) : List UInt8 := packetHeader seg ++ seg.data

/-- A field of the header. -/
def field (header : List UInt8) (at_ width : Nat) : Nat := Bytes.number ((header.drop at_).take width)

def parseSegment (header data : List UInt8) : Segment :=
  { conv := UInt32.ofNat (field header 0 4)
    seq := UInt32.ofNat (field header 4 4)
    ack := UInt32.ofNat (field header 8 4)
    flags := header.getD 13 0
    wnd := UInt16.ofNat (field header 14 2)
    data := data
    tsval := UInt32.ofNat (field header 16 4)
    tsecr := UInt32.ofNat (field header 20 4) }

end PseudoTcpSocket
end CarrierSdk
