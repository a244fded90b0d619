import CarrierSdk.PseudoTcp.Sending

/-! The calls into the pseudo-TCP socket: a segment of the peer, the clock, and the calls of the application. A callback
that calls back into the socket is a call of its own after the one that it was called by. -/
namespace CarrierSdk
namespace PseudoTcpSocket

/-! Options of the connect message. -/

/-- The receive buffer shrinks or grows to a size that a scaled window can announce. -/
def scaleOf : Nat → Nat → Nat × Nat
  | 0, newSize => (newSize, 0)
  | turns + 1, newSize =>
    if 0xFFFF < newSize then
      let r := scaleOf turns (newSize / 2)
      (r.1, r.2 + 1)
    else (newSize, 0)

def resizeReceiveBuffer (s : PseudoTcpSocket) (newSize : Nat) : Option PseudoTcpSocket :=
  if s.rcv.rbufLen = newSize then some s
  else
    let scaled := scaleOf 32 newSize
    let newSize := scaled.1 * 2 ^ scaled.2
    let resized := s.rcv.rbuf.setCapacity newSize
    if resized.2 then
      some { s with
        rcv.rbuf := resized.1
        rcv.rbufLen := newSize
        rcv.rwndScale := UInt8.ofNat scaled.2
        ssthresh := UInt32.ofNat newSize
        rcv.rcvWnd := UInt32.ofNat resized.1.getWriteRemaining }
    else none

def resizeSendBuffer (s : PseudoTcpSocket) (newSize : Nat) : PseudoTcpSocket :=
  { s with snd.sbufLen := newSize, snd.sbuf := (s.snd.sbuf.setCapacity newSize).1 }

/-- The sizes of the buffers among the properties. They are set before the socket is connected only. -/
def setRcvBuf (s : PseudoTcpSocket) (size : Nat) : Option PseudoTcpSocket :=
  if s.state = .listen then s.resizeReceiveBuffer size else some s

def setSndBuf (s : PseudoTcpSocket) (size : Nat) : PseudoTcpSocket :=
  if s.state = .listen then s.resizeSendBuffer size else s

/-- What the option list of a peer announces: a window scale, and whether there are options of both kinds. -/
structure Options where
  wndScale : Option UInt8
  hasWindowScaling : Bool
  hasFinAck : Bool
  deriving DecidableEq

/-- The walk of parse_options over the list, with a turn for each byte at most. It is left early, without the checks
behind it, where the list is cut off. An option of window scaling counts also where its length is wrong. -/
def readOptions : Nat → List UInt8 → Options → Options × Bool
  | 0, _, o => (o, true)
  | _ + 1, [], o => (o, true)
  | turns + 1, kind :: rest, o =>
    if kind = tcpOptEol then (o, true)
    else if kind = tcpOptNoop then readOptions turns rest o
    else
      match rest with
      | [] => (o, false)
      | optLen :: content =>
        if content.length < optLen.toNat then (o, false)
        else
          let o := if kind = tcpOptWndScale then
              { o with hasWindowScaling := true, wndScale := if optLen = 1 then content.head? <|> o.wndScale else o.wndScale }
            else if kind = tcpOptFinAck then { o with hasFinAck := true }
            else o
          readOptions turns (content.drop optLen.toNat) o

/-- A peer without window scaling: the receive buffer goes back to its default size. -/
def revertScale (s : PseudoTcpSocket) (hasWindowScaling : Bool) : Option PseudoTcpSocket :=
  if !hasWindowScaling ∧ 0 < s.rcv.rwndScale then
    (s.resizeReceiveBuffer defaultRcvBufSize).map fun s => { s with snd.swndScale := 0 }
  else some s

def parseOptions (s : PseudoTcpSocket) (data : List UInt8) : Option PseudoTcpSocket := do
  let (o, complete) := readOptions data.length data ⟨none, false, false⟩
  let s := { s with
    snd.swndScale := o.wndScale.getD s.snd.swndScale
    supportFinAck := s.supportFinAck || o.hasFinAck }
  if !complete then some s
  else
    let s ← s.revertScale o.hasWindowScaling
    some { s with supportFinAck := s.supportFinAck && o.hasFinAck }

/-! The stages of process. -/

/-- The control data of a segment: whether it is a connect message, and nothing where process returns. -/
def control (s : PseudoTcpSocket) (seg : Segment) : Option (PseudoTcpSocket × Option Bool) :=
  if hasFlag seg.flags flagCtl then
    match seg.data with
    | [] => some (s, none)
    | code :: options =>
      if code = ctlConnect then do
        let s ← s.parseOptions options
        if s.state = .listen then do
          let s ← s.setState .synReceived
          let s ← s.queueConnectMessage
          some (s, some true)
        else if s.state = .synSent then do
          let s ← s.setStateEstablished
          some (s, some true)
        else some (s, some true)
      else some (s, none)
  else some (s, some false)

def updateTimestamp (s : PseudoTcpSocket) (seg : Segment) : PseudoTcpSocket :=
  if smallerOrEqual seg.seq s.tsLastack ∧ smaller s.tsLastack (seg.seq + UInt32.ofNat seg.data.length) then
    { s with tsRecent := seg.tsval }
  else s

/-- The round-trip time of an acknowledgement. Nothing where it is invalid and process returns. -/
def measureRtt (s : PseudoTcpSocket) (seg : Segment) (now : UInt32) : Option PseudoTcpSocket :=
  if seg.tsecr ≠ 0 then
    let rtt := timeDiff now seg.tsecr
    if 0 ≤ rtt then
      let rttvar : Nat :=
        if s.rxSrtt = 0 then rtt.toNat / 2
        else ((3 * s.rxRttvar).toNat + (rtt - s.rxSrtt.toNat).natAbs) / 4
      let srtt : Nat := if s.rxSrtt = 0 then rtt.toNat else ((7 * s.rxSrtt).toNat + rtt.toNat) / 8
      let s := { s with rxRttvar := UInt32.ofNat rttvar, rxSrtt := UInt32.ofNat srtt }
      some { s with
        rxRto := bound minRto (s.rxSrtt + max 1 (4 * s.rxRttvar)) maxRto
        lastAckedTs := seg.tsecr }
    else none
  else some s

/-- Takes acknowledged bytes off the front of slist, with the largest segment freed. Freeing a segment that is still
in unsent_slist leaves a dangling pointer there, which is undefined. -/
def freeAcked : Nat → Nat → List SSegment → Option (Nat × List SSegment)
  | 0, largest, sent => some (largest, sent)
  | _ + 1, _, [] => none
  | nFree + 1, largest, data :: rest =>
    if nFree + 1 < data.len then
      some (largest, { data with len := data.len - (nFree + 1), seq := data.seq + UInt32.ofNat (nFree + 1) } :: rest)
    else freeAcked (nFree + 1 - data.len) (max largest data.len) rest
termination_by _ _ sent => sent.length

/-- A valuable acknowledgement frees what it acknowledges. Returns the bytes freed, and whether a FIN was
acknowledged. -/
def acceptAck (s : PseudoTcpSocket) (seg : Segment) (now : UInt32) : Option (PseudoTcpSocket × Nat × Bool) := do
  let nAcked := (seg.ack - s.snd.sndUna).toNat
  let isFinAck : Bool := nAcked = s.snd.sbuf.dataLength + 1 ∧ s.state.hasSentFin
  let nAcked := if isFinAck then nAcked - 1 else nAcked
  let sbuf ← s.snd.sbuf.consumeReadData nAcked
  let (largest, sent) ← freeAcked nAcked s.largest s.snd.sent
  some ({ s with
    snd.sndWnd := seg.wnd.toUInt32 <<< s.snd.swndScale.toUInt32
    snd.sndUna := seg.ack
    rtoBase := if seg.ack = s.snd.sndNxt then 0 else now
    snd.sbuf := sbuf
    snd.sent := sent
    largest := largest }, nAcked, isFinAck)

/-- Congestion control on a valuable acknowledgement. False where process returns. A division by zero is undefined. -/
def congestionOnAck (env : PseudoTcpEnv) (s : PseudoTcpSocket) (nAcked : UInt32) : Option (PseudoTcpSocket × Bool) :=
  if 3 ≤ s.dupAcks then
    if largerOrEqual s.snd.sndUna s.recover then
      let nInFlight := s.snd.sndNxt - s.snd.sndUna
      some ({ s with
        cwnd := min s.ssthresh (max nInFlight s.mss + s.mss)
        fastRecovery := false
        dupAcks := 0 }, true)
    else do
      let (s, status) ← transmit env s s.slistHead
      if status ≠ 0 then do
        let s ← closedown env s status .closedownLocal
        some (s, false)
      else some ({ s with cwnd := s.cwnd + ((if s.mss < nAcked then s.mss else 0) - min nAcked s.cwnd) }, true)
  else
    let s := { s with dupAcks := 0 }
    if s.cwnd < s.ssthresh then some ({ s with cwnd := s.cwnd + s.mss }, true)
    else if s.cwnd = 0 then none
    else some ({ s with cwnd := s.cwnd + max 1 (s.mss * s.mss / s.cwnd) }, true)

/-- A duplicate acknowledgement, with the fast retransmit on the third. False where process returns. -/
def duplicateAck (env : PseudoTcpEnv) (s : PseudoTcpSocket) (seg : Segment) : Option (PseudoTcpSocket × Bool) :=
  let s := { s with snd.sndWnd := seg.wnd.toUInt32 <<< s.snd.swndScale.toUInt32 }
  if seg.data ≠ [] then some (s, true)
  else if s.snd.sndUna ≠ s.snd.sndNxt then
    let s := { s with dupAcks := s.dupAcks + 1 }
    if s.dupAcks = 3 then
      if largerOrEqual s.snd.sndUna s.recover ∨ seg.tsecr = s.lastAckedTs then do
        let (s, status) ← transmit env s s.slistHead
        if status ≠ 0 then do
          let s ← closedown env s status .closedownLocal
          some (s, false)
        else
          let ssthresh := max ((s.snd.sndNxt - s.snd.sndUna) / 2) (2 * s.mss)
          some ({ s with
            recover := s.snd.sndNxt
            ssthresh := ssthresh
            cwnd := ssthresh + 3 * s.mss
            fastRecovery := true }, true)
      else some (s, true)
    else if 3 < s.dupAcks ∧ s.fastRecovery then some ({ s with cwnd := s.cwnd + s.mss }, true)
    else some (s, true)
  else some ({ s with dupAcks := 0 }, true)

/-- What a segment acknowledges. The flags are whether a FIN was acknowledged, and whether process goes on. -/
def acknowledge (env : PseudoTcpEnv) (s : PseudoTcpSocket) (seg : Segment) : Option (PseudoTcpSocket × Bool × Bool) := do
  if larger seg.ack s.snd.sndUna ∧ smallerOrEqual seg.ack s.snd.sndNxt then
    match s.measureRtt seg env.now with
    | none => some (s, false, false)
    | some s => do
      let (s, nAcked, isFinAck) ← s.acceptAck seg env.now
      let (s, goesOn) ← congestionOnAck env s (UInt32.ofNat nAcked)
      some (s, isFinAck, goesOn)
  else if seg.ack = s.snd.sndUna then do
    let (s, goesOn) ← duplicateAck env s seg
    some (s, false, goesOn)
  else some (s, false, true)

/-- Anything but another connect message establishes a connection that waits for it. -/
def establish (s : PseudoTcpSocket) (bConnect : Bool) : Option PseudoTcpSocket :=
  if s.state = .synReceived ∧ !bConnect then s.setStateEstablished else some s

/-- The state machine on a received FIN and on the acknowledgement of a FIN. -/
def finTransition (s : PseudoTcpSocket) (isFinAck receivedFin : Bool) : Option PseudoTcpSocket :=
  match s.state with
  | .established => if receivedFin then s.setState .closeWait else some s
  | .closing => if isFinAck then s.setState .timeWait else some s
  | .lastAck => if isFinAck then s.setStateClosed 0 else some s
  | .finWait1 =>
    if isFinAck ∧ receivedFin then s.setState .timeWait
    else if isFinAck then s.setState .finWait2
    else if receivedFin then s.setState .closing
    else some s
  | .finWait2 => if receivedFin then s.setState .timeWait else some s
  | .listen | .synSent | .synReceived | .timeWait | .closed | .closeWait => some s

/-- Checks for connection closure. A FIN counts once every octet before it has been received. Nothing where process
returns. -/
def checkFin (s : PseudoTcpSocket) (seg : Segment) (isFinAck : Bool) : Option (PseudoTcpSocket × Option Bool) :=
  if s.supportFinAck then
    let s := if hasFlag seg.flags flagFin then { s with rcv.rcvFin := seg.seq } else s
    if hasFlag seg.flags flagFin ∧ seg.data ≠ [] then some (s, none)
    else
      let receivedFin : Bool :=
        s.rcv.rcvNxt ≠ 0 ∧ s.rcv.rcvNxt + UInt32.ofNat seg.data.length = s.rcv.rcvFin
      (s.finTransition isFinAck receivedFin).map (·, some receivedFin)
  else some (s, some false)

/-- The user is notified of room in the send queue. -/
def notifyWritable (s : PseudoTcpSocket) : PseudoTcpSocket :=
  if s.bWriteEnable ∧ s.snd.sbuf.getBuffered < (s.snd.sbufLen + s.rcv.rbufLen) / 2 then
    { s with bWriteEnable := false }.call .writable
  else s

/-- Which acknowledgement a segment needs. -/
def ackFor (s : PseudoTcpSocket) (seg : Segment) (receivedFin : Bool) : SendFlags :=
  if seg.seq ≠ s.rcv.rcvNxt then .sfDuplicateAck
  else if seg.data ≠ [] then if s.ackDelay = 0 then .sfImmediateAck else .sfDelayedAck
  else if receivedFin then .sfImmediateAck
  else .sfNone

end PseudoTcpSocket

namespace Incoming

/-- Adjusts a segment to what is missing and to the room in the buffer. Returns its sequence number and data. -/
def adjust (r : Incoming) (seq : UInt32) (data : List UInt8) : UInt32 × List UInt8 :=
  let (seq, data) :=
    if smaller seq r.rcvNxt then
      let nAdjust := r.rcvNxt - seq
      if nAdjust.toNat < data.length then (seq + nAdjust, data.drop nAdjust.toNat) else (seq, [])
    else (seq, data)
  let beyond := (seq + UInt32.ofNat data.length - r.rcvNxt).toNat
  let availableSpace := r.rbuf.getWriteRemaining
  if availableSpace < beyond then
    let nAdjust := beyond - availableSpace
    if nAdjust < data.length then (seq, data.take (data.length - nAdjust)) else (seq, [])
  else (seq, data)

/-- Takes the segments that wait in rlist, as long as they begin in what has been received. The flag is whether one
gave new data. -/
def recoverSegments (r : Incoming) : List RSegment → Option (Incoming × Bool)
  | [] => some ({ r with rlist := [] }, false)
  | data :: rest =>
    if smallerOrEqual data.seq r.rcvNxt then
      if larger (data.seq + UInt32.ofNat data.len) r.rcvNxt then do
        let nAdjust := data.seq + UInt32.ofNat data.len - r.rcvNxt
        let rbuf ← r.rbuf.consumeWriteBuffer nAdjust.toNat
        let (r, _) ← recoverSegments { r with rbuf := rbuf, rcvNxt := r.rcvNxt + nAdjust, rcvWnd := r.rcvWnd - nAdjust } rest
        some (r, true)
      else recoverSegments r rest
    else some ({ r with rlist := data :: rest }, false)

/-- Inserts a segment into rlist behind those with a smaller sequence number. -/
def insertSegment (rseg : RSegment) : List RSegment → List RSegment
  | [] => [rseg]
  | data :: rest => if smaller data.seq rseg.seq then data :: insertSegment rseg rest else rseg :: data :: rest

/-- Stores an adjusted segment. The flags are whether there is new data, and whether segments were recovered. -/
def store (r : Incoming) (seq : UInt32) (data : List UInt8) (bIgnoreData : Bool) : Option (Incoming × Bool × Bool) :=
  if data = [] then some (r, false, false)
  else if bIgnoreData then
    some (if seq = r.rcvNxt then { r with rcvNxt := r.rcvNxt + UInt32.ofNat data.length } else r, false, false)
  else
    let res := r.rbuf.writeOffset data (seq - r.rcvNxt).toNat
    if res.2 ≠ data.length then none
    else
      let r := { r with rbuf := res.1 }
      if seq = r.rcvNxt then do
        let rbuf ← r.rbuf.consumeWriteBuffer data.length
        let (r, recovered) ← recoverSegments { r with
          rbuf := rbuf
          rcvNxt := r.rcvNxt + UInt32.ofNat data.length
          rcvWnd := r.rcvWnd - UInt32.ofNat data.length } r.rlist
        some (r, true, recovered)
      else some ({ r with rlist := insertSegment ⟨seq, data.length⟩ r.rlist }, false, false)

end Incoming

namespace PseudoTcpSocket

/-- The data of a segment, after everything else has been looked at. -/
def receiveData (env : PseudoTcpEnv) (s : PseudoTcpSocket) (seg : Segment) (receivedFin : Bool) :
    Option PseudoTcpSocket := do
  let sflags := s.ackFor seg receivedFin
  let (seq, data) := s.rcv.adjust seg.seq seg.data
  let bIgnoreData : Bool := hasFlag seg.flags flagCtl || (!s.supportFinAck && decide (s.shutdown ≠ .sdNone))
  let (rcv, bNewData, recovered) ← s.rcv.store seq data bIgnoreData
  let s := { s with rcv := if receivedFin then { rcv with rcvNxt := rcv.rcvNxt + 1 } else rcv }
  let s ← attemptSend env s (if recovered then .sfImmediateAck else sflags)
  some (if bNewData ∧ s.bReadEnable then s.call .readable else s)

/-- Something has been received. -/
def heard (s : PseudoTcpSocket) (now : UInt32) : PseudoTcpSocket :=
  { s with lastTraffic := now, rcv.lastrecv := now, bOutgoing := false }

/-- The result is whether the segment was valid. -/
def process (env : PseudoTcpEnv) (s : PseudoTcpSocket) (seg : Segment) : Option (PseudoTcpSocket × Bool) := do
  if seg.conv ≠ s.conv then some (s, false)
  else
    let s := s.heard env.now
    if s.state = .closed ∨ (s.state.hasReceivedFinAck ∧ seg.data ≠ []) then
      if hasFlag seg.flags flagRst then some (s, false)
      else do
        let s ← closedown env s 0 .closedownLocal
        some (s, false)
    else if hasFlag seg.flags flagRst then do
      let s ← closedown env s econnreset .closedownRemote
      some (s, false)
    else
      match ← s.control seg with
      | (s, none) => some (s, false)
      | (s, some bConnect) =>
        let s := s.updateTimestamp seg
        match ← acknowledge env s seg with
        | (s, _, false) => some (s, false)
        | (s, isFinAck, true) =>
          let s ← s.establish bConnect
          match ← s.checkFin seg isFinAck with
          | (s, none) => some (s, false)
          | (s, some receivedFin) =>
            let s ← receiveData env s.notifyWritable seg receivedFin
            some (s, true)

/-- pseudo_tcp_socket_notify_packet, and parse. -/
def notifyPacket (env : PseudoTcpEnv) (s : PseudoTcpSocket) (buffer : List UInt8) : Option (PseudoTcpSocket × Bool) :=
  if maxPacket < buffer.length then some ({ s with error := emsgsize }, false)
  else if buffer.length < headerSize then some ({ s with error := einval }, false)
  else process env s (parseSegment (buffer.take headerSize) (buffer.drop headerSize))

/-! The calls of the application and of the clock. -/

def connect (env : PseudoTcpEnv) (s : PseudoTcpSocket) : Option (PseudoTcpSocket × Bool) :=
  if s.state ≠ .listen then some ({ s with error := einval }, false)
  else do
    let s ← s.setState .synSent
    let s ← s.queueConnectMessage
    let s ← attemptSend env s .sfNone
    some (s, true)

def notifyMtu (s : PseudoTcpSocket) (mtu : UInt16) : PseudoTcpSocket :=
  let s := { s with mtuAdvise := mtu.toUInt32 }
  if s.state = .established then s.adjustMTU else s

/-- The clock of the retransmission timer. False where notify_clock returns. -/
def retransmitOnTimeout (env : PseudoTcpEnv) (s : PseudoTcpSocket) : Option (PseudoTcpSocket × Bool) :=
  if s.rtoBase ≠ 0 ∧ timeDiff (s.rtoBase + s.rxRto) env.now ≤ 0 then do
    let (s, status) ← transmit env s s.slistHead
    if status ≠ 0 then do
      let s ← closedown env s status .closedownLocal
      some (s, false)
    else
      let nInFlight := s.snd.sndNxt - s.snd.sndUna
      let rtoLimit := if s.state = .listen ∨ s.state = .synSent ∨ s.state = .synReceived then defRto else maxRto
      let s := { s with
        ssthresh := max (nInFlight / 2) (2 * s.mss)
        cwnd := s.mss
        rxRto := min rtoLimit (s.rxRto * 2)
        rtoBase := env.now
        recover := s.snd.sndNxt }
      some (if 3 ≤ s.dupAcks then { s with dupAcks := 0, fastRecovery := false } else s, true)
  else some (s, true)

/-- The probe of a closed window. False where notify_clock returns. -/
def probeWindow (env : PseudoTcpEnv) (s : PseudoTcpSocket) : Option (PseudoTcpSocket × Bool) :=
  if s.snd.sndWnd = 0 ∧ timeDiff (s.snd.lastsend + s.rxRto) env.now ≤ 0 then
    if 15000 ≤ timeDiff env.now s.rcv.lastrecv then do
      let s ← closedown env s econnaborted .closedownLocal
      some (s, false)
    else do
      let (s, _) ← packet env s (s.snd.sndNxt - 1) 0 0 0
      some ({ s with snd.lastsend := env.now, rxRto := min maxRto (s.rxRto * 2) }, true)
  else some (s, true)

def leaveTimeWait (s : PseudoTcpSocket) : Option PseudoTcpSocket :=
  if s.supportFinAck ∧ s.state = .timeWait then s.setStateClosed 0 else some s

def resendFin (env : PseudoTcpEnv) (s : PseudoTcpSocket) : Option PseudoTcpSocket :=
  if s.supportFinAck ∧ s.state = .lastAck then do
    let s ← s.queueFinMessage
    attemptSend env s .sfFin
  else some s

def notifyClock (env : PseudoTcpEnv) (s : PseudoTcpSocket) : Option PseudoTcpSocket := do
  if s.state = .closed then some s
  else
    let s ← s.leaveTimeWait
    let s ← resendFin env s
    match ← retransmitOnTimeout env s with
    | (s, false) => some s
    | (s, true) =>
      match ← probeWindow env s with
      | (s, false) => some s
      | (s, true) =>
        if s.tAck ≠ 0 ∧ timeDiff (s.tAck + s.ackDelay) env.now ≤ 0 then do
          let (s, _) ← packet env s s.snd.sndNxt 0 0 0
          some s
        else some s

/-- pseudo_tcp_socket_get_next_clock. The timeout is a guint64; nothing is returned for FALSE. -/
def getNextClock (env : PseudoTcpEnv) (s : PseudoTcpSocket) (timeout : UInt64) :
    Option (PseudoTcpSocket × Option UInt64) :=
  if s.shutdown = .sdForceful then (closedown env s 0 .closedownRemote).map (·, none)
  else if s.shutdown = .sdGraceful ∧
      (s.state ≠ .established ∨ (s.snd.sbuf.getBuffered = 0 ∧ s.tAck = 0)) then
    (closedown env s 0 .closedownRemote).map (·, none)
  else if s.supportFinAck ∧ s.state = .closed then some (s, none)
  else
    let inTimeWait : Bool := s.supportFinAck ∧ s.state = .timeWait
    let now := env.now
    let closedTimeout := if inTimeWait then timeWaitTimeout else closedTimeout
    let timeout := if timeout = 0 ∨ timeout < now.toUInt64 then (now + closedTimeout).toUInt64 else timeout
    if inTimeWait then some (s, some (min timeout (now + timeWaitTimeout).toUInt64))
    else if s.state = .closed then some (s, some (min timeout (now + CarrierSdk.closedTimeout).toUInt64))
    else
      let timeout := min timeout (now + defaultTimeout).toUInt64
      let timeout := if s.tAck ≠ 0 then min timeout (s.tAck + s.ackDelay).toUInt64 else timeout
      let timeout := if s.rtoBase ≠ 0 then min timeout (s.rtoBase + s.rxRto).toUInt64 else timeout
      some (s, some (if s.snd.sndWnd = 0 then min timeout (s.snd.lastsend + s.rxRto).toUInt64 else timeout))

/-- What recv returns: bytes, or the error that it sets. -/
def recv (env : PseudoTcpEnv) (s : PseudoTcpSocket) (len : Nat) : Option (PseudoTcpSocket × Except UInt32 (List UInt8)) :=
  if s.supportFinAck ∧ s.shutdownReads then some (s, .ok [])
  else if !s.supportFinAck ∧ s.isClosed then some (s, .ok [])
  else if !s.supportFinAck ∧ s.state ≠ .established then some ({ s with error := enotconn }, .error enotconn)
  else if len = 0 then some (s, .ok [])
  else
    let (rbuf, bytes) := s.rcv.rbuf.read len
    let s := { s with rcv.rbuf := rbuf }
    if bytes = [] ∧ !(s.state.hasReceivedFin || s.state.hasReceivedFinAck) then
      some ({ s with bReadEnable := true, error := eagain }, .error eagain)
    else
      let availableSpace := s.rcv.rbuf.getWriteRemaining
      -- The difference has 64 bits.
      if min (s.rcv.rbufLen / 2) s.mss.toNat ≤ (availableSpace + 2 ^ 64 - s.rcv.rcvWnd.toNat) % 2 ^ 64 then
        let bWasClosed := s.rcv.rcvWnd = 0
        let s := { s with rcv.rcvWnd := UInt32.ofNat availableSpace }
        if bWasClosed then (attemptSend env s .sfImmediateAck).map (·, .ok bytes)
        else some (s, .ok bytes)
      else some (s, .ok bytes)

/-- What send returns: the number of bytes taken, or the error that it sets. -/
def send (env : PseudoTcpEnv) (s : PseudoTcpSocket) (buffer : List UInt8) : Option (PseudoTcpSocket × Except UInt32 Nat) :=
  if s.state ≠ .established then
    let e := if s.state.hasSentFin then epipe else enotconn
    some ({ s with error := e }, .error e)
  else if s.snd.sbuf.getWriteRemaining = 0 then some ({ s with bWriteEnable := true, error := eagain }, .error eagain)
  else do
    let (s, written) ← s.queue buffer flagNone
    let s ← attemptSend env s .sfNone
    some (if 0 < written ∧ written < buffer.length then { s with bWriteEnable := true } else s, .ok written)

def shutdownSocket (env : PseudoTcpEnv) (s : PseudoTcpSocket) (how : PseudoTcpShutdown) : Option PseudoTcpSocket :=
  if !s.supportFinAck then some (if s.shutdown = .sdNone then { s with shutdown := .sdGraceful } else s)
  else
    let s := if how = .rd ∨ how = .rdwr then { s with shutdownReads := true } else s
    if how = .rd then some s
    else
      match s.state with
      | .listen | .synSent => s.setStateClosed 0
      | .synReceived | .established =>
        if 0 < s.rcv.rbuf.getBuffered then closedown env s econnaborted .closedownLocal
        else do
          let s ← s.queueFinMessage
          let s ← attemptSend env s .sfFin
          s.setState .finWait1
      | .closeWait => do
        let s ← s.queueFinMessage
        let s ← attemptSend env s .sfFin
        s.setState .lastAck
      | .closing | .closed | .finWait1 | .finWait2 | .timeWait | .lastAck => some s

def close (env : PseudoTcpEnv) (s : PseudoTcpSocket) (force : Bool) : Option PseudoTcpSocket :=
  if force ∧ s.state ≠ .closed then closedown env s econnaborted .closedownLocal
  else shutdownSocket env s .rdwr

end PseudoTcpSocket
end CarrierSdk
