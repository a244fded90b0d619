import CarrierSdk.PseudoTcp.Socket

/-! What the pseudo-TCP socket sends: the queue of segments, their transmission, the loop that sends what the window
allows, and the closing of a socket, which sends a reset first. -/
namespace CarrierSdk
/-- Flags with which everything is sent, whatever the windows are. -/
def SendFlags.always (sflags : SendFlags) : Bool := sflags = .sfFin ∨ sflags = .sfRst

/-- An acknowledgement goes out with what is sent. -/
def SendFlags.acked (sflags : SendFlags) : SendFlags :=
  if sflags = .sfImmediateAck ∨ sflags = .sfDelayedAck then .sfNone else sflags

namespace PseudoTcpSocket

/-- One of the queues slist and unsent_slist of a segment. -/
inductive Queued | sent | unsent
  deriving DecidableEq

/-- The head of slist. -/
def slistHead (s : PseudoTcpSocket) : Queued := if s.snd.sent = [] then .unsent else .sent

def headOf (s : PseudoTcpSocket) : Queued → Option SSegment
  | .sent => s.snd.sent.head?
  | .unsent => s.snd.unsent.head?

/-- Data is concatenated with the last segment of slist where that has the same flags and has not been transmitted.
Returns the number of bytes that the buffer has taken. -/
def queue (s : PseudoTcpSocket) (data : List UInt8) (flags : UInt8) : Option (PseudoTcpSocket × Nat) :=
  let availableSpace := s.snd.sbuf.getWriteRemaining
  if availableSpace < data.length ∧ flags ≠ flagNone then none
  else
    let data := data.take availableSpace
    let written := s.snd.sbuf.write data
    let new : SSegment := ⟨s.snd.sndUna + UInt32.ofNat s.snd.sbuf.getBuffered, data.length, 0, flags⟩
    match s.snd.unsent.getLast?, s.snd.sent.getLast? with
    | some last, _ =>
      if last.flags = flags ∧ last.xmit = 0 then
        some ({ s with
          snd.unsent := s.snd.unsent.dropLast ++ [{ last with len := last.len + data.length }]
          snd.sbuf := written.1 }, written.2)
      else some ({ s with snd.unsent := s.snd.unsent ++ [new], snd.sbuf := written.1 }, written.2)
    | none, some last =>
      if last.flags = flags ∧ last.xmit = 0 then
        some ({ s with
          snd.sent := s.snd.sent.dropLast ++ [{ last with len := last.len + data.length }]
          snd.sbuf := written.1 }, written.2)
      else some ({ s with snd.unsent := [new], snd.sbuf := written.1 }, written.2)
    | none, none => some ({ s with snd.unsent := [new], snd.sbuf := written.1 }, written.2)

/-- The options that queue_connect_message announces. -/
def connectMessage (s : PseudoTcpSocket) : List UInt8 :=
  [ctlConnect] ++ (if s.supportWndScale then [tcpOptWndScale, 1, s.rcv.rwndScale] else []) ++
  (if s.supportFinAck then [tcpOptFinAck, 1, 0] else [])

def queueConnectMessage (s : PseudoTcpSocket) : Option PseudoTcpSocket :=
  let buf := s.connectMessage
  (queue { s with snd.sndWnd := UInt32.ofNat buf.length } buf flagCtl).map (·.1)

def queueFinMessage (s : PseudoTcpSocket) : Option PseudoTcpSocket :=
  if s.supportFinAck then (s.queue [] flagFin).map (·.1) else none

def queueRstMessage (s : PseudoTcpSocket) : Option PseudoTcpSocket :=
  if s.supportFinAck then (s.queue [] flagRst).map (·.1) else none

/-- The segment that packet writes. -/
def packetSegment (s : PseudoTcpSocket) (seq : UInt32) (flags : UInt8) (data : List UInt8) (now : UInt32) : Segment :=
  { conv := s.conv
    seq := seq
    ack := s.rcv.rcvNxt
    flags := flags
    wnd := (s.rcv.rcvWnd >>> s.rcv.rwndScale.toUInt32).toUInt16
    data := data
    tsval := now
    tsecr := s.tsRecent }

/-- A packet of payload, or of none. The result of a packet without payload is ignored. -/
def packet (env : PseudoTcpEnv) (s : PseudoTcpSocket) (seq : UInt32) (flags : UInt8) (offset : UInt32) (len : Nat) :
    Option (PseudoTcpSocket × PseudoTcpWriteResult) :=
  let data := if len = 0 then [] else s.snd.sbuf.readOffset len offset.toNat
  if maxPacket < headerSize + len ∨ data.length ≠ len then none
  else
    let buffer := packetBytes (s.packetSegment seq flags data env.now)
    let wres := env.writePacket s.called buffer
    let s := { s with tsLastack := s.rcv.rcvNxt }.call (.writePacket buffer)
    if wres ≠ .success ∧ len ≠ 0 then some (s, wres)
    else some ({ s with
      tAck := 0
      snd.lastsend := if 0 < len then env.now else s.snd.lastsend
      lastTraffic := env.now
      bOutgoing := true }, .success)

/-- The inner loop of transmit: the next levels, up to one whose maximum segment size is below a size. -/
def lowerMss (s : PseudoTcpSocket) (nTransmit : Nat) : Nat → PseudoTcpSocket × Bool
  | 0 => (s, false)
  | levels + 1 =>
    if packetMaximums.getD (s.msslevel + 1) 0 = 0 then (s, false)
    else
      let mss := (packetMaximums.getD (s.msslevel + 1) 0).toUInt32 - packetOverhead
      let s := { s with msslevel := s.msslevel + 1, mss := mss, cwnd := 2 * mss }
      if mss.toNat < nTransmit then (s, true) else s.lowerMss nTransmit levels

/-- The outer loop: a packet that is too large is written again with less. The levels bound the turns of both loops.
Returns the error, or the length written. -/
def writeOut (env : PseudoTcpEnv) (s : PseudoTcpSocket) (segment : SSegment) (nTransmit : Nat) :
    Nat → Option (PseudoTcpSocket × Except UInt32 Nat)
  | 0 => some (s, .error emsgsize)
  | levels + 1 => do
    let (s, wres) ← packet env s segment.seq segment.flags (segment.seq - s.snd.sndUna) nTransmit
    match wres with
    | .success => some (s, .ok nTransmit)
    | .fail => some (s, .error econnaborted)
    | .tooLarge =>
      match s.lowerMss nTransmit packetMaximums.length with
      | (s, false) => some (s, .error emsgsize)
      | (s, true) => writeOut env s segment s.mss.toNat levels

/-- The rest of transmit, for a segment of which a length has been written: what was not written becomes a segment of
its own, and a segment that was not transmitted before leaves unsent_slist. -/
def transmitted (s : PseudoTcpSocket) (q : Queued) (segment : SSegment) (nTransmit : Nat) (now : UInt32) :
    Option PseudoTcpSocket :=
  let subseg : List SSegment :=
    if nTransmit < segment.len then
      [{ segment with seq := segment.seq + UInt32.ofNat nTransmit, len := segment.len - nTransmit }]
    else []
  let done : SSegment := { segment with len := min nTransmit segment.len, xmit := segment.xmit + 1 }
  let s := { s with rtoBase := if s.rtoBase = 0 then now else s.rtoBase }
  match q with
  | .sent =>
    if segment.xmit = 0 then none
    else some { s with snd.sent := done :: (subseg ++ s.snd.sent.tail) }
  | .unsent =>
    if segment.xmit ≠ 0 then none
    else
      let fin : UInt32 := if done.len = 0 ∧ hasFlag done.flags flagFin then 1 else 0
      some { s with
        snd.sent := s.snd.sent ++ [done]
        snd.unsent := subseg ++ s.snd.unsent.tail
        snd.sndNxt := s.snd.sndNxt + UInt32.ofNat done.len + fin }

def retransmitLimit (s : PseudoTcpSocket) : UInt8 := if s.state = .established then 15 else 30

/-- Returns the error, or 0. -/
def transmit (env : PseudoTcpEnv) (s : PseudoTcpSocket) (q : Queued) : Option (PseudoTcpSocket × UInt32) := do
  let segment ← s.headOf q
  let nTransmit := min segment.len s.mss.toNat
  if s.retransmitLimit ≤ segment.xmit then some (s, etimedout)
  else if 1024 * 1024 * 64 < segment.seq - s.snd.sndUna then none
  else
    let (s, written) ← writeOut env s segment nTransmit packetMaximums.length
    match written with
    | .error e => some (s, e)
    | .ok nTransmit =>
      let s ← s.transmitted q segment nTransmit env.now
      some (s, 0)

/-- What of the buffered data the windows and the algorithm against the silly window syndrome let through. -/
def nAvailable (s : PseudoTcpSocket) : Nat :=
  let cwnd := if s.dupAcks = 1 ∨ s.dupAcks = 2 then s.cwnd + s.dupAcks.toUInt32 * s.mss else s.cwnd
  let nWindow := min s.snd.sndWnd cwnd
  let nInFlight := s.snd.sndNxt - s.snd.sndUna
  let nUseable := if nInFlight < nWindow then nWindow - nInFlight else 0
  let sndBuffered := s.snd.sbuf.getBuffered
  let available := if sndBuffered < nInFlight.toNat then 0 else min (sndBuffered - nInFlight.toNat) s.mss.toNat
  if nUseable.toNat < available then
    if nUseable * 4 < nWindow then 0 else nUseable.toNat
  else available

/-- The head of unsent_slist is split where it is too large, unless everything is sent in any case. -/
def splitHead (s : PseudoTcpSocket) (n : Nat) (always : Bool) : PseudoTcpSocket :=
  match s.snd.unsent with
  | [] => s
  | sseg :: rest =>
    if n < sseg.len ∧ !always then
      { s with snd.unsent :=
          { sseg with len := n } ::
          ⟨sseg.seq + UInt32.ofNat n, sseg.len - n, 0, sseg.flags⟩ :: rest }
    else s

/-- The loop of attempt_send. The result is undefined where the turns run out. -/
def attemptSendLoop (env : PseudoTcpEnv) : Nat → PseudoTcpSocket → SendFlags → Option PseudoTcpSocket
  | 0, _, _ => none
  | turns + 1, s, sflags => do
    let nAvailable := s.nAvailable
    if sflags = .sfDuplicateAck then
      let (s, _) ← packet env s s.snd.sndNxt 0 0 0
      attemptSendLoop env turns s .sfNone
    else if nAvailable = 0 ∧ !sflags.always then
      if sflags = .sfNone then some s
      else if sflags = .sfImmediateAck ∨ s.tAck ≠ 0 then
        let (s, _) ← packet env s s.snd.sndNxt 0 0 0
        some s
      else some { s with tAck := env.now }
    else if s.useNagling ∧ !sflags.always ∧ s.snd.sndUna < s.snd.sndNxt ∧ nAvailable < s.mss.toNat then some s
    else
      match s.snd.unsent with
      | [] => some s
      | _ :: _ =>
        let (s, status) ← transmit env (s.splitHead nAvailable sflags.always) .unsent
        if status ≠ 0 then s.closedownWalk status else attemptSendLoop env turns s sflags.acked

/-- More turns than a run of the loop with a positive maximum segment size takes. -/
def sendTurns (s : PseudoTcpSocket) : Nat := (s.snd.unsent.map fun sseg => 2 * sseg.len + 1).sum + 2

/-- A socket that has not sent for long starts again with a small congestion window. -/
def afterIdle (env : PseudoTcpEnv) (s : PseudoTcpSocket) : PseudoTcpSocket :=
  if (s.rxRto.toNat : Int) < timeDiff env.now s.snd.lastsend then { s with cwnd := s.mss } else s

def attemptSend (env : PseudoTcpEnv) (s : PseudoTcpSocket) (sflags : SendFlags) : Option PseudoTcpSocket :=
  attemptSendLoop env s.sendTurns (afterIdle env s) sflags

/-- What closedown sends: a reset if it closes locally, where the socket without FIN-ACK is only marked. -/
def sendReset (env : PseudoTcpEnv) (s : PseudoTcpSocket) (source : ClosedownSource) : Option PseudoTcpSocket :=
  if source = .closedownLocal ∧ s.supportFinAck then do
    let s ← s.queueRstMessage
    attemptSend env s .sfRst
  else if source = .closedownLocal then some { s with shutdown := .sdForceful }
  else some s

def closedown (env : PseudoTcpEnv) (s : PseudoTcpSocket) (err : UInt32) (source : ClosedownSource) :
    Option PseudoTcpSocket := do
  let s ← sendReset env s source
  s.closedownWalk err

end PseudoTcpSocket
end CarrierSdk
