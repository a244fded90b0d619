import CarrierSdk.Library.Machine
import CarrierSdk.PseudoTcp.Processing

/-! Two pseudo-TCP sockets and a network that loses, repeats and reorders their packets: what the one application
hands over is what the other one gets, in order, once, and with nothing lost. -/
namespace CarrierSdk
namespace PseudoTcp
open PseudoTcpSocket Incoming

inductive Side | left | right
  deriving DecidableEq

def Side.other : Side → Side
  | .left => .right
  | .right => .left

@[simp] theorem Side.other_other (i : Side) : i.other.other = i := by cases i <;> rfl

theorem Side.other_ne (i : Side) : i.other ≠ i := by cases i <;> exact Side.noConfusion

theorem Side.eq_other {i j : Side} (h : j ≠ i) : j = i.other := by
  cases i <;> cases j <;> first | rfl | exact absurd rfl h

/-- A packet on its way, with the octets that its writer had accepted and taken before the call that wrote it. -/
structure Parcel where
  bytes : List UInt8
  accepted : Nat
  taken : Nat

/-- A socket with what has passed between it and its application, and with the packets it has written. -/
structure Endpoint where
  socket : PseudoTcpSocket
  /-- the connect message -/
  hello : List UInt8
  /-- what send has accepted -/
  accepted : List UInt8
  /-- what recv has returned -/
  delivered : List UInt8
  /-- the octets that rcv_nxt has passed -/
  taken : Nat
  wire : List Parcel

/-- A call into a socket. The network hands over any packet of the other side, whenever it likes. -/
inductive Call
  | connect
  | send (buffer : List UInt8)
  | recv (len : Nat)
  | shutdown (how : PseudoTcpShutdown)
  | close (force : Bool)
  | notifyClock
  | getNextClock (timeout : UInt64)
  | notifyMtu (mtu : UInt16)
  | notifyPacket (parcel : Nat)

structure Event where
  side : Side
  call : Call
  env : PseudoTcpEnv

/-- What a call makes of a socket, with what is accepted from and delivered to the application. -/
def Call.run (env : PseudoTcpEnv) (s : PseudoTcpSocket) (wire : List Parcel) :
    Call → Option (PseudoTcpSocket × List UInt8 × List UInt8)
  | .connect => (s.connect env).map fun r => (r.1, [], [])
  | .send buffer => (s.send env buffer).map fun r => (r.1, acceptedOf buffer r.2, [])
  | .recv len => (s.recv env len).map fun r => (r.1, [], deliveredOf r.2)
  | .shutdown how => (s.shutdownSocket env how).map (·, [], [])
  | .close force => (s.close env force).map (·, [], [])
  | .notifyClock => (s.notifyClock env).map (·, [], [])
  | .getNextClock timeout => (s.getNextClock env timeout).map fun r => (r.1, [], [])
  | .notifyMtu mtu => some (s.notifyMtu mtu, [], [])
  | .notifyPacket parcel => (wire[parcel]?).bind fun p => (s.notifyPacket env p.bytes).map fun r => (r.1, [], [])

/-- The packets among the calls of a socket. -/
def packetsOf (calls : List PseudoTcpCall) : List (List UInt8) :=
  calls.filterMap fun
    | .writePacket buffer => some buffer
    | _ => none

/-- The endpoint after a call. -/
def Endpoint.after (e : Endpoint) (t : PseudoTcpSocket) (accepted delivered : List UInt8) : Endpoint where
  socket := { t with called := [] }
  hello := if e.socket.state = .listen then t.snd.sbuf.contents else e.hello
  accepted := e.accepted ++ accepted
  delivered := e.delivered ++ delivered
  taken := e.taken + (t.rcv.rcvNxt - e.socket.rcv.rcvNxt).toNat
  wire := e.wire ++ (packetsOf t.called).map (⟨·, e.accepted.length, e.taken⟩)

abbrev System := Side → Endpoint

/-- A call on one side. It puts out the callbacks. -/
def step (σ : System) (ev : Event) : Option (System × List (Side × PseudoTcpCall)) :=
  (ev.call.run ev.env (σ ev.side).socket (σ ev.side.other).wire).map fun r =>
    (Function.update σ ev.side ((σ ev.side).after r.1 r.2.1 r.2.2), r.1.called.map (ev.side, ·))

def connection : Machine System Event (Side × PseudoTcpCall) := ⟨step⟩

/-- The time that a packet may be on its way, in octets of either stream. -/
def lifetime : Nat := 2 ^ 30

def Parcel.segment (p : Parcel) : Segment := parseSegment (p.bytes.take headerSize) (p.bytes.drop headerSize)

/-- What a connection takes for granted of the packet that the network hands over. -/
structure Timely (e peer : Endpoint) (p : Parcel) : Prop where
  /-- It has not been on its way for too long. -/
  accepted : peer.accepted.length < p.accepted + lifetime
  taken : peer.taken < p.taken + lifetime
  /-- Data does not overtake the connect message, nor does it come after a shutdown without FIN-ACK. -/
  greeted : p.segment.data ≠ [] → hasFlag p.segment.flags flagCtl = false →
    peer.hello.length ≤ e.taken ∧ (e.socket.supportFinAck = true ∨ e.socket.shutdown = .sdNone)
  /-- A segment that seems to be the last one before a FIN is. -/
  fin : e.socket.rcv.rcvNxt + UInt32.ofNat p.segment.data.length = e.socket.rcv.rcvFin → e.socket.rcv.rcvNxt ≠ 0 →
    hasFlag p.segment.flags flagFin = true ∨ FinCounts e.socket.rcv p.segment
  /-- A socket does not wait for the acknowledgement of its FIN after it has lost FIN-ACK. -/
  lastAck : e.socket.state = .lastAck → e.socket.supportFinAck = true

instance (r : Incoming) (seg : Segment) : Decidable (FinCounts r seg) := inferInstanceAs (Decidable (_ ∧ _))

theorem timely_iff {e peer : Endpoint} {p : Parcel} : Timely e peer p ↔
    peer.accepted.length < p.accepted + lifetime ∧ peer.taken < p.taken + lifetime ∧
    (p.segment.data ≠ [] → hasFlag p.segment.flags flagCtl = false →
      peer.hello.length ≤ e.taken ∧ (e.socket.supportFinAck = true ∨ e.socket.shutdown = .sdNone)) ∧
    (e.socket.rcv.rcvNxt + UInt32.ofNat p.segment.data.length = e.socket.rcv.rcvFin → e.socket.rcv.rcvNxt ≠ 0 →
      hasFlag p.segment.flags flagFin = true ∨ FinCounts e.socket.rcv p.segment) ∧
    (e.socket.state = .lastAck → e.socket.supportFinAck = true) :=
  ⟨fun ⟨ha, ht, hg, hf, hl⟩ => ⟨ha, ht, hg, hf, hl⟩, fun ⟨ha, ht, hg, hf, hl⟩ => ⟨ha, ht, hg, hf, hl⟩⟩

instance (e peer : Endpoint) (p : Parcel) : Decidable (Timely e peer p) := decidable_of_iff' _ timely_iff

/-- Every packet that the network hands over comes in time. -/
def InTime (σ : System) (ev : Event) : Prop :=
  ∀ k p, ev.call = .notifyPacket k → (σ ev.side.other).wire[k]? = some p → Timely (σ ev.side) (σ ev.side.other) p

def comesInTime (σ : System) (ev : Event) : Bool :=
  match ev.call with
  | .notifyPacket k =>
    (((σ ev.side.other).wire[k]?).map fun p => decide (Timely (σ ev.side) (σ ev.side.other) p)).getD true
  | _ => true

theorem inTime_of_comesInTime (σ : System) (ev : Event) (h : comesInTime σ ev = true) : InTime σ ev := by
  intro k p hcall hp
  rw [comesInTime, hcall] at h
  dsimp only at h
  rw [hp, Option.map_some, Option.getD_some] at h
  exact of_decide_eq_true h

/-- A socket before it is connected, with any sizes of its buffers that need no scaling of the window. -/
structure Fresh (conv : UInt32) (s : PseudoTcpSocket) : Prop where
  called : s.called = []
  state : s.state = .listen
  conv : s.conv = conv
  slist : s.slist = []
  sbuf : s.snd.sbuf.Valid
  sndEmpty : s.snd.sbuf.dataLength = 0
  sndSmall : s.snd.sbuf.bufferLength ≤ maxWindow
  sndUna : s.snd.sndUna = 0
  rbuf : s.rcv.rbuf.Valid
  rcvEmpty : s.rcv.rbuf.dataLength = 0
  rcvSmall : s.rcv.rbuf.bufferLength ≤ maxWindow
  rlist : s.rcv.rlist = []
  rwndScale : s.rcv.rwndScale = 0
  rcvNxt : s.rcv.rcvNxt = 0
  rcvFin : s.rcv.rcvFin = 0

theorem fresh_new (conv : UInt32) : Fresh conv (.new conv) where
  called := rfl
  state := rfl
  conv := rfl
  slist := rfl
  sbuf := PseudoTcpFifo.init_valid (by decide : 0 < defaultSndBufSize)
  sndEmpty := rfl
  sndSmall := (by decide : defaultSndBufSize ≤ maxWindow)
  sndUna := rfl
  rbuf := PseudoTcpFifo.init_valid (by decide : 0 < defaultRcvBufSize)
  rcvEmpty := rfl
  rcvSmall := (by decide : defaultRcvBufSize ≤ maxWindow)
  rlist := rfl
  rwndScale := rfl
  rcvNxt := rfl
  rcvFin := rfl

/-- A new socket whose buffers have other sizes. -/
def sized (conv : UInt32) (rcvBuf sndBuf : Nat) : PseudoTcpSocket :=
  let s := PseudoTcpSocket.new conv
  { s with
    ssthresh := UInt32.ofNat rcvBuf
    rcv.rbufLen := rcvBuf
    rcv.rcvWnd := UInt32.ofNat rcvBuf
    rcv.rbuf := .init rcvBuf
    snd.sbufLen := sndBuf
    snd.sbuf := .init sndBuf }

/-- That is what setting the two properties makes of it. -/
theorem setProperties_new (conv : UInt32) {rcvBuf sndBuf : Nat} (hrcv : 0 < rcvBuf) (hmax : rcvBuf ≤ 0xFFFF)
    (hsnd : 0 < sndBuf) :
    ((PseudoTcpSocket.new conv).setRcvBuf rcvBuf).map (·.setSndBuf sndBuf) = some (sized conv rcvBuf sndBuf) := by
  have hsnd' (s : PseudoTcpSocket) (hlisten : s.state = .listen) (hsbuf : s.snd.sbuf = .init defaultSndBufSize) :
      s.setSndBuf sndBuf = { s with snd.sbufLen := sndBuf, snd.sbuf := .init sndBuf } := by
    rw [setSndBuf, if_pos hlisten, resizeSendBuffer, hsbuf, PseudoTcpFifo.setCapacity_init (Nat.ne_of_gt hsnd)]
  have hscale : scaleOf 32 rcvBuf = (rcvBuf, 0) := by
    rw [scaleOf, if_neg (by omega)]
  have hlisten : (PseudoTcpSocket.new conv).state = .listen := rfl
  rw [setRcvBuf, if_pos hlisten, resizeReceiveBuffer]
  split
  · next hdefault =>
    obtain rfl : defaultRcvBufSize = rcvBuf := hdefault
    rw [Option.map_some, hsnd' (.new conv) rfl rfl]
    rfl
  · have hrbuf : (PseudoTcpSocket.new conv).rcv.rbuf = .init defaultRcvBufSize := rfl
    rw [hscale, hrbuf]
    dsimp only
    rw [Nat.pow_zero, Nat.mul_one, PseudoTcpFifo.setCapacity_init (Nat.ne_of_gt hrcv), if_pos rfl, Option.map_some, hsnd' _ rfl rfl]
    rfl

theorem fresh_sized (conv : UInt32) {rcvBuf sndBuf : Nat} (hrcv : 0 < rcvBuf) (hrcvMax : rcvBuf ≤ maxWindow)
    (hsnd : 0 < sndBuf) (hsndMax : sndBuf ≤ maxWindow) : Fresh conv (sized conv rcvBuf sndBuf) :=
  { fresh_new conv with
    sbuf := PseudoTcpFifo.init_valid hsnd
    sndSmall := hsndMax
    rbuf := PseudoTcpFifo.init_valid hrcv
    rcvSmall := hrcvMax }

/-- A packet on its way that its writer has written. -/
def Genuine (g : Ledger) (conv : UInt32) (p : Parcel) : Prop :=
  ∃ seg, p.bytes = packetBytes seg ∧ seg.conv = conv ∧
    Truthful { g with unaBefore := p.accepted - maxWindow, takenBefore := p.taken } seg

/-- What holds of one side, with the ledgers of both. -/
structure Stands (conv : UInt32) (g p : Ledger) (e : Endpoint) : Prop where
  called : e.socket.called = []
  conversation : e.socket.conv = conv
  queues : Queues g e.socket
  settled : Settled g e.socket
  receives : Receives p e.delivered g.taken e.socket.rcv
  tookFin : TookFin p g e.socket
  stream : g.stream = e.hello ++ e.accepted
  control : g.control = e.hello.length
  hello : e.hello.length ≤ maxWindow
  taken : e.taken = g.taken
  acked : g.una + g.fins ≤ p.taken
  wire : ∀ parcel ∈ e.wire, Genuine g conv parcel

/-- The invariant of a connection. -/
def Holds (conv : UInt32) (σ : System) : Prop := ∃ g : Side → Ledger, ∀ i, Stands conv (g i) (g i.other) (σ i)

def started (left right : PseudoTcpSocket) : System
  | .left => ⟨left, [], [], [], 0, []⟩
  | .right => ⟨right, [], [], [], 0, []⟩

theorem contents_nil {b : PseudoTcpFifo} (h : b.dataLength = 0) : b.contents = [] := by
  rw [PseudoTcpFifo.contents, h, List.take_zero]

theorem Fresh.stands {conv : UInt32} {s : PseudoTcpSocket} (h : Fresh conv s) :
    Stands conv ⟨[], 0, 0, 0, false, 0, 0, 0⟩ ⟨[], 0, 0, 0, false, 0, 0, 0⟩ ⟨s, [], [], [], 0, []⟩ where
  called := h.called
  conversation := h.conv
  queues :=
    { valid := h.sbuf
      small := h.sndSmall
      una := Nat.le_refl _
      control := Nat.le_refl _
      contents := contents_nil h.sndEmpty
      sndUna := h.sndUna
      fins := fun hpos => absurd hpos (Nat.lt_irrefl 0)
      tiles := by rw [h.slist]; rfl
      taken := h.rcvNxt
      unaBefore := Nat.le_refl _
      takenBefore := Nat.le_refl _
      called := fun bytes hmem => absurd hmem (by rw [h.called]; exact List.not_mem_nil) }
  settled := by
    refine ⟨⟨fun _ => ⟨rfl, h.slist⟩, fun hf => Bool.noConfusion hf, ?_, ?_⟩, fun _ _ => rfl⟩
    · intro hsent
      rw [h.state] at hsent
      cases hsent
    · rintro (hf | hf)
      all_goals
        rw [h.state] at hf
        cases hf
  receives :=
    { valid := h.rbuf
      small := h.rcvSmall
      scale := h.rwndScale
      nxt := h.rcvNxt
      octets := contents_nil h.rcvEmpty
      bound := Nat.le_refl _
      waiting := by rw [h.rlist]; trivial
      quiet := fun _ => h.rlist
      fin := .inl h.rcvFin }
  tookFin := fun hf => by rw [h.state] at hf; cases hf
  stream := rfl
  control := rfl
  hello := Nat.zero_le _
  taken := rfl
  acked := Nat.le_refl _
  wire := fun parcel hmem => absurd hmem List.not_mem_nil

/-- What is queued in a call: more of the stream, or its beginning, the connect message. -/
def Opens (g g' : Ledger) (s : PseudoTcpSocket) (accepted : List UInt8) : Prop :=
  g'.stream = g.stream ++ accepted ∧ g'.control = g.control ∧ (s.state = .listen → accepted = []) ∨
  s.state = .listen ∧ accepted = [] ∧ g'.control = g'.stream.length

/-- What a call leaves of its side. -/
structure Acted (p g g' : Ledger) (e : Endpoint) (t : PseudoTcpSocket) (accepted delivered : List UInt8) : Prop where
  queues : Queues g' t
  settled : Settled g' t
  receives : Receives p (e.delivered ++ delivered) g'.taken t.rcv
  tookFin : TookFin p g' t
  extends_ : g.Extends g'
  taken : g.taken ≤ g'.taken
  una : g.una ≤ g'.una
  acked : g'.una + g'.fins ≤ p.taken
  before : g'.unaBefore = g.una ∧ g'.takenBefore = g.taken
  opens : Opens g g' e.socket accepted
  conv : t.conv = e.socket.conv

variable {conv : UInt32} {g g' p : Ledger} {e peer : Endpoint} {t : PseudoTcpSocket} {accepted delivered : List UInt8}

/-- The connect message is what has been queued since the socket listened. -/
theorem Acted.stream (h : Acted p g g' e t accepted delivered) (hs : Stands conv g p e) (hpeer : Stands conv p g peer) :
    g'.stream = (e.after t accepted delivered).hello ++ (e.accepted ++ accepted) ∧
      g'.control = (e.after t accepted delivered).hello.length := by
  have hcontrol := h.queues.control
  rw [Endpoint.after]
  dsimp only
  by_cases hlisten : e.socket.state = .listen
  · rw [if_pos hlisten]
    obtain ⟨hnil, -⟩ := hs.settled.listen hlisten
    obtain ⟨-, haccepted⟩ := List.append_eq_nil_iff.mp (hs.stream.symm.trans hnil)
    obtain ⟨hopen, -⟩ := hs.settled.unfinished hs.queues (by rw [hlisten]; rfl)
    have hbound := hpeer.receives.bound
    rw [hnil, hopen, List.length_nil] at hbound
    have hacked := h.acked
    have huna : g'.una = 0 := by
      simp only [Bool.false_eq_true, if_false] at hbound
      omega
    have hall : t.snd.sbuf.contents = g'.stream := by
      rw [h.queues.contents, huna, List.drop_zero]
    rw [hall, haccepted]
    obtain ⟨hstream, hsame, hnone⟩ | ⟨-, hnone, hsame⟩ := h.opens
    · rw [hnil, hnone hlisten] at hstream
      rw [hstream] at hcontrol ⊢
      rw [hnone hlisten]
      exact ⟨rfl, Nat.le_zero.mp hcontrol⟩
    · rw [hnone, List.append_nil, List.append_nil]
      exact ⟨rfl, hsame⟩
  · rw [if_neg hlisten]
    obtain ⟨hstream, hsame, -⟩ | ⟨hl, -⟩ := h.opens
    · rw [hstream, hsame, hs.stream, List.append_assoc]
      exact ⟨rfl, hs.control⟩
    · exact absurd hl hlisten

theorem Stands.window (h : Stands conv g p e) : g.stream.length ≤ g.una + maxWindow := by
  have hlen := h.queues.dataLength
  have hroom := h.queues.valid.room
  have hsmall := h.queues.small
  omega

theorem length_contents_le {b : PseudoTcpFifo} (h : b.Valid) (hsmall : b.bufferLength ≤ maxWindow) :
    b.contents.length ≤ maxWindow := by
  rw [h.length_contents]
  exact h.room.trans hsmall

theorem mem_packetsOf {bytes : List UInt8} {calls : List PseudoTcpCall} (h : bytes ∈ packetsOf calls) :
    .writePacket bytes ∈ calls := by
  obtain ⟨call, hmem, hcall⟩ := List.mem_filterMap.mp h
  cases call with
  | writePacket buffer =>
    obtain rfl := Option.some.inj hcall
    exact hmem
  | opened => cases hcall
  | readable => cases hcall
  | writable => cases hcall
  | closed error => cases hcall

/-- What was true of a packet on its way stays true. -/
theorem Genuine.mono {parcel : Parcel} (h : Genuine g conv parcel) (hext : g.Extends g') (htaken : g.taken ≤ g'.taken) :
    Genuine g' conv parcel := by
  obtain ⟨seg, hbytes, hconv, htrue⟩ := h
  exact ⟨seg, hbytes, hconv, htrue.mono ⟨⟨hext.stream, hext.control, hext.finished⟩, htaken, Nat.le_refl _, Nat.le_refl _⟩⟩

/-- The side that acts stands as before. -/
theorem Acted.stands (h : Acted p g g' e t accepted delivered) (hs : Stands conv g p e) (hpeer : Stands conv p g peer) :
    Stands conv g' p (e.after t accepted delivered) where
  called := rfl
  conversation := h.conv.trans hs.conversation
  queues := { h.queues with called := fun bytes hmem => absurd hmem List.not_mem_nil }
  settled := h.settled.congr rfl (fun _ => id) rfl
  receives := h.receives
  tookFin := h.tookFin
  stream := (h.stream hs hpeer).1
  control := (h.stream hs hpeer).2
  hello := by
    rw [Endpoint.after]
    dsimp only
    split_ifs
    · exact length_contents_le h.queues.valid h.queues.small
    · exact hs.hello
  taken := by
    have hbound := h.receives.bound
    have hwindow := hpeer.window
    have hacked := hpeer.acked
    have htaken := h.taken
    rw [maxWindow] at hwindow
    have hone : g'.taken ≤ p.stream.length + 1 := by
      split_ifs at hbound <;> omega
    have hdiff : (t.rcv.rcvNxt - e.socket.rcv.rcvNxt).toNat = g'.taken - g.taken := by
      rw [h.queues.taken, hs.queues.taken]
      exact UInt32.toNat_ofNat_sub_of_le htaken (by omega)
    rw [Endpoint.after]
    dsimp only
    rw [hdiff, hs.taken]
    omega
  acked := h.acked
  wire := by
    intro parcel hmem
    rcases List.mem_append.mp hmem with hold | hnew
    · exact (hs.wire parcel hold).mono h.extends_ h.taken
    · obtain ⟨bytes, hbytes, rfl⟩ := List.mem_map.mp hnew
      obtain ⟨seg, hseg, hconv, htrue⟩ := h.queues.called bytes (mem_packetsOf hbytes)
      have hext : g'.Extends { g' with unaBefore := e.accepted.length - maxWindow, takenBefore := e.taken } :=
        ⟨List.prefix_rfl, fun _ => rfl, fun hf => ⟨hf, rfl⟩⟩
      refine ⟨seg, hseg, hconv.trans (h.conv.trans hs.conversation), htrue.mono ⟨hext, Nat.le_refl _, ?_, ?_⟩⟩
      · have hwindow := hs.window
        rw [hs.stream, List.length_append] at hwindow
        rw [h.before.1]
        dsimp only
        omega
      · rw [h.before.2]
        exact hs.taken.le

/-- The other side still stands. -/
theorem Acted.other (h : Acted p g g' e t accepted delivered) (hs : Stands conv g p e) (hpeer : Stands conv p g peer) :
    Stands conv p g' peer :=
  { hpeer with
    receives := hpeer.receives.grow h.extends_ hs.queues.control h.queues.control
    tookFin := by
      intro htook
      have hall := hpeer.tookFin htook
      have hbound := hpeer.receives.bound
      have hfinished : g.finished = true := by
        by_contra hopen
        rw [if_neg hopen] at hbound
        omega
      rw [(h.extends_.finished hfinished).2]
      exact hall
    acked := hpeer.acked.trans h.taken }

/-! The calls. -/

/-- The ledger at the beginning of a call. -/
def ready (g : Ledger) : Ledger := { g with unaBefore := g.una, takenBefore := g.taken }

theorem Stands.ready (h : Stands conv g p e) : Queues (ready g) e.socket ∧ Settled (PseudoTcp.ready g) e.socket := by
  have hext : g.Extends (PseudoTcp.ready g) := ⟨List.prefix_rfl, fun _ => rfl, fun hf => ⟨hf, rfl⟩⟩
  have hs := h.settled
  refine ⟨{ h.queues with
    tiles := h.queues.tiles.mono fun _ _ _ hp _ _ => hp.mono hext rfl
    unaBefore := Nat.le_refl _
    takenBefore := Nat.le_refl _
    called := fun bytes hmem => absurd hmem (by rw [h.called]; exact List.not_mem_nil) }, ?_⟩
  exact ⟨⟨hs.listen, hs.finished, hs.sentFin, hs.finAcked⟩, hs.lastAck⟩

/-- A call that receives nothing. -/
theorem Stands.quietly (hs : Stands conv g p e) (h : Called g' e.socket t) (hgrows : (PseudoTcp.ready g).Grows g')
    (hopens : Opens g g' e.socket accepted) : Acted p g g' e t accepted [] where
  queues := h.queues
  settled := h.settled
  receives := by
    rw [List.append_nil, h.rcv, hgrows.taken]
    exact hs.receives
  tookFin htook := by
    rw [hgrows.taken]
    exact hs.tookFin (h.took htook)
  extends_ := ⟨hgrows.stream, hgrows.control, hgrows.finished⟩
  taken := hgrows.taken.ge
  una := hgrows.una.ge
  acked := by
    rw [hgrows.una, hgrows.fins]
    exact hs.acked
  before := ⟨hgrows.unaBefore, hgrows.takenBefore⟩
  opens := hopens
  conv := h.conv

theorem Opens.of_starts {s : PseudoTcpSocket} (h : Starts (ready g) g' s) : Opens g g' s [] := by
  rcases h with rfl | ⟨hlisten, message, rfl⟩
  · exact .inl ⟨(List.append_nil _).symm, rfl, fun _ => rfl⟩
  · exact .inr ⟨hlisten, rfl, rfl⟩

theorem Opens.of_finishes {s : PseudoTcpSocket} (h : Finishes (ready g) g') : Opens g g' s [] := by
  rcases h with rfl | rfl
  · exact .inl ⟨(List.append_nil _).symm, rfl, fun _ => rfl⟩
  · exact .inl ⟨(List.append_nil _).symm, rfl, fun _ => rfl⟩

theorem opens_same {s : PseudoTcpSocket} : Opens g (ready g) s [] :=
  .inl ⟨(List.append_nil _).symm, rfl, fun _ => rfl⟩

/-- A socket that listens accepts nothing. -/
theorem acceptedOf_listen {env : PseudoTcpEnv} {s : PseudoTcpSocket} {buffer : List UInt8} {r : Except UInt32 Nat}
    (h : s.send env buffer = some (t, r)) (hlisten : s.state = .listen) : acceptedOf buffer r = [] := by
  rw [send, if_pos (by rw [hlisten]; exact PseudoTcpState.noConfusion)] at h
  obtain ⟨-, rfl⟩ := Prod.mk.inj (Option.some.inj h)
  rfl

/-- A packet that arrives in time is one that its receiver can place. -/
theorem Stands.arrives (hs : Stands conv g p e) (hpeer : Stands conv p g peer) {parcel : Parcel}
    (hmem : parcel ∈ peer.wire) (htime : Timely e peer parcel) :
    ∃ seg a, parcel.bytes = packetBytes seg ∧ headerSize + seg.data.length ≤ maxPacket ∧ a ≤ p.taken ∧
      Arrives p (PseudoTcp.ready g) e.socket seg a := by
  obtain ⟨seg, hbytes, -, htrue⟩ := hpeer.wire parcel hmem
  have hseg : parcel.segment = seg := by
    rw [Parcel.segment, hbytes, parseSegment_packetBytes]
  obtain ⟨haccepted, htaken, hgreeted, hfin, hlast⟩ := htime
  rw [hseg] at hgreeted hfin
  obtain ⟨a, hafter, ha, hack⟩ := htrue.ack
  have hshort := htrue.short
  refine ⟨seg, a, hbytes, hshort, ha, ?_⟩
  have hwindow := hs.window
  have hwindow' := hpeer.window
  have hbound := hs.receives.bound
  have hbound' := hpeer.receives.bound
  have hacked := hs.acked
  have hacked' := hpeer.acked
  have hstream := congrArg List.length hpeer.stream
  have hhello := hpeer.hello
  have hsame := hpeer.taken
  rw [List.length_append] at hstream
  rw [maxWindow] at hwindow hwindow' hhello
  rw [lifetime] at haccepted htaken
  have hone : g.taken ≤ p.stream.length + 1 := by
    split_ifs at hbound <;> omega
  have hone' : p.taken ≤ g.stream.length + 1 := by
    split_ifs at hbound' <;> omega
  have hmax : maxPacket = 65532 := rfl
  dsimp only at hafter ha
  refine ⟨hack, ha.trans hbound', ?_, ?_, ?_, htrue.fin, ?_, hfin, hlast, by omega⟩
  · dsimp only [PseudoTcp.ready]
    omega
  · dsimp only [PseudoTcp.ready]
    omega
  · intro hne
    obtain ⟨pos, hfrom, hseq, hend, hdata, hkind⟩ := htrue.data hne
    dsimp only [maxWindow] at hfrom hend hdata hkind
    refine ⟨pos, ⟨hseq, hend, hdata⟩, ?_, ?_, ?_⟩
    · dsimp only [PseudoTcp.ready]
      omega
    · dsimp only [PseudoTcp.ready]
      omega
    · rcases hkind with ⟨hflags, hcontrol⟩ | ⟨hflags, hcontrol⟩
      · have hplain : hasFlag seg.flags flagCtl = false := by rw [hflags]; rfl
        obtain ⟨hbegun, hheard⟩ := hgreeted hne hplain
        refine .inl ⟨hplain, ?_, hheard⟩
        rw [hpeer.control]
        exact hbegun.trans hs.taken.le
      · exact .inr ⟨by rw [hflags]; rfl, hcontrol⟩
  · dsimp only [PseudoTcp.ready]
    omega

/-- Every call moves the ledger of its side. -/
theorem Stands.act (hs : Stands conv g p e) (hpeer : Stands conv p g peer) {env : PseudoTcpEnv} {call : Call}
    (htime : ∀ k parcel, call = .notifyPacket k → peer.wire[k]? = some parcel → Timely e peer parcel)
    (hstep : call.run env e.socket peer.wire = some (t, accepted, delivered)) :
    ∃ g', Acted p g g' e t accepted delivered := by
  obtain ⟨hq, hset⟩ := hs.ready
  cases call with
  | connect =>
    obtain ⟨⟨u, r⟩, hcall, hlast⟩ := Option.map_eq_some_iff.mp hstep
    obtain ⟨rfl, rfl, rfl⟩ := by simpa only [Prod.mk.injEq] using hlast
    obtain ⟨g', hstarts, hgrows, hcalled⟩ := hq.onConnect hset hcall
    exact ⟨g', hs.quietly hcalled hgrows (.of_starts hstarts)⟩
  | send buffer =>
    obtain ⟨⟨u, r⟩, hcall, hlast⟩ := Option.map_eq_some_iff.mp hstep
    obtain ⟨rfl, rfl, rfl⟩ := by simpa only [Prod.mk.injEq] using hlast
    obtain ⟨hgrows, hcalled⟩ := hq.onSend hset hcall
    exact ⟨_, hs.quietly hcalled hgrows (.inl ⟨rfl, rfl, acceptedOf_listen hcall⟩)⟩
  | recv len =>
    obtain ⟨⟨u, r⟩, hcall, hlast⟩ := Option.map_eq_some_iff.mp hstep
    obtain ⟨rfl, rfl, rfl⟩ := by simpa only [Prod.mk.injEq] using hlast
    obtain ⟨hu, hset', hconv, htook, hreads⟩ := hq.onRecv hset hcall
    exact ⟨_, hu, hset', hs.receives.reads hreads, fun hf => hs.tookFin (htook hf),
      ⟨List.prefix_rfl, fun _ => rfl, fun hf => ⟨hf, rfl⟩⟩, Nat.le_refl _, Nat.le_refl _, hs.acked, ⟨rfl, rfl⟩, opens_same, hconv⟩
  | shutdown how =>
    obtain ⟨u, hcall, hlast⟩ := Option.map_eq_some_iff.mp hstep
    obtain ⟨rfl, rfl, rfl⟩ := by simpa only [Prod.mk.injEq] using hlast
    obtain ⟨g', hfinishes, hcalled⟩ := hq.onShutdown hset hcall
    exact ⟨g', hs.quietly hcalled hfinishes.grows (.of_finishes hfinishes)⟩
  | close force =>
    obtain ⟨u, hcall, hlast⟩ := Option.map_eq_some_iff.mp hstep
    obtain ⟨rfl, rfl, rfl⟩ := by simpa only [Prod.mk.injEq] using hlast
    obtain ⟨g', hfinishes, hcalled⟩ := hq.onClose hset hcall
    exact ⟨g', hs.quietly hcalled hfinishes.grows (.of_finishes hfinishes)⟩
  | notifyClock =>
    obtain ⟨u, hcall, hlast⟩ := Option.map_eq_some_iff.mp hstep
    obtain ⟨rfl, rfl, rfl⟩ := by simpa only [Prod.mk.injEq] using hlast
    exact ⟨_, hs.quietly (hq.onClock hset hcall) (.refl _) opens_same⟩
  | getNextClock timeout =>
    obtain ⟨⟨u, r⟩, hcall, hlast⟩ := Option.map_eq_some_iff.mp hstep
    obtain ⟨rfl, rfl, rfl⟩ := by simpa only [Prod.mk.injEq] using hlast
    exact ⟨_, hs.quietly (hq.onNextClock hset hcall) (.refl _) opens_same⟩
  | notifyMtu mtu =>
    obtain ⟨rfl, rfl, rfl⟩ := by simpa only [Prod.mk.injEq] using Option.some.inj hstep
    have htuned := e.socket.notifyMtu_tuned mtu
    exact ⟨_, hs.quietly ((hq.tuned htuned).called_stays hset htuned.stays) (.refl _) opens_same⟩
  | notifyPacket k =>
    obtain ⟨parcel, hparcel, hstep⟩ := Option.bind_eq_some_iff.mp hstep
    obtain ⟨⟨u, r⟩, hcall, hlast⟩ := Option.map_eq_some_iff.mp hstep
    obtain ⟨rfl, rfl, rfl⟩ := by simpa only [Prod.mk.injEq] using hlast
    obtain ⟨seg, a, hbytes, hshort, ha, harr⟩ :=
      hs.arrives hpeer (List.mem_of_getElem? hparcel) (htime k parcel rfl hparcel)
    rw [hbytes, notifyPacket_packetBytes hshort] at hcall
    obtain ⟨g', hprocessed⟩ := hq.onSegment hset hs.receives hs.tookFin harr hcall
    have hle := hprocessed.le
    refine ⟨g', hprocessed.queues, hprocessed.settled, ?_, hprocessed.tookFin, ⟨hle.stream, hle.control, hle.finished⟩,
      hle.taken, hprocessed.forward, ?_, hprocessed.before, ?_, hprocessed.conv⟩
    · rw [List.append_nil]
      exact hprocessed.receives
    · rcases hprocessed.acked with hsum | ⟨huna, hfins⟩
      · rwa [hsum]
      · rw [huna, hfins]
        exact hs.acked
    · rcases hprocessed.starts with ⟨hstream, hcontrol⟩ | ⟨hlisten, hcontrol⟩
      · exact .inl ⟨hstream.trans (List.append_nil _).symm, hcontrol, fun _ => rfl⟩
      · exact .inr ⟨hlisten, rfl, hcontrol⟩

/-- A step keeps the invariant. -/
theorem Holds.step {σ τ : System} {ev : Event} {o : List (Side × PseudoTcpCall)} (h : Holds conv σ) (htime : InTime σ ev)
    (hstep : connection.step σ ev = some (τ, o)) : Holds conv τ := by
  obtain ⟨g, hg⟩ := h
  obtain ⟨⟨t, accepted, delivered⟩, hrun, hlast⟩ := Option.map_eq_some_iff.mp hstep
  obtain ⟨rfl, rfl⟩ := Prod.mk.inj hlast
  have hs := hg ev.side
  have hpeer := hg ev.side.other
  rw [Side.other_other] at hpeer
  obtain ⟨g', hacted⟩ := hs.act hpeer htime hrun
  refine ⟨Function.update g ev.side g', fun i => ?_⟩
  by_cases hi : i = ev.side
  · subst hi
    rw [Function.update_self, Function.update_self, Function.update_of_ne (Side.other_ne _)]
    exact hacted.stands hs hpeer
  · obtain rfl := Side.eq_other hi
    rw [Side.other_other, Function.update_self, Function.update_of_ne hi, Function.update_of_ne hi]
    exact hacted.other hs hpeer

/-- The invariant of every run in which packets come in time. -/
theorem holds_of_run {left right : PseudoTcpSocket} (hleft : Fresh conv left) (hright : Fresh conv right) {τ : System}
    {evs : List Event} {os : List (Side × PseudoTcpCall)} (h : connection.Run InTime (started left right) evs os τ) :
    Holds conv τ := by
  refine h.invariant (fun hs htime hstep => hs.step htime hstep) ⟨fun _ => ⟨[], 0, 0, 0, false, 0, 0, 0⟩, fun i => ?_⟩
  cases i with
  | left => exact hleft.stands
  | right => exact hright.stands

/-! What a connection does. -/

theorem drop_eq_append {α : Type*} (l : List α) (taken control : Nat) :
    l.drop control = (l.take taken).drop control ++ l.drop (max taken control) := by
  rcases Nat.le_total taken control with hle | hle
  · rw [List.drop_of_length_le ((List.length_take_le ..).trans hle), Nat.max_eq_right hle, List.nil_append]
  · rw [Nat.max_eq_left hle, List.drop_take]
    have hsplit : taken = control + (taken - control) := by omega
    rw [hsplit, ← List.drop_drop, Nat.add_sub_cancel_left, List.take_append_drop]

/-- What the one application has handed over: what the other one has got, what waits for it in the receive buffer, and
the rest, which is still in the send buffer. -/
theorem Stands.split (hs : Stands conv g p e) (hpeer : Stands conv p g peer) :
    ∃ rest, rest <:+ e.socket.snd.sbuf.contents ∧
      e.accepted = peer.delivered ++ peer.socket.rcv.rbuf.contents ++ rest ∧
      (p.taken = g.stream.length + 1 → rest = []) := by
  refine ⟨g.stream.drop (max p.taken g.control), ?_, ?_, ?_⟩
  · have hacked := hs.acked
    have hsplit : max p.taken g.control = g.una + (max p.taken g.control - g.una) := by omega
    rw [hs.queues.contents, hsplit, ← List.drop_drop]
    exact List.drop_suffix _ _
  · rw [hpeer.receives.octets, ← drop_eq_append, hs.stream, hs.control, List.drop_left]
  · intro hall
    rw [hall]
    exact List.drop_of_length_le (by omega)

section
variable {left right : PseudoTcpSocket} {σ : System} {evs : List Event} {os : List (Side × PseudoTcpCall)}

/-- Whatever the network loses, repeats or reorders, each application gets what the other one has handed over, in order
and once, and what it has not got yet is in a buffer: nothing is lost. -/
theorem delivered_of_run (hleft : Fresh conv left) (hright : Fresh conv right)
    (h : connection.Run InTime (started left right) evs os σ) (i : Side) :
    ∃ rest, rest <:+ (σ i).socket.snd.sbuf.contents ∧
      (σ i).accepted = (σ i.other).delivered ++ (σ i.other).socket.rcv.rbuf.contents ++ rest := by
  obtain ⟨g, hg⟩ := holds_of_run hleft hright h
  have hpeer := hg i.other
  rw [Side.other_other] at hpeer
  obtain ⟨rest, hsuffix, haccepted, -⟩ := (hg i).split hpeer
  exact ⟨rest, hsuffix, haccepted⟩

/-- A time at which every packet is written. -/
def at_ (now : UInt32) : PseudoTcpEnv := ⟨now, fun _ _ => .success⟩

/-- A connection is opened, two pieces of data and a FIN are sent, and they arrive backwards and more than once. -/
def backwards : List Event :=
  [⟨.left, .connect, at_ 1⟩, ⟨.right, .notifyPacket 0, at_ 2⟩, ⟨.left, .notifyPacket 0, at_ 3⟩,
    ⟨.left, .send [10, 20, 30], at_ 4⟩, ⟨.left, .send [40, 50], at_ 5⟩, ⟨.left, .shutdown .wr, at_ 6⟩,
    ⟨.right, .notifyPacket 2, at_ 7⟩, ⟨.right, .notifyPacket 3, at_ 8⟩, ⟨.right, .notifyPacket 1, at_ 9⟩,
    ⟨.right, .recv 2, at_ 10⟩, ⟨.right, .notifyPacket 1, at_ 11⟩, ⟨.right, .notifyPacket 0, at_ 12⟩]

/-- And the FIN once more. -/
def finished : List Event := backwards ++ [⟨.right, .notifyPacket 3, at_ 13⟩]

theorem fresh_small : Fresh 1 (sized 1 32 32) := fresh_sized 1 (by decide) (by decide) (by decide) (by decide)

/-- A run of events that come in time, and a test on its end. -/
theorem run_of_events (evs : List Event) (P : System → Bool)
    (hguard : connection.guarded comesInTime (started (sized 1 32 32) (sized 1 32 32)) evs = true)
    (hend : (connection.exec (started (sized 1 32 32) (sized 1 32 32)) evs).any (fun r => P r.1) = true) :
    ∃ σ os, connection.Run InTime (started (sized 1 32 32) (sized 1 32 32)) evs os σ ∧ P σ = true := by
  obtain ⟨σ, os, hexec, hP⟩ := connection.exec_any (started (sized 1 32 32) (sized 1 32 32)) evs (fun r => P r.1) hend
  exact ⟨σ, os, Machine.run_of_exec inTime_of_comesInTime hexec hguard, hP⟩

theorem delivered_of_run_backwards : ∃ σ os,
    connection.Run InTime (started (sized 1 32 32) (sized 1 32 32)) backwards os σ ∧
    (σ .left).accepted = [10, 20, 30, 40, 50] ∧ (σ .right).delivered = [10, 20] ∧
    ∃ rest, rest <:+ (σ .left).socket.snd.sbuf.contents ∧
      (σ .left).accepted = (σ .right).delivered ++ (σ .right).socket.rcv.rbuf.contents ++ rest := by
  obtain ⟨σ, os, hrun, hend⟩ := run_of_events backwards
    (fun σ => decide ((σ .left).accepted = [10, 20, 30, 40, 50] ∧ (σ .right).delivered = [10, 20]))
    (by decide +kernel) (by decide +kernel)
  obtain ⟨haccepted, hdelivered⟩ := of_decide_eq_true hend
  exact ⟨σ, os, hrun, haccepted, hdelivered, delivered_of_run fresh_small fresh_small hrun .left⟩

/-- A socket that has moved to a state behind the FIN of its peer has got everything that the peer accepted, and a
socket that has moved to a state behind the acknowledgement of its own FIN knows so of its peer. -/
theorem complete_of_run (hleft : Fresh conv left) (hright : Fresh conv right)
    (h : connection.Run InTime (started left right) evs os σ) (i : Side)
    (hstate : (σ i.other).socket.state.tookFin = true ∨ (σ i).socket.state = .finWait2 ∨ (σ i).socket.state = .timeWait) :
    (σ i).accepted = (σ i.other).delivered ++ (σ i.other).socket.rcv.rbuf.contents := by
  obtain ⟨g, hg⟩ := holds_of_run hleft hright h
  have hs := hg i
  have hpeer := hg i.other
  rw [Side.other_other] at hpeer
  obtain ⟨rest, -, haccepted, hall⟩ := hs.split hpeer
  have htaken : (g i.other).taken = (g i).stream.length + 1 := by
    rcases hstate with htook | hfin
    · exact hpeer.tookFin htook
    · have hfins := hs.settled.finAcked hfin
      obtain ⟨huna, hfinished⟩ := hs.queues.fins hfins
      have hacked := hs.acked
      have hbound := hpeer.receives.bound
      rw [if_pos hfinished] at hbound
      omega
  rw [haccepted, hall htaken, List.append_nil]

theorem complete_of_run_finished : ∃ σ os,
    connection.Run InTime (started (sized 1 32 32) (sized 1 32 32)) finished os σ ∧
    (σ .right).socket.state = .closeWait ∧
    (σ .left).accepted = (σ .right).delivered ++ (σ .right).socket.rcv.rbuf.contents := by
  obtain ⟨σ, os, hrun, hend⟩ := run_of_events finished (fun σ => decide ((σ .right).socket.state = .closeWait))
    (by decide +kernel) (by decide +kernel)
  have hstate := of_decide_eq_true hend
  exact ⟨σ, os, hrun, hstate, complete_of_run fresh_small fresh_small hrun .left (.inl (by
    show (σ .right).socket.state.tookFin = true
    rw [hstate]
    rfl))⟩

/-- Every packet ever written is true for good: its data are the octets of its sequence number, however often they are
sent, it acknowledges only what its writer has received, and a FIN stands behind everything. -/
theorem wire_of_run (hleft : Fresh conv left) (hright : Fresh conv right)
    (h : connection.Run InTime (started left right) evs os σ) (i : Side) (p : Parcel) (hp : p ∈ (σ i).wire) :
    p.bytes = packetBytes p.segment ∧ p.bytes.length ≤ maxPacket ∧ p.segment.conv = conv ∧
    (∃ a ≤ (σ i).taken, p.segment.ack = UInt32.ofNat a) ∧
    (p.segment.data ≠ [] → ∃ pos, p.segment.seq = UInt32.ofNat pos ∧
      p.segment.data = (((σ i).hello ++ (σ i).accepted).drop pos).take p.segment.data.length ∧
      pos + p.segment.data.length ≤ ((σ i).hello ++ (σ i).accepted).length) ∧
    (hasFlag p.segment.flags flagFin = true → p.segment.data = [] ∧
      p.segment.seq = UInt32.ofNat ((σ i).hello ++ (σ i).accepted).length) := by
  obtain ⟨g, hg⟩ := holds_of_run hleft hright h
  have hs := hg i
  obtain ⟨seg, hbytes, hconv, htrue⟩ := hs.wire p hp
  have hseg : p.segment = seg := by
    rw [Parcel.segment, hbytes, parseSegment_packetBytes]
  have hstream : (g i).stream = (σ i).hello ++ (σ i).accepted := hs.stream
  rw [hseg, ← hstream, hs.taken]
  refine ⟨hbytes, ?_, hconv, ?_, ?_, ?_⟩
  · rw [hbytes, packetBytes, List.length_append, length_packetHeader]
    exact htrue.short
  · obtain ⟨a, -, ha, hack⟩ := htrue.ack
    exact ⟨a, ha, hack⟩
  · intro hne
    obtain ⟨pos, -, hseq, hend, hdata, -⟩ := htrue.data hne
    exact ⟨pos, hseq, hdata, hend⟩
  · intro hfin
    obtain ⟨hnil, -, hseq⟩ := htrue.fin hfin
    exact ⟨hnil, hseq⟩

end

end PseudoTcp
end CarrierSdk
