import CarrierSdk.Library.Tiling
import CarrierSdk.PseudoTcp.Wire

/-! The send queue as a window on the octets that were ever queued: the send buffer holds those behind what has been
acknowledged, the segments of slist tile them, and a packet carries the octets at its sequence number. -/
namespace CarrierSdk
open Tiling

/-- What the numbers of a socket stand for, as positions that do not wrap. -/
structure Ledger where
  /-- the octets ever queued, the connect message first -/
  stream : List UInt8
  /-- the length of the connect message -/
  control : Nat
  /-- the octets of the stream that are acknowledged -/
  una : Nat
  /-- the octets acknowledged behind it, for a FIN -/
  fins : Nat
  /-- a FIN has been queued -/
  finished : Bool
  /-- the octets received of the peer, with its FIN -/
  taken : Nat
  /-- una and taken at the beginning of the call into the socket -/
  unaBefore : Nat
  takenBefore : Nat

/-- A segment of slist at its position. -/
inductive LiesAt (g : Ledger) (pos : Nat) (seg : SSegment) : Prop
  | data : seg.flags = flagNone → seg.seq = UInt32.ofNat pos → g.control ≤ pos → LiesAt g pos seg
  | ctl : seg.flags = flagCtl → seg.seq = UInt32.ofNat pos → pos + seg.len ≤ g.control → LiesAt g pos seg
  | fin : seg.flags = flagFin → seg.len = 0 → g.finished = true → seg.seq = UInt32.ofNat g.stream.length → LiesAt g pos seg
  | rst : seg.flags = flagRst → seg.len = 0 → LiesAt g pos seg

section
variable {g : Ledger} {pos n : Nat} {seg : SSegment}

/-- The front of a segment. -/
theorem LiesAt.take (h : LiesAt g pos seg) (hn : n ≤ seg.len) (xmit : UInt8) :
    LiesAt g pos ⟨seg.seq, n, xmit, seg.flags⟩ := by
  cases h with
  | data hflags hseq hcontrol => exact .data hflags hseq hcontrol
  | ctl hflags hseq hcontrol => exact .ctl hflags hseq (by dsimp only; omega)
  | fin hflags hzero hfinished hseq => exact .fin hflags (by dsimp only; omega) hfinished hseq
  | rst hflags hzero => exact .rst hflags (by dsimp only; omega)

/-- The rest of a segment. -/
theorem LiesAt.drop (h : LiesAt g pos seg) (hn : n < seg.len) (xmit : UInt8) :
    LiesAt g (pos + n) ⟨seg.seq + UInt32.ofNat n, seg.len - n, xmit, seg.flags⟩ := by
  cases h with
  | data hflags hseq hcontrol => exact .data hflags (UInt32.add_ofNat_of_eq hseq n) (by omega)
  | ctl hflags hseq hcontrol => exact .ctl hflags (UInt32.add_ofNat_of_eq hseq n) (by dsimp only; omega)
  | fin _ hzero => omega
  | rst _ hzero => omega

end

/-- A segment on the wire says nothing that is not so: it acknowledges what has been received, carries octets of the
stream, and has a FIN only behind all of it. It is no older than the call that wrote it. -/
structure Truthful (g : Ledger) (seg : Segment) : Prop where
  short : headerSize + seg.data.length ≤ maxPacket
  ack : ∃ a, g.takenBefore ≤ a ∧ a ≤ g.taken ∧ seg.ack = UInt32.ofNat a
  data : seg.data ≠ [] → ∃ pos, g.unaBefore ≤ pos ∧ seg.seq = UInt32.ofNat pos ∧
    pos + seg.data.length ≤ g.stream.length ∧
    seg.data = (g.stream.drop pos).take seg.data.length ∧
    (seg.flags = flagNone ∧ g.control ≤ pos ∨ seg.flags = flagCtl ∧ pos + seg.data.length ≤ g.control)
  fin : hasFlag seg.flags flagFin = true → seg.data = [] ∧ g.finished = true ∧ seg.seq = UInt32.ofNat g.stream.length

/-- The largest send buffer, within which transmit asserts that a segment lies. -/
def maxWindow : Nat := 1024 * 1024 * 64

namespace PseudoTcpSocket

def slist (s : PseudoTcpSocket) : List SSegment := s.snd.sent ++ s.snd.unsent

/-- The send queue and the packets written stand for what the ledger says. -/
structure Queues (g : Ledger) (s : PseudoTcpSocket) : Prop where
  valid : s.snd.sbuf.Valid
  small : s.snd.sbuf.bufferLength ≤ maxWindow
  una : g.una ≤ g.stream.length
  control : g.control ≤ g.stream.length
  contents : s.snd.sbuf.contents = g.stream.drop g.una
  sndUna : s.snd.sndUna = UInt32.ofNat (g.una + g.fins)
  fins : 0 < g.fins → g.una = g.stream.length ∧ g.finished = true
  tiles : Tiles SSegment.len (LiesAt g) g.una s.slist g.stream.length
  taken : s.rcv.rcvNxt = UInt32.ofNat g.taken
  unaBefore : g.unaBefore ≤ g.una
  takenBefore : g.takenBefore ≤ g.taken
  called : ∀ bytes, .writePacket bytes ∈ s.called →
    ∃ seg, bytes = packetBytes seg ∧ seg.conv = s.conv ∧ Truthful g seg

variable {g : Ledger} {env : PseudoTcpEnv} {s t : PseudoTcpSocket}

theorem Queues.dataLength (h : Queues g s) : s.snd.sbuf.dataLength = g.stream.length - g.una := by
  rw [← h.valid.length_contents, h.contents, List.length_drop]

/-! Writing a packet. -/

/-- What writing packets changes. -/
structure Written where
  called : List PseudoTcpCall
  tsLastack : UInt32
  tAck : UInt32
  lastsend : UInt32
  lastTraffic : UInt32
  bOutgoing : Bool
  mss : UInt32
  msslevel : Nat
  cwnd : UInt32

def wrote (s : PseudoTcpSocket) (w : Written) : PseudoTcpSocket :=
  { s with
    called := w.called
    tsLastack := w.tsLastack
    tAck := w.tAck
    snd.lastsend := w.lastsend
    lastTraffic := w.lastTraffic
    bOutgoing := w.bOutgoing
    mss := w.mss
    msslevel := w.msslevel
    cwnd := w.cwnd }

def written (s : PseudoTcpSocket) : Written :=
  ⟨s.called, s.tsLastack, s.tAck, s.snd.lastsend, s.lastTraffic, s.bOutgoing, s.mss, s.msslevel, s.cwnd⟩

@[simp] theorem wrote_written (s : PseudoTcpSocket) : s.wrote s.written = s := rfl

@[simp] theorem wrote_wrote (w w' : Written) : (s.wrote w).wrote w' = s.wrote w' := rfl

/-- The packets written are truthful where the new ones are. -/
theorem Queues.wrote (h : Queues g s) {w : Written}
    (hcalled : ∀ bytes, .writePacket bytes ∈ w.called → ∃ seg, bytes = packetBytes seg ∧ seg.conv = s.conv ∧ Truthful g seg) :
    Queues g (s.wrote w) :=
  { h with called := hcalled }

theorem packet_step {seq offset : UInt32} {flags : UInt8} {len : Nat} {r : PseudoTcpWriteResult}
    (h : packet env s seq flags offset len = some (t, r)) :
    ∃ w data, t = s.wrote w ∧ w.mss = s.mss ∧ w.cwnd = s.cwnd ∧ w.msslevel = s.msslevel ∧
      w.called = s.called ++ [.writePacket (packetBytes (s.packetSegment seq flags data env.now))] ∧
      data.length = len ∧ headerSize + len ≤ maxPacket ∧
      (len ≠ 0 → data = s.snd.sbuf.readOffset len offset.toNat) := by
  rw [packet] at h
  generalize hdata : (if len = 0 then [] else s.snd.sbuf.readOffset len offset.toNat) = data at h
  simp only [Option.ite_none_left_eq_some, not_or, not_lt, Decidable.not_not] at h
  obtain ⟨⟨hfits, hlen⟩, h⟩ := h
  have hread : len ≠ 0 → data = s.snd.sbuf.readOffset len offset.toNat := by
    intro hne
    rw [← hdata, if_neg hne]
  refine ⟨t.written, data, ?_⟩
  split_ifs at h with hfail
  all_goals
    obtain ⟨rfl, rfl⟩ := Prod.mk.inj (Option.some.inj h)
    exact ⟨rfl, rfl, rfl, rfl, rfl, hlen, hfits, hread⟩

/-- A pure acknowledgement says nothing but what has been received. -/
theorem Queues.truthful_ack (h : Queues g s) (seq now : UInt32) : Truthful g (s.packetSegment seq 0 [] now) where
  short := Nat.le_of_ble_eq_true rfl
  ack := ⟨g.taken, h.takenBefore, Nat.le_refl _, h.taken⟩
  data := fun hne => absurd rfl hne
  fin := fun hfin => absurd (show hasFlag 0 flagFin = true from hfin) (by decide)

/-- The octets at the offset of a position in the send buffer. -/
theorem Queues.readOffset (h : Queues g s) {pos n : Nat} (hlo : g.una ≤ pos) (hhi : pos + n ≤ g.stream.length)
    (hn : n ≠ 0) : s.snd.sbuf.readOffset n (UInt32.ofNat pos - s.snd.sndUna).toNat = (g.stream.drop pos).take n := by
  have hfins : g.fins = 0 := by
    by_contra hne
    have hend := (h.fins (Nat.pos_of_ne_zero hne)).1
    omega
  have hroom := h.valid.room
  have hlen := h.dataLength
  have hsmall := h.small
  rw [maxWindow] at hsmall
  have hoff : (UInt32.ofNat pos - s.snd.sndUna).toNat = pos - g.una := by
    rw [h.sndUna, hfins, Nat.add_zero]
    exact UInt32.toNat_ofNat_sub_of_le hlo (by omega)
  rw [hoff, h.valid.readOffset, h.contents, List.drop_drop, Nat.add_sub_cancel' hlo]

/-- A packet of a segment of slist, or of its front, is truthful. -/
theorem Queues.truthful_liesAt (h : Queues g s) {pos n : Nat} {segment : SSegment} {data : List UInt8} {now : UInt32}
    (hp : LiesAt g pos segment) (hlo : g.una ≤ pos) (hhi : pos + segment.len ≤ g.stream.length)
    (hn : n ≤ segment.len) (hlen : data.length = n) (hfits : headerSize + n ≤ maxPacket)
    (hread : n ≠ 0 → data = s.snd.sbuf.readOffset n (segment.seq - s.snd.sndUna).toNat) :
    Truthful g (s.packetSegment segment.seq segment.flags data now) := by
  have hbefore := h.unaBefore.trans hlo
  have hnil : segment.len = 0 → data = [] := fun hzero => List.eq_nil_of_length_eq_zero (by omega)
  have hpiece (hseq : segment.seq = UInt32.ofNat pos) (hne : data ≠ []) :
      data = (g.stream.drop pos).take data.length := by
    have hpos : n ≠ 0 := by
      rintro rfl
      exact hne (List.eq_nil_of_length_eq_zero hlen)
    rw [hread hpos, hseq, h.readOffset hlo (by omega) hpos, List.length_take, List.length_drop, Nat.min_eq_left]
    omega
  refine ⟨hlen.symm ▸ hfits, ⟨g.taken, h.takenBefore, Nat.le_refl _, h.taken⟩, ?_, ?_⟩
  · intro hne
    cases hp with
    | data hflags hseq hcontrol =>
      exact ⟨pos, hbefore, hseq, by simp only [packetSegment]; omega, hpiece hseq hne, .inl ⟨hflags, hcontrol⟩⟩
    | ctl hflags hseq hcontrol =>
      refine ⟨pos, hbefore, hseq, by simp only [packetSegment]; omega, hpiece hseq hne, .inr ⟨hflags, ?_⟩⟩
      simp only [packetSegment]
      omega
    | fin _ hzero _ _ => exact absurd (hnil hzero) hne
    | rst _ hzero => exact absurd (hnil hzero) hne
  · intro hfin
    simp only [packetSegment] at hfin ⊢
    cases hp with
    | data hflags _ _ =>
      rw [hflags] at hfin
      exact absurd hfin (by decide)
    | ctl hflags _ _ =>
      rw [hflags] at hfin
      exact absurd hfin (by decide)
    | fin _ hzero hfinished hseq => exact ⟨hnil hzero, hfinished, hseq⟩
    | rst hflags _ =>
      rw [hflags] at hfin
      exact absurd hfin (by decide)

/-- One more packet. -/
theorem Queues.calledPacket (h : Queues g s) {seg : Segment} (hconv : seg.conv = s.conv) (htrue : Truthful g seg) :
    ∀ bytes, .writePacket bytes ∈ s.called ++ [.writePacket (packetBytes seg)] →
      ∃ seg, bytes = packetBytes seg ∧ seg.conv = s.conv ∧ Truthful g seg := by
  intro bytes hmem
  rcases List.mem_append.mp hmem with hold | hnew
  · exact h.called bytes hold
  · obtain rfl := PseudoTcpCall.writePacket.inj (List.mem_singleton.mp hnew)
    exact ⟨seg, rfl, hconv, htrue⟩

/-- What sending leaves as it is. -/
structure Kept (s t : PseudoTcpSocket) : Prop where
  rcv : t.rcv = s.rcv
  conv : t.conv = s.conv
  supportFinAck : t.supportFinAck = s.supportFinAck
  shutdown : t.shutdown = s.shutdown

theorem Kept.refl (s : PseudoTcpSocket) : Kept s s := ⟨rfl, rfl, rfl, rfl⟩

theorem Kept.trans {u : PseudoTcpSocket} (h : Kept s t) (h' : Kept t u) : Kept s u :=
  ⟨h'.rcv.trans h.rcv, h'.conv.trans h.conv, h'.supportFinAck.trans h.supportFinAck, h'.shutdown.trans h.shutdown⟩

theorem kept_wrote (s : PseudoTcpSocket) (w : Written) : Kept s (s.wrote w) := ⟨rfl, rfl, rfl, rfl⟩

theorem packet_ack {seq : UInt32} {r : PseudoTcpWriteResult} (h : Queues g s)
    (hstep : packet env s seq 0 0 0 = some (t, r)) : ∃ w, t = s.wrote w ∧ Queues g t := by
  obtain ⟨w, data, rfl, -, -, -, hcalled, hlen, -, -⟩ := packet_step hstep
  obtain rfl := List.eq_nil_of_length_eq_zero hlen
  refine ⟨w, rfl, h.wrote ?_⟩
  rw [hcalled]
  exact h.calledPacket rfl (h.truthful_ack seq env.now)

/-! Transmitting a segment. -/

/-- The next level. -/
def nextLevel (s : PseudoTcpSocket) : PseudoTcpSocket :=
  let mss := (packetMaximums.getD (s.msslevel + 1) 0).toUInt32 - packetOverhead
  { s with msslevel := s.msslevel + 1, mss := mss, cwnd := 2 * mss }

theorem lowerMss_succ (n levels : Nat) : s.lowerMss n (levels + 1) =
    if packetMaximums.getD (s.msslevel + 1) 0 = 0 then (s, false)
    else if s.nextLevel.mss.toNat < n then (s.nextLevel, true) else s.nextLevel.lowerMss n levels := rfl

theorem lowerMss_step {n levels : Nat} {r : Bool} (h : s.lowerMss n levels = (t, r)) :
    ∃ w, t = s.wrote w ∧ w.called = s.called ∧ (r = true → t.mss.toNat < n) := by
  induction levels generalizing s with
  | zero =>
    obtain ⟨rfl, rfl⟩ := Prod.mk.inj h
    refine ⟨s.written, rfl, rfl, ?_⟩
    intro hr
    cases hr
  | succ levels ih =>
    rw [lowerMss_succ] at h
    split_ifs at h with hlast hless
    · obtain ⟨rfl, rfl⟩ := Prod.mk.inj h
      refine ⟨s.written, rfl, rfl, ?_⟩
      intro hr
      cases hr
    · obtain ⟨rfl, rfl⟩ := Prod.mk.inj h
      exact ⟨s.nextLevel.written, rfl, rfl, fun _ => hless⟩
    · obtain ⟨w, rfl, hcalled, hless⟩ := ih h
      exact ⟨w, rfl, hcalled, hless⟩

/-- Whatever writeOut writes is the front of a segment of slist. -/
theorem Queues.writeOut (h : Queues g s) {pos n levels : Nat} {segment : SSegment} {r : Except UInt32 Nat}
    (hp : LiesAt g pos segment) (hlo : g.una ≤ pos) (hhi : pos + segment.len ≤ g.stream.length) (hn : n ≤ segment.len)
    (hstep : writeOut env s segment n levels = some (t, r)) :
    ∃ w, t = s.wrote w ∧ Queues g t ∧ ∀ m, r = .ok m → m ≤ n := by
  induction levels generalizing s n with
  | zero =>
    obtain ⟨rfl, rfl⟩ := Prod.mk.inj (Option.some.inj hstep)
    refine ⟨s.written, rfl, h, ?_⟩
    intro m hm
    cases hm
  | succ levels ih =>
    rw [PseudoTcpSocket.writeOut, Option.bind_eq_bind, Option.bind_eq_some_iff] at hstep
    obtain ⟨⟨u, wres⟩, hpacket, hstep⟩ := hstep
    obtain ⟨w, data, rfl, -, -, -, hcalled, hlen, hfits, hread⟩ := packet_step hpacket
    have hu : Queues g (s.wrote w) := by
      refine h.wrote ?_
      rw [hcalled]
      exact h.calledPacket rfl (h.truthful_liesAt hp hlo hhi hn hlen hfits hread)
    cases wres with
    | success =>
      obtain ⟨rfl, rfl⟩ := Prod.mk.inj (Option.some.inj hstep)
      refine ⟨w, rfl, hu, ?_⟩
      rintro m hm
      obtain rfl := Except.ok.inj hm
      exact Nat.le_refl _
    | fail =>
      obtain ⟨rfl, rfl⟩ := Prod.mk.inj (Option.some.inj hstep)
      refine ⟨w, rfl, hu, ?_⟩
      intro m hm
      cases hm
    | tooLarge =>
      dsimp only at hstep
      split at hstep
      · next v hlower =>
        obtain ⟨w', rfl, hcalled', -⟩ := lowerMss_step hlower
        obtain ⟨rfl, rfl⟩ := Prod.mk.inj (Option.some.inj hstep)
        refine ⟨w', rfl, hu.wrote (hcalled'.symm ▸ hu.called), ?_⟩
        intro m hm
        cases hm
      · next v hlower =>
        obtain ⟨w', rfl, hcalled', hless⟩ := lowerMss_step hlower
        have hmss := hless rfl
        obtain ⟨w'', rfl, ht, hle⟩ := ih (hu.wrote (hcalled'.symm ▸ hu.called)) (by omega) hstep
        refine ⟨w'', rfl, ht, ?_⟩
        intro m hm
        have hm' := hle m hm
        omega

/-- A segment of which a part is written leaves pieces in its place. -/
theorem liesAt_pieces {pos n : Nat} {segment : SSegment} (hp : LiesAt g pos segment) :
    Tiles SSegment.len (LiesAt g) pos
      ({ segment with len := min n segment.len, xmit := segment.xmit + 1 } ::
        (if n < segment.len then
          [{ segment with seq := segment.seq + UInt32.ofNat n, len := segment.len - n }]
        else [])) (pos + segment.len) := by
  refine ⟨hp.take (Nat.min_le_right _ _) _, ?_⟩
  split_ifs with hlt
  · have hmin : min n segment.len = n := Nat.min_eq_left (Nat.le_of_lt hlt)
    have hend : pos + n + (segment.len - n) = pos + segment.len := by omega
    rw [hmin]
    exact ⟨hp.drop hlt _, hend⟩
  · rw [tiles_nil]
    dsimp only
    omega

theorem Queues.transmitted (h : Queues g s) {q : Queued} {segment : SSegment} {n : Nat} {now : UInt32}
    (hhead : s.headOf q = some segment) (hstep : s.transmitted q segment n now = some t) :
    Queues g t ∧ Kept s t ∧ t.state = s.state ∧ t.called = s.called := by
  cases q with
  | sent =>
    obtain ⟨rest, hsent⟩ : ∃ rest, s.snd.sent = segment :: rest := by
      obtain ⟨rest, hrest⟩ := List.head?_eq_some_iff.mp hhead
      exact ⟨rest, hrest⟩
    have htiles := h.tiles
    rw [slist, hsent, List.cons_append] at htiles
    simp only [PseudoTcpSocket.transmitted, hsent, List.tail_cons, Option.ite_none_left_eq_some, Option.some.injEq] at hstep
    obtain ⟨-, rfl⟩ := hstep
    refine ⟨{ h with tiles := ?_ }, ⟨rfl, rfl, rfl, rfl⟩, rfl, rfl⟩
    have hnew := Tiles.replace (l := []) htiles fun p hp _ => liesAt_pieces (n := n) hp
    simpa only [slist, List.nil_append, List.cons_append, List.append_assoc] using hnew
  | unsent =>
    obtain ⟨rest, hunsent⟩ := List.head?_eq_some_iff.mp hhead
    have htiles := h.tiles
    rw [slist, hunsent] at htiles
    simp only [PseudoTcpSocket.transmitted, hunsent, List.tail_cons, Option.ite_none_left_eq_some, Option.some.injEq] at hstep
    obtain ⟨-, rfl⟩ := hstep
    refine ⟨{ h with tiles := ?_ }, ⟨rfl, rfl, rfl, rfl⟩, rfl, rfl⟩
    have hnew := Tiles.replace htiles fun p hp _ => liesAt_pieces (n := n) hp
    rwa [slist, List.append_assoc, List.singleton_append, ← List.cons_append]

theorem Queues.transmit (h : Queues g s) {q : Queued} {e : UInt32} (hstep : transmit env s q = some (t, e)) :
    Queues g t ∧ Kept s t ∧ t.state = s.state := by
  rw [PseudoTcpSocket.transmit, Option.bind_eq_bind, Option.bind_eq_some_iff] at hstep
  obtain ⟨segment, hhead, hstep⟩ := hstep
  have hmem : segment ∈ s.slist := by
    cases q with
    | sent => exact List.mem_append_left _ (List.mem_of_mem_head? hhead)
    | unsent => exact List.mem_append_right _ (List.mem_of_mem_head? hhead)
  obtain ⟨pos, hp, hlo, hhi⟩ := h.tiles.place hmem
  dsimp only at hstep
  split_ifs at hstep
  · obtain ⟨rfl, rfl⟩ := Prod.mk.inj (Option.some.inj hstep)
    exact ⟨h, .refl s, rfl⟩
  · rw [Option.bind_eq_bind, Option.bind_eq_some_iff] at hstep
    obtain ⟨⟨u, written⟩, hwrite, hstep⟩ := hstep
    obtain ⟨w, rfl, hu, -⟩ := h.writeOut hp hlo hhi (Nat.min_le_left _ _) hwrite
    cases written with
    | error e =>
      obtain ⟨rfl, rfl⟩ := Prod.mk.inj (Option.some.inj hstep)
      exact ⟨hu, kept_wrote s w, rfl⟩
    | ok n =>
      dsimp only at hstep
      rw [Option.bind_eq_bind, Option.bind_eq_some_iff] at hstep
      obtain ⟨v, hdone, hstep⟩ := hstep
      obtain ⟨rfl, rfl⟩ := Prod.mk.inj (Option.some.inj hstep)
      have hheadw : (s.wrote w).headOf q = some segment := by
        cases q <;> exact hhead
      obtain ⟨hv, hkept, hstate, -⟩ := hu.transmitted hheadw hdone
      exact ⟨hv, (kept_wrote s w).trans hkept, hstate⟩

/-! The loop of attempt_send, and closing down. -/

theorem Queues.splitHead (h : Queues g s) (n : Nat) (always : Bool) :
    Queues g (s.splitHead n always) ∧ Kept s (s.splitHead n always) ∧ (s.splitHead n always).state = s.state := by
  rw [PseudoTcpSocket.splitHead]
  split
  · exact ⟨h, .refl s, rfl⟩
  · next sseg rest hunsent =>
    have htiles := h.tiles
    rw [slist, hunsent] at htiles
    split_ifs with hlt
    · refine ⟨{ h with tiles := ?_ }, ⟨rfl, rfl, rfl, rfl⟩, rfl⟩
      refine Tiles.replace htiles (m := [_, _]) fun p hp _ => ?_
      have hend : p + n + (sseg.len - n) = p + sseg.len := by omega
      exact ⟨hp.take (Nat.le_of_lt hlt.1) _, hp.drop hlt.1 _, hend⟩
    · exact ⟨h, .refl s, rfl⟩

@[simp] theorem withState_withState (state state' : PseudoTcpState) :
    (s.withState state).withState state' = s.withState state' := rfl

@[simp] theorem withState_state : s.withState s.state = s := rfl

theorem setState_step {new : PseudoTcpState} (h : s.setState new = some t) : t = s.withState new := by
  rw [setState] at h
  split_ifs at h with hsame hvalid
  · obtain rfl := Option.some.inj h
    rw [hsame, withState_state]
  · exact (Option.some.inj h).symm

/-- The calls that a closing makes. -/
def closedCalls (err : UInt32) : List PseudoTcpCall := if err ≠ 0 then [.closed err] else []

def closedWith (s : PseudoTcpSocket) (err : UInt32) : PseudoTcpSocket :=
  { s.withState .closed with called := s.called ++ closedCalls err }

theorem setStateClosed_step {err : UInt32} (h : s.setStateClosed err = some t) : t = s.closedWith err := by
  obtain ⟨u, hu, rfl⟩ := Option.map_eq_some_iff.mp h
  obtain rfl := setState_step hu
  rw [closedWith, closedCalls]
  split_ifs
  · rfl
  · rw [List.append_nil]
    rfl

theorem walkToClosed_step (h : s.walkToClosed = some t) : ∃ state, t = s.withState state := by
  rw [walkToClosed] at h
  split at h
  · simp only [Option.bind_eq_bind, Option.bind_eq_some_iff] at h
    obtain ⟨u, hu, v, hv, ht⟩ := h
    rw [setState_step ht, setState_step hv, setState_step hu]
    exact ⟨_, rfl⟩
  · simp only [Option.bind_eq_bind, Option.bind_eq_some_iff] at h
    obtain ⟨u, hu, v, hv, ht⟩ := h
    rw [setState_step ht, setState_step hv, setState_step hu]
    exact ⟨_, rfl⟩
  · simp only [Option.bind_eq_bind, Option.bind_eq_some_iff] at h
    obtain ⟨u, hu, ht⟩ := h
    rw [setState_step ht, setState_step hu]
    exact ⟨_, rfl⟩
  · exact ⟨_, setState_step h⟩
  · exact ⟨_, setState_step h⟩
  · exact ⟨_, setState_step h⟩
  all_goals exact ⟨s.state, (Option.some.inj h).symm⟩

theorem closedownWalk_step {err : UInt32} (h : s.closedownWalk err = some t) : t = s.closedWith err := by
  rw [closedownWalk, Option.bind_eq_bind, Option.bind_eq_some_iff] at h
  obtain ⟨u, hu, hclosed⟩ := h
  obtain ⟨state, rfl⟩ := walkToClosed_step hu
  rw [setStateClosed_step hclosed]
  rfl

theorem mem_closedCalls {bytes : List UInt8} {err : UInt32} : .writePacket bytes ∉ closedCalls err := by
  rw [closedCalls]
  split_ifs
  · intro hmem
    cases List.mem_singleton.mp hmem
  · exact List.not_mem_nil

/-- Calls that write no packet. -/
theorem Queues.calledOther (h : Queues g s) (calls : List PseudoTcpCall)
    (hcalls : ∀ bytes, .writePacket bytes ∉ calls) (bytes : List UInt8)
    (hmem : .writePacket bytes ∈ s.called ++ calls) :
    ∃ seg, bytes = packetBytes seg ∧ seg.conv = s.conv ∧ Truthful g seg :=
  h.called bytes ((List.mem_append.mp hmem).resolve_right (hcalls bytes))

theorem Queues.closedownWalk (h : Queues g s) {err : UInt32} (hstep : s.closedownWalk err = some t) :
    Queues g t ∧ Kept s t ∧ t.state = .closed := by
  obtain rfl := closedownWalk_step hstep
  exact ⟨{ h with called := h.calledOther _ fun _ => mem_closedCalls }, ⟨rfl, rfl, rfl, rfl⟩, rfl⟩

/-- Sending leaves the state or closes, and has nothing to send of an empty queue. -/
structure Closes (s t : PseudoTcpSocket) : Prop where
  state : t.state = s.state ∨ t.state = .closed
  empty : s.slist = [] → t.slist = []

theorem Closes.same (hstate : t.state = s.state) (hslist : t.slist = s.slist) : Closes s t :=
  ⟨.inl hstate, fun h => hslist.trans h⟩

theorem Closes.trans {u : PseudoTcpSocket} (h : Closes s t) (h' : Closes t u) : Closes s u where
  state := by
    rcases h'.state with hsame | hclosed
    · rw [hsame]
      exact h.state
    · exact .inr hclosed
  empty hnil := h'.empty (h.empty hnil)

theorem transmit_nonempty {q : Queued} {e : UInt32} (h : transmit env s q = some (t, e)) : s.slist ≠ [] := by
  rw [PseudoTcpSocket.transmit, Option.bind_eq_bind, Option.bind_eq_some_iff] at h
  obtain ⟨segment, hhead, -⟩ := h
  intro hnil
  obtain ⟨hsent, hunsent⟩ := List.append_eq_nil_iff.mp hnil
  cases q <;> simp [headOf, hsent, hunsent] at hhead

theorem splitHead_nonempty {n : Nat} {always : Bool} (h : (s.splitHead n always).slist ≠ []) : s.slist ≠ [] := by
  intro hnil
  obtain ⟨hsent, hunsent⟩ := List.append_eq_nil_iff.mp hnil
  rw [PseudoTcpSocket.splitHead, hunsent] at h
  exact h hnil

/-- A turn of the loop acknowledges, stops, or transmits the head of unsent_slist. -/
theorem attemptSendLoop_succ {turns : Nat} {sflags : SendFlags}
    (h : attemptSendLoop env (turns + 1) s sflags = some t) :
    (sflags = .sfDuplicateAck ∧ ∃ u r, packet env s s.snd.sndNxt 0 0 0 = some (u, r) ∧
      attemptSendLoop env turns u .sfNone = some t) ∨
    t = s ∨
    (∃ r, packet env s s.snd.sndNxt 0 0 0 = some (t, r)) ∨
    t = { s with tAck := env.now } ∨
    ((s.nAvailable ≠ 0 ∨ sflags.always = true) ∧
      ∃ u status, transmit env (s.splitHead s.nAvailable sflags.always) .unsent = some (u, status) ∧
        (status ≠ 0 ∧ u.closedownWalk status = some t ∨
          status = 0 ∧ attemptSendLoop env turns u sflags.acked = some t)) := by
  rw [attemptSendLoop] at h
  dsimp only at h
  split_ifs at h with hdup hnone hsf hack hnagle
  · simp only [Option.bind_eq_bind, Option.bind_eq_some_iff, Prod.exists] at h
    exact .inl ⟨hdup, h⟩
  · exact .inr (.inl (Option.some.inj h).symm)
  · simp only [Option.bind_eq_bind, Option.bind_eq_some_iff, Prod.exists, Option.some.injEq] at h
    obtain ⟨u, r, hpacket, rfl⟩ := h
    exact .inr (.inr (.inl ⟨r, hpacket⟩))
  · exact .inr (.inr (.inr (.inl (Option.some.inj h).symm)))
  · exact .inr (.inl (Option.some.inj h).symm)
  · cases hunsent : s.snd.unsent with
    | nil =>
      rw [hunsent] at h
      exact .inr (.inl (Option.some.inj h).symm)
    | cons sseg rest =>
      rw [hunsent] at h
      simp only [Option.bind_eq_bind, Option.bind_eq_some_iff, Prod.exists] at h
      obtain ⟨u, status, htransmit, h⟩ := h
      have hsends : s.nAvailable ≠ 0 ∨ sflags.always = true := by
        by_contra hc
        obtain ⟨hzero, hfalse⟩ := not_or.mp hc
        exact hnone ⟨Decidable.not_not.mp hzero, by rw [Bool.not_eq_true _ |>.mp hfalse]; rfl⟩
      refine .inr (.inr (.inr (.inr ⟨hsends, u, status, htransmit, ?_⟩)))
      split_ifs at h with hstatus
      · exact .inl ⟨hstatus, h⟩
      · exact .inr ⟨Decidable.not_not.mp hstatus, h⟩

theorem Queues.attemptSendLoop (h : Queues g s) {turns : Nat} {sflags : SendFlags}
    (hstep : attemptSendLoop env turns s sflags = some t) : Queues g t ∧ Kept s t ∧ Closes s t := by
  induction turns generalizing s sflags with
  | zero => cases hstep
  | succ turns ih =>
    rcases attemptSendLoop_succ hstep with
      ⟨-, u, r, hpacket, hrest⟩ | rfl | ⟨r, hpacket⟩ | rfl | ⟨-, u, status, htransmit, hrest⟩
    · obtain ⟨w, rfl, hu⟩ := packet_ack h hpacket
      obtain ⟨ht, hkept, hcloses⟩ := ih hu hrest
      exact ⟨ht, (kept_wrote s w).trans hkept, (Closes.same (s := s) (t := s.wrote w) rfl rfl).trans hcloses⟩
    · exact ⟨h, .refl t, .same rfl rfl⟩
    · obtain ⟨w, rfl, hu⟩ := packet_ack h hpacket
      exact ⟨hu, kept_wrote s w, .same rfl rfl⟩
    · exact ⟨{ h with }, ⟨rfl, rfl, rfl, rfl⟩, .same rfl rfl⟩
    · obtain ⟨hv, hkeptv, hstatev⟩ := h.splitHead s.nAvailable sflags.always
      obtain ⟨hu, hkeptu, hstateu⟩ := hv.transmit htransmit
      have hsome := splitHead_nonempty (transmit_nonempty htransmit)
      rcases hrest with ⟨-, hclose⟩ | ⟨-, hrest⟩
      · obtain ⟨ht, hkeptt, hclosed⟩ := hu.closedownWalk hclose
        exact ⟨ht, (hkeptv.trans hkeptu).trans hkeptt, .inr hclosed, fun hnil => absurd hnil hsome⟩
      · obtain ⟨ht, hkeptt, hcloses⟩ := ih hu hrest
        refine ⟨ht, (hkeptv.trans hkeptu).trans hkeptt, ?_, fun hnil => absurd hnil hsome⟩
        rw [← hstatev, ← hstateu]
        exact hcloses.state

theorem afterIdle_eq (env : PseudoTcpEnv) (s : PseudoTcpSocket) : ∃ cwnd, afterIdle env s = { s with cwnd := cwnd } := by
  rw [afterIdle]
  split_ifs
  · exact ⟨s.mss, rfl⟩
  · exact ⟨s.cwnd, rfl⟩

theorem Queues.attemptSend (h : Queues g s) {sflags : SendFlags} (hstep : attemptSend env s sflags = some t) :
    Queues g t ∧ Kept s t ∧ Closes s t := by
  obtain ⟨cwnd, hidle⟩ := afterIdle_eq env s
  rw [PseudoTcpSocket.attemptSend, hidle] at hstep
  have hs : Queues g { s with cwnd := cwnd } := { h with }
  obtain ⟨ht, hkept, hcloses⟩ := hs.attemptSendLoop hstep
  exact ⟨ht, ⟨hkept.rcv, hkept.conv, hkept.supportFinAck, hkept.shutdown⟩, hcloses.state, hcloses.empty⟩

/-! Queueing. -/

def withQueues (s : PseudoTcpSocket) (sent unsent : List SSegment) (sbuf : PseudoTcpFifo) : PseudoTcpSocket :=
  { s with snd.sent := sent, snd.unsent := unsent, snd.sbuf := sbuf }

/-- The bytes that the send buffer takes. -/
def accepts (s : PseudoTcpSocket) (data : List UInt8) : List UInt8 := data.take s.snd.sbuf.getWriteRemaining

/-- The segment that queue appends. -/
def newSegment (s : PseudoTcpSocket) (data : List UInt8) (flags : UInt8) : SSegment :=
  ⟨s.snd.sndUna + UInt32.ofNat s.snd.sbuf.getBuffered, (s.accepts data).length, 0, flags⟩

/-- The queues after queue: a new segment, or the last one grown. -/
structure Appended (s : PseudoTcpSocket) (data : List UInt8) (flags : UInt8) (sent unsent : List SSegment) : Prop where
  grown : (sent = s.snd.sent ∧ unsent = s.snd.unsent ++ [s.newSegment data flags]) ∨
    (∃ before last, s.snd.unsent = before ++ [last] ∧ last.flags = flags ∧ last.xmit = 0 ∧ sent = s.snd.sent ∧
      unsent = before ++ [{ last with len := last.len + (s.accepts data).length }]) ∨
    ∃ before last, s.snd.unsent = [] ∧ s.snd.sent = before ++ [last] ∧ last.flags = flags ∧ last.xmit = 0 ∧
      unsent = [] ∧ sent = before ++ [{ last with len := last.len + (s.accepts data).length }]

theorem queue_step {data : List UInt8} {flags : UInt8} {n : Nat} (h : s.queue data flags = some (t, n)) :
    ∃ sent unsent, t = s.withQueues sent unsent (s.snd.sbuf.write (s.accepts data)).1 ∧
      n = (s.snd.sbuf.write (s.accepts data)).2 ∧ Appended s data flags sent unsent := by
  rw [queue] at h
  simp only [Option.ite_none_left_eq_some] at h
  obtain ⟨-, h⟩ := h
  split at h
  · next x last hunsent =>
    obtain ⟨before, hbefore⟩ := List.getLast?_eq_some_iff.mp hunsent
    split_ifs at h with hmerge
    · obtain ⟨rfl, rfl⟩ := Prod.mk.inj (Option.some.inj h)
      refine ⟨_, _, rfl, rfl, ⟨.inr (.inl ⟨before, last, hbefore, hmerge.1, hmerge.2, rfl, ?_⟩)⟩⟩
      rw [hbefore, List.dropLast_concat]
      rfl
    · obtain ⟨rfl, rfl⟩ := Prod.mk.inj (Option.some.inj h)
      exact ⟨_, _, rfl, rfl, ⟨.inl ⟨rfl, rfl⟩⟩⟩
  · next last hunsent hsent =>
    obtain ⟨before, hbefore⟩ := List.getLast?_eq_some_iff.mp hsent
    have hnil := List.getLast?_eq_none_iff.mp hunsent
    split_ifs at h with hmerge
    · obtain ⟨rfl, rfl⟩ := Prod.mk.inj (Option.some.inj h)
      refine ⟨_, _, rfl, rfl, ⟨.inr (.inr ⟨before, last, hnil, hbefore, hmerge.1, hmerge.2, hnil, ?_⟩)⟩⟩
      rw [hbefore, List.dropLast_concat]
      rfl
    · obtain ⟨rfl, rfl⟩ := Prod.mk.inj (Option.some.inj h)
      refine ⟨_, _, rfl, rfl, ⟨.inl ⟨rfl, ?_⟩⟩⟩
      rw [hnil]
      rfl
  · next hunsent hsent =>
    obtain ⟨rfl, rfl⟩ := Prod.mk.inj (Option.some.inj h)
    refine ⟨_, _, rfl, rfl, ⟨.inl ⟨rfl, ?_⟩⟩⟩
    rw [List.getLast?_eq_none_iff.mp hunsent]
    rfl

end PseudoTcpSocket

/-- The stream of a ledger later in a run. Nothing is queued behind a FIN. -/
structure Ledger.Extends (g g' : Ledger) : Prop where
  stream : g.stream <+: g'.stream
  control : g.stream ≠ [] → g'.control = g.control
  finished : g.finished = true → g'.finished = true ∧ g'.stream = g.stream

/-- A ledger later in a call. -/
structure Ledger.Le (g g' : Ledger) : Prop extends Ledger.Extends g g' where
  taken : g.taken ≤ g'.taken
  unaBefore : g'.unaBefore ≤ g.unaBefore
  takenBefore : g'.takenBefore ≤ g.takenBefore

namespace Ledger
variable {g g' g'' : Ledger}

theorem Extends.refl (g : Ledger) : g.Extends g := ⟨List.prefix_rfl, fun _ => rfl, fun h => ⟨h, rfl⟩⟩

theorem Le.refl (g : Ledger) : g.Le g := ⟨.refl g, Nat.le_refl _, Nat.le_refl _, Nat.le_refl _⟩

/-- The stream grows, and nothing is acknowledged or received. -/
structure Grows (g g' : Ledger) : Prop extends Extends g g' where
  una : g'.una = g.una
  fins : g'.fins = g.fins
  taken : g'.taken = g.taken
  unaBefore : g'.unaBefore = g.unaBefore
  takenBefore : g'.takenBefore = g.takenBefore

theorem Grows.le (h : g.Grows g') : g.Le g' := ⟨h.toExtends, h.taken.ge, h.unaBefore.le, h.takenBefore.le⟩

theorem Grows.refl (g : Ledger) : g.Grows g := ⟨.refl g, rfl, rfl, rfl, rfl, rfl⟩

theorem Grows.finish (g : Ledger) : g.Grows { g with finished := true } :=
  ⟨⟨List.prefix_rfl, fun _ => rfl, fun _ => ⟨rfl, rfl⟩⟩, rfl, rfl, rfl, rfl, rfl⟩

theorem Grows.append (hfinished : g.finished = false) (data : List UInt8) :
    g.Grows { g with stream := g.stream ++ data } :=
  ⟨⟨List.prefix_append _ _, fun _ => rfl, fun h => Bool.noConfusion (hfinished.symm.trans h)⟩, rfl, rfl, rfl, rfl, rfl⟩

theorem Grows.start (hfinished : g.finished = false) (hstream : g.stream = []) (message : List UInt8) :
    g.Grows { g with stream := message, control := message.length } :=
  ⟨⟨hstream ▸ List.nil_prefix, fun hne => absurd hstream hne, fun h => Bool.noConfusion (hfinished.symm.trans h)⟩,
    rfl, rfl, rfl, rfl, rfl⟩

end Ledger

theorem take_drop_of_longer {α : Type*} {l l' : List α} (h : l <+: l') {pos n : Nat} (hn : pos + n ≤ l.length) :
    (l'.drop pos).take n = (l.drop pos).take n := by
  obtain ⟨rest, rfl⟩ := h
  rw [List.drop_append_of_le_length (by omega), List.take_append_of_le_length]
  rw [List.length_drop]
  omega

/-- What was true once stays true. -/
theorem Truthful.mono {g g' : Ledger} {seg : Segment} (h : Truthful g seg) (hle : g.Le g') : Truthful g' seg where
  short := h.short
  ack := by
    obtain ⟨a, hbefore, ha, hack⟩ := h.ack
    exact ⟨a, hle.takenBefore.trans hbefore, ha.trans hle.taken, hack⟩
  data hne := by
    obtain ⟨pos, hbefore, hseq, hend, hdata, hflags⟩ := h.data hne
    have hlen := hle.stream.length_le
    have hsome : g.stream ≠ [] := by
      rintro hnil
      have hpos := List.length_pos_of_ne_nil hne
      rw [hnil, List.length_nil] at hend
      omega
    refine ⟨pos, hle.unaBefore.trans hbefore, hseq, by omega, ?_, ?_⟩
    · rw [take_drop_of_longer hle.stream hend]
      exact hdata
    · rw [hle.control hsome]
      exact hflags
  fin hfin := by
    obtain ⟨hdata, hfinished, hseq⟩ := h.fin hfin
    obtain ⟨hfinished', hsame⟩ := hle.finished hfinished
    exact ⟨hdata, hfinished', hsame ▸ hseq⟩

theorem LiesAt.mono {g g' : Ledger} {pos : Nat} {seg : SSegment} (h : LiesAt g pos seg) (hle : g.Extends g')
    (hcontrol : g'.control = g.control) : LiesAt g' pos seg := by
  cases h with
  | data hflags hseq hpos => exact .data hflags hseq (hcontrol ▸ hpos)
  | ctl hflags hseq hpos => exact .ctl hflags hseq (hcontrol ▸ hpos)
  | fin hflags hzero hfinished hseq =>
    obtain ⟨hfinished', hsame⟩ := hle.finished hfinished
    exact .fin hflags hzero hfinished' (hsame ▸ hseq)
  | rst hflags hzero => exact .rst hflags hzero

/-- A segment grows by the one that would follow it. -/
theorem LiesAt.grow {g : Ledger} {pos pos' : Nat} {last new : SSegment} (hlast : LiesAt g pos last)
    (hnew : LiesAt g pos' new) (hpos : pos + last.len = pos') (hflags : last.flags = new.flags) :
    LiesAt g pos { last with len := last.len + new.len } := by
  have hkind {flag flag' : UInt8} (h : last.flags = flag) (h' : new.flags = flag') : flag = flag' :=
    h.symm.trans (hflags.trans h')
  cases hlast with
  | data hlast hseq hcontrol => exact .data hlast hseq hcontrol
  | ctl hlast hseq _ =>
    cases hnew with
    | ctl _ _ hcontrol => exact .ctl hlast hseq (by dsimp only; omega)
    | data hnew => exact absurd (hkind hlast hnew) (by decide)
    | fin hnew => exact absurd (hkind hlast hnew) (by decide)
    | rst hnew => exact absurd (hkind hlast hnew) (by decide)
  | fin hlast hzero hfinished hseq =>
    cases hnew with
    | fin _ hzero' => exact .fin hlast (by dsimp only; omega) hfinished hseq
    | data hnew => exact absurd (hkind hlast hnew) (by decide)
    | ctl hnew => exact absurd (hkind hlast hnew) (by decide)
    | rst hnew => exact absurd (hkind hlast hnew) (by decide)
  | rst hlast hzero =>
    cases hnew with
    | rst _ hzero' => exact .rst hlast (by dsimp only; omega)
    | data hnew => exact absurd (hkind hlast hnew) (by decide)
    | ctl hnew => exact absurd (hkind hlast hnew) (by decide)
    | fin hnew => exact absurd (hkind hlast hnew) (by decide)

namespace PseudoTcpSocket
variable {g g' : Ledger} {env : PseudoTcpEnv} {s t : PseudoTcpSocket}

/-- The queue takes data at the end of the stream, a segment without data anywhere. -/
theorem Queues.queue (h : Queues g s) (hgrows : g.Grows g') {data : List UInt8} {flags : UInt8} {n : Nat}
    (hstep : s.queue data flags = some (t, n)) (hstream : g'.stream = g.stream ++ s.accepts data)
    (hcontrol : g'.control ≤ g'.stream.length) (hold : g'.control = g.control ∨ s.slist = [])
    (hnew : LiesAt g' g.stream.length (s.newSegment data flags)) :
    Queues g' t ∧ Kept s t ∧ t.state = s.state ∧ n = (s.accepts data).length := by
  have hle := hgrows.le
  have huna := hgrows.una
  obtain ⟨sent, unsent, rfl, rfl, happended⟩ := queue_step hstep
  obtain ⟨hvalid, hbuffer, hcontents, hcount⟩ := h.valid.write (s.accepts data)
  have hall : (s.accepts data).length ≤ s.snd.sbuf.getWriteRemaining := List.length_take_le ..
  have htiles : Tiles SSegment.len (LiesAt g') g.una s.slist g.stream.length := by
    rcases hold with hsame | hnil
    · exact h.tiles.mono fun p seg _ hp _ _ => hp.mono hle.toExtends hsame
    · have hall := h.tiles
      rw [hnil] at hall ⊢
      exact hall
  refine ⟨{
    valid := hvalid
    small := hbuffer.symm ▸ h.small
    una := by
      have hfront := hle.stream.length_le
      have hold := h.una
      omega
    control := hcontrol
    contents := ?_
    sndUna := by rw [huna, hgrows.fins]; exact h.sndUna
    fins := ?_
    tiles := ?_
    taken := by rw [hgrows.taken]; exact h.taken
    unaBefore := by rw [huna, hgrows.unaBefore]; exact h.unaBefore
    takenBefore := by rw [hgrows.taken, hgrows.takenBefore]; exact h.takenBefore
    called := ?_ }, ⟨rfl, rfl, rfl, rfl⟩, rfl, ?_⟩
  · have hdrop : g'.stream.drop g'.una = g.stream.drop g.una ++ s.accepts data := by
      rw [hstream, huna, List.drop_append_of_le_length h.una]
    rw [hdrop, ← h.contents]
    exact hcontents.trans (by rw [List.take_of_length_le hall])
  · intro hpos
    rw [hgrows.fins] at hpos
    obtain ⟨hend, hfinished⟩ := h.fins hpos
    obtain ⟨hfinished', hsame⟩ := hle.finished hfinished
    rw [huna, hsame]
    exact ⟨hend, hfinished'⟩
  · have hhi : g'.stream.length = g.stream.length + (s.accepts data).length := by rw [hstream, List.length_append]
    rw [huna, hhi]
    rcases happended.grown with ⟨rfl, rfl⟩ | ⟨before, last, hunsent, hflags, -, rfl, rfl⟩ |
      ⟨before, last, hunsent, hsent, hflags, -, rfl, rfl⟩
    · have hsnoc := htiles.snoc hnew rfl
      rwa [slist, List.append_assoc] at hsnoc
    · rw [slist, hunsent, ← List.append_assoc, tiles_append] at htiles
      obtain ⟨mid, hbefore, hlast, hend⟩ := htiles
      have hsnoc := hbefore.snoc (hlast.grow hnew hend hflags) rfl
      rw [List.append_assoc] at hsnoc
      have hsum : mid + (last.len + (s.accepts data).length) = g.stream.length + (s.accepts data).length := by
        have hend' : mid + last.len = g.stream.length := hend
        omega
      rw [← hsum]
      exact hsnoc
    · rw [slist, hunsent, hsent, List.append_nil, tiles_append] at htiles
      obtain ⟨mid, hbefore, hlast, hend⟩ := htiles
      have hsnoc := hbefore.snoc (hlast.grow hnew hend hflags) rfl
      have hsum : mid + (last.len + (s.accepts data).length) = g.stream.length + (s.accepts data).length := by
        have hend' : mid + last.len = g.stream.length := hend
        omega
      rw [← hsum]
      refine Eq.mpr ?_ hsnoc
      rw [slist]
      simp only [withQueues, List.append_nil]
      rfl
  · intro bytes hmem
    obtain ⟨seg, hbytes, hconv, htrue⟩ := h.called bytes hmem
    exact ⟨seg, hbytes, hconv, htrue.mono hle⟩
  · rw [hcount, Nat.min_eq_left hall]

@[simp] theorem accepts_nil (s : PseudoTcpSocket) : s.accepts [] = [] := List.take_nil

/-- A reset changes nothing of what the ledger says. -/
theorem Queues.queueRstMessage (h : Queues g s) (hstep : s.queueRstMessage = some t) :
    Queues g t ∧ Kept s t ∧ t.state = s.state := by
  rw [PseudoTcpSocket.queueRstMessage] at hstep
  split_ifs at hstep
  obtain ⟨⟨u, n⟩, hqueue, rfl⟩ := Option.map_eq_some_iff.mp hstep
  obtain ⟨hu, hkept, hstate, -⟩ := h.queue (.refl g) hqueue (by rw [accepts_nil, List.append_nil])
    h.control (.inl rfl) (.rst rfl (by rw [newSegment, accepts_nil]; rfl))
  exact ⟨hu, hkept, hstate⟩

/-- The end of the stream as a sequence number. -/
theorem Queues.end_seq (h : Queues g s) (hfins : g.fins = 0) :
    s.snd.sndUna + UInt32.ofNat s.snd.sbuf.getBuffered = UInt32.ofNat g.stream.length := by
  have hlen := h.dataLength
  have huna := h.una
  have hend : g.stream.length = g.una + s.snd.sbuf.dataLength := by omega
  rw [h.sndUna, hfins, Nat.add_zero, PseudoTcpFifo.getBuffered, hend, UInt32.ofNat_add]

/-- A FIN finishes the stream. -/
theorem Queues.queueFinMessage (h : Queues g s) (hfins : g.fins = 0) (hstep : s.queueFinMessage = some t) :
    Queues { g with finished := true } t ∧ Kept s t ∧ t.state = s.state := by
  rw [PseudoTcpSocket.queueFinMessage] at hstep
  split_ifs at hstep
  obtain ⟨⟨u, n⟩, hqueue, rfl⟩ := Option.map_eq_some_iff.mp hstep
  have hempty : (s.newSegment [] flagFin).len = 0 := by rw [newSegment, accepts_nil]; rfl
  obtain ⟨hu, hkept, hstate, -⟩ := h.queue (.finish g) hqueue (by rw [accepts_nil, List.append_nil])
    h.control (.inl rfl) (.fin rfl hempty rfl (h.end_seq hfins))
  exact ⟨hu, hkept, hstate⟩

/-- Data of the application goes to the end of the stream. -/
theorem Queues.queueData (h : Queues g s) (hfins : g.fins = 0) (hfinished : g.finished = false) {data : List UInt8}
    {n : Nat} (hstep : s.queue data flagNone = some (t, n)) :
    Queues { g with stream := g.stream ++ s.accepts data } t ∧ Kept s t ∧ t.state = s.state ∧
      n = (s.accepts data).length := by
  have hcontrol := h.control
  refine h.queue (.append hfinished _) hstep rfl ?_ (.inl rfl) (.data rfl (h.end_seq hfins) h.control)
  dsimp only
  rw [List.length_append]
  omega

/-- Control data is taken as a whole. -/
theorem queue_accepts {data : List UInt8} {flags : UInt8} {n : Nat} (h : s.queue data flags = some (t, n))
    (hflags : flags ≠ flagNone) : s.accepts data = data := by
  rw [PseudoTcpSocket.queue] at h
  simp only [Option.ite_none_left_eq_some, not_and_or, not_lt] at h
  exact List.take_of_length_le (h.1.resolve_right fun hc => hc hflags)

/-- The connect message begins the stream. -/
theorem Queues.queueConnectMessage (h : Queues g s) (hfins : g.fins = 0) (hfinished : g.finished = false)
    (hstream : g.stream = []) (hslist : s.slist = []) (hstep : s.queueConnectMessage = some t) :
    Queues { g with stream := s.connectMessage, control := s.connectMessage.length } t ∧ Kept s t ∧
      t.state = s.state ∧ t.connectMessage = s.connectMessage := by
  obtain ⟨⟨u, n⟩, hqueue, rfl⟩ := Option.map_eq_some_iff.mp hstep
  have hs : Queues g { s with snd.sndWnd := UInt32.ofNat s.connectMessage.length } := { h with }
  have hput := queue_accepts hqueue (by decide)
  have hseq := hs.end_seq hfins
  obtain ⟨hu, hkept, hstate, -⟩ := hs.queue (.start hfinished hstream s.connectMessage) hqueue
    (by rw [hstream, hput]; rfl) (Nat.le_refl _) (.inr hslist)
    (.ctl rfl hseq (by rw [newSegment, hput, hstream]; exact (Nat.zero_add _).le))
  obtain ⟨sent, unsent, rfl, -, -⟩ := queue_step hqueue
  exact ⟨hu, ⟨hkept.rcv, hkept.conv, hkept.supportFinAck, hkept.shutdown⟩, hstate, rfl⟩

theorem Queues.closedown (h : Queues g s) {err : UInt32} {source : ClosedownSource}
    (hstep : closedown env s err source = some t) : Queues g t ∧ t.rcv = s.rcv ∧ t.conv = s.conv ∧ t.state = .closed := by
  rw [PseudoTcpSocket.closedown, Option.bind_eq_bind, Option.bind_eq_some_iff] at hstep
  obtain ⟨u, hreset, hwalk⟩ := hstep
  obtain ⟨hu, hrcv, hconv⟩ : Queues g u ∧ u.rcv = s.rcv ∧ u.conv = s.conv := by
    rw [sendReset] at hreset
    split_ifs at hreset
    · rw [Option.bind_eq_bind, Option.bind_eq_some_iff] at hreset
      obtain ⟨v, hqueue, hsend⟩ := hreset
      obtain ⟨hv, hkept, -⟩ := h.queueRstMessage hqueue
      obtain ⟨hu, hkept', -⟩ := hv.attemptSend hsend
      exact ⟨hu, hkept'.rcv.trans hkept.rcv, hkept'.conv.trans hkept.conv⟩
    · obtain rfl := Option.some.inj hreset
      exact ⟨{ h with }, rfl, rfl⟩
    · obtain rfl := Option.some.inj hreset
      exact ⟨h, rfl, rfl⟩
  obtain ⟨ht, hkept, hclosed⟩ := hu.closedownWalk hwalk
  exact ⟨ht, hkept.rcv.trans hrcv, hkept.conv.trans hconv, hclosed⟩

/-! Acknowledgements. -/

theorem freeAcked_tiles {n largest lo hi : Nat} {sent sent' unsent : List SSegment}
    (h : freeAcked n largest sent = some (m, sent')) (htiles : Tiles SSegment.len (LiesAt g) lo (sent ++ unsent) hi) :
    Tiles SSegment.len (LiesAt g) (lo + n) (sent' ++ unsent) hi := by
  induction sent generalizing n largest lo with
  | nil =>
    cases n with
    | zero =>
      rw [freeAcked] at h
      obtain ⟨-, rfl⟩ := Prod.mk.inj (Option.some.inj h)
      exact htiles
    | succ n => simp [freeAcked] at h
  | cons data rest ih =>
    cases n with
    | zero =>
      rw [freeAcked] at h
      obtain ⟨-, rfl⟩ := Prod.mk.inj (Option.some.inj h)
      exact htiles
    | succ n =>
      rw [freeAcked] at h
      split_ifs at h with hlt
      · obtain ⟨-, rfl⟩ := Prod.mk.inj (Option.some.inj h)
        obtain ⟨hdata, hrest⟩ := htiles
        have hend : lo + (n + 1) + (data.len - (n + 1)) = lo + data.len := by omega
        exact ⟨hdata.drop hlt _, hend ▸ hrest⟩
      · have hnext := ih h htiles.2
        have hsum : lo + data.len + (n + 1 - data.len) = lo + (n + 1) := by omega
        rwa [hsum] at hnext

end PseudoTcpSocket
end CarrierSdk
