import CarrierSdk.PseudoTcp.ReceiveQueue

/-! What process does with a segment of a peer that keeps to the protocol: the send queue moves with what it
acknowledges, the receive queue with what it carries, and the state with its FIN. -/
namespace CarrierSdk
open Incoming
namespace PseudoTcpSocket
variable {p g g' : Ledger} {delivered : List UInt8} {env : PseudoTcpEnv} {s t u : PseudoTcpSocket} {seg : Segment} {a : Nat}

/-- The numbers of a FIN behind all data: one that is remembered, and the segment that ends before it. -/
def FinCounts (r : Incoming) (seg : Segment) : Prop :=
  r.rcvFin ≠ 0 ∧ (seg.data = [] ∨ seg.seq = r.rcvNxt ∧ seg.data.length ≤ r.rbuf.getWriteRemaining)

/-- The data of a segment is near what has been taken of the stream, and behind the connect message unless it is a
piece of that. -/
def Carries (p : Ledger) (taken : Nat) (s : PseudoTcpSocket) (seg : Segment) : Prop :=
  seg.data ≠ [] → ∃ pos, Piece p.stream seg.seq seg.data pos ∧ pos + seg.data.length < taken + 2 ^ 31 ∧
    taken < pos + 2 ^ 31 ∧
    (hasFlag seg.flags flagCtl = false ∧ p.control ≤ taken ∧ (s.supportFinAck = true ∨ s.shutdown = .sdNone) ∨
      hasFlag seg.flags flagCtl = true ∧ pos + seg.data.length ≤ p.control)

/-- A segment of the peer in time: its numbers lie within half of their range around what they are compared with, its
data does not overtake the connect message, and it is not mistaken for the last one before a FIN. -/
structure Arrives (p g : Ledger) (s : PseudoTcpSocket) (seg : Segment) (a : Nat) : Prop where
  ack : seg.ack = UInt32.ofNat a
  ackBound : a ≤ g.stream.length + if g.finished then 1 else 0
  ackOld : g.una + g.fins ≤ a + 2 ^ 31
  ackNew : a < g.una + g.fins + 2 ^ 31
  data : Carries p g.taken s seg
  fin : hasFlag seg.flags flagFin = true → seg.data = [] ∧ p.finished = true ∧ seg.seq = UInt32.ofNat p.stream.length
  finEnd : p.stream.length < g.taken + 2 ^ 31
  finCount : s.rcv.rcvNxt + UInt32.ofNat seg.data.length = s.rcv.rcvFin → s.rcv.rcvNxt ≠ 0 →
    hasFlag seg.flags flagFin = true ∨ FinCounts s.rcv seg
  lastAck : s.state = .lastAck → s.supportFinAck = true
  short : seg.data.length < 2 ^ 31

theorem Settled.ofTaken (h : Settled g s) (n : Nat) : Settled { g with taken := n } s :=
  ⟨⟨h.listen, h.finished, h.sentFin, h.finAcked⟩, h.lastAck⟩

theorem Queues.ofTaken (h : Queues g s) {n : Nat} (hn : g.taken ≤ n) {rcv : Incoming} (hnxt : rcv.rcvNxt = UInt32.ofNat n) :
    Queues { g with taken := n } { s with rcv := rcv } := by
  have hle : g.Le { g with taken := n } := { Ledger.Le.refl g with taken := hn }
  refine { h with
    tiles := h.tiles.mono fun _ _ _ hp _ _ => hp.mono hle.toExtends rfl
    taken := hnxt
    takenBefore := h.takenBefore.trans hn
    called := ?_ }
  intro bytes hmem
  obtain ⟨seg, hbytes, hconv, htrue⟩ := h.called bytes hmem
  exact ⟨seg, hbytes, hconv, htrue.mono hle⟩

/-- What a segment adds to what has been received. -/
theorem receives_onData {taken : Nat} (hr : Receives p delivered taken s.rcv) {bIgnoreData receivedFin : Bool}
    (hdata : seg.data ≠ [] → ∃ pos, Piece p.stream seg.seq seg.data pos ∧ pos + seg.data.length < taken + 2 ^ 31 ∧
      taken < pos + 2 ^ 31 ∧ (bIgnoreData = false ∧ p.control ≤ taken ∨
        bIgnoreData = true ∧ pos + seg.data.length ≤ p.control))
    (hfin : receivedFin = true → p.finished = true ∧ taken + seg.data.length = p.stream.length ∧
      (seg.data = [] ∨ FinCounts s.rcv seg)) (hshort : seg.data.length < 2 ^ 31)
    {rcv : Incoming} {bNewData recovered : Bool}
    (hstep : s.rcv.store (s.rcv.adjust seg.seq seg.data).1 (s.rcv.adjust seg.seq seg.data).2 bIgnoreData =
      some (rcv, bNewData, recovered)) :
    ∃ taken', taken ≤ taken' ∧ (receivedFin = true → taken' = p.stream.length + 1) ∧
      Receives p delivered taken' (if receivedFin then { rcv with rcvNxt := rcv.rcvNxt + 1 } else rcv) := by
  suffices hstore : ∃ taken', taken ≤ taken' ∧ Receives p delivered taken' rcv ∧
      (receivedFin = true → taken' = p.stream.length) by
    obtain ⟨taken', hle, hr', hall⟩ := hstore
    cases receivedFin with
    | false => exact ⟨taken', hle, fun hc => Bool.noConfusion hc, hr'⟩
    | true =>
      have hall := hall rfl
      exact ⟨taken' + 1, by omega, fun _ => by rw [hall], hr'.takeFin (hfin rfl).1 hall⟩
  have hsame (hreceived : receivedFin = true) (hne : seg.data ≠ []) :
      s.rcv.adjust seg.seq seg.data = (seg.seq, seg.data) ∧ seg.seq = s.rcv.rcvNxt := by
    obtain ⟨hseq, hfits⟩ := ((hfin hreceived).2.2.resolve_left hne).2.resolve_left hne
    exact ⟨adjust_inSequence hseq hfits (by omega), hseq⟩
  have hnothing (hnil : (s.rcv.adjust seg.seq seg.data).2 = []) : Stored p delivered taken s.rcv rcv
      (s.rcv.adjust seg.seq seg.data).1 (s.rcv.adjust seg.seq seg.data).2 := by
    rw [Incoming.store, if_pos hnil] at hstep
    obtain ⟨rfl, -⟩ := Prod.mk.inj (Option.some.inj hstep)
    exact .nothing hr hnil
  by_cases hne : seg.data = []
  · have hnil : (s.rcv.adjust seg.seq seg.data).2 = [] := by
      rw [hne, adjust_nil]
    rw [Incoming.store, if_pos hnil] at hstep
    obtain ⟨rfl, -⟩ := Prod.mk.inj (Option.some.inj hstep)
    refine ⟨taken, Nat.le_refl _, hr, fun hreceived => ?_⟩
    have hend := (hfin hreceived).2.1
    rwa [hne, List.length_nil, Nat.add_zero] at hend
  obtain ⟨pos, hpiece, hnew, hold, hkind⟩ := hdata hne
  have hstored : Stored p delivered taken s.rcv rcv (s.rcv.adjust seg.seq seg.data).1 (s.rcv.adjust seg.seq seg.data).2 := by
    rcases adjust_spec hpiece hr.nxt hnew hold with hnil | ⟨pos', hadj⟩
    · exact hnothing hnil
    · obtain ⟨rfl, hbegun⟩ | ⟨rfl, hcontrol⟩ := hkind
      · exact hr.store hadj hbegun hstep
      · exact hr.ignore hadj hcontrol hstep
  obtain ⟨taken', hle, hr', hforward, hbound⟩ := hstored
  refine ⟨taken', hle, hr', fun hreceived => ?_⟩
  obtain ⟨hadjust, hseq⟩ := hsame hreceived hne
  have hend := (hfin hreceived).2.1
  rw [hadjust] at hforward hbound
  have hforward := hforward hseq
  have hbound := hbound hne
  dsimp only at hforward hbound
  omega

/-- The data of a segment is taken or waits, and what can be sent is sent. -/
theorem Queues.onReceiveData (hq : Queues g s) (hs : Settled g s) (hr : Receives p delivered g.taken s.rcv)
    {receivedFin : Bool}
    (hdata : Carries p g.taken s seg)
    (hfin : receivedFin = true → p.finished = true ∧ g.taken + seg.data.length = p.stream.length ∧
      (seg.data = [] ∨ FinCounts s.rcv seg)) (hshort : seg.data.length < 2 ^ 31)
    (hstep : receiveData env s seg receivedFin = some t) :
    ∃ n, g.taken ≤ n ∧ (receivedFin = true → n = p.stream.length + 1) ∧ Queues { g with taken := n } t ∧
      Settled { g with taken := n } t ∧ Receives p delivered n t.rcv ∧ (t.state = s.state ∨ t.state = .closed) ∧
      t.conv = s.conv := by
  rw [receiveData] at hstep
  simp only [Option.bind_eq_bind, Option.bind_eq_some_iff, Prod.exists] at hstep
  obtain ⟨rcv, bNewData, recovered, hstore, u, hsend, hlast⟩ := hstep
  have hdata' : seg.data ≠ [] → ∃ pos, Piece p.stream seg.seq seg.data pos ∧ pos + seg.data.length < g.taken + 2 ^ 31 ∧
      g.taken < pos + 2 ^ 31 ∧
      ((hasFlag seg.flags flagCtl || (!s.supportFinAck && decide (s.shutdown ≠ .sdNone))) = false ∧ p.control ≤ g.taken ∨
        (hasFlag seg.flags flagCtl || (!s.supportFinAck && decide (s.shutdown ≠ .sdNone))) = true ∧
          pos + seg.data.length ≤ p.control) := by
    intro hne
    obtain ⟨pos, hpiece, hnew, hold, ⟨hctl, hbegun, hheard⟩ | ⟨hctl, hcontrol⟩⟩ := hdata hne
    · refine ⟨pos, hpiece, hnew, hold, .inl ⟨?_, hbegun⟩⟩
      rcases hheard with hfinAck | hnone
      · rw [hctl, hfinAck]
        rfl
      · rw [hctl, hnone, Bool.false_or]
        exact Bool.and_false _
    · exact ⟨pos, hpiece, hnew, hold, .inr ⟨by rw [hctl, Bool.true_or], hcontrol⟩⟩
  obtain ⟨n, hn, hreceived, hr'⟩ := receives_onData hr hdata' hfin hshort hstore
  obtain ⟨hu, hstays⟩ := (hq.ofTaken hn hr'.nxt).sends hsend
  have hset := ((hs.ofTaken n).congr (t := { s with rcv := if receivedFin then { rcv with rcvNxt := rcv.rcvNxt + 1 } else rcv })
    rfl (fun _ => id) rfl).stays hstays
  have hstate : u.state = s.state ∨ u.state = .closed := by
    rcases hstays.fate with hclosed | ⟨-, hsame, -⟩
    · exact .inr hclosed
    · exact .inl hsame
  have hrcv := hstays.rcv
  dsimp only at hrcv
  rw [← hrcv] at hr'
  refine ⟨n, hn, hreceived, ?_⟩
  split_ifs at hlast
  · obtain rfl := Option.some.inj hlast
    refine ⟨{ hu with called := hu.calledOther [.readable] fun bytes hmem => ?_ }, hset.congr rfl (fun _ => id) rfl,
      hr', hstate, hstays.conv⟩
    cases List.mem_singleton.mp hmem
  · obtain rfl := Option.some.inj hlast
    exact ⟨hu, hset, hr', hstate, hstays.conv⟩

/-! The stages of process behind the acknowledgement. -/

/-- Behind the acknowledgement of a segment: what the state says, with a FIN that may just have been acknowledged. -/
structure Acked (g : Ledger) (s : PseudoTcpSocket) (isFinAck : Bool) : Prop where
  queues : Queues g s
  standing : Standing g s
  fin : isFinAck = true → 0 < g.fins
  lastAck : s.state = .lastAck → isFinAck = false → g.fins = 0

theorem Acked.establish {isFinAck bConnect : Bool} (h : Acked g s isFinAck) (hstep : s.establish bConnect = some t) :
    Acked g t isFinAck ∧ Kept s t ∧ (t.state.tookFin = true → s.state.tookFin = true) := by
  rw [PseudoTcpSocket.establish] at hstep
  split at hstep
  · next hreceived =>
    obtain rfl := setStateEstablished_step hstep
    obtain ⟨hopen, hfins⟩ := h.standing.unfinished h.queues (by rw [hreceived.1]; rfl)
    have hset : Settled g s.openedWith := .begins hopen hfins rfl PseudoTcpState.noConfusion
    exact ⟨⟨h.queues.openedWith, hset.toStanding, h.fin, fun hl => PseudoTcpState.noConfusion hl⟩, ⟨rfl, rfl, rfl, rfl⟩,
      fun hc => Bool.noConfusion hc⟩
  · obtain rfl := Option.some.inj hstep
    exact ⟨h, .refl s, id⟩

def withFin (s : PseudoTcpSocket) (rcvFin : UInt32) : PseudoTcpSocket := { s with rcv.rcvFin := rcvFin }

/-- The sequence number of a FIN, once the flag of a segment is looked at. -/
def finOf (s : PseudoTcpSocket) (seg : Segment) : UInt32 :=
  if hasFlag seg.flags flagFin then seg.seq else s.rcv.rcvFin

theorem checkFin_step {isFinAck : Bool} {r : Option Bool} (hdata : hasFlag seg.flags flagFin = true → seg.data = [])
    (h : s.checkFin seg isFinAck = some (t, r)) :
    s.supportFinAck = false ∧ t = s ∧ r = some false ∨
    ∃ receivedFin, r = some receivedFin ∧ t = (s.withFin (s.finOf seg)).withState (s.state.afterFin isFinAck receivedFin) ∧
      (receivedFin = true → s.rcv.rcvNxt ≠ 0 ∧ s.rcv.rcvNxt + UInt32.ofNat seg.data.length = s.finOf seg) := by
  rw [checkFin] at h
  split at h
  swap
  · next hno =>
    obtain ⟨rfl, rfl⟩ := Prod.mk.inj (Option.some.inj h)
    exact .inl ⟨Bool.not_eq_true _ |>.mp hno, rfl, rfl⟩
  have hset : (if hasFlag seg.flags flagFin = true then { s with rcv.rcvFin := seg.seq } else s) = s.withFin (s.finOf seg) := by
    rw [finOf]
    split <;> rfl
  rw [hset] at h
  dsimp only at h
  split at h
  · next hboth => exact absurd (hdata hboth.1) hboth.2
  obtain ⟨u, htransition, hu⟩ := Option.map_eq_some_iff.mp h
  obtain ⟨rfl, rfl⟩ := Prod.mk.inj hu
  exact .inr ⟨_, rfl, finTransition_step htransition, fun hreceived => of_decide_eq_true hreceived⟩

/-- A FIN that counts stands behind everything received, with this segment. -/
theorem fin_behind {taken : Nat} (hr : Receives p delivered taken s.rcv)
    (hfin : hasFlag seg.flags flagFin = true → seg.data = [] ∧ p.finished = true ∧ seg.seq = UInt32.ofNat p.stream.length)
    (hend : p.stream.length < taken + 2 ^ 31)
    (hcount : s.rcv.rcvNxt + UInt32.ofNat seg.data.length = s.rcv.rcvFin → s.rcv.rcvNxt ≠ 0 →
      hasFlag seg.flags flagFin = true ∨ FinCounts s.rcv seg)
    (hshort : seg.data.length < 2 ^ 31) (hnxt : s.rcv.rcvNxt ≠ 0)
    (hlast : s.rcv.rcvNxt + UInt32.ofNat seg.data.length = s.finOf seg) :
    p.finished = true ∧ taken + seg.data.length = p.stream.length ∧ (seg.data = [] ∨ FinCounts (s.withFin (s.finOf seg)).rcv seg) := by
  have hbound := hr.bound
  have hone : taken ≤ p.stream.length + 1 := by
    split_ifs at hbound <;> omega
  have hpos : s.rcv.rcvNxt + UInt32.ofNat seg.data.length = UInt32.ofNat (taken + seg.data.length) :=
    UInt32.add_ofNat_of_eq hr.nxt seg.data.length
  by_cases hflag : hasFlag seg.flags flagFin = true
  · obtain ⟨hnil, hfinished, hseq⟩ := hfin hflag
    rw [finOf, if_pos hflag, hpos, hseq] at hlast
    exact ⟨hfinished, UInt32.ofNat_inj_near hlast (by omega) (by omega), .inl hnil⟩
  · have hsame : s.finOf seg = s.rcv.rcvFin := if_neg hflag
    rw [hsame] at hlast ⊢
    have hcounts := (hcount hlast hnxt).resolve_left hflag
    obtain hzero | ⟨hfinished, hrcvFin⟩ := hr.fin
    · exact absurd hzero hcounts.1
    · rw [hpos, hrcvFin] at hlast
      exact ⟨hfinished, UInt32.ofNat_inj_near hlast (by omega) (by omega), .inr hcounts⟩

theorem Receives.withFin {taken : Nat} (hr : Receives p delivered taken s.rcv)
    (hfin : hasFlag seg.flags flagFin = true → seg.data = [] ∧ p.finished = true ∧ seg.seq = UInt32.ofNat p.stream.length) :
    Receives p delivered taken (s.withFin (s.finOf seg)).rcv := by
  refine { hr with fin := ?_ }
  simp only [PseudoTcpSocket.withFin, finOf]
  split
  · next hflag => exact .inr (hfin hflag).2
  · exact hr.fin

/-- The state machine behind the acknowledgement. The flag tells whether the FIN of the peer is taken. -/
theorem Acked.checkFin {isFinAck : Bool} {r : Option Bool} (h : Acked g s isFinAck) (hr : Receives p delivered g.taken s.rcv)
    (hfin : hasFlag seg.flags flagFin = true → seg.data = [] ∧ p.finished = true ∧ seg.seq = UInt32.ofNat p.stream.length)
    (hend : p.stream.length < g.taken + 2 ^ 31)
    (hcount : s.rcv.rcvNxt + UInt32.ofNat seg.data.length = s.rcv.rcvFin → s.rcv.rcvNxt ≠ 0 →
      hasFlag seg.flags flagFin = true ∨ FinCounts s.rcv seg)
    (hshort : seg.data.length < 2 ^ 31) (hstep : s.checkFin seg isFinAck = some (t, r)) :
    ∃ receivedFin, r = some receivedFin ∧ Queues g t ∧ Settled g t ∧ Receives p delivered g.taken t.rcv ∧
      t.conv = s.conv ∧ t.supportFinAck = s.supportFinAck ∧ t.shutdown = s.shutdown ∧
      (t.state.tookFin = true → receivedFin = true ∨ s.state.tookFin = true) ∧
      (receivedFin = true → p.finished = true ∧ g.taken + seg.data.length = p.stream.length ∧
        (seg.data = [] ∨ FinCounts t.rcv seg)) := by
  rcases checkFin_step (fun hflag => (hfin hflag).1) hstep with ⟨hno, rfl, rfl⟩ | ⟨receivedFin, rfl, rfl, hlast⟩
  · refine ⟨false, rfl, h.queues, ⟨h.standing, ?_⟩, hr, rfl, rfl, rfl, .inr, fun hc => Bool.noConfusion hc⟩
    intro _ hyes
    rw [hno] at hyes
    cases hyes
  · have hq : Queues g ((s.withFin (s.finOf seg)).withState (s.state.afterFin isFinAck receivedFin)) := { h.queues with }
    have hstanding : Standing g (s.withFin (s.finOf seg)) :=
      ⟨h.standing.listen, h.standing.finished, h.standing.sentFin, h.standing.finAcked⟩
    refine ⟨receivedFin, rfl, hq, hstanding.afterFin h.fin h.lastAck receivedFin, Receives.withFin hr hfin, rfl, rfl, rfl,
      PseudoTcpState.afterFin_tookFin, fun hreceived => ?_⟩
    obtain ⟨hnxt, hcounts⟩ := hlast hreceived
    exact fin_behind hr hfin hend hcount hshort hnxt hcounts

/-- The state behind a FIN of the peer: everything of it has been received. -/
def TookFin (p g : Ledger) (s : PseudoTcpSocket) : Prop :=
  s.state.tookFin = true → g.taken = p.stream.length + 1

/-- What a segment leaves of a socket, with the ledger that it moves. -/
structure Processed (p g : Ledger) (delivered : List UInt8) (a : Nat) (s t : PseudoTcpSocket) (g' : Ledger) : Prop where
  queues : Queues g' t
  settled : Settled g' t
  receives : Receives p delivered g'.taken t.rcv
  tookFin : TookFin p g' t
  starts : g'.stream = g.stream ∧ g'.control = g.control ∨
    s.state = .listen ∧ g'.control = g'.stream.length
  le : g.Le g'
  forward : g.una ≤ g'.una
  acked : g'.una + g'.fins = a ∨ g'.una = g.una ∧ g'.fins = g.fins
  before : g'.unaBefore = g.unaBefore ∧ g'.takenBefore = g.takenBefore
  conv : t.conv = s.conv

theorem tookFin_closed (hclosed : t.state = .closed) : TookFin p g t := by
  intro htook
  rw [hclosed] at htook
  cases htook

/-- Where process returns early, nothing is received. -/
theorem Called.processed (h : Called g s t) (hr : Receives p delivered g.taken s.rcv) (htook : TookFin p g t) (a : Nat) :
    Processed p g delivered a s t g :=
  ⟨h.queues, h.settled, h.rcv.symm ▸ hr, htook, .inl ⟨rfl, rfl⟩, .refl g, Nat.le_refl _, .inr ⟨rfl, rfl⟩, ⟨rfl, rfl⟩, h.conv⟩

theorem Queues.onSegment (hq : Queues g s) (hs : Settled g s) (hr : Receives p delivered g.taken s.rcv)
    (htook : TookFin p g s) (harr : Arrives p g s seg a) {r : Bool} (hstep : process env s seg = some (t, r)) :
    ∃ g', Processed p g delivered a s t g' := by
  rw [process] at hstep
  split at hstep
  · obtain ⟨rfl, rfl⟩ := Prod.mk.inj (Option.some.inj hstep)
    exact ⟨g, Called.processed (.refl hq hs) hr htook a⟩
  have hq0 : Queues g (s.heard env.now) := { hq with }
  have hs0 : Settled g (s.heard env.now) := hs.congr rfl (fun _ => id) rfl
  have hr0 : Receives p delivered g.taken (s.heard env.now).rcv := { hr with }
  have hclosing {err : UInt32} {source : ClosedownSource} (hclose : PseudoTcpSocket.closedown env (s.heard env.now) err source = some t) :
      ∃ g', Processed p g delivered a s t g' := by
    obtain ⟨ht, hstays, hclosed⟩ := hq0.closes hclose
    exact ⟨g, ht, .closed hclosed, hstays.rcv.symm ▸ hr0, tookFin_closed hclosed, .inl ⟨rfl, rfl⟩, .refl g, Nat.le_refl _,
      .inr ⟨rfl, rfl⟩, ⟨rfl, rfl⟩, hstays.conv⟩
  dsimp only at hstep
  split at hstep
  · split at hstep
    · obtain ⟨rfl, rfl⟩ := Prod.mk.inj (Option.some.inj hstep)
      exact ⟨g, hq0, hs0, hr0, htook, .inl ⟨rfl, rfl⟩, .refl g, Nat.le_refl _, .inr ⟨rfl, rfl⟩, ⟨rfl, rfl⟩, rfl⟩
    · obtain ⟨u, hclose, hlast⟩ := Option.bind_eq_some_iff.mp hstep
      obtain ⟨rfl, rfl⟩ := Prod.mk.inj (Option.some.inj hlast)
      exact hclosing hclose
  split at hstep
  · obtain ⟨u, hclose, hlast⟩ := Option.bind_eq_some_iff.mp hstep
    obtain ⟨rfl, rfl⟩ := Prod.mk.inj (Option.some.inj hlast)
    exact hclosing hclose
  simp only [Option.bind_eq_bind, Option.bind_eq_some_iff, Prod.exists] at hstep
  obtain ⟨s1, connects, hcontrol, hstep⟩ := hstep
  have hlast0 : (s.heard env.now).state = .lastAck → g.fins = 0 := fun hl => hs.lastAck hl (harr.lastAck hl)
  obtain ⟨g1, hc, hplain⟩ := hq0.onControl hs0.toStanding hlast0 hr0.scale hcontrol
  have htaken : g1.taken = g.taken := hc.grows.taken
  have hr1 : Receives p delivered g1.taken s1.rcv := by
    rw [htaken, hc.rcv]
    exact hr0
  have htook1 : s1.state.tookFin = true → g1.taken = p.stream.length + 1 := by
    intro htook1
    rw [htaken]
    refine htook ?_
    rcases hc.state with hsame | ⟨-, hnew⟩ | ⟨-, hnew⟩
    · rwa [hsame] at htook1
    · rw [hnew] at htook1
      cases htook1
    · rw [hnew] at htook1
      cases htook1
  have hstarts : g1.stream = g.stream ∧ g1.control = g.control ∨ s.state = .listen ∧ g1.control = g1.stream.length := by
    rcases hc.starts with rfl | ⟨hlisten, message, rfl⟩
    · exact .inl ⟨rfl, rfl⟩
    · exact .inr ⟨hlisten, rfl⟩
  have hset1 : Settled g1 s1 := ⟨hc.standing, fun hl _ => hc.lastAck hl⟩
  cases connects with
  | none =>
    obtain ⟨rfl, rfl⟩ := Prod.mk.inj (Option.some.inj hstep)
    exact ⟨g1, hc.queues, hset1, hr1, htook1, hstarts, hc.grows.le, hc.grows.una.ge,
      .inr ⟨hc.grows.una, hc.grows.fins⟩, ⟨hc.grows.unaBefore, hc.grows.takenBefore⟩, hc.conv⟩
  | some bConnect =>
  dsimp only at hstep
  obtain ⟨⟨s2, isFinAck, goesOn⟩, hack, hstep⟩ := Option.bind_eq_some_iff.mp hstep
  have htuned := s1.updateTimestamp_tuned seg
  have hbound1 : a ≤ g1.stream.length + if g1.finished then 1 else 0 := by
    have hbound := harr.ackBound
    have hlen := hc.grows.stream.length_le
    by_cases hfinished : g.finished = true
    · obtain ⟨hfinished', -⟩ := hc.grows.finished hfinished
      rw [if_pos hfinished] at hbound
      rw [if_pos hfinished']
      omega
    · rw [if_neg hfinished] at hbound
      omega
  obtain ⟨una, fins, hmoves, hq2, hstays, hgoes⟩ := (hc.queues.tuned htuned).acknowledge harr.ack hbound1
    (hc.standing.stays htuned.stays).finished (by rw [hc.grows.una, hc.grows.fins]; exact harr.ackOld)
    (by rw [hc.grows.una, hc.grows.fins]; exact harr.ackNew) hack
  have hstays := htuned.stays.trans hstays
  have hforward : g.una ≤ una := hc.grows.una ▸ hmoves.forward
  have hacked : una + fins = a ∨ una = g.una ∧ fins = g.fins := by
    rcases hmoves.position with ⟨hsum, -⟩ | ⟨hu, hf⟩
    · exact .inl hsum
    · exact .inr ⟨hu.trans hc.grows.una, hf.trans hc.grows.fins⟩
  have hle2 : g.Le { g1 with una := una, fins := fins } := { hc.grows.le with }
  have hr2 : Receives p delivered g1.taken s2.rcv := hstays.rcv.symm ▸ hr1
  cases goesOn with
  | false =>
    obtain ⟨rfl, rfl⟩ := Prod.mk.inj (Option.some.inj hstep)
    have hset2 : Settled { g1 with una := una, fins := fins } s2 := by
      rcases hgoes with hclosed | ⟨rfl, rfl⟩
      · exact .closed hclosed
      · exact hset1.stays hstays
    refine ⟨_, hq2, hset2, hr2, ?_, hstarts, hle2, hforward, hacked,
      ⟨hc.grows.unaBefore, hc.grows.takenBefore⟩, hstays.conv.trans hc.conv⟩
    intro htook2
    rcases hstays.fate with hclosed | ⟨-, hsame, -⟩
    · exact tookFin_closed hclosed htook2
    · exact htook1 (hsame ▸ htook2)
  | true =>
  obtain ⟨hkept, hstate⟩ : Kept (s1.updateTimestamp seg) s2 ∧ s2.state = (s1.updateTimestamp seg).state := hgoes
  have hstate2 : s2.state = s1.state := hstate.trans htuned.state
  have hkept2 : Kept s1 s2 := htuned.kept.trans hkept
  have hacked2 : Acked { g1 with una := una, fins := fins } s2 isFinAck := by
    have hstanding := hc.standing.stays hstays
    refine ⟨hq2, ⟨hstanding.listen, hstanding.finished, hstanding.sentFin, ?_⟩, hmoves.fin, ?_⟩
    · intro hf
      exact (hstanding.finAcked hf).trans_le hmoves.finForward
    · intro hl hno
      by_contra hne
      rcases hmoves.finOnly (Nat.pos_of_ne_zero hne) with hbefore | hnow
      · rw [hc.lastAck (hstate2 ▸ hl)] at hbefore
        cases hbefore
      · rw [hno] at hnow
        cases hnow
  dsimp only at hstep
  obtain ⟨s3, hestablish, hstep⟩ := Option.bind_eq_some_iff.mp hstep
  obtain ⟨⟨s4, fin⟩, hcheck, hstep⟩ := Option.bind_eq_some_iff.mp hstep
  obtain ⟨hacked3, hkept3, htook3⟩ := hacked2.establish hestablish
  have hrcv3 : s3.rcv = (s.heard env.now).rcv := hkept3.rcv.trans (hkept2.rcv.trans hc.rcv)
  have hr3 : Receives p delivered g1.taken s3.rcv := hkept3.rcv.symm ▸ hr2
  obtain ⟨receivedFin, rfl, hq4, hset4, hr4, hconv4, hfinAck4, hshutdown4, htook4, hfin4⟩ :=
    hacked3.checkFin hr3 harr.fin (by rw [show g1.taken = g.taken from htaken]; exact harr.finEnd)
      (by rw [hrcv3]; exact harr.finCount) harr.short hcheck
  obtain ⟨s5, hreceive, hlast⟩ := Option.bind_eq_some_iff.mp hstep
  obtain ⟨rfl, rfl⟩ := Prod.mk.inj (Option.some.inj hlast)
  obtain ⟨hq5, hkept5, hstate5, hslist5⟩ := hq4.notifyWritable
  have hset5 := hset4.congr hstate5 (fun _ hnil => hslist5.trans hnil) hkept5.supportFinAck
  have hdata5 : Carries p g1.taken s4.notifyWritable seg := by
    intro hne
    obtain ⟨pos, hpiece, hnew, hold, hkind⟩ := harr.data hne
    rw [htaken]
    refine ⟨pos, hpiece, hnew, hold, hkind.imp_left fun ⟨hctl, hbegun, hheard⟩ => ⟨hctl, hbegun, ?_⟩⟩
    have hsame1 := hplain hctl
    subst hsame1
    rw [hkept5.supportFinAck, hkept5.shutdown, hfinAck4, hshutdown4, hkept3.supportFinAck, hkept3.shutdown,
      hkept2.supportFinAck, hkept2.shutdown]
    exact hheard
  obtain ⟨n, hn, hreceived, hq6, hset6, hr6, hstate6, hconv6⟩ := hq5.onReceiveData hset5 (hkept5.rcv.symm ▸ hr4) hdata5
    (hkept5.rcv.symm ▸ hfin4) harr.short hreceive
  refine ⟨_, hq6, hset6, hr6, ?_, hstarts, { hle2 with taken := hc.grows.taken.ge.trans hn }, hforward, hacked,
    ⟨hc.grows.unaBefore, hc.grows.takenBefore⟩, hconv6.trans (hkept5.conv.trans (hconv4.trans (hkept3.conv.trans (hkept2.conv.trans hc.conv))))⟩
  intro htook6
  rcases hstate6 with hsame | hclosed
  · rw [hsame, hstate5] at htook6
    rcases htook4 htook6 with hnow | hbefore
    · exact hreceived hnow
    · have hall := htook1 (hstate2 ▸ htook3 hbefore)
      have hbound6 := hr6.bound
      have hn : g1.taken ≤ n := hn
      dsimp only at hbound6 ⊢
      split_ifs at hbound6 <;> omega
  · exact tookFin_closed hclosed htook6

end PseudoTcpSocket
end CarrierSdk
