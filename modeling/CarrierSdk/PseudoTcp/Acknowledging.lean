import CarrierSdk.PseudoTcp.SendQueue

/-! What a segment of the peer and the calls of the application do to the send queue: an acknowledgement moves its
front, the calls grow it at its end, and the state follows. -/
namespace CarrierSdk
open Tiling
namespace PseudoTcpSocket
variable {g g' : Ledger} {env : PseudoTcpEnv} {s t u : PseudoTcpSocket}

/-- The fields of timing, of congestion control and of notifications. -/
structure Tuning where
  shutdownReads : Bool
  error : UInt32
  bReadEnable : Bool
  bWriteEnable : Bool
  bOutgoing : Bool
  lastTraffic : UInt32
  sndWnd : UInt32
  lastsend : UInt32
  mss : UInt32
  msslevel : Nat
  largest : Nat
  mtuAdvise : UInt32
  rtoBase : UInt32
  tsRecent : UInt32
  rxRttvar : UInt32
  rxSrtt : UInt32
  rxRto : UInt32
  ssthresh : UInt32
  cwnd : UInt32
  dupAcks : UInt8
  recover : UInt32
  fastRecovery : Bool
  tAck : UInt32
  lastAckedTs : UInt32

def tuned (s : PseudoTcpSocket) (c : Tuning) : PseudoTcpSocket :=
  { s with
    shutdownReads := c.shutdownReads
    error := c.error
    bReadEnable := c.bReadEnable
    bWriteEnable := c.bWriteEnable
    bOutgoing := c.bOutgoing
    lastTraffic := c.lastTraffic
    snd.sndWnd := c.sndWnd
    snd.lastsend := c.lastsend
    mss := c.mss
    msslevel := c.msslevel
    largest := c.largest
    mtuAdvise := c.mtuAdvise
    rtoBase := c.rtoBase
    tsRecent := c.tsRecent
    rxRttvar := c.rxRttvar
    rxSrtt := c.rxSrtt
    rxRto := c.rxRto
    ssthresh := c.ssthresh
    cwnd := c.cwnd
    dupAcks := c.dupAcks
    recover := c.recover
    fastRecovery := c.fastRecovery
    tAck := c.tAck
    lastAckedTs := c.lastAckedTs }

def tuning (s : PseudoTcpSocket) : Tuning :=
  ⟨s.shutdownReads, s.error, s.bReadEnable, s.bWriteEnable, s.bOutgoing, s.lastTraffic, s.snd.sndWnd, s.snd.lastsend,
    s.mss, s.msslevel, s.largest, s.mtuAdvise, s.rtoBase, s.tsRecent, s.rxRttvar, s.rxSrtt, s.rxRto, s.ssthresh,
    s.cwnd, s.dupAcks, s.recover, s.fastRecovery, s.tAck, s.lastAckedTs⟩

/-- Nothing but such fields differs. -/
def Tuned (s t : PseudoTcpSocket) : Prop := t = s.tuned t.tuning

theorem Queues.tuned (h : Queues g s) (ht : Tuned s t) : Queues g t := by
  rw [ht]
  exact { h with }

theorem Tuned.kept (h : Tuned s t) : Kept s t := by
  rw [h]
  exact ⟨rfl, rfl, rfl, rfl⟩

theorem Tuned.state (h : Tuned s t) : t.state = s.state := by
  rw [h]
  rfl

theorem Tuned.slist (h : Tuned s t) : t.slist = s.slist := by
  rw [h]
  rfl

/-- What sending leaves as it is, unless the socket closes. -/
structure Stays (s t : PseudoTcpSocket) : Prop where
  rcv : t.rcv = s.rcv
  conv : t.conv = s.conv
  fate : t.state = .closed ∨ Kept s t ∧ t.state = s.state ∧ (s.slist = [] → t.slist = [])

theorem Stays.refl (s : PseudoTcpSocket) : Stays s s := ⟨rfl, rfl, .inr ⟨.refl s, rfl, id⟩⟩

theorem Stays.trans (h : Stays s t) (h' : Stays t u) : Stays s u where
  rcv := h'.rcv.trans h.rcv
  conv := h'.conv.trans h.conv
  fate := by
    rcases h'.fate with hclosed | ⟨hkept, hstate, hempty⟩
    · exact .inl hclosed
    · rcases h.fate with hclosed | ⟨hkept', hstate', hempty'⟩
      · exact .inl (hstate.trans hclosed)
      · exact .inr ⟨hkept'.trans hkept, hstate.trans hstate', fun hnil => hempty (hempty' hnil)⟩

theorem Stays.same (hkept : Kept s t) (hstate : t.state = s.state) (hslist : s.slist = [] → t.slist = []) : Stays s t :=
  ⟨hkept.rcv, hkept.conv, .inr ⟨hkept, hstate, hslist⟩⟩

theorem Tuned.stays (h : Tuned s t) : Stays s t := .same h.kept h.state h.slist.trans

theorem Stays.wrote (s : PseudoTcpSocket) (w : Written) : Stays s (s.wrote w) := .same (kept_wrote s w) rfl id

theorem Kept.stays (h : Kept s t) (hcloses : Closes s t) : Stays s t where
  rcv := h.rcv
  conv := h.conv
  fate := by
    rcases hcloses.state with hsame | hclosed
    · exact .inr ⟨h, hsame, hcloses.empty⟩
    · exact .inl hclosed

theorem Queues.sends (h : Queues g s) {sflags : SendFlags} (hstep : PseudoTcpSocket.attemptSend env s sflags = some t) :
    Queues g t ∧ Stays s t := by
  obtain ⟨ht, hkept, hcloses⟩ := h.attemptSend hstep
  exact ⟨ht, hkept.stays hcloses⟩

theorem Queues.closes (h : Queues g s) {err : UInt32} {source : ClosedownSource}
    (hstep : PseudoTcpSocket.closedown env s err source = some t) : Queues g t ∧ Stays s t ∧ t.state = .closed := by
  obtain ⟨ht, hrcv, hconv, hclosed⟩ := h.closedown hstep
  exact ⟨ht, ⟨hrcv, hconv, .inl hclosed⟩, hclosed⟩

/-! A segment that acknowledges. -/

/-- Congestion control and the timer at most transmit the head of slist again, and close where that fails. The
flag is whether they go on. -/
def Retransmits (env : PseudoTcpEnv) (s t : PseudoTcpSocket) (goesOn : Bool) : Prop :=
  goesOn = true ∧ Tuned s t ∨
  ∃ v u status, Tuned s v ∧ transmit env v v.slistHead = some (u, status) ∧
    (goesOn = false ∧ closedown env u status .closedownLocal = some t ∨ goesOn = true ∧ Tuned u t)

theorem Queues.retransmits (h : Queues g s) {goesOn : Bool} (hstep : Retransmits env s t goesOn) :
    Queues g t ∧ Stays s t ∧ if goesOn then Kept s t ∧ t.state = s.state else t.state = .closed := by
  obtain ⟨rfl, htuned⟩ | ⟨v, u, status, hv, htransmit, hrest⟩ := hstep
  · exact ⟨h.tuned htuned, htuned.stays, htuned.kept, htuned.state⟩
  · obtain ⟨hu, hkept, hstate⟩ := (h.tuned hv).transmit htransmit
    have hstays : Stays v u := .same hkept hstate fun hnil => absurd hnil (transmit_nonempty htransmit)
    obtain ⟨rfl, hclose⟩ | ⟨rfl, htuned⟩ := hrest
    · obtain ⟨ht, hstays', hclosed⟩ := hu.closes hclose
      exact ⟨ht, hv.stays.trans (hstays.trans hstays'), hclosed⟩
    · refine ⟨hu.tuned htuned, hv.stays.trans (hstays.trans htuned.stays), ?_⟩
      exact ⟨hv.kept.trans (hkept.trans htuned.kept), htuned.state.trans (hstate.trans hv.state)⟩

theorem congestionOnAck_step {nAcked : UInt32} {r : Bool} (h : congestionOnAck env s nAcked = some (t, r)) :
    Retransmits env s t r := by
  rw [congestionOnAck] at h
  split at h
  · split at h
    · obtain ⟨rfl, rfl⟩ := Prod.mk.inj (Option.some.inj h)
      exact .inl ⟨rfl, rfl⟩
    · simp only [Option.bind_eq_bind, Option.bind_eq_some_iff, Prod.exists] at h
      obtain ⟨u, status, htransmit, h⟩ := h
      refine .inr ⟨s, u, status, rfl, htransmit, ?_⟩
      split at h
      · obtain ⟨v, hclose, hv⟩ := Option.bind_eq_some_iff.mp h
        obtain ⟨rfl, rfl⟩ := Prod.mk.inj (Option.some.inj hv)
        exact .inl ⟨rfl, hclose⟩
      · obtain ⟨rfl, rfl⟩ := Prod.mk.inj (Option.some.inj h)
        exact .inr ⟨rfl, rfl⟩
  · dsimp only at h
    split_ifs at h
    · obtain ⟨rfl, rfl⟩ := Prod.mk.inj (Option.some.inj h)
      exact .inl ⟨rfl, rfl⟩
    · obtain ⟨rfl, rfl⟩ := Prod.mk.inj (Option.some.inj h)
      exact .inl ⟨rfl, rfl⟩

theorem duplicateAck_step {seg : Segment} {r : Bool} (h : duplicateAck env s seg = some (t, r)) :
    Retransmits env s t r := by
  rw [duplicateAck] at h
  dsimp only at h
  split at h
  · obtain ⟨rfl, rfl⟩ := Prod.mk.inj (Option.some.inj h)
    exact .inl ⟨rfl, rfl⟩
  split at h
  · split at h
    · split at h
      · simp only [Option.bind_eq_bind, Option.bind_eq_some_iff, Prod.exists] at h
        obtain ⟨u, status, htransmit, h⟩ := h
        refine .inr ⟨_, u, status, ?_, htransmit, ?_⟩
        · rfl
        split at h
        · obtain ⟨v, hclose, hv⟩ := Option.bind_eq_some_iff.mp h
          obtain ⟨rfl, rfl⟩ := Prod.mk.inj (Option.some.inj hv)
          exact .inl ⟨rfl, hclose⟩
        · obtain ⟨rfl, rfl⟩ := Prod.mk.inj (Option.some.inj h)
          exact .inr ⟨rfl, rfl⟩
      · obtain ⟨rfl, rfl⟩ := Prod.mk.inj (Option.some.inj h)
        exact .inl ⟨rfl, rfl⟩
    · split at h
      · obtain ⟨rfl, rfl⟩ := Prod.mk.inj (Option.some.inj h)
        exact .inl ⟨rfl, rfl⟩
      · obtain ⟨rfl, rfl⟩ := Prod.mk.inj (Option.some.inj h)
        exact .inl ⟨rfl, rfl⟩
  · obtain ⟨rfl, rfl⟩ := Prod.mk.inj (Option.some.inj h)
    exact .inl ⟨rfl, rfl⟩

theorem updateTimestamp_tuned (s : PseudoTcpSocket) (seg : Segment) : Tuned s (s.updateTimestamp seg) := by
  rw [updateTimestamp]
  split_ifs
  · rfl
  · rfl

theorem measureRtt_tuned {seg : Segment} {now : UInt32} (h : s.measureRtt seg now = some t) : Tuned s t := by
  rw [measureRtt] at h
  dsimp only at h
  split at h
  · split at h
    · obtain rfl := Option.some.inj h
      rfl
    · cases h
  · obtain rfl := Option.some.inj h
    rfl

/-- Telling of room in the send queue changes nothing of it. -/
theorem Queues.notifyWritable (h : Queues g s) : Queues g s.notifyWritable ∧ Kept s s.notifyWritable ∧
    s.notifyWritable.state = s.state ∧ s.notifyWritable.slist = s.slist := by
  rw [PseudoTcpSocket.notifyWritable]
  split
  · refine ⟨{ h with called := h.calledOther [.writable] fun bytes hmem => ?_ }, ⟨rfl, rfl, rfl, rfl⟩, rfl, rfl⟩
    cases List.mem_singleton.mp hmem
  · exact ⟨h, .refl s, rfl, rfl⟩

/-- The position of an acknowledgement that the peer could have sent. -/
structure Acknowledges (g : Ledger) (s : PseudoTcpSocket) (ack : UInt32) (a : Nat) : Prop where
  number : ack = UInt32.ofNat a
  new : g.una + g.fins < a
  bound : a ≤ g.stream.length + if g.finished then 1 else 0
  sentFin : g.finished = true → s.state.hasSentFin = true

/-- An acknowledgement moves the front of the queue to its position. A FIN is acknowledged behind everything. -/
theorem Queues.acceptAck (h : Queues g s) {seg : Segment} {now : UInt32} {a n : Nat} {isFinAck : Bool}
    (hack : Acknowledges g s seg.ack a) (hstep : PseudoTcpSocket.acceptAck s seg now = some (t, n, isFinAck)) :
    ∃ una fins, una + fins = a ∧ g.una ≤ una ∧ g.fins ≤ fins ∧ (isFinAck = true ↔ 0 < fins) ∧
      Queues { g with una := una, fins := fins } t ∧ Kept s t ∧ t.state = s.state ∧
      (s.slist = [] → t.slist = []) := by
  obtain ⟨hnumber, hnew, hbound, hsentFin⟩ := hack
  have huna := h.una
  have hlen := h.dataLength
  have hroom := h.valid.room
  have hsmall := h.small
  rw [maxWindow] at hsmall
  have hfins : g.fins = 0 := by
    by_contra hne
    obtain ⟨hend, hfinished⟩ := h.fins (Nat.pos_of_ne_zero hne)
    rw [hfinished, if_pos rfl] at hbound
    omega
  have hone : a ≤ g.stream.length + 1 := by
    split_ifs at hbound <;> omega
  have hacked : (seg.ack - s.snd.sndUna).toNat = a - g.una := by
    rw [hnumber, h.sndUna, hfins, Nat.add_zero]
    exact UInt32.toNat_ofNat_sub_of_le (by omega) (by omega)
  rw [PseudoTcpSocket.acceptAck, hacked, hlen] at hstep
  dsimp only at hstep
  generalize hfin : decide (a - g.una = g.stream.length - g.una + 1 ∧ s.state.hasSentFin = true) = fin at hstep
  obtain ⟨k, fins, hk, hsum, hiff, hend⟩ : ∃ k fins, (if fin = true then a - g.una - 1 else a - g.una) = k ∧
      g.una + k + fins = a ∧ (fin = true ↔ 0 < fins) ∧
      (0 < fins → g.una + k = g.stream.length ∧ g.finished = true) := by
    cases fin with
    | true =>
      have hfin := of_decide_eq_true hfin
      refine ⟨a - g.una - 1, 1, rfl, by omega, by simp, ?_⟩
      intro _
      refine ⟨by omega, ?_⟩
      by_contra hunfinished
      rw [if_neg hunfinished] at hbound
      omega
    | false =>
      refine ⟨a - g.una, 0, rfl, by omega, by simp, ?_⟩
      intro hpos
      cases hpos
  rw [hk, Option.bind_eq_bind, Option.bind_eq_some_iff] at hstep
  obtain ⟨sbuf, hconsume, hstep⟩ := hstep
  rw [Option.bind_eq_bind, Option.bind_eq_some_iff] at hstep
  obtain ⟨⟨largest, sent⟩, hfree, hstep⟩ := hstep
  obtain ⟨rfl, rfl, rfl⟩ := by simpa only [Option.some.injEq, Prod.mk.injEq] using hstep
  obtain ⟨hvalid, hcontents⟩ := h.valid.consumeReadData hconsume
  obtain ⟨hle, hsbuf⟩ := PseudoTcpFifo.consumeReadData_step hconsume
  have hle' : g.Le { g with una := g.una + k, fins := fins } := { Ledger.Le.refl g with }
  refine ⟨g.una + k, fins, hsum, Nat.le_add_right _ _, by omega, hiff, {
    valid := hvalid
    small := ?_
    una := by dsimp only; omega
    control := h.control
    contents := ?_
    sndUna := by dsimp only; rw [hnumber, hsum]
    fins := hend
    tiles := (freeAcked_tiles hfree h.tiles).mono fun _ _ _ hp _ _ => hp.mono hle'.toExtends rfl
    taken := h.taken
    unaBefore := h.unaBefore.trans (Nat.le_add_right _ _)
    takenBefore := h.takenBefore
    called := ?_ }, ⟨rfl, rfl, rfl, rfl⟩, rfl, ?_⟩
  · rw [hsbuf]
    exact h.small
  · rw [hcontents, h.contents, List.drop_drop]
  · intro bytes hmem
    obtain ⟨seg, hbytes, hconv, htrue⟩ := h.called bytes hmem
    exact ⟨seg, hbytes, hconv, htrue.mono hle'⟩
  · intro hnil
    obtain ⟨hsent, hunsent⟩ := List.append_eq_nil_iff.mp hnil
    rw [hsent] at hfree
    cases k with
    | zero =>
      rw [freeAcked] at hfree
      obtain ⟨-, rfl⟩ := Prod.mk.inj (Option.some.inj hfree)
      exact hunsent
    | succ k => simp [freeAcked] at hfree

/-- What the acknowledgement of an honest peer moves. -/
structure Moves (g : Ledger) (a una fins : Nat) (isFinAck : Bool) : Prop where
  position : una + fins = a ∧ g.una + g.fins < a ∨ una = g.una ∧ fins = g.fins
  forward : g.una ≤ una
  finForward : g.fins ≤ fins
  fin : isFinAck = true → 0 < fins
  finOnly : 0 < fins → 0 < g.fins ∨ isFinAck = true

theorem Moves.none (g : Ledger) (a : Nat) : Moves g a g.una g.fins false :=
  ⟨.inr ⟨rfl, rfl⟩, Nat.le_refl _, Nat.le_refl _, Bool.noConfusion, .inl⟩

theorem Queues.acknowledge (h : Queues g s) {seg : Segment} {a : Nat} {isFinAck goesOn : Bool}
    (hnumber : seg.ack = UInt32.ofNat a) (hbound : a ≤ g.stream.length + if g.finished then 1 else 0)
    (hsentFin : g.finished = true → s.state.hasSentFin = true)
    (hold : g.una + g.fins ≤ a + 2 ^ 31) (hnew : a < g.una + g.fins + 2 ^ 31)
    (hstep : PseudoTcpSocket.acknowledge env s seg = some (t, isFinAck, goesOn)) :
    ∃ una fins, Moves g a una fins isFinAck ∧ Queues { g with una := una, fins := fins } t ∧ Stays s t ∧
      if goesOn then Kept s t ∧ t.state = s.state else t.state = .closed ∨ una = g.una ∧ fins = g.fins := by
  rw [PseudoTcpSocket.acknowledge, hnumber, h.sndUna, larger_ofNat hnew hold] at hstep
  split at hstep
  · next hvaluable =>
    have hlt := of_decide_eq_true hvaluable.1
    split at hstep
    · obtain ⟨rfl, rfl, rfl⟩ := by simpa only [Option.some.injEq, Prod.mk.injEq] using hstep
      exact ⟨g.una, g.fins, .none g a, h, .refl _, .inr ⟨rfl, rfl⟩⟩
    · next u hrtt =>
      simp only [Option.bind_eq_bind, Option.bind_eq_some_iff, Prod.exists, Option.some.injEq, Prod.mk.injEq] at hstep
      obtain ⟨v, n, f, haccept, w, r, hcongestion, rfl, rfl, rfl⟩ := hstep
      have htuned := measureRtt_tuned hrtt
      have hack : Acknowledges g u seg.ack a := ⟨hnumber, hlt, hbound, htuned.state.symm ▸ hsentFin⟩
      obtain ⟨una, fins, hsum, hle, hfinle, hiff, hv, hkept, hstate, hempty⟩ := (h.tuned htuned).acceptAck hack haccept
      obtain ⟨hw, hstays, hgoes⟩ := hv.retransmits (congestionOnAck_step hcongestion)
      refine ⟨una, fins, ⟨.inl ⟨hsum, hlt⟩, hle, hfinle, hiff.mp, fun hpos => .inr (hiff.mpr hpos)⟩, hw,
        htuned.stays.trans ((Stays.same hkept hstate hempty).trans hstays), ?_⟩
      split_ifs at hgoes ⊢
      · obtain ⟨hkept', hstate'⟩ := hgoes
        exact ⟨htuned.kept.trans (hkept.trans hkept'), hstate'.trans (hstate.trans htuned.state)⟩
      · exact .inl hgoes
  · split at hstep
    · simp only [Option.bind_eq_bind, Option.bind_eq_some_iff, Prod.exists, Option.some.injEq, Prod.mk.injEq] at hstep
      obtain ⟨v, r, hduplicate, rfl, rfl, rfl⟩ := hstep
      obtain ⟨hv, hstays, hgoes⟩ := h.retransmits (duplicateAck_step hduplicate)
      refine ⟨g.una, g.fins, .none g a, hv, hstays, ?_⟩
      split_ifs at hgoes ⊢
      · exact hgoes
      · exact .inl hgoes
    · obtain ⟨rfl, rfl, rfl⟩ := by simpa only [Option.some.injEq, Prod.mk.injEq] using hstep
      exact ⟨g.una, g.fins, .none g a, h, .refl _, .refl _, rfl⟩

end PseudoTcpSocket
end CarrierSdk
