import CarrierSdk.PseudoTcp.Acknowledging

/-! The states of the socket along its calls: what is queued in which state, and what a connect message, a FIN and
the calls of the application change. -/
namespace CarrierSdk
namespace PseudoTcpState

/-- The state machine of a FIN received and a FIN acknowledged. -/
def afterFin (state : PseudoTcpState) (isFinAck receivedFin : Bool) : PseudoTcpState :=
  match state with
  | .established => if receivedFin then .closeWait else .established
  | .closing => if isFinAck then .timeWait else .closing
  | .lastAck => if isFinAck then .closed else .lastAck
  | .finWait1 =>
    if isFinAck && receivedFin then .timeWait else if isFinAck then .finWait2 else if receivedFin then .closing else .finWait1
  | .finWait2 => if receivedFin then .timeWait else .finWait2
  | .listen => .listen
  | .synSent => .synSent
  | .synReceived => .synReceived
  | .timeWait => .timeWait
  | .closed => .closed
  | .closeWait => .closeWait

variable {state : PseudoTcpState} {isFinAck receivedFin : Bool}

theorem afterFin_hasSentFin : (state.afterFin isFinAck receivedFin).hasSentFin = state.hasSentFin := by
  cases state <;> cases isFinAck <;> cases receivedFin <;> rfl

theorem afterFin_listen (h : state.afterFin isFinAck receivedFin = .listen) : state = .listen := by
  cases state <;> cases isFinAck <;> cases receivedFin <;> first | rfl | cases h

theorem afterFin_closed : afterFin .closed isFinAck receivedFin = .closed := by
  cases isFinAck <;> cases receivedFin <;> rfl

theorem afterFin_lastAck (h : state.afterFin isFinAck receivedFin = .lastAck) : state = .lastAck ∧ isFinAck = false := by
  cases state <;> cases isFinAck <;> cases receivedFin <;> first | exact ⟨rfl, rfl⟩ | cases h

/-- The states behind the acknowledgement of a FIN are reached by one. -/
theorem afterFin_finAcked
    (h : state.afterFin isFinAck receivedFin = .finWait2 ∨ state.afterFin isFinAck receivedFin = .timeWait) :
    isFinAck = true ∨ state = .finWait2 ∨ state = .timeWait := by
  cases state <;> cases isFinAck <;> cases receivedFin <;> first
    | exact .inl rfl
    | exact .inr (.inl rfl)
    | exact .inr (.inr rfl)
    | (rcases h with h | h <;> cases h)

/-- The states behind a FIN of the peer. Closed is not one of them: a reset leads there as well. -/
def tookFin : PseudoTcpState → Bool
  | .closeWait | .closing | .timeWait | .lastAck => true
  | _ => false

theorem afterFin_tookFin (h : (state.afterFin isFinAck receivedFin).tookFin = true) :
    receivedFin = true ∨ state.tookFin = true := by
  cases state <;> cases isFinAck <;> cases receivedFin <;> first
    | exact .inl rfl
    | exact .inr rfl
    | cases h

end PseudoTcpState

namespace PseudoTcpSocket
variable {g g' : Ledger} {env : PseudoTcpEnv} {s t u : PseudoTcpSocket}

/-- What the state says about the queue: nothing before the connect message, a FIN where one has been sent, and its
acknowledgement. -/
structure Standing (g : Ledger) (s : PseudoTcpSocket) : Prop where
  listen : s.state = .listen → g.stream = [] ∧ s.slist = []
  finished : g.finished = true → s.state.hasSentFin = true
  sentFin : s.state.hasSentFin = true → s.state = .closed ∨ g.finished = true
  finAcked : s.state = .finWait2 ∨ s.state = .timeWait → 0 < g.fins

/-- Between two calls, a FIN that is sent again has not been acknowledged. -/
structure Settled (g : Ledger) (s : PseudoTcpSocket) : Prop extends Standing g s where
  lastAck : s.state = .lastAck → s.supportFinAck = true → g.fins = 0

theorem Standing.closed (hstate : t.state = .closed) : Standing g t where
  listen hl := by rw [hstate] at hl; cases hl
  finished _ := by rw [hstate]; rfl
  sentFin _ := .inl hstate
  finAcked hf := by rw [hstate] at hf; rcases hf with hf | hf <;> cases hf

theorem Settled.closed (hstate : t.state = .closed) : Settled g t where
  toStanding := .closed hstate
  lastAck hl := by rw [hstate] at hl; cases hl

theorem Settled.congr (h : Settled g s) (hstate : t.state = s.state)
    (hslist : s.state = .listen → s.slist = [] → t.slist = []) (hfin : t.supportFinAck = s.supportFinAck) : Settled g t := by
  refine ⟨⟨?_, ?_, ?_, ?_⟩, ?_⟩ <;> rw [hstate]
  · intro hlisten
    obtain ⟨hstream, hnil⟩ := h.listen hlisten
    exact ⟨hstream, hslist hlisten hnil⟩
  · exact h.finished
  · exact h.sentFin
  · exact h.finAcked
  · rw [hfin]
    exact h.lastAck

theorem Standing.stays (h : Standing g s) (hstays : Stays s t) : Standing g t := by
  obtain hclosed | ⟨-, hstate, hempty⟩ := hstays.fate
  · exact .closed hclosed
  · refine ⟨?_, hstate ▸ h.finished, hstate ▸ h.sentFin, hstate ▸ h.finAcked⟩
    intro hlisten
    obtain ⟨hstream, hslist⟩ := h.listen (hstate ▸ hlisten)
    exact ⟨hstream, hempty hslist⟩

theorem Settled.stays (h : Settled g s) (hstays : Stays s t) : Settled g t := by
  refine ⟨h.toStanding.stays hstays, ?_⟩
  intro hlast hfin
  obtain hclosed | ⟨hkept, hstate, -⟩ := hstays.fate
  · rw [hclosed] at hlast
    cases hlast
  · exact h.lastAck (hstate ▸ hlast) (hkept.supportFinAck ▸ hfin)

/-- No FIN has been acknowledged in a state that has not sent one. -/
theorem Standing.unfinished (h : Standing g s) (hq : Queues g s) (hstate : s.state.hasSentFin = false) :
    g.finished = false ∧ g.fins = 0 := by
  have hopen : g.finished = false := by
    by_contra hfin
    have hsent := h.finished (Bool.not_eq_false _ ▸ hfin)
    rw [hstate] at hsent
    cases hsent
  refine ⟨hopen, ?_⟩
  by_contra hne
  have hfin := (hq.fins (Nat.pos_of_ne_zero hne)).2
  rw [hopen] at hfin
  cases hfin

/-! The connect message of the peer. -/

/-- The fields that the options of a connect message set, where the receive buffer is not scaled. -/
def withOptions (s : PseudoTcpSocket) (swndScale : UInt8) (supportFinAck : Bool) : PseudoTcpSocket :=
  { s with snd.swndScale := swndScale, supportFinAck := supportFinAck }

theorem parseOptions_step {data : List UInt8} (hscale : s.rcv.rwndScale = 0) (h : s.parseOptions data = some t) :
    ∃ swndScale supportFinAck, t = s.withOptions swndScale supportFinAck := by
  rw [parseOptions] at h
  dsimp only at h
  split at h
  · exact ⟨_, _, (Option.some.inj h).symm⟩
  · rw [revertScale, if_neg (by rw [hscale]; simp)] at h
    exact ⟨_, _, (Option.some.inj h).symm⟩

/-- What reaching the established state sets. -/
def openedWith (s : PseudoTcpSocket) : PseudoTcpSocket := (s.withState .established).adjustMTU.call .opened

theorem setStateEstablished_step (h : s.setStateEstablished = some t) : t = s.openedWith := by
  obtain ⟨u, hu, rfl⟩ := Option.map_eq_some_iff.mp h
  obtain rfl := setState_step hu
  rfl

theorem Queues.openedWith (h : Queues g s) : Queues g s.openedWith := by
  refine { h with called := h.calledOther [.opened] fun bytes hmem => ?_ }
  cases List.mem_singleton.mp hmem

theorem Queues.withOptions (h : Queues g s) (swndScale : UInt8) (supportFinAck : Bool) :
    Queues g (s.withOptions swndScale supportFinAck) := { h with }

theorem Queues.withState (h : Queues g s) (state : PseudoTcpState) : Queues g (s.withState state) := { h with }

/-- A state that has sent no FIN, once the connect message is queued. -/
theorem Settled.begins (hopen : g.finished = false) (hfins : g.fins = 0) (hstate : t.state.hasSentFin = false)
    (hlisten : t.state ≠ .listen) : Settled g t := by
  refine ⟨⟨fun hl => absurd hl hlisten, ?_, ?_, ?_⟩, fun _ _ => hfins⟩
  · intro hfin
    rw [hopen] at hfin
    cases hfin
  · intro hsent
    rw [hstate] at hsent
    cases hsent
  · rintro (hf | hf)
    all_goals
      rw [hf] at hstate
      cases hstate

/-- A socket that listens queues its connect message, and it is all that is queued. -/
def Starts (g g' : Ledger) (s : PseudoTcpSocket) : Prop :=
  g' = g ∨ s.state = .listen ∧ ∃ message, g' = { g with stream := message, control := message.length }

/-- What a segment with control data changes before anything else. -/
structure Controlled (g g' : Ledger) (s t : PseudoTcpSocket) : Prop where
  starts : Starts g g' s
  grows : g.Grows g'
  queues : Queues g' t
  standing : Standing g' t
  lastAck : t.state = .lastAck → g'.fins = 0
  rcv : t.rcv = s.rcv
  conv : t.conv = s.conv
  shutdown : t.shutdown = s.shutdown
  state : t.state = s.state ∨ s.state = .listen ∧ t.state = .synReceived ∨ s.state = .synSent ∧ t.state = .established

theorem Queues.controlled (h : Queues g s) (hs : Standing g s) (hlast : s.state = .lastAck → g.fins = 0) :
    Controlled g g s s :=
  ⟨.inl rfl, .refl g, h, hs, hlast, rfl, rfl, rfl, .inl rfl⟩

theorem Queues.onControl (h : Queues g s) (hs : Standing g s) (hlast : s.state = .lastAck → g.fins = 0)
    (hscale : s.rcv.rwndScale = 0) {seg : Segment} {r : Option Bool} (hstep : s.control seg = some (t, r)) :
    ∃ g', Controlled g g' s t ∧ (hasFlag seg.flags flagCtl = false → t = s) := by
  rw [PseudoTcpSocket.control] at hstep
  split at hstep
  swap
  · obtain ⟨rfl, rfl⟩ := Prod.mk.inj (Option.some.inj hstep)
    exact ⟨g, h.controlled hs hlast, fun _ => rfl⟩
  next hctl =>
  refine (exists_congr fun g' => and_iff_left fun hno => Bool.noConfusion (hctl.symm.trans hno)).mpr ?_
  split at hstep
  · obtain ⟨rfl, rfl⟩ := Prod.mk.inj (Option.some.inj hstep)
    exact ⟨g, h.controlled hs hlast⟩
  split at hstep
  swap
  · obtain ⟨rfl, rfl⟩ := Prod.mk.inj (Option.some.inj hstep)
    exact ⟨g, h.controlled hs hlast⟩
  simp only [Option.bind_eq_bind, Option.bind_eq_some_iff] at hstep
  obtain ⟨u, hparse, hstep⟩ := hstep
  obtain ⟨swndScale, supportFinAck, rfl⟩ := parseOptions_step hscale hparse
  have hu := h.withOptions swndScale supportFinAck
  split at hstep
  · next hlisten =>
    simp only [Option.bind_eq_some_iff, Option.some.injEq, Prod.mk.injEq] at hstep
    obtain ⟨v, hv, w, hqueue, rfl, rfl⟩ := hstep
    obtain rfl := setState_step hv
    have hlisten : s.state = .listen := hlisten
    obtain ⟨hstream, hslist⟩ := hs.listen hlisten
    obtain ⟨hopen, hfins⟩ := hs.unfinished h (by rw [hlisten]; rfl)
    obtain ⟨hw, hkept, hstate, -⟩ := (hu.withState .synReceived).queueConnectMessage hfins hopen hstream hslist hqueue
    have hreceived : w.state = .synReceived := hstate
    have hset (message : List UInt8) : Settled { g with stream := message, control := message.length } w :=
      .begins hopen hfins (by rw [hreceived]; rfl) (by rw [hreceived]; exact PseudoTcpState.noConfusion)
    exact ⟨_, .inr ⟨hlisten, _, rfl⟩, .start hopen hstream _, hw, (hset _).toStanding, fun _ => hfins, hkept.rcv, hkept.conv,
      hkept.shutdown, .inr (.inl ⟨hlisten, hstate⟩)⟩
  split at hstep
  · next hsent =>
    simp only [Option.bind_eq_some_iff, Option.some.injEq, Prod.mk.injEq] at hstep
    obtain ⟨v, hv, rfl, rfl⟩ := hstep
    obtain rfl := setStateEstablished_step hv
    have hsent : s.state = .synSent := hsent
    obtain ⟨hopen, hfins⟩ := hs.unfinished h (by rw [hsent]; rfl)
    have hset := Settled.begins hopen hfins (t := (s.withOptions swndScale supportFinAck).openedWith) rfl
      PseudoTcpState.noConfusion
    exact ⟨g, .inl rfl, .refl g, hu.openedWith, hset.toStanding, fun hl => PseudoTcpState.noConfusion hl, rfl, rfl, rfl,
      .inr (.inr ⟨hsent, rfl⟩)⟩
  · obtain ⟨rfl, rfl⟩ := Prod.mk.inj (Option.some.inj hstep)
    exact ⟨g, .inl rfl, .refl g, hu, ⟨hs.listen, hs.finished, hs.sentFin, hs.finAcked⟩, hlast, rfl, rfl, rfl, .inl rfl⟩

/-! The state machine of a FIN. -/

theorem closedWith_zero (s : PseudoTcpSocket) : s.closedWith 0 = s.withState .closed := by
  rw [closedWith, closedCalls, if_neg (by simp), List.append_nil]
  rfl

theorem finTransition_step {isFinAck receivedFin : Bool} (h : s.finTransition isFinAck receivedFin = some t) :
    t = s.withState (s.state.afterFin isFinAck receivedFin) := by
  rw [finTransition] at h
  split at h
  all_goals
    next hstate =>
    rw [hstate, PseudoTcpState.afterFin]
    cases isFinAck <;> cases receivedFin
    all_goals first
      | exact setState_step h
      | exact (setStateClosed_step h).trans (closedWith_zero s)
      | (obtain rfl := Option.some.inj h; rw [← hstate]; rfl)

/-- The transition of a FIN keeps what the state says about the queue, and a FIN that is acknowledged is sent no
more. -/
theorem Standing.afterFin (h : Standing g s) {isFinAck : Bool} (hfin : isFinAck = true → 0 < g.fins)
    (hlast : s.state = .lastAck → isFinAck = false → g.fins = 0) (receivedFin : Bool) :
    Settled g (s.withState (s.state.afterFin isFinAck receivedFin)) := by
  refine ⟨⟨fun hl => h.listen (PseudoTcpState.afterFin_listen hl), ?_, ?_, ?_⟩, ?_⟩
  · intro hfinished
    exact PseudoTcpState.afterFin_hasSentFin.trans (h.finished hfinished)
  · intro hsent
    refine (h.sentFin (PseudoTcpState.afterFin_hasSentFin.symm.trans hsent)).imp_left fun hclosed => ?_
    exact (congrArg (·.afterFin isFinAck receivedFin) hclosed).trans PseudoTcpState.afterFin_closed
  · intro hstate
    exact (PseudoTcpState.afterFin_finAcked hstate).elim hfin h.finAcked
  · intro hl _
    obtain ⟨hstate, hnone⟩ := PseudoTcpState.afterFin_lastAck hl
    exact hlast hstate hnone

/-! The calls of the application and of the clock. -/

/-- What a call leaves that receives nothing. -/
structure Called (g' : Ledger) (s t : PseudoTcpSocket) : Prop where
  queues : Queues g' t
  settled : Settled g' t
  rcv : t.rcv = s.rcv
  conv : t.conv = s.conv
  took : t.state.tookFin = true → s.state.tookFin = true

theorem Called.refl (h : Queues g s) (hs : Settled g s) : Called g s s := ⟨h, hs, rfl, rfl, id⟩

theorem Called.trans (h : Kept u s) (htook : s.state.tookFin = true → u.state.tookFin = true) (h' : Called g s t) :
    Called g u t :=
  ⟨h'.queues, h'.settled, h'.rcv.trans h.rcv, h'.conv.trans h.conv, fun hf => htook (h'.took hf)⟩

theorem Called.called (h : Called g u s) (h' : Called g s t) : Called g u t :=
  ⟨h'.queues, h'.settled, h'.rcv.trans h.rcv, h'.conv.trans h.conv, fun htook => h.took (h'.took htook)⟩

theorem Stays.took (h : Stays s t) (htook : t.state.tookFin = true) : s.state.tookFin = true := by
  rcases h.fate with hclosed | ⟨-, hsame, -⟩
  · rw [hclosed] at htook
    cases htook
  · rwa [hsame] at htook

theorem Queues.called_stays (h : Queues g t) (hs : Settled g s) (hstays : Stays s t) : Called g s t :=
  ⟨h, hs.stays hstays, hstays.rcv, hstays.conv, hstays.took⟩

theorem Queues.called_closed (h : Queues g t) (hrcv : t.rcv = s.rcv) (hconv : t.conv = s.conv) (hclosed : t.state = .closed) :
    Called g s t :=
  ⟨h, .closed hclosed, hrcv, hconv, fun htook => by rw [hclosed] at htook; cases htook⟩

/-- A FIN may be queued. -/
def Finishes (g g' : Ledger) : Prop := g' = g ∨ g' = { g with finished := true }

theorem Finishes.grows (h : Finishes g g') : g.Grows g' := by
  rcases h with rfl | rfl
  · exact .refl _
  · exact .finish g

theorem Queues.onConnect (h : Queues g s) (hs : Settled g s) {r : Bool} (hstep : connect env s = some (t, r)) :
    ∃ g', Starts g g' s ∧ g.Grows g' ∧ Called g' s t := by
  rw [connect] at hstep
  split at hstep
  · obtain ⟨rfl, rfl⟩ := Prod.mk.inj (Option.some.inj hstep)
    exact ⟨g, .inl rfl, .refl g, Queues.called_stays { h with } hs (Tuned.stays rfl)⟩
  · next hlisten =>
    have hlisten := Decidable.not_not.mp hlisten
    simp only [Option.bind_eq_bind, Option.bind_eq_some_iff, Option.some.injEq, Prod.mk.injEq] at hstep
    obtain ⟨u, hu, v, hqueue, w, hsend, rfl, rfl⟩ := hstep
    obtain rfl := setState_step hu
    obtain ⟨hstream, hslist⟩ := hs.listen hlisten
    obtain ⟨hopen, hfins⟩ := hs.unfinished h (by rw [hlisten]; rfl)
    obtain ⟨hv, hkept, hstate, -⟩ := (h.withState .synSent).queueConnectMessage hfins hopen hstream hslist hqueue
    obtain ⟨hw, hstays⟩ := hv.sends hsend
    have hsent : v.state = .synSent := hstate
    have hset (message : List UInt8) : Settled { g with stream := message, control := message.length } v :=
      .begins hopen hfins (by rw [hsent]; rfl) (by rw [hsent]; exact PseudoTcpState.noConfusion)
    exact ⟨_, .inr ⟨hlisten, _, rfl⟩, .start hopen hstream _, Called.trans ⟨hkept.rcv, hkept.conv, hkept.supportFinAck, hkept.shutdown⟩
      (fun hf => by rw [hsent] at hf; cases hf) (hw.called_stays (hset _) hstays)⟩

/-- What a result of send says was taken of the buffer. -/
def acceptedOf (buffer : List UInt8) : Except UInt32 Nat → List UInt8
  | .ok n => buffer.take n
  | .error _ => []

/-- What send says was taken is what it has queued. -/
theorem Queues.onSend (h : Queues g s) (hs : Settled g s) {buffer : List UInt8} {r : Except UInt32 Nat}
    (hstep : send env s buffer = some (t, r)) :
    g.Grows { g with stream := g.stream ++ acceptedOf buffer r } ∧
      Called { g with stream := g.stream ++ acceptedOf buffer r } s t := by
  have hnone : g.Grows { g with stream := g.stream ++ [] } ∧ ∀ t, Tuned s t → Called { g with stream := g.stream ++ [] } s t := by
    rw [List.append_nil]
    exact ⟨.refl g, fun t ht => (h.tuned ht).called_stays hs ht.stays⟩
  rw [send] at hstep
  split at hstep
  · obtain ⟨rfl, rfl⟩ := Prod.mk.inj (Option.some.inj hstep)
    exact ⟨hnone.1, hnone.2 _ rfl⟩
  next hstate =>
  have hstate := Decidable.not_not.mp hstate
  split at hstep
  · obtain ⟨rfl, rfl⟩ := Prod.mk.inj (Option.some.inj hstep)
    exact ⟨hnone.1, hnone.2 _ rfl⟩
  simp only [Option.bind_eq_bind, Option.bind_eq_some_iff, Prod.exists, Option.some.injEq, Prod.mk.injEq] at hstep
  obtain ⟨u, n, hqueue, v, hsend, hlast, rfl⟩ := hstep
  obtain ⟨hopen, hfins⟩ := hs.unfinished h (by rw [hstate]; rfl)
  obtain ⟨hu, hkept, hsame, hn⟩ := h.queueData hfins hopen hqueue
  have htake : acceptedOf buffer (.ok n) = s.accepts buffer := by
    rw [acceptedOf, hn, accepts, List.length_take, List.take_eq_take_iff]
    omega
  rw [htake]
  obtain ⟨hv, hstays⟩ := hu.sends hsend
  have hset := Settled.begins (g := { g with stream := g.stream ++ s.accepts buffer }) hopen hfins (t := u)
    (by rw [hsame, hstate]; rfl) (by rw [hsame, hstate]; exact PseudoTcpState.noConfusion)
  have htuned : Tuned v t := by
    rw [← hlast]
    split_ifs <;> rfl
  exact ⟨.append hopen _, Called.trans hkept (fun hf => hsame ▸ hf)
    ((hv.tuned htuned).called_stays hset (hstays.trans htuned.stays))⟩

/-- The queue of a FIN, its transmission, and a state behind it. -/
theorem Queues.onFin (h : Queues g s) (hs : Settled g s) (hbefore : s.state.hasSentFin = false) {state : PseudoTcpState}
    (hstate : state = .finWait1 ∨ s.state = .closeWait ∧ state = .lastAck) (hqueue : s.queueFinMessage = some u) {v : PseudoTcpSocket}
    (hsend : PseudoTcpSocket.attemptSend env u .sfFin = some v) (hset : v.setState state = some t) :
    Called { g with finished := true } s t := by
  obtain ⟨hopen, hfins⟩ := hs.unfinished h hbefore
  obtain ⟨hu, hkept, -⟩ := h.queueFinMessage hfins hqueue
  obtain ⟨hv, hstays⟩ := hu.sends hsend
  obtain rfl := setState_step hset
  refine ⟨hv.withState state, ⟨⟨?_, ?_, fun _ => .inr rfl, ?_⟩, fun _ _ => hfins⟩, hstays.rcv.trans hkept.rcv,
    hstays.conv.trans hkept.conv, ?_⟩ <;> obtain rfl | ⟨hwait, rfl⟩ := hstate
  all_goals first
    | exact fun _ => rfl
    | exact fun hl => PseudoTcpState.noConfusion hl
    | (rintro (hf | hf) <;> cases hf)
    | exact fun hf => Bool.noConfusion hf
    | exact fun _ => by rw [hwait]; rfl

theorem Queues.onClosedown (h : Queues g s) {err : UInt32} {source : ClosedownSource}
    (hstep : PseudoTcpSocket.closedown env s err source = some t) : Called g s t := by
  obtain ⟨ht, hstays, hclosed⟩ := h.closes hstep
  exact ht.called_closed hstays.rcv hstays.conv hclosed

theorem Queues.onShutdown (h : Queues g s) (hs : Settled g s) {how : PseudoTcpShutdown}
    (hstep : shutdownSocket env s how = some t) : ∃ g', Finishes g g' ∧ Called g' s t := by
  rw [shutdownSocket] at hstep
  split at hstep
  · obtain rfl := Option.some.inj hstep
    refine ⟨g, .inl rfl, ?_⟩
    split_ifs
    · exact ⟨{ h with }, hs.congr rfl (fun _ => id) rfl, rfl, rfl, id⟩
    · exact .refl h hs
  generalize hreads : (if how = .rd ∨ how = .rdwr then { s with shutdownReads := true } else s) = u at hstep
  have htuned : Tuned s u := by
    rw [← hreads]
    split_ifs <;> rfl
  have hu := h.tuned htuned
  have hset := hs.stays htuned.stays
  suffices hcall : ∃ g', Finishes g g' ∧ Called g' u t by
    obtain ⟨g', hfinishes, hcalled⟩ := hcall
    exact ⟨g', hfinishes, hcalled.trans htuned.kept fun hf => htuned.state ▸ hf⟩
  dsimp only at hstep
  split at hstep
  · obtain rfl := Option.some.inj hstep
    exact ⟨g, .inl rfl, .refl hu hset⟩
  have hclosing {err : UInt32} {v : PseudoTcpSocket} (hclose : u.setStateClosed err = some v) : Called g u v := by
    obtain rfl := setStateClosed_step hclose
    exact Queues.called_closed { hu with called := hu.calledOther _ fun _ => mem_closedCalls } rfl rfl rfl
  split at hstep
  · exact ⟨g, .inl rfl, hclosing hstep⟩
  · exact ⟨g, .inl rfl, hclosing hstep⟩
  iterate 2
    · next hstate =>
      split at hstep
      · exact ⟨g, .inl rfl, hu.onClosedown hstep⟩
      · simp only [Option.bind_eq_bind, Option.bind_eq_some_iff] at hstep
        obtain ⟨v, hqueue, w, hsend, hfin⟩ := hstep
        exact ⟨_, .inr rfl, hu.onFin hset (by rw [hstate]; rfl) (.inl rfl) hqueue hsend hfin⟩
  · next hstate =>
    simp only [Option.bind_eq_bind, Option.bind_eq_some_iff] at hstep
    obtain ⟨v, hqueue, w, hsend, hfin⟩ := hstep
    exact ⟨_, .inr rfl, hu.onFin hset (by rw [hstate]; rfl) (.inr ⟨hstate, rfl⟩) hqueue hsend hfin⟩
  all_goals
    obtain rfl := Option.some.inj hstep
    exact ⟨g, .inl rfl, .refl hu hset⟩

theorem Queues.onClose (h : Queues g s) (hs : Settled g s) {force : Bool} (hstep : close env s force = some t) :
    ∃ g', Finishes g g' ∧ Called g' s t := by
  rw [close] at hstep
  split at hstep
  · exact ⟨g, .inl rfl, h.onClosedown hstep⟩
  · exact h.onShutdown hs hstep

theorem notifyMtu_tuned (s : PseudoTcpSocket) (mtu : UInt16) : Tuned s (s.notifyMtu mtu) := by
  rw [notifyMtu]
  dsimp only
  split_ifs <;> rfl

theorem retransmitOnTimeout_step {r : Bool} (h : retransmitOnTimeout env s = some (t, r)) : Retransmits env s t r := by
  rw [retransmitOnTimeout] at h
  split at h
  · simp only [Option.bind_eq_bind, Option.bind_eq_some_iff, Prod.exists] at h
    obtain ⟨u, status, htransmit, h⟩ := h
    refine .inr ⟨s, u, status, rfl, htransmit, ?_⟩
    split at h
    · obtain ⟨v, hclose, hv⟩ := Option.bind_eq_some_iff.mp h
      obtain ⟨rfl, rfl⟩ := Prod.mk.inj (Option.some.inj hv)
      exact .inl ⟨rfl, hclose⟩
    · obtain ⟨hlast, rfl⟩ := Prod.mk.inj (Option.some.inj h)
      refine .inr ⟨rfl, ?_⟩
      rw [← hlast]
      split <;> rfl
  · obtain ⟨rfl, rfl⟩ := Prod.mk.inj (Option.some.inj h)
    exact .inl ⟨rfl, rfl⟩

theorem Queues.onProbe (h : Queues g s) {r : Bool} (hstep : probeWindow env s = some (t, r)) :
    Queues g t ∧ Stays s t := by
  rw [probeWindow] at hstep
  split at hstep
  · split at hstep
    · obtain ⟨u, hclose, hu⟩ := Option.bind_eq_some_iff.mp hstep
      obtain ⟨rfl, -⟩ := Prod.mk.inj (Option.some.inj hu)
      obtain ⟨ht, hstays, -⟩ := h.closes hclose
      exact ⟨ht, hstays⟩
    · simp only [Option.bind_eq_bind, Option.bind_eq_some_iff, Prod.exists] at hstep
      obtain ⟨u, r, hpacket, hstep⟩ := hstep
      obtain ⟨w, rfl, hu⟩ := packet_ack h hpacket
      obtain ⟨rfl, -⟩ := Prod.mk.inj (Option.some.inj hstep)
      exact ⟨hu.tuned rfl, (Stays.wrote s w).trans (Tuned.stays rfl)⟩
  · obtain ⟨rfl, -⟩ := Prod.mk.inj (Option.some.inj hstep)
    exact ⟨h, .refl s⟩

/-- The clock retransmits, probes and acknowledges, and sends a FIN again that has not been acknowledged. -/
theorem Queues.onClock (h : Queues g s) (hs : Settled g s) (hstep : notifyClock env s = some t) : Called g s t := by
  rw [notifyClock] at hstep
  split at hstep
  · obtain rfl := Option.some.inj hstep
    exact .refl h hs
  simp only [Option.bind_eq_bind, Option.bind_eq_some_iff] at hstep
  obtain ⟨u, hleave, v, hresend, ⟨w, r⟩, htimeout, hstep⟩ := hstep
  have hu : Called g s u := by
    rw [leaveTimeWait] at hleave
    split at hleave
    · obtain rfl := setStateClosed_step hleave
      exact Queues.called_closed { h with called := h.calledOther _ fun _ => mem_closedCalls } rfl rfl rfl
    · obtain rfl := Option.some.inj hleave
      exact .refl h hs
  have hv : Called g u v := by
    rw [resendFin] at hresend
    split at hresend
    · next hlast =>
      simp only [Option.bind_eq_bind, Option.bind_eq_some_iff] at hresend
      obtain ⟨x, hqueue, hsend⟩ := hresend
      have hfins := hu.settled.lastAck hlast.2 hlast.1
      obtain ⟨hx, hkept, hstate⟩ := hu.queues.queueFinMessage hfins hqueue
      have hfinished : g.finished = true :=
        (hu.settled.sentFin (by rw [hlast.2]; rfl)).resolve_left fun hc => by rw [hlast.2] at hc; cases hc
      have hsame : { g with finished := true } = g := by rw [← hfinished]
      rw [hsame] at hx
      have hset : Settled g x :=
        hu.settled.congr hstate (fun hl => by rw [hlast.2] at hl; cases hl) hkept.supportFinAck
      obtain ⟨hv, hstays⟩ := hx.sends hsend
      exact Called.trans hkept (fun hf => hstate ▸ hf) (hv.called_stays hset hstays)
    · obtain rfl := Option.some.inj hresend
      exact .refl hu.queues hu.settled
  obtain ⟨hw, hstays, -⟩ := hv.queues.retransmits (retransmitOnTimeout_step htimeout)
  suffices hlast : Queues g t ∧ Stays w t from
    hu.called (hv.called (hlast.1.called_stays hv.settled (hstays.trans hlast.2)))
  cases r with
  | false =>
    obtain rfl := Option.some.inj hstep
    exact ⟨hw, .refl w⟩
  | true =>
    obtain ⟨⟨x, r⟩, hprobe, hstep⟩ := Option.bind_eq_some_iff.mp hstep
    obtain ⟨hx, hstays'⟩ := hw.onProbe hprobe
    cases r with
    | false =>
      obtain rfl := Option.some.inj hstep
      exact ⟨hx, hstays'⟩
    | true =>
      dsimp only at hstep
      split at hstep
      · obtain ⟨⟨y, r⟩, hpacket, hstep⟩ := Option.bind_eq_some_iff.mp hstep
        obtain ⟨p, rfl, hy⟩ := packet_ack hx hpacket
        obtain rfl := Option.some.inj hstep
        exact ⟨hy, hstays'.trans (.wrote x p)⟩
      · obtain rfl := Option.some.inj hstep
        exact ⟨hx, hstays'⟩

theorem Queues.onNextClock (h : Queues g s) (hs : Settled g s) {timeout : UInt64} {r : Option UInt64}
    (hstep : getNextClock env s timeout = some (t, r)) : Called g s t := by
  have hsame : Called g s s := .refl h hs
  rw [getNextClock] at hstep
  split at hstep
  · obtain ⟨u, hclose, hu⟩ := Option.map_eq_some_iff.mp hstep
    obtain ⟨rfl, -⟩ := Prod.mk.inj hu
    exact h.onClosedown hclose
  split at hstep
  · obtain ⟨u, hclose, hu⟩ := Option.map_eq_some_iff.mp hstep
    obtain ⟨rfl, -⟩ := Prod.mk.inj hu
    exact h.onClosedown hclose
  split at hstep
  · obtain ⟨rfl, -⟩ := Prod.mk.inj (Option.some.inj hstep)
    exact hsame
  extract_lets at hstep
  split at hstep
  · obtain ⟨rfl, -⟩ := Prod.mk.inj (Option.some.inj hstep)
    exact hsame
  split at hstep
  · obtain ⟨rfl, -⟩ := Prod.mk.inj (Option.some.inj hstep)
    exact hsame
  · obtain ⟨rfl, -⟩ := Prod.mk.inj (Option.some.inj hstep)
    exact hsame

/-- What a result of recv hands to the application. -/
def deliveredOf : Except UInt32 (List UInt8) → List UInt8
  | .ok bytes => bytes
  | .error _ => []

/-- What recv changes of the incoming data. -/
inductive Reads (r : Incoming) (len : Nat) : Incoming → List UInt8 → Prop
  | nothing : Reads r len r []
  | read (rcvWnd : UInt32) : Reads r len { r with rbuf := (r.rbuf.read len).1, rcvWnd } (r.rbuf.read len).2

theorem Queues.onRecv (h : Queues g s) (hs : Settled g s) {len : Nat} {r : Except UInt32 (List UInt8)}
    (hstep : recv env s len = some (t, r)) :
    Queues g t ∧ Settled g t ∧ t.conv = s.conv ∧ (t.state.tookFin = true → s.state.tookFin = true) ∧
      Reads s.rcv len t.rcv (deliveredOf r) := by
  have hnothing {e : UInt32} : Queues g { s with error := e } ∧ Settled g { s with error := e } :=
    ⟨{ h with }, hs.congr rfl (fun _ => id) rfl⟩
  rw [recv] at hstep
  split at hstep
  · obtain ⟨rfl, rfl⟩ := Prod.mk.inj (Option.some.inj hstep)
    exact ⟨h, hs, rfl, id, .nothing⟩
  split at hstep
  · obtain ⟨rfl, rfl⟩ := Prod.mk.inj (Option.some.inj hstep)
    exact ⟨h, hs, rfl, id, .nothing⟩
  split at hstep
  · obtain ⟨rfl, rfl⟩ := Prod.mk.inj (Option.some.inj hstep)
    exact ⟨hnothing.1, hnothing.2, rfl, id, .nothing⟩
  split at hstep
  · obtain ⟨rfl, rfl⟩ := Prod.mk.inj (Option.some.inj hstep)
    exact ⟨h, hs, rfl, id, .nothing⟩
  have hread (u : PseudoTcpSocket) (rcvWnd : UInt32)
      (hu : u = { s with rcv.rbuf := (s.rcv.rbuf.read len).1, rcv.rcvWnd := rcvWnd }) :
      Queues g u ∧ Settled g u ∧ u.conv = s.conv ∧ u.state = s.state ∧ Reads s.rcv len u.rcv (s.rcv.rbuf.read len).2 := by
    subst hu
    exact ⟨{ h with }, hs.congr rfl (fun _ => id) rfl, rfl, rfl, .read rcvWnd⟩
  dsimp only at hstep
  split at hstep
  · next hempty =>
    obtain ⟨rfl, rfl⟩ := Prod.mk.inj (Option.some.inj hstep)
    obtain ⟨hu, hset, hconv, hstate, hreads⟩ := hread _ s.rcv.rcvWnd rfl
    rw [hempty.1] at hreads
    exact ⟨{ hu with }, hset.congr rfl (fun _ => id) rfl, hconv, fun hf => hstate ▸ hf, hreads⟩
  split at hstep
  · obtain ⟨hu, hset, hconv, hstate, hreads⟩ := hread _ (UInt32.ofNat (s.rcv.rbuf.read len).1.getWriteRemaining) rfl
    split at hstep
    · obtain ⟨v, hsend, hv⟩ := Option.map_eq_some_iff.mp hstep
      obtain ⟨rfl, rfl⟩ := Prod.mk.inj hv
      obtain ⟨ht, hstays⟩ := hu.sends hsend
      refine ⟨ht, hset.stays hstays, hstays.conv.trans hconv, fun hf => hstate ▸ hstays.took hf, ?_⟩
      rw [hstays.rcv]
      exact hreads
    · obtain ⟨rfl, rfl⟩ := Prod.mk.inj (Option.some.inj hstep)
      exact ⟨hu, hset, hconv, fun hf => hstate ▸ hf, hreads⟩
  · obtain ⟨rfl, rfl⟩ := Prod.mk.inj (Option.some.inj hstep)
    obtain ⟨hu, hset, hconv, hstate, hreads⟩ := hread _ s.rcv.rcvWnd rfl
    exact ⟨hu, hset, hconv, fun hf => hstate ▸ hf, hreads⟩

end PseudoTcpSocket
end CarrierSdk
