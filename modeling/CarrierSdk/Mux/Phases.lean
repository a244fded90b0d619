import CarrierSdk.Mux.Incarnation

/-! Seen through one incarnation, the two multiplexers run a protocol of their own: a
request, its answer, traffic both ways and a close. -/
namespace CarrierSdk.Mux

/-! One incarnation at a time. -/

/-- The channels and the packets of one incarnation. -/
structure View where
  chan : Peer → ChannelId → Option (Channel Nat)
  wire : Wires Packet

def Link.view (s : Link) (k : Nat) : View :=
  ⟨fun p c => ((s.channels p).lookup c).filter fun ch => decide (ch.tag = k),
    s.wire.only fun pb => decide (pb.tag = k)⟩

def nobody : ChannelId → Option (Channel Nat) := fun _ => none

def sole (c : ChannelId) (ch : Channel Nat) : ChannelId → Option (Channel Nat) :=
  Function.update nobody c (some ch)

@[simp] theorem sole_self (c : ChannelId) (ch : Channel Nat) : sole c ch c = some ch :=
  Function.update_self ..

theorem sole_eq_some {c x : ChannelId} {ch e : Channel Nat} (h : sole c ch x = some e) :
    x = c ∧ ch = e := by
  by_cases hx : x = c
  · subst hx
    rw [sole_self] at h
    exact ⟨rfl, Option.some.inj h⟩
  · rw [sole, Function.update_of_ne hx] at h
    cases h

theorem sole_ne_nobody {c : ChannelId} {ch : Channel Nat} (h : sole c ch = nobody) : False := by
  have hc := congrFun h c
  rw [sole_self] at hc
  cases hc

@[simp] theorem update_sole_none (c : ChannelId) (ch : Channel Nat) :
    Function.update (sole c ch) c none = nobody := by
  rw [sole, Function.update_idem]
  exact Function.update_eq_self c nobody

@[simp] theorem update_sole_some (c : ChannelId) (ch ch' : Channel Nat) :
    Function.update (sole c ch) c (some ch') = sole c ch' := by
  rw [sole, Function.update_idem, sole]

/-- A packet that the channel of the given id has to take as it comes. -/
structure Traffic (c : ChannelId) (y : Packet) : Prop where
  addressed : y.localChannelId = c
  notOpen : y.type ≠ .channelOpen
  notConfirmation : y.type ≠ .channelOpenConfirmation
  notClose : y.type ≠ .channelClose

/-- Both channels stand and name each other. -/
structure Pair (v : View) (p : Peer) (c d : ChannelId) (ch e : Channel Nat) : Prop where
  own : v.chan p = sole c ch
  bound : ch.status ≠ .opening ∧ ch.remoteId = d
  peer : v.chan p.other = sole d e
  peerBound : e.status ≠ .opening ∧ e.remoteId = c
  traffic : ∀ y ∈ v.wire p, Traffic d y
  peerTraffic : ∀ y ∈ v.wire p.other, Traffic c y

theorem Pair.symm {v : View} {p : Peer} {c d : ChannelId} {ch e : Channel Nat}
    (h : Pair v p c d ch e) : Pair v p.other d c e ch := by
  refine ⟨h.peer, h.peerBound, ?_, h.bound, h.peerTraffic, ?_⟩
  · rw [Peer.other_other, h.own]
  · rw [Peer.other_other]
    exact h.traffic

/-- Where an incarnation stands. The peer of the name p is the one that opened it, or, once
one side has closed, the one that closed first. -/
inductive Phase (v : View) : Prop
  | opening (p : Peer) (c : ChannelId) (ch : Channel Nat) (o : Packet)
      (own : v.chan p = sole c ch) (status : ch.status = .opening) (peer : v.chan p.other = nobody)
      (request : v.wire p = [o])
      (type : o.type = .channelOpen ∧ o.option = .user ∧ o.remoteChannelId = c)
      (answer : v.wire p.other = [])
  | accepted (p : Peer) (c d : ChannelId) (ch e : Channel Nat) (o : Packet) (l : List Packet)
      (own : v.chan p = sole c ch) (status : ch.status = .opening)
      (peer : v.chan p.other = sole d e) (bound : e.status ≠ .opening ∧ e.remoteId = c)
      (request : v.wire p = []) (answer : v.wire p.other = o :: l)
      (type : o.type = .channelOpenConfirmation ∧ o.localChannelId = c ∧ o.remoteChannelId = d)
      (traffic : ∀ y ∈ l, Traffic c y)
  | withdrawn (p : Peer) (c : ChannelId) (ch : Channel Nat) (o y : Packet) (l : List Packet)
      (own : v.chan p = sole c ch) (status : ch.status = .opening) (peer : v.chan p.other = nobody)
      (request : v.wire p = []) (answer : v.wire p.other = o :: (l ++ [y]))
      (type : o.type = .channelOpenConfirmation ∧ o.localChannelId = c ∧ o.remoteChannelId ≠ 0)
      (traffic : ∀ y ∈ l, Traffic c y) (last : y.type = .channelClose ∧ y.localChannelId = c)
  | refused (p : Peer) (c : ChannelId) (ch : Channel Nat) (o : Packet)
      (own : v.chan p = sole c ch) (status : ch.status = .opening) (peer : v.chan p.other = nobody)
      (request : v.wire p = []) (answer : v.wire p.other = [o])
      (type : o.type = .channelOpenConfirmation ∧ o.localChannelId = c ∧ o.remoteChannelId = 0)
  | paired (p : Peer) (c d : ChannelId) (ch e : Channel Nat) (pair : Pair v p c d ch e)
  | half (p : Peer) (d : ChannelId) (e : Channel Nat) (y : Packet) (l : List Packet)
      (own : v.chan p = nobody) (peer : v.chan p.other = sole d e)
      (peerBound : e.status ≠ .opening ∧ e.remoteId ≠ 0)
      (request : v.wire p = l ++ [y]) (traffic : ∀ y ∈ l, Traffic d y)
      (last : y.type = .channelClose ∧ y.localChannelId = d)
      (answer : ∀ y ∈ v.wire p.other, y.type ≠ .channelOpen)
  | closed (own : ∀ p, v.chan p = nobody) (wire : ∀ p, ∀ y ∈ v.wire p, y.type ≠ .channelOpen)

variable {s : Link} {p : Peer} {k : Nat}

theorem view_chan {c : ChannelId} {ch : Channel Nat} :
    (s.view k).chan p c = some ch ↔ (s.channels p).lookup c = some ch ∧ ch.tag = k := by
  simp [Link.view, Option.filter_eq_some_iff]

theorem mem_view_wire {y : Packet} : y ∈ (s.view k).wire p ↔ y ∈ s.wire p ∧ y.tag = k := by
  simp [Link.view, Wires.only]

/-- A step that only touches other incarnations is not seen. -/
theorem view_frame {c : ChannelId} {o : Option (Channel Nat)} {r : MuxResult Nat} {w : Wires Packet}
    {next : Nat} (hr : SetAt (s.channels p) r.channels c o) (ho : ∀ ch, o = some ch → ch.tag ≠ k)
    (hold : ∀ ch, (s.channels p).lookup c = some ch → ch.tag ≠ k)
    (hw : (w.only fun pb => decide (pb.tag = k)) = s.wire.only fun pb => decide (pb.tag = k))
    (hs : ∀ y ∈ r.sent, y.tag ≠ k) : (s.after p w next r).view k = s.view k := by
  have hsent : r.sent.filter (fun pb => decide (pb.tag = k)) = [] := by
    rw [List.filter_eq_nil_iff]
    intro y hy
    simp [hs y hy]
  have hfilter : ∀ (x : Option (Channel Nat)), (∀ ch, x = some ch → ch.tag ≠ k) →
      x.filter (fun ch => decide (ch.tag = k)) = none := by
    intro x hx
    cases x with
    | none => rfl
    | some ch => simp [hx ch rfl]
  simp only [Link.view, Link.after, Wires.only_send, hsent, Wires.send_nil, hw, View.mk.injEq, and_true]
  funext q x
  rcases p.eq_or_other q with rfl | rfl
  · rw [Function.update_self, hr x]
    split
    next hx => rw [hfilter o ho, hx, hfilter _ hold]
    · rfl
  · rw [Function.update_of_ne p.other_ne]

/-- What is seen of a step in the incarnation that it belongs to. -/
structure Seen (v v' : View) (p : Peer) (c : ChannelId) (o : Option (Channel Nat))
    (sent : List Packet) : Prop where
  own : v'.chan p = Function.update (v.chan p) c o
  peer : v'.chan p.other = v.chan p.other
  request : v'.wire p = v.wire p ++ sent

theorem seen_after {c : ChannelId} {o : Option (Channel Nat)} {r : MuxResult Nat} {w : Wires Packet}
    {next : Nat} (hr : SetAt (s.channels p) r.channels c o) (ho : ∀ ch, o = some ch → ch.tag = k)
    (hw : w p = s.wire p) (hs : ∀ y ∈ r.sent, y.tag = k) :
    Seen (s.view k) ((s.after p w next r).view k) p c o r.sent := by
  constructor
  case own =>
    funext x
    simp only [Link.view, Link.after, Function.update_self, hr x]
    by_cases hx : x = c
    · subst hx
      rw [if_pos rfl, Function.update_self]
      cases o with
      | none => rfl
      | some ch => simp [ho ch rfl]
    · rw [if_neg hx, Function.update_of_ne hx]
  case peer =>
    funext x
    simp only [Link.view, Link.after]
    rw [Function.update_of_ne p.other_ne]
  case request =>
    have hall : r.sent.filter (fun pb => decide (pb.tag = k)) = r.sent := by
      rw [List.filter_eq_self]
      intro y hy
      simp [hs y hy]
    simp only [Link.view, Link.after, Wires.only_send, Wires.send_self, hall, Wires.only, hw]

/-! What the steps do to the phase of their incarnation. -/

variable {v v' : View} {c : ChannelId} {ch : Channel Nat} {y : Packet}

/-- Where an incarnation can stand once a channel of it is open. -/
inductive Standing (v : View) (p : Peer) (c : ChannelId) (ch : Channel Nat) : Prop
  | acceptor (x : ChannelId) (e : Channel Nat) (o : Packet) (l : List Packet)
      (own : v.chan p = sole c ch) (remote : ch.remoteId = x)
      (peer : v.chan p.other = sole x e) (status : e.status = .opening)
      (request : v.wire p.other = []) (answer : v.wire p = o :: l)
      (type : o.type = .channelOpenConfirmation ∧ o.localChannelId = x ∧ o.remoteChannelId = c)
      (traffic : ∀ y ∈ l, Traffic x y)
  | pair (d : ChannelId) (e : Channel Nat) (pair : Pair v p c d ch e)
  | survivor (y : Packet) (l : List Packet) (own : v.chan p = sole c ch) (remote : ch.remoteId ≠ 0)
      (peer : v.chan p.other = nobody) (request : v.wire p.other = l ++ [y])
      (traffic : ∀ y ∈ l, Traffic c y) (last : y.type = .channelClose ∧ y.localChannelId = c)
      (answer : ∀ y ∈ v.wire p, y.type ≠ .channelOpen)

theorem Standing.phase (h : Standing v p c ch) (hst : ch.status ≠ .opening) : Phase v := by
  cases h with
  | acceptor x e o l own remote peer status request answer type traffic =>
    refine .accepted p.other x c e ch o l peer status ?_ ⟨hst, remote⟩ request ?_ type traffic
    · rw [Peer.other_other, own]
    · rw [Peer.other_other, answer]
  | pair d e pair => exact .paired p c d ch e pair
  | survivor y l own remote peer request traffic last answer =>
    refine .half p.other c ch y l peer ?_ ⟨hst, remote⟩ request traffic last ?_
    · rw [Peer.other_other, own]
    · rw [Peer.other_other]
      exact answer

/-- The peer that opened an incarnation has an open channel only after the confirmation. -/
theorem Phase.standing (h : Phase v) (hl : v.chan p c = some ch) (hst : ch.status ≠ .opening) :
    Standing v p c ch := by
  have hopening : ∀ {x e}, v.chan p = sole x e → e.status = .opening → False := by
    intro x e hown hs
    rw [hown] at hl
    obtain ⟨rfl, rfl⟩ := sole_eq_some hl
    exact hst hs
  have hnobody : v.chan p = nobody → False := by
    intro hown
    rw [hown] at hl
    cases hl
  cases h with
  | opening q x e o own status peer request type answer =>
    rcases q.eq_or_other p with rfl | rfl
    · exact (hopening own status).elim
    · exact (hnobody peer).elim
  | accepted q x d e f o l own status peer bound request answer type traffic =>
    rcases q.eq_or_other p with rfl | rfl
    · exact (hopening own status).elim
    · rw [peer] at hl
      obtain ⟨rfl, rfl⟩ := sole_eq_some hl
      refine .acceptor x e o l peer bound.2 ?_ status ?_ answer type traffic
      · rw [Peer.other_other, own]
      · rw [Peer.other_other, request]
  | withdrawn q x e o z l own status peer =>
    rcases q.eq_or_other p with rfl | rfl
    · exact (hopening own status).elim
    · exact (hnobody peer).elim
  | refused q x e o own status peer =>
    rcases q.eq_or_other p with rfl | rfl
    · exact (hopening own status).elim
    · exact (hnobody peer).elim
  | paired q x d e f hp =>
    rcases q.eq_or_other p with rfl | rfl
    · rw [hp.own] at hl
      obtain ⟨rfl, rfl⟩ := sole_eq_some hl
      exact .pair d f hp
    · rw [hp.peer] at hl
      obtain ⟨rfl, rfl⟩ := sole_eq_some hl
      exact .pair x e hp.symm
  | half q d e z l own peer peerBound request traffic last answer =>
    rcases q.eq_or_other p with rfl | rfl
    · exact (hnobody own).elim
    · rw [peer] at hl
      obtain ⟨rfl, rfl⟩ := sole_eq_some hl
      refine .survivor z l peer peerBound.2 ?_ ?_ traffic last answer
      · rw [Peer.other_other, own]
      · rw [Peer.other_other, request]
  | closed own wire => exact (hnobody (own p)).elim

/-- An open channel writes, pends or resumes. -/
theorem Phase.send (h : Phase v) (hl : v.chan p c = some ch) (hst : ch.status ≠ .opening)
    (hs : Seen v v' p c (some ch) [y]) (ha : v'.wire p.other = v.wire p.other)
    (ht : Traffic ch.remoteId y) : Phase v' := by
  suffices hv : Standing v' p c ch from hv.phase hst
  have hown : ∀ {e}, v.chan p = sole c e → v'.chan p = sole c ch := by
    intro e he
    rw [hs.own, he, update_sole_some]
  cases h.standing hl hst with
  | acceptor x e o l own remote peer status request answer type traffic =>
    refine .acceptor x e o (l ++ [y]) (hown own) remote (hs.peer.trans peer) status (ha.trans request)
      ?_ type ?_
    · rw [hs.request, answer, List.cons_append]
    · intro z hz
      rcases List.mem_append.mp hz with hz | hz
      · exact traffic z hz
      · rw [List.mem_singleton.mp hz]
        exact remote ▸ ht
  | pair d e hp =>
    refine .pair d e ⟨hown hp.own, hp.bound, hs.peer.trans hp.peer, hp.peerBound, ?_, ?_⟩
    · intro z hz
      rw [hs.request, List.mem_append, List.mem_singleton] at hz
      rcases hz with hz | rfl
      · exact hp.traffic z hz
      · exact hp.bound.2 ▸ ht
    · rw [ha]
      exact hp.peerTraffic
  | survivor z l own remote peer request traffic last answer =>
    refine .survivor z l (hown own) remote (hs.peer.trans peer) (ha.trans request) traffic last ?_
    intro w hw
    rw [hs.request, List.mem_append, List.mem_singleton] at hw
    rcases hw with hw | rfl
    · exact answer w hw
    · exact ht.notOpen

/-- An open channel closes with a word to the peer. -/
theorem Phase.close (h : Phase v) (hl : v.chan p c = some ch) (hst : ch.status ≠ .opening)
    (hc : c ≠ 0) (hs : Seen v v' p c none [y]) (ha : v'.wire p.other = v.wire p.other)
    (hy : y.type = .channelClose ∧ y.localChannelId = ch.remoteId) : Phase v' := by
  have hown : ∀ {e}, v.chan p = sole c e → v'.chan p = nobody := by
    intro e he
    rw [hs.own, he, update_sole_none]
  cases h.standing hl hst with
  | acceptor x e o l own remote peer status request answer type traffic =>
    refine .withdrawn p.other x e o y l (hs.peer.trans peer) status ?_ (ha.trans request) ?_
      ⟨type.1, type.2.1, by rw [type.2.2]; exact hc⟩ traffic ⟨hy.1, hy.2.trans remote⟩
    · rw [Peer.other_other, hown own]
    · rw [Peer.other_other, hs.request, answer, List.cons_append]
  | pair d e hp =>
    refine .half p d e y (v.wire p) (hown hp.own) (hs.peer.trans hp.peer)
      ⟨hp.peerBound.1, hp.peerBound.2 ▸ hc⟩ hs.request hp.traffic ⟨hy.1, hy.2.trans hp.bound.2⟩ ?_
    intro w hw
    rw [ha] at hw
    exact (hp.peerTraffic w hw).notOpen
  | survivor z l own remote peer request traffic last answer =>
    refine .closed (fun r => ?_) fun r w hw => ?_
    · rcases p.eq_or_other r with rfl | rfl
      · exact hown own
      · exact hs.peer.trans peer
    · rcases p.eq_or_other r with rfl | rfl
      · rw [hs.request, List.mem_append, List.mem_singleton] at hw
        rcases hw with hw | rfl
        · exact answer w hw
        · rw [hy.1]
          decide
      · rw [ha, request, List.mem_append, List.mem_singleton] at hw
        rcases hw with hw | rfl
        · exact (traffic w hw).notOpen
        · rw [last.1]
          decide

/-- Where no channel is left, no request is under way. -/
theorem Phase.vacant (h : Phase v) (hv : ∀ p, v.chan p = nobody) :
    ∀ p, ∀ y ∈ v.wire p, y.type ≠ .channelOpen := by
  have hsole : ∀ {q c ch}, v.chan q = sole c ch → False := by
    intro q c ch hq
    exact sole_ne_nobody (hq.symm.trans (hv q))
  cases h with
  | opening q c ch o own => exact (hsole own).elim
  | accepted q c d ch e o l own => exact (hsole own).elim
  | withdrawn q c ch o y l own => exact (hsole own).elim
  | refused q c ch o own => exact (hsole own).elim
  | paired q c d ch e hp => exact (hsole hp.own).elim
  | half q d e y l own peer => exact (hsole peer).elim
  | closed own wire => exact wire

/-- With nothing in flight, both channels stand or neither does. -/
theorem Phase.settled (h : Phase v) (hw : ∀ p, v.wire p = []) (p : Peer) :
    v.chan p = nobody ∨ ∃ c d ch e, Pair v p c d ch e := by
  cases h with
  | opening q c ch o own status peer request =>
    rw [hw q] at request
    cases request
  | accepted q c d ch e o l own status peer bound request answer =>
    rw [hw q.other] at answer
    cases answer
  | withdrawn q c ch o y l own status peer request answer =>
    rw [hw q.other] at answer
    cases answer
  | refused q c ch o own status peer request answer =>
    rw [hw q.other] at answer
    cases answer
  | paired q c d ch e hp =>
    rcases q.eq_or_other p with rfl | rfl
    · exact .inr ⟨c, d, ch, e, hp⟩
    · exact .inr ⟨d, c, e, ch, hp.symm⟩
  | half q d e y l own peer peerBound request =>
    rw [hw q] at request
    exact absurd request.symm (List.append_ne_nil_of_right_ne_nil l (List.cons_ne_nil y []))
  | closed own wire => exact .inl (own p)

/-! What the handler does with the packets of a phase. -/

section Notify
variable {chs : Channels Nat} {pb : Packet} {env : NotifyEnv} {e : Channel Nat}

theorem notify_unknown (env : NotifyEnv) (hl : chs.lookup pb.localChannelId = none) (ht : pb.type ≠ .channelOpen) :
    (notifyPacket chs pb env).channels = chs ∧ (notifyPacket chs pb env).sent = [] := by
  unfold notifyPacket
  split
  · exact ⟨rfl, rfl⟩
  · rw [hl]
    exact ⟨rfl, rfl⟩

theorem notify_known (env : NotifyEnv) (hl : chs.lookup pb.localChannelId = some e) (hz : chs.lookup 0 = none)
    (ht : pb.type ≠ .channelOpen) : notifyPacket chs pb env = notifyChannel chs e pb env := by
  have hlocal : pb.localChannelId ≠ 0 := by
    intro h
    rw [h, hz] at hl
    cases hl
  rw [notifyPacket, if_neg fun h => hlocal h.2.1, if_neg ht, hl]

theorem notify_confirmed (chs : Channels Nat) (env : NotifyEnv)
    (ht : pb.type = .channelOpenConfirmation) (hs : e.status = .opening)
    (hr : pb.remoteChannelId ≠ 0) :
    SetAt chs (notifyChannel chs e pb env).channels pb.localChannelId
        (some { e with status := .open, remoteId := pb.remoteChannelId }) ∧
      (notifyChannel chs e pb env).sent = [] := by
  have hopen : ¬ e.status ≠ .opening := fun h => h hs
  simp only [notifyChannel, ht, if_neg hopen, if_pos hr]
  exact ⟨setAt_insert _ _ _, trivial⟩

theorem notify_refused (chs : Channels Nat) (env : NotifyEnv)
    (ht : pb.type = .channelOpenConfirmation) (hs : e.status = .opening)
    (hr : pb.remoteChannelId = 0) :
    SetAt chs (notifyChannel chs e pb env).channels pb.localChannelId none ∧
      (notifyChannel chs e pb env).sent = [] := by
  have hopen : ¬ e.status ≠ .opening := fun h => h hs
  simp only [notifyChannel, ht, if_neg hopen, hr, ne_eq, not_true_eq_false, if_false]
  exact ⟨setAt_erase _ _, trivial⟩

theorem notify_closed (chs : Channels Nat) (e : Channel Nat) (env : NotifyEnv)
    (ht : pb.type = .channelClose) :
    SetAt chs (notifyChannel chs e pb env).channels pb.localChannelId none ∧
      (notifyChannel chs e pb env).sent = [] := by
  simp only [notifyChannel, ht]
  exact ⟨setAt_erase _ _, trivial⟩

/-- Traffic leaves an open channel open, as long as the data callback wants to keep it. -/
theorem notify_traffic {c : ChannelId} (ht : Traffic c pb)
    (hl : chs.lookup pb.localChannelId = some e) (hs : e.status ≠ .opening)
    (hk : pb.type = .channelData → env.keep = true) :
    ∃ e' : Channel Nat, SetAt chs (notifyChannel chs e pb env).channels pb.localChannelId (some e') ∧
      e'.status ≠ .opening ∧ e'.remoteId = e.remoteId ∧ e'.tag = e.tag ∧
      (notifyChannel chs e pb env).sent = [] := by
  have hsame : ∀ r : MuxResult Nat, r.channels = chs → r.sent = [] → ∃ e' : Channel Nat,
      SetAt chs r.channels pb.localChannelId (some e') ∧ e'.status ≠ .opening ∧
      e'.remoteId = e.remoteId ∧ e'.tag = e.tag ∧ r.sent = [] := by
    intro r hr hsent
    exact ⟨e, by rw [hr]; exact setAt_same hl, hs, rfl, rfl, hsent⟩
  unfold notifyChannel
  split
  next h => exact absurd h ht.notOpen
  next h => exact absurd h ht.notConfirmation
  next h =>
    split
    · exact hsame _ rfl rfl
    · rw [hk h]
      exact hsame _ rfl rfl
  · exact hsame _ rfl rfl
  · split
    · exact hsame _ rfl rfl
    · exact ⟨{ e with status := .pending }, setAt_insert _ _ _, by simp, rfl, rfl, rfl⟩
  · split
    · exact hsame _ rfl rfl
    · exact ⟨{ e with status := .open }, setAt_insert _ _ _, by simp, rfl, rfl, rfl⟩
  next h => exact absurd h ht.notClose

/-- An open packet that meets an allocation and a sending that work is answered. -/
theorem notify_opened {c : ChannelId} (ht : pb.type = .channelOpen) (ho : pb.option = .user)
    (ha : env.alloc = .id c) (hl : chs.lookup c = none) (hs : env.sent = true) :
    (env.accept = false ∧ (notifyPacket chs pb env).channels = chs ∧ (notifyPacket chs pb env).sent =
        [sendPacket .channelOpenConfirmation .user 0 pb.remoteChannelId [] pb.tag]) ∨
      (env.accept = true ∧ SetAt chs (notifyPacket chs pb env).channels c
          (some ⟨pb.remoteChannelId, .open, pb.tag⟩) ∧ (notifyPacket chs pb env).sent =
        [sendPacket .channelOpenConfirmation .user c pb.remoteChannelId [] pb.tag]) := by
  have hdata : ¬ (pb.remoteChannelId = 0 ∧ pb.localChannelId = 0 ∧ pb.type = .channelData) := by
    rw [ht]
    simp
  rw [notifyPacket, if_neg hdata, if_pos ht, if_pos ho]
  cases hacc : env.accept with
  | false =>
    refine .inl ⟨rfl, ?_, ?_⟩
    · simp only [notifyOpen, ha, hacc]
      exact Table.erase_insert_of_free hl _
    · simp [notifyOpen, ha, hacc, hs]
  | true =>
    refine .inr ⟨rfl, ?_, ?_⟩
    · intro x
      simp only [notifyOpen, ha, hacc, hs, Bool.not_true, Bool.false_eq_true, if_false,
        Table.lookup_insert_eq]
      split <;> rfl
    · simp [notifyOpen, ha, hacc, hs]

end Notify

/-! Arrivals, seen through the incarnation of the packet. -/

/-- A packet that arrives is the oldest of its incarnation. -/
theorem view_arrived {pb : Packet} {rest : List Packet} (r : MuxResult Nat) (next : Nat)
    (hw : s.wire p.other = pb :: rest) :
    (s.view pb.tag).wire p.other =
      pb :: ((s.after p (s.wire.taken p.other) next r).view pb.tag).wire p.other := by
  obtain ⟨hkeep, l, hl⟩ := Wires.only_taken_keep (f := fun y => decide (y.tag = pb.tag)) hw (by simp)
  simp only [Link.view, Link.after, Wires.only_send, Wires.send_other, hkeep, Wires.taken_self, hl,
    List.tail_cons]

section Deliver
variable {pb : Packet} {env : NotifyEnv} {x : ChannelId} {e : Channel Nat}

/-- Nothing of the incarnation is left where the packet arrives. -/
theorem deliver_nobody (hb : Bound s) (hown : (s.view pb.tag).chan p = nobody)
    (hm : pb ∈ s.wire p.other) : (s.channels p).lookup pb.localChannelId = none := by
  cases hl : (s.channels p).lookup pb.localChannelId with
  | none => rfl
  | some e =>
    have hsome : (s.view pb.tag).chan p pb.localChannelId = some e :=
      view_chan.mpr ⟨hl, hb.arriving p pb e hm hl⟩
    rw [hown] at hsome
    cases hsome

/-- The opener's request is answered. -/
theorem Phase.answered (tag : Nat) (hown : v.chan p = nobody) (hpeer : v.chan p.other = sole x e)
    (hst : e.status = .opening) (hwire : v.wire p = []) (hrest : v'.wire p.other = [])
    (hs : (Seen v v' p 0 none [sendPacket .channelOpenConfirmation .user 0 x [] tag]) ∨
      ∃ d, Seen v v' p d (some ⟨x, .open, tag⟩)
        [sendPacket .channelOpenConfirmation .user d x [] tag]) : Phase v' := by
  rcases hs with hs | ⟨d, hs⟩
  · refine .refused p.other x e (sendPacket .channelOpenConfirmation .user 0 x [] tag)
      (hs.peer.trans hpeer) hst ?_ hrest ?_ ⟨rfl, rfl, rfl⟩
    · rw [Peer.other_other, hs.own, hown]
      exact Function.update_eq_self 0 nobody
    · rw [Peer.other_other, hs.request, hwire, List.nil_append]
  · refine .accepted p.other x d e ⟨x, .open, tag⟩
      (sendPacket .channelOpenConfirmation .user d x [] tag) [] (hs.peer.trans hpeer) hst ?_
      ⟨by simp, rfl⟩ hrest ?_ ⟨rfl, rfl, rfl⟩ (fun z hz => nomatch hz)
    · rw [Peer.other_other, hs.own, hown]
      rfl
    · rw [Peer.other_other, hs.request, hwire, List.nil_append]

/-- Where nothing of the incarnation is left, an arriving packet is only lost. -/
theorem Phase.ignored (h : Phase v) (hown : v.chan p = nobody)
    (hs : Seen v v' p 0 none []) (hw : v.wire p.other = pb :: v'.wire p.other)
    (ht : pb.type ≠ .channelOpen) : Phase v' := by
  have hgone : v'.chan p = nobody := by
    rw [hs.own, hown]
    exact Function.update_eq_self 0 nobody
  have hkeep : v'.wire p = v.wire p := by rw [hs.request, List.append_nil]
  have hsole : ∀ {q c ch}, v.chan q = sole c ch → q = p → False := by
    rintro q c ch hq rfl
    exact sole_ne_nobody (hq.symm.trans hown)
  cases h with
  | opening q c ch o own status peer request type answer =>
    rcases q.eq_or_other p with rfl | rfl
    · exact (hsole own rfl).elim
    · rw [Peer.other_other, request] at hw
      obtain ⟨rfl, -⟩ := List.cons.inj hw
      exact absurd type.1 ht
  | accepted q c d ch e o l own status peer =>
    rcases q.eq_or_other p with rfl | rfl
    · exact (hsole own rfl).elim
    · exact (hsole peer rfl).elim
  | withdrawn q c ch o y l own status peer request =>
    rcases q.eq_or_other p with rfl | rfl
    · exact (hsole own rfl).elim
    · rw [Peer.other_other, request] at hw
      cases hw
  | refused q c ch o own status peer request =>
    rcases q.eq_or_other p with rfl | rfl
    · exact (hsole own rfl).elim
    · rw [Peer.other_other, request] at hw
      cases hw
  | paired q c d ch e hp =>
    rcases q.eq_or_other p with rfl | rfl
    · exact (hsole hp.own rfl).elim
    · exact (hsole hp.peer rfl).elim
  | half q d e y l own peer peerBound request traffic last answer =>
    rcases q.eq_or_other p with rfl | rfl
    · refine .half p d e y l hgone (hs.peer.trans peer) peerBound (hkeep.trans request) traffic last ?_
      intro z hz
      exact answer z (by rw [hw]; exact List.mem_cons_of_mem _ hz)
    · exact (hsole peer rfl).elim
  | closed own wire =>
    refine .closed (fun q => ?_) fun q z hz => ?_
    · rcases p.eq_or_other q with rfl | rfl
      · exact hgone
      · exact hs.peer.trans (own _)
    · rcases p.eq_or_other q with rfl | rfl
      · rw [hkeep] at hz
        exact wire _ z hz
      · exact wire _ z (by rw [hw]; exact List.mem_cons_of_mem _ hz)

theorem Phase.chan_cases (h : Phase v) (p : Peer) :
    v.chan p = nobody ∨ ∃ c ch, v.chan p = sole c ch := by
  cases h with
  | opening q c ch o own status peer =>
    rcases q.eq_or_other p with rfl | rfl
    · exact .inr ⟨c, ch, own⟩
    · exact .inl peer
  | accepted q c d ch e o l own status peer =>
    rcases q.eq_or_other p with rfl | rfl
    · exact .inr ⟨c, ch, own⟩
    · exact .inr ⟨d, e, peer⟩
  | withdrawn q c ch o y l own status peer =>
    rcases q.eq_or_other p with rfl | rfl
    · exact .inr ⟨c, ch, own⟩
    · exact .inl peer
  | refused q c ch o own status peer =>
    rcases q.eq_or_other p with rfl | rfl
    · exact .inr ⟨c, ch, own⟩
    · exact .inl peer
  | paired q c d ch e hp =>
    rcases q.eq_or_other p with rfl | rfl
    · exact .inr ⟨c, ch, hp.own⟩
    · exact .inr ⟨d, e, hp.peer⟩
  | half q d e y l own peer =>
    rcases q.eq_or_other p with rfl | rfl
    · exact .inl own
    · exact .inr ⟨d, e, peer⟩
  | closed own wire => exact .inl (own p)

/-- An open packet arrives while its incarnation is opening. -/
structure Requested (v v' : View) (p : Peer) (pb : Packet) (ch : Channel Nat) : Prop where
  own : v.chan p = nobody
  peer : v.chan p.other = sole pb.remoteChannelId ch
  status : ch.status = .opening
  option : pb.option = .user
  answer : v.wire p = []
  request : v'.wire p.other = []

theorem Phase.requested (h : Phase v) (hw : v.wire p.other = pb :: v'.wire p.other)
    (ht : pb.type = .channelOpen) : ∃ ch, Requested v v' p pb ch := by
  have hm : pb ∈ v.wire p.other := by
    rw [hw]
    exact List.mem_cons_self
  have hmany : ∀ {c y l}, (∀ z ∈ l, Traffic c z) → y.type ≠ .channelOpen → pb ∈ l ++ [y] → False := by
    intro c y l hl hy hp
    rcases List.mem_append.mp hp with hp | hp
    · exact (hl pb hp).notOpen ht
    · rw [List.mem_singleton.mp hp] at ht
      exact hy ht
  cases h with
  | opening q c ch o own status peer request type answer =>
    rcases q.eq_or_other p with rfl | rfl
    · rw [answer] at hm
      cases hm
    · rw [Peer.other_other] at hw
      rw [request] at hw
      obtain ⟨rfl, hl⟩ := List.cons.inj hw
      refine ⟨ch, peer, ?_, status, type.2.1, answer, ?_⟩
      · rw [Peer.other_other, own, type.2.2]
      · rw [Peer.other_other]
        exact hl.symm
  | accepted q c d ch e o l own status peer bound request answer type traffic =>
    rcases q.eq_or_other p with rfl | rfl
    · rw [answer] at hm
      rcases List.mem_cons.mp hm with rfl | hm
      · rw [type.1] at ht
        cases ht
      · exact absurd ht (traffic pb hm).notOpen
    · rw [Peer.other_other, request] at hm
      cases hm
  | withdrawn q c ch o y l own status peer request answer type traffic last =>
    rcases q.eq_or_other p with rfl | rfl
    · rw [answer] at hm
      rcases List.mem_cons.mp hm with rfl | hm
      · rw [type.1] at ht
        cases ht
      · exact (hmany traffic (by rw [last.1]; decide) hm).elim
    · rw [Peer.other_other, request] at hm
      cases hm
  | refused q c ch o own status peer request answer type =>
    rcases q.eq_or_other p with rfl | rfl
    · rw [answer, List.mem_singleton] at hm
      rw [hm, type.1] at ht
      cases ht
    · rw [Peer.other_other, request] at hm
      cases hm
  | paired q c d ch e hp =>
    rcases q.eq_or_other p with rfl | rfl
    · exact absurd ht (hp.peerTraffic pb hm).notOpen
    · exact absurd ht (hp.symm.peerTraffic pb hm).notOpen
  | half q d e y l own peer peerBound request traffic last answer =>
    rcases q.eq_or_other p with rfl | rfl
    · exact absurd ht (answer pb hm)
    · rw [Peer.other_other, request] at hm
      exact (hmany traffic (by rw [last.1]; decide) hm).elim
  | closed own wire => exact absurd ht (wire _ pb hm)

/-- What a packet meets that arrives where the incarnation has a channel. -/
inductive Meets (v v' : View) (p : Peer) (x : ChannelId) (e : Channel Nat) (pb : Packet) : Prop
  | confirmation (d : ChannelId) (f : Channel Nat) (status : e.status = .opening)
      (type : pb.type = .channelOpenConfirmation ∧ pb.localChannelId = x ∧ pb.remoteChannelId = d)
      (peer : v.chan p.other = sole d f) (bound : f.status ≠ .opening ∧ f.remoteId = x)
      (request : v.wire p = []) (traffic : ∀ y ∈ v'.wire p.other, Traffic x y)
  | withdrawal (y : Packet) (l : List Packet) (status : e.status = .opening)
      (type : pb.type = .channelOpenConfirmation ∧ pb.localChannelId = x ∧ pb.remoteChannelId ≠ 0)
      (peer : v.chan p.other = nobody) (request : v.wire p = [])
      (answer : v'.wire p.other = l ++ [y]) (traffic : ∀ y ∈ l, Traffic x y)
      (last : y.type = .channelClose ∧ y.localChannelId = x)
  | refusal (status : e.status = .opening)
      (type : pb.type = .channelOpenConfirmation ∧ pb.localChannelId = x ∧ pb.remoteChannelId = 0)
      (peer : v.chan p.other = nobody) (request : v.wire p = []) (answer : v'.wire p.other = [])
  | traffic (d : ChannelId) (f : Channel Nat) (pair : Pair v p x d e f) (traffic : Traffic x pb)
  | lateTraffic (y : Packet) (l : List Packet) (status : e.status ≠ .opening) (bound : e.remoteId ≠ 0)
      (traffic : Traffic x pb) (peer : v.chan p.other = nobody)
      (answer : v'.wire p.other = l ++ [y]) (late : ∀ y ∈ l, Traffic x y)
      (last : y.type = .channelClose ∧ y.localChannelId = x)
      (request : ∀ y ∈ v.wire p, y.type ≠ .channelOpen)
  | close (type : pb.type = .channelClose ∧ pb.localChannelId = x) (peer : v.chan p.other = nobody)
      (answer : v'.wire p.other = []) (request : ∀ y ∈ v.wire p, y.type ≠ .channelOpen)

/-- The phases in which a packet arrives where the incarnation has a channel. -/
theorem Phase.meets (h : Phase v) (hown : v.chan p = sole x e)
    (hw : v.wire p.other = pb :: v'.wire p.other) : Meets v v' p x e pb := by
  have hsame : ∀ {c ch}, v.chan p = sole c ch → c = x ∧ ch = e := by
    intro c ch hc
    have hx : sole x e c = some ch := by rw [← hown, hc, sole_self]
    obtain ⟨rfl, rfl⟩ := sole_eq_some hx
    exact ⟨rfl, rfl⟩
  have hnobody : v.chan p = nobody → False := fun hc => sole_ne_nobody (hown.symm.trans hc)
  cases h with
  | opening q c ch o own status peer request type answer =>
    rcases q.eq_or_other p with rfl | rfl
    · rw [answer] at hw
      cases hw
    · exact (hnobody peer).elim
  | accepted q c d ch f o l own status peer bound request answer type traffic =>
    rcases q.eq_or_other p with rfl | rfl
    · obtain ⟨rfl, rfl⟩ := hsame own
      rw [answer] at hw
      obtain ⟨rfl, rfl⟩ := List.cons.inj hw
      exact .confirmation d f status type peer bound request traffic
    · rw [Peer.other_other, request] at hw
      cases hw
  | withdrawn q c ch o y l own status peer request answer type traffic last =>
    rcases q.eq_or_other p with rfl | rfl
    · obtain ⟨rfl, rfl⟩ := hsame own
      rw [answer] at hw
      obtain ⟨rfl, hl⟩ := List.cons.inj hw
      exact .withdrawal y l status type peer request hl.symm traffic last
    · exact (hnobody peer).elim
  | refused q c ch o own status peer request answer type =>
    rcases q.eq_or_other p with rfl | rfl
    · obtain ⟨rfl, rfl⟩ := hsame own
      rw [answer] at hw
      obtain ⟨rfl, hl⟩ := List.cons.inj hw
      exact .refusal status type peer request hl.symm
    · exact (hnobody peer).elim
  | paired q c d ch f hp =>
    rcases q.eq_or_other p with rfl | rfl
    · obtain ⟨rfl, rfl⟩ := hsame hp.own
      exact .traffic d f hp (hp.peerTraffic pb (by rw [hw]; exact List.mem_cons_self))
    · obtain ⟨rfl, rfl⟩ := hsame hp.peer
      exact .traffic c ch hp.symm (hp.symm.peerTraffic pb (by rw [hw]; exact List.mem_cons_self))
  | half q d f y l own peer peerBound request traffic last answer =>
    rcases q.eq_or_other p with rfl | rfl
    · exact (hnobody own).elim
    · obtain ⟨rfl, rfl⟩ := hsame peer
      rw [← Peer.other_other q] at own
      rw [Peer.other_other, request] at hw
      cases l with
      | nil =>
        obtain ⟨rfl, hl⟩ := List.cons.inj hw
        exact .close last own (by rw [Peer.other_other]; exact hl.symm) answer
      | cons z l =>
        obtain ⟨rfl, hl⟩ := List.cons.inj hw
        exact .lateTraffic y l peerBound.1 peerBound.2 (traffic z List.mem_cons_self) own
          (by rw [Peer.other_other]; exact hl.symm) (fun w hw => traffic w (List.mem_cons_of_mem _ hw))
          last answer
  | closed own wire => exact (hnobody (own p)).elim

theorem Meets.addressed (h : Meets v v' p x e pb) :
    pb.localChannelId = x ∧ pb.type ≠ .channelOpen := by
  cases h with
  | confirmation d f status type => exact ⟨type.2.1, by rw [type.1]; decide⟩
  | withdrawal y l status type => exact ⟨type.2.1, by rw [type.1]; decide⟩
  | refusal status type => exact ⟨type.2.1, by rw [type.1]; decide⟩
  | traffic d f hp ht => exact ⟨ht.addressed, ht.notOpen⟩
  | lateTraffic y l status bound ht => exact ⟨ht.addressed, ht.notOpen⟩
  | close type => exact ⟨type.2, by rw [type.1]; decide⟩

/-- The next phase, given what the handler makes of confirmations, closes and traffic. -/
theorem Meets.phase (h : Meets v v' p x e pb) (hown : v.chan p = sole x e)
    (hw : v.wire p.other = pb :: v'.wire p.other) (hz : v.chan p.other 0 = none)
    (hconf : pb.type = .channelOpenConfirmation → e.status = .opening → pb.remoteChannelId ≠ 0 →
      Seen v v' p x (some { e with status := .open, remoteId := pb.remoteChannelId }) [])
    (hgone : (pb.type = .channelOpenConfirmation ∧ e.status = .opening ∧ pb.remoteChannelId = 0) ∨
      pb.type = .channelClose → Seen v v' p x none [])
    (hkept : Traffic x pb → e.status ≠ .opening → ∃ e' : Channel Nat,
      e'.status ≠ .opening ∧ e'.remoteId = e.remoteId ∧ Seen v v' p x (some e') []) : Phase v' := by
  have hset : ∀ {e'}, Seen v v' p x (some e') [] → v'.chan p = sole x e' := by
    intro e' hs
    rw [hs.own, hown, update_sole_some]
  have hkeep : ∀ {o}, Seen v v' p x o [] → v'.wire p = v.wire p := by
    intro o hs
    rw [hs.request, List.append_nil]
  have hover : Seen v v' p x none [] → v.chan p.other = nobody → (∀ y ∈ v.wire p, y.type ≠ .channelOpen) →
      v'.wire p.other = [] → Phase v' := by
    intro hs hpeer hreq hans
    refine .closed (fun q => ?_) fun q z hq => ?_
    · rcases p.eq_or_other q with rfl | rfl
      · rw [hs.own, hown, update_sole_none]
      · exact hs.peer.trans hpeer
    · rcases p.eq_or_other q with rfl | rfl
      · rw [hkeep hs] at hq
        exact hreq z hq
      · rw [hans] at hq
        cases hq
  have hsurvives : ∀ {e'} {y l}, Seen v v' p x (some e') [] → v.chan p.other = nobody →
      e'.status ≠ .opening ∧ e'.remoteId ≠ 0 → v'.wire p.other = l ++ [y] → (∀ z ∈ l, Traffic x z) →
      (y.type = .channelClose ∧ y.localChannelId = x) → (∀ y ∈ v.wire p, y.type ≠ .channelOpen) →
      Phase v' := by
    intro e' y l hs hpeer hbound hans hlate hlast hreq
    refine .half p.other x e' y l (hs.peer.trans hpeer) ?_ hbound hans hlate hlast ?_
    · rw [Peer.other_other, hset hs]
    · rw [Peer.other_other, hkeep hs]
      exact hreq
  have hnone : ∀ {q}, v.wire q = [] → ∀ y ∈ v.wire q, y.type ≠ .channelOpen := by
    intro q hq y hy
    rw [hq] at hy
    cases hy
  cases h with
  | confirmation d f status type peer bound request traffic =>
    have hd : pb.remoteChannelId ≠ 0 := by
      intro h0
      rw [peer, ← type.2.2, h0, sole_self] at hz
      cases hz
    have hs := hconf type.1 status hd
    refine .paired p x d _ f ⟨hset hs, ⟨by simp, type.2.2⟩, hs.peer.trans peer, bound, ?_, traffic⟩
    intro y hy
    rw [hkeep hs, request] at hy
    cases hy
  | withdrawal y l status type peer request answer traffic last =>
    exact hsurvives (hconf type.1 status type.2.2) peer ⟨by simp, type.2.2⟩ answer traffic last
      (hnone request)
  | refusal status type peer request answer =>
    exact hover (hgone (.inl ⟨type.1, status, type.2.2⟩)) peer (hnone request) answer
  | traffic d f hp ht =>
    obtain ⟨e', hst, hr, hs⟩ := hkept ht hp.bound.1
    refine .paired p x d e' f ⟨hset hs, ⟨hst, hr.trans hp.bound.2⟩, hs.peer.trans hp.peer, hp.peerBound,
      ?_, ?_⟩
    · rw [hkeep hs]
      exact hp.traffic
    · intro y hy
      exact hp.peerTraffic y (by rw [hw]; exact List.mem_cons_of_mem _ hy)
  | lateTraffic y l status bound ht peer answer late last request =>
    obtain ⟨e', hst, hr, hs⟩ := hkept ht status
    exact hsurvives hs peer ⟨hst, by rw [hr]; exact bound⟩ answer late last request
  | close type peer answer request => exact hover (hgone (.inr type.1)) peer request answer

end Deliver

end CarrierSdk.Mux
