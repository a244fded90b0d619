import CarrierSdk.FileTransfer.Transfer

/-! No block is skipped. What has been handed over and what is in flight make up what was
sent since the last pull was taken up. -/
namespace CarrierSdk.FileTransfer
open Mux

/-! What calls send, and what arrivals do. -/

/-- A call on a channel is refused, or its packet goes to the other end. -/
inductive Sends (chs : Channels Nat) (c : ChannelId) (type : PacketType) (payload : List UInt8)
    (r : MuxResult Nat) : Prop
  | refused (e : MuxError) (ret : r.ret = .error e) (channels : r.channels = chs) (sent : r.sent = [])
  | sent (ch : Channel Nat) (ret : r.ret = .ok ()) (channels : r.channels = chs)
      (found : chs.lookup c = some ch) (status : ch.status ≠ .opening)
      (packet : r.sent = [sendPacket type .user c ch.remoteId payload ch.tag])

theorem sendOnChannel_sends (type : PacketType) (chs : Channels Nat) (c : ChannelId)
    (payload : List UInt8) (sent : Bool) : Sends chs c type payload (sendOnChannel type chs c payload sent) := by
  unfold sendOnChannel
  split
  · exact .refused _ rfl rfl rfl
  next ch hl =>
    split
    · exact .refused _ rfl rfl rfl
    next hs =>
      split
      · exact .refused _ rfl rfl rfl
      split
      · refine .sent ch rfl rfl hl (fun ho => hs ?_) rfl
        rw [ho]
        decide
      · exact .refused _ rfl rfl rfl

theorem write_sends (chs : Channels Nat) {c : ChannelId} (hc : c ≠ 0) (payload : List UInt8) (sent : Bool)
    (tag : Nat) : Sends chs c .channelData payload (elaStreamWriteChannel chs c payload sent tag) := by
  unfold elaStreamWriteChannel
  split
  · exact .refused _ rfl rfl rfl
  · rw [writeChannel, if_neg hc]
    exact sendOnChannel_sends ..

def FileCall.packet : FileCall → PacketType × List UInt8
  | .pull offset => (.channelData, pullBytes offset)
  | .send data => (.channelData, data)
  | .cancel status reason => (.channelData, cancelBytes status reason)
  | .pend => (.channelPending, [])
  | .resume => (.channelResume, [])

def FileCall.role : FileCall → Role
  | .send _ => .sender
  | _ => .receiver

/-- A call fails and leaves everything as it is, or its packet goes out over a live item. -/
inductive Called (ft : ElaFileTransfer) (chs : Channels Nat) (role : Role) (packet : PacketType × List UInt8)
    (r : FileResult Nat) : Prop
  | failed (e : MuxError) (ret : r.ret = .error e) (ft : r.ft = ft) (channels : r.channels = chs)
      (sent : r.sent = [])
  | done (i : Slot) (state : FileTransferState) (c : ChannelId) (ch : Channel Nat)
      (role : ft.senderReceiver = role) (channel : (ft.files i).channel = some c)
      (ret : r.ret = .ok ()) (ft : r.ft = ft.setState i state) (channels : r.channels = chs)
      (found : chs.lookup c = some ch) (status : ch.status ≠ .opening)
      (sent : r.sent = [sendPacket packet.1 .user c ch.remoteId packet.2 ch.tag])

theorem checkItem_ok {ft : ElaFileTransfer} {fileid : CString} {fits : FileTransferItem → Bool} {role : Role}
    {allowed : FileTransferState → Bool} {i : Slot} (h : checkItem ft fileid fits role allowed = .ok i) :
    ft.senderReceiver = role ∧ allowed (ft.files i).state = true := by
  unfold checkItem at h
  split at h
  · cases h
  split at h
  · cases h
  split at h
  · cases h
  split at h
  · cases h
  next hrole =>
    split at h
    · cases h
    split at h
    · cases h
    next hallowed =>
      cases h
      exact ⟨not_not.mp hrole, by simpa using hallowed⟩

variable {ft : ElaFileTransfer} {chs : Channels Nat} {c : ChannelId}

theorem callItem_called {fileid : CString} {fits : FileTransferItem → Bool} {role : Role}
    {allowed : FileTransferState → Bool} (state : FileTransferState → FileTransferState)
    {call : ChannelId → MuxResult Nat} (packet : PacketType × List UInt8)
    (hlive : ∀ i, (ft.files i).state ≠ .none → (ft.files i).channel = some c)
    (hallowed : allowed .none = false) (hcall : Sends chs c packet.1 packet.2 (call c)) :
    Called ft chs role packet (callItem ft chs (checkItem ft fileid fits role allowed) state call) := by
  unfold callItem
  split
  · exact .failed _ rfl rfl rfl rfl
  next i hi =>
    obtain ⟨hrole, hst⟩ := checkItem_ok hi
    have hchannel : (ft.files i).channel = some c := by
      refine hlive i fun hnone => ?_
      rw [hnone, hallowed] at hst
      cases hst
    simp only [sendOver, hchannel]
    cases hcall with
    | refused e ret channels sent =>
      rw [ret]
      exact .failed e rfl rfl channels sent
    | sent ch ret channels found status packet =>
      rw [ret]
      exact .done i _ c ch hrole hchannel rfl rfl channels found status packet

theorem fileCall_called (chs : Channels Nat) (hc : c ≠ 0)
    (hlive : ∀ i, (ft.files i).state ≠ .none → (ft.files i).channel = some c) (fileid : CString) (sent : Bool)
    (op : FileCall) : Called ft chs op.role op.packet (fileCall ft chs fileid sent op) := by
  cases op with
  | pull offset => exact callItem_called (fun _ => .transfering) (_, _) hlive (by rfl) (write_sends chs hc _ sent _)
  | send data => exact callItem_called id (_, _) hlive (by rfl) (write_sends chs hc _ sent _)
  | cancel status reason => exact callItem_called id (_, _) hlive (by rfl) (write_sends chs hc _ sent _)
  | pend =>
    have hs := sendOnChannel_sends .channelPending chs c [] sent
    refine callItem_called (fun _ => .standby) (_, _) hlive (by rfl) ?_
    rw [streamCall, if_neg hc]
    exact hs
  | resume =>
    have hs := sendOnChannel_sends .channelResume chs c [] sent
    refine callItem_called (fun _ => .transfering) (_, _) hlive (by rfl) ?_
    rw [streamCall, if_neg hc]
    exact hs

/-- What a packet of a transfer does where it arrives. -/
inductive Arrival (chs : Channels Nat) (pb : Packet) (keep : Bool) (r : MuxResult Nat) : Prop
  | ignored (why : pb.type = .channelData → ∀ ch, chs.lookup pb.localChannelId = some ch →
        ch.status = .opening)
      (confirmed : ∀ ch, chs.lookup pb.localChannelId = some ch → ch.status = .opening →
        pb.type ≠ .channelOpenConfirmation)
      (channels : r.channels = chs) (events : r.events = [])
  | changed (ch ch' : Channel Nat) (e : MuxEvent) (type : pb.type ≠ .channelData)
      (found : chs.lookup pb.localChannelId = some ch)
      (channels : SetAt chs r.channels pb.localChannelId (some ch'))
      (status : ch'.status ≠ .opening)
      (remote : (ch.status ≠ .opening ∧ ch'.remoteId = ch.remoteId) ∨ ch'.remoteId = pb.remoteChannelId)
      (events : r.events = [e])
      (event : e = .channelOpened pb.localChannelId ∨ e = .channelPending pb.localChannelId ∨
        e = .channelResume pb.localChannelId)
  | handed (ch : Channel Nat) (type : pb.type = .channelData) (keep : keep = true)
      (found : chs.lookup pb.localChannelId = some ch) (channels : r.channels = chs)
      (events : r.events = [.channelData pb.localChannelId pb.payload])
  | ended (ch : Channel Nat) (type : pb.type = .channelData) (keep : keep = false)
      (found : chs.lookup pb.localChannelId = some ch)
      (channels : SetAt chs r.channels pb.localChannelId none)
      (events : r.events = [.channelData pb.localChannelId pb.payload, .channelClose pb.localChannelId .error])

/-- The types of packets that a transfer sends. -/
def TransferPacket (t : PacketType) : Prop :=
  t = .channelOpenConfirmation ∨ t = .channelData ∨ t = .channelPending ∨ t = .channelResume

theorem notify_arrival (chs : Channels Nat) (pb : Packet) (env : NotifyEnv) (ht : TransferPacket pb.type)
    (hr : pb.remoteChannelId ≠ 0) :
    Arrival chs pb env.keep (notifyPacket chs pb env) ∧ (notifyPacket chs pb env).sent = [] := by
  have hopen : pb.type ≠ .channelOpen := by
    rcases ht with h | h | h | h <;> rw [h] <;> decide
  rw [notifyPacket, if_neg fun h => hr h.1, if_neg hopen]
  split
  next hl =>
    refine ⟨.ignored (fun _ ch h => ?_) (fun ch h => ?_) rfl rfl, rfl⟩
    · rw [hl] at h
      cases h
    · rw [hl] at h
      cases h
  next ch hl =>
    have hsame : ∀ {e}, chs.lookup pb.localChannelId = some e → e = ch := fun h =>
      Option.some.inj (h.symm.trans hl)
    unfold notifyChannel
    split
    next h => exact absurd h hopen
    next h =>
      split
      next hst =>
        refine ⟨.ignored (fun h' => ?_) (fun e he ho => ?_) rfl rfl, rfl⟩
        · rw [h] at h'
          cases h'
        · rw [hsame he] at ho
          exact absurd ho hst
      next hst =>
        exact ⟨.changed ch _ _ (by rw [h]; decide) hl (setAt_insert _ _ _) (by simp) (.inr rfl) rfl
          (.inl rfl), rfl⟩
    next h =>
      split
      next hst =>
        refine ⟨.ignored (fun _ e he => ?_) (fun _ _ _ => by rw [h]; decide) rfl rfl, rfl⟩
        rw [hsame he]
        cases hch : ch.status <;> simp [hch] at hst
        rfl
      next hst =>
        cases hk : env.keep with
        | false => exact ⟨.ended ch h rfl hl (setAt_erase _ _) rfl, rfl⟩
        | true => exact ⟨.handed ch h rfl hl rfl rfl, rfl⟩
    next h =>
      rcases ht with h' | h' | h' | h' <;> rw [h] at h' <;> cases h'
    next h =>
      have hne : pb.type ≠ .channelData ∧ pb.type ≠ .channelOpenConfirmation := by
        rw [h]
        decide
      split
      next hst => exact ⟨.ignored (fun h' => absurd h' hne.1) (fun _ _ _ => hne.2) rfl rfl, rfl⟩
      next hst =>
        refine ⟨.changed ch _ _ hne.1 hl (setAt_insert _ _ _) (by simp) (.inl ⟨?_, rfl⟩) rfl
          (.inr (.inl rfl)), rfl⟩
        rw [not_not.mp hst]
        decide
    next h =>
      have hne : pb.type ≠ .channelData ∧ pb.type ≠ .channelOpenConfirmation := by
        rw [h]
        decide
      split
      next hst => exact ⟨.ignored (fun h' => absurd h' hne.1) (fun _ _ _ => hne.2) rfl rfl, rfl⟩
      next hst =>
        refine ⟨.changed ch _ _ hne.1 hl (setAt_insert _ _ _) (by simp) (.inl ⟨?_, rfl⟩) rfl
          (.inr (.inr rfl)), rfl⟩
        rw [not_not.mp hst]
        decide
    next h =>
      rcases ht with h' | h' | h' | h' <;> rw [h] at h' <;> cases h'

/-! Items stay with their channel. -/

/-- Items in use belong to the channel, and the part that a peer plays is settled. -/
structure Live (ft : ElaFileTransfer) (role : Role) (c : ChannelId) : Prop where
  role : ft.senderReceiver = role
  channel : ∀ i, (ft.files i).state ≠ .none → (ft.files i).channel = some c

variable {role : Role}

theorem getFileinfoChannel_some {i : Slot} (h : ft.getFileinfoChannel c = some i) :
    (ft.files i).channel = some c := by
  simpa using List.find?_some h

theorem Live.update (h : Live ft role c) {i : Slot} {item : FileTransferItem}
    (hi : item.state ≠ .none → item.channel = some c) :
    Live { ft with files := Function.update ft.files i item } role c := by
  refine ⟨h.role, fun j hj => ?_⟩
  by_cases hji : j = i
  · subst hji
    simp only [Function.update_self] at hj ⊢
    exact hi hj
  · simp only [Function.update_of_ne hji] at hj ⊢
    exact h.channel j hj

theorem Live.setState (h : Live ft role c) {i : Slot} (state : FileTransferState)
    (hi : (ft.files i).channel = some c) : Live (ft.setState i state) role c :=
  h.update fun _ => hi

theorem Live.close (h : Live ft role c) : Live (streamChannelClose ft c) role c := by
  unfold streamChannelClose
  split
  · exact h
  next i hi => exact h.update fun hne => absurd rfl hne

theorem Live.data (h : Live ft role c) (data : List UInt8) (more : Bool) :
    Live (streamChannelData ft c data more).ft role c := by
  unfold streamChannelData
  split
  · exact h
  next i hi =>
    have hset : ∀ state, Live (ft.setState i state) role c := fun state =>
      h.setState state (getFileinfoChannel_some hi)
    dsimp only
    split
    · split
      · split
        · exact h
        · exact hset _
      split
      · exact hset _
      · exact h
    · split
      · exact h
      · exact h
    · exact h

theorem Live.paused (h : Live ft role c) (old new : FileTransferState) (event : CString → FileEvent) :
    Live (streamChannelPaused ft c old new event).1 role c := by
  unfold streamChannelPaused
  split
  · exact h
  dsimp only
  split
  · exact h
  next i hi =>
    split
    · exact h
    · exact h.setState _ (getFileinfoChannel_some hi)

/-! The two ends and what is in flight between them. -/

def ends (c d : ChannelId) : Peer → ChannelId
  | .left => c
  | .right => d

def part : Peer → Role
  | .left => .sender
  | .right => .receiver

/-- What each peer puts on the wire. -/
def carries : Peer → PacketType → Prop
  | .left, t => t = .channelData
  | .right, t => TransferPacket t

theorem carries_transferPacket {p : Peer} {t : PacketType} (h : carries p t) : TransferPacket t := by
  cases p with
  | left => exact .inr (.inl h)
  | right => exact h

/-- Channels name each other, and so do the packets in flight. -/
structure Flows (c d : ChannelId) (s : Transfer) : Prop where
  nonzero : ∀ p, ends c d p ≠ 0
  live : ∀ p, Live (s.ft p) (part p) (ends c d p)
  channel : ∀ p x ch, (s.link.channels p).lookup x = some ch →
    x = ends c d p ∧ (ch.status ≠ .opening → ch.remoteId = ends c d p.other)
  opening : ∀ p x ch, (s.link.channels p).lookup x = some ch → ch.status = .opening →
    p = .left ∧ ∃ o rest, s.link.wire .right = o :: rest ∧ o.type = .channelOpenConfirmation
  packet : ∀ p, ∀ y ∈ s.link.wire p,
    y.localChannelId = ends c d p.other ∧ y.remoteChannelId = ends c d p ∧ carries p y.type

variable {d : ChannelId} {s : Transfer} {p : Peer}

theorem carries_call (op : FileCall) (h : op.role = part p) : carries p op.packet.1 := by
  cases p with
  | left => cases op <;> first | rfl | cases h
  | right => cases op <;> simp [carries, TransferPacket, FileCall.packet]

theorem after_unchanged {l : Link} {r : MuxResult Nat} (h : r.channels = l.channels p) (w : Wires Packet)
    (next : Nat) : (l.after p w next r).channels = l.channels := by
  rw [Link.after, h]
  exact Function.update_eq_self p _

theorem Flows.call (h : Flows c d s) (fileid : CString) (op : FileCall) (sent : Bool) {t : Transfer}
    {o : List TransferOutput} (hs : transferStep s (.call p fileid op sent) = some (t, o)) :
    Flows c d t := by
  cases hs
  have hcall := fileCall_called (s.link.channels p) (h.nonzero p) (h.live p).channel fileid sent op
  generalize fileCall (s.ft p) (s.link.channels p) fileid sent op = r at hcall
  have hchannels : r.channels = s.link.channels p := by
    cases hcall with
    | failed e ret ft channels => exact channels
    | done i state x ch role channel ret ft channels => exact channels
  have hsame := after_unchanged (r := ⟨r.channels, r.sent, [], r.ret⟩) hchannels s.link.wire s.link.next
  have hlive : Live r.ft (part p) (ends c d p) := by
    cases hcall with
    | failed e ret ft => exact ft ▸ h.live p
    | done i state x ch role channel ret ft channels found =>
      rw [ft]
      exact (h.live p).setState state ((h.channel p x ch found).1 ▸ channel)
  have hlives := (Function.forall_update_iff s.ft fun q ft => Live ft (part q) (ends c d q)).mpr
    ⟨hlive, fun q _ => h.live q⟩
  refine ⟨h.nonzero, hlives, fun q x ch hl => ?_, fun q x ch hl hst => ?_, fun q y hy => ?_⟩
  · rw [hsame] at hl
    exact h.channel q x ch hl
  · rw [hsame] at hl
    obtain ⟨hq, e, rest, hw, he⟩ := h.opening q x ch hl hst
    have hsend : ∃ l, s.link.wire.send p r.sent .right = e :: (rest ++ l) := by
      rcases p.eq_or_other .right with hp | hp
      · exact ⟨r.sent, by rw [← hp, Wires.send_self, hw, List.cons_append]⟩
      · exact ⟨[], by rw [hp, Wires.send_other, ← hp, hw, List.append_nil]⟩
    obtain ⟨l, hl⟩ := hsend
    exact ⟨hq, e, rest ++ l, hl, he⟩
  · rcases Wires.mem_send.mp hy with hold | ⟨rfl, hnew⟩
    · exact h.packet q y hold
    · change y ∈ r.sent at hnew
      cases hcall with
      | failed e ret ft channels sent =>
        rw [sent] at hnew
        cases hnew
      | done i state x ch role channel ret ft channels found status sent =>
        rw [sent, List.mem_singleton] at hnew
        obtain ⟨hx, hremote⟩ := h.channel q x ch found
        subst hnew
        exact ⟨hremote status, hx, carries_call op (role.symm.trans (h.live q).role)⟩

/-- What an arriving packet leaves of the transfer's end of the channel. -/
theorem Live.events (h : Live ft role c) {pb : Packet} {env : NotifyEnv} (more : Bool) {r : MuxResult Nat}
    (hpb : pb.localChannelId = c) (ha : Arrival chs pb env.keep r) :
    Live (handleEvents ft more r.events).1 role c := by
  cases ha with
  | ignored why confirmed channels events =>
    rw [events]
    exact h
  | changed x x' e type found channels status remote events event =>
    rw [events, hpb] at *
    rcases event with rfl | rfl | rfl
    · exact h
    · exact h.paused ..
    · exact h.paused ..
  | handed x type keep found channels events =>
    rw [events, hpb]
    exact h.data ..
  | ended x type keep found channels events =>
    rw [events, hpb]
    exact (h.data ..).close

/-- While a channel is opening, the packet at the front of its wire confirms it. -/
theorem Flows.confirms (h : Flows c d s) {pb : Packet} {rest : List Packet}
    (hw : s.link.wire p.other = pb :: rest) {x : ChannelId} {ch : Channel Nat}
    (hl : (s.link.channels p).lookup x = some ch) (hst : ch.status = .opening) :
    pb.type = .channelOpenConfirmation := by
  obtain ⟨rfl, e, l, he, htype⟩ := h.opening p x ch hl hst
  rw [Peer.other] at hw
  rw [hw] at he
  obtain ⟨rfl, -⟩ := List.cons.inj he
  exact htype

/-- After an arrival no channel is opening any more, and all name each other. -/
theorem Flows.arrival (h : Flows c d s) {pb : Packet} {rest : List Packet} {keep : Bool} {r : MuxResult Nat}
    (hw : s.link.wire p.other = pb :: rest) (ha : Arrival (s.link.channels p) pb keep r) {x : ChannelId}
    {ch : Channel Nat} (hl : r.channels.lookup x = some ch) :
    x = ends c d p ∧ ch.status ≠ .opening ∧ ch.remoteId = ends c d p.other := by
  have hm : pb ∈ s.link.wire p.other := by
    rw [hw]
    exact List.mem_cons_self
  obtain ⟨hlocal, hremote, -⟩ := h.packet p.other pb hm
  rw [Peer.other_other] at hlocal
  have hold : (s.link.channels p).lookup x = some ch → ch.status ≠ .opening →
      x = ends c d p ∧ ch.status ≠ .opening ∧ ch.remoteId = ends c d p.other := fun hl hst =>
    ⟨(h.channel p x ch hl).1, hst, (h.channel p x ch hl).2 hst⟩
  cases ha with
  | ignored why confirmed channels events =>
    rw [channels] at hl
    refine hold hl fun hst => ?_
    rw [(h.channel p x ch hl).1, ← hlocal] at hl
    exact confirmed ch hl hst (h.confirms hw hl hst)
  | changed e e' ev type found channels status remote events event =>
    rw [channels x] at hl
    split at hl
    next hx =>
      cases hl
      refine ⟨hx.trans hlocal, status, ?_⟩
      rcases remote with ⟨hst, hr⟩ | hr
      · exact hr.trans ((h.channel p _ e found).2 hst)
      · exact hr.trans hremote
    next hx => exact absurd ((h.channel p x ch hl).1.trans hlocal.symm) hx
  | handed e type keep found channels events =>
    rw [channels] at hl
    refine hold hl fun hst => ?_
    have hconf := h.confirms hw hl hst
    rw [type] at hconf
    cases hconf
  | ended e type keep found channels events =>
    rw [channels x] at hl
    split at hl
    · cases hl
    next hx => exact absurd ((h.channel p x ch hl).1.trans hlocal.symm) hx

theorem Flows.deliver (h : Flows c d s) (more : Bool) {t : Transfer} {o : List TransferOutput}
    (hs : transferStep s (.deliver p more) = some (t, o)) : Flows c d t := by
  simp only [transferStep] at hs
  split at hs
  · cases hs
  next pb rest hw =>
  cases hs
  have hm : pb ∈ s.link.wire p.other := by
    rw [hw]
    exact List.mem_cons_self
  obtain ⟨hlocal, hremote, htype⟩ := h.packet p.other pb hm
  rw [Peer.other_other] at hlocal
  obtain ⟨ha, hsent⟩ := notify_arrival (s.link.channels p) pb (fileEnv (s.ft p) pb more) (carries_transferPacket htype) (hremote ▸ h.nonzero p.other)
  generalize notifyPacket (s.link.channels p) pb (fileEnv (s.ft p) pb more) = r at ha hsent
  have hlive := (h.live p).events more hlocal ha
  have hlives := (Function.forall_update_iff s.ft fun q ft => Live ft (part q) (ends c d q)).mpr
    ⟨hlive, fun q _ => h.live q⟩
  have hchannel : ∀ x ch, r.channels.lookup x = some ch → x = ends c d p ∧ ch.status ≠ .opening ∧
      ch.remoteId = ends c d p.other := fun x ch => h.arrival hw ha
  refine ⟨h.nonzero, hlives, fun q x ch hl => ?_, fun q x ch hl hst => ?_, fun q y hy => ?_⟩
  · rcases p.eq_or_other q with rfl | rfl
    · simp only [Link.after, Function.update_self] at hl
      exact ⟨(hchannel x ch hl).1, fun _ => (hchannel x ch hl).2.2⟩
    · simp only [Link.after, Function.update_of_ne p.other_ne] at hl
      exact h.channel _ x ch hl
  · rcases p.eq_or_other q with rfl | rfl
    · simp only [Link.after, Function.update_self] at hl
      exact absurd hst (hchannel x ch hl).2.1
    · simp only [Link.after, Function.update_of_ne p.other_ne] at hl
      obtain ⟨hp, e, l, he, htype⟩ := h.opening _ x ch hl hst
      refine ⟨hp, e, l, ?_, htype⟩
      have hright : p = .right := Peer.other_injective hp
      subst hright
      simp only [Link.after, hsent, Wires.send_nil]
      rw [Wires.taken_of_ne _ (by decide), he]
  · rcases Wires.mem_send.mp hy with hold | ⟨-, hnew⟩
    · exact h.packet q y (Wires.mem_of_taken hold)
    · rw [hsent] at hnew
      cases hnew

/-! The books balance. -/

def pullsInFlight (l : Link) : Nat := (l.wire .right).countP isPull

def blocksInFlight (l : Link) : List UInt8 := ((l.wire .left).map (·.payload)).flatten

/-- The end of the channel no longer exists. -/
def gone (c d : ChannelId) (l : Link) (p : Peer) : Prop := (l.channels p).lookup (ends c d p) = none

structure Books (c d : ChannelId) (l : Link) (b : Ledger) : Prop where
  bounded : pullsInFlight l ≤ b.pending
  counted : b.pending = pullsInFlight l ∨ gone c d l .left
  fresh : b.pulled = true → b.pending = 0 →
    b.handed ++ blocksInFlight l = b.sent ∨ (gone c d l .right ∧ b.handed <+: b.sent)
  awaited : 0 < b.pending → b.handed = [] ∧ (gone c d l .left → pullsInFlight l = 0 → l.wire .left = [])

variable {l : Link} {b : Ledger}

theorem Books.skipped (h : Books c d l b) (hp : b.pulled = true) : b.handed <+: b.sentSince := by
  unfold Ledger.sentSince
  split
  next h0 =>
    rcases h.fresh hp h0 with heq | ⟨-, hbegin⟩
    · exact heq ▸ List.prefix_append ..
    · exact hbegin
  next h0 =>
    rw [(h.awaited (Nat.pos_of_ne_zero h0)).1]

/-- While a block is in flight and no pull is, nothing is awaited. -/
theorem Books.settled (h : Books c d l b) (hw : l.wire .left ≠ []) (hp : pullsInFlight l = 0) :
    b.pending = 0 := by
  by_contra h0
  rcases h.counted with hc | hg
  · exact h0 (hc.trans hp)
  · exact hw ((h.awaited (Nat.pos_of_ne_zero h0)).2 hg hp)

/-- What is on the wires and which ends exist decides. -/
theorem Books.quiet (h : Books c d l b) {k : Link} (hgone : ∀ q, gone c d k q ↔ gone c d l q)
    (hleft : k.wire .left = l.wire .left) (hright : pullsInFlight k = pullsInFlight l) : Books c d k b := by
  have hblocks : blocksInFlight k = blocksInFlight l := by rw [blocksInFlight, hleft, blocksInFlight]
  refine ⟨?_, ?_, ?_, ?_⟩
  · rw [hright]
    exact h.bounded
  · rw [hright, hgone]
    exact h.counted
  · rw [hblocks, hgone]
    exact h.fresh
  · rw [hright, hleft, hgone]
    exact h.awaited

theorem Books.pulls (h : Books c d l b) {k : Link} (hgone : ∀ q, gone c d k q ↔ gone c d l q)
    (hright : pullsInFlight k = pullsInFlight l + 1) :
    Books c d k { b with pulled := true, pending := b.pending + 1, handed := [] } := by
  refine ⟨?_, ?_, fun _ h0 => absurd h0 (Nat.succ_ne_zero _), fun _ => ⟨rfl, fun _ h0 => ?_⟩⟩
  · rw [hright]
    exact Nat.succ_le_succ h.bounded
  · rw [hright, hgone]
    exact h.counted.imp_left (congrArg Nat.succ)
  · rw [hright] at h0
    exact absurd h0 (Nat.succ_ne_zero _)

theorem Books.sends (h : Books c d l b) {k : Link} {y : Packet} (hgone : ∀ q, gone c d k q ↔ gone c d l q)
    (hleft : k.wire .left = l.wire .left ++ [y]) (hright : pullsInFlight k = pullsInFlight l)
    (hlive : ¬ gone c d l .left) : Books c d k { b with sent := b.sent ++ y.payload } := by
  have hblocks : blocksInFlight k = blocksInFlight l ++ y.payload := by
    simp [blocksInFlight, hleft]
  have hstill : ¬ gone c d k .left := mt (hgone .left).mp hlive
  refine ⟨?_, ?_, fun hp h0 => ?_, fun h0 => ⟨(h.awaited h0).1, fun hg => absurd hg hstill⟩⟩
  · rw [hright]
    exact h.bounded
  · rw [hright]
    exact .inl (h.counted.resolve_right hlive)
  · rcases h.fresh hp h0 with heq | ⟨hg, hbegin⟩
    · refine .inl ?_
      rw [hblocks, ← List.append_assoc, heq]
    · exact .inr ⟨(hgone .right).mpr hg, hbegin.trans (List.prefix_append ..)⟩

/-- The sender takes a pull up, with nothing on the way to the receiver. -/
theorem Books.takesUp (h : Books c d l b) {k : Link} (hlive : ¬ gone c d l .left)
    (hstill : ¬ gone c d k .left) (hleft : k.wire .left = []) (hright : pullsInFlight l = pullsInFlight k + 1) :
    Books c d k { b with pending := b.pending - 1, sent := [] } := by
  have hpending : b.pending = pullsInFlight k + 1 := (h.counted.resolve_right hlive).trans hright
  have hpos : 0 < b.pending := hpending ▸ Nat.succ_pos _
  have hblocks : blocksInFlight k = [] := by rw [blocksInFlight, hleft, List.map_nil, List.flatten_nil]
  refine ⟨?_, .inl ?_, fun _ _ => .inl ?_, fun _ => ⟨(h.awaited hpos).1, fun hg => absurd hg hstill⟩⟩
  · exact Nat.le_sub_one_of_lt (hpending ▸ Nat.lt_succ_self _)
  · exact Nat.sub_eq_of_eq_add hpending
  · rw [(h.awaited hpos).1, hblocks, List.nil_append]

/-- A packet reaches a sender whose end is gone, or makes it go. -/
theorem Books.senderGone (h : Books c d l b) {k : Link} (pull : Bool) (hgone : gone c d k .left)
    (hkept : gone c d k .right ↔ gone c d l .right) (hleft : k.wire .left = l.wire .left)
    (hright : pullsInFlight l = pullsInFlight k + pull.toNat) (hguard : pull = true → l.wire .left = []) :
    Books c d k b := by
  have hblocks : blocksInFlight k = blocksInFlight l := by rw [blocksInFlight, hleft, blocksInFlight]
  refine ⟨?_, .inr hgone, ?_, fun hpos => ⟨(h.awaited hpos).1, fun _ h0 => ?_⟩⟩
  · have hle : pullsInFlight k ≤ pullsInFlight l := by
      rw [hright]
      exact Nat.le_add_right ..
    exact hle.trans h.bounded
  · rw [hblocks, hkept]
    exact h.fresh
  · rw [hleft]
    cases pull with
    | true => exact hguard rfl
    | false =>
      rw [Bool.toNat_false, Nat.add_zero, h0] at hright
      rcases h.counted with hc | hg
      · exact absurd (hc.trans hright) (Nat.ne_of_gt hpos)
      · exact (h.awaited hpos).2 hg hright

/-- A block reaches a receiver whose end is gone, or makes it go unseen. -/
theorem Books.receiverGone (h : Books c d l b) {k : Link} {y : Packet} (hgone : gone c d k .right)
    (hkept : gone c d k .left ↔ gone c d l .left) (hleft : l.wire .left = y :: k.wire .left)
    (hright : pullsInFlight k = pullsInFlight l) : Books c d k b := by
  refine ⟨hright ▸ h.bounded, ?_, fun hp h0 => .inr ⟨hgone, ?_⟩, fun hpos => ⟨(h.awaited hpos).1, ?_⟩⟩
  · rw [hright, hkept]
    exact h.counted
  · rcases h.fresh hp h0 with heq | ⟨-, hbegin⟩
    · exact heq ▸ List.prefix_append ..
    · exact hbegin
  · intro hg h0
    rw [hright] at h0
    have hnil := (h.awaited hpos).2 (hkept.mp hg) h0
    rw [hleft] at hnil
    cases hnil

/-- A block is handed over, while no pull is on its way. -/
theorem Books.handsOver (h : Books c d l b) {k : Link} {y : Packet} (hlive : ¬ gone c d l .right)
    (hkept : gone c d k .left ↔ gone c d l .left) (hleft : l.wire .left = y :: k.wire .left)
    (hright : pullsInFlight k = pullsInFlight l) (hnone : pullsInFlight l = 0) :
    Books c d k { b with handed := b.handed ++ y.payload } := by
  have hzero : b.pending = 0 := h.settled (by rw [hleft]; exact List.cons_ne_nil _ _) hnone
  have hblocks : blocksInFlight l = y.payload ++ blocksInFlight k := by
    rw [blocksInFlight, hleft, List.map_cons, List.flatten_cons, blocksInFlight]
  refine ⟨hright ▸ h.bounded, ?_, fun hp h0 => ?_, fun hpos => absurd hzero (Nat.ne_of_gt hpos)⟩
  · rw [hright, hkept]
    exact h.counted
  · rcases h.fresh hp h0 with heq | ⟨hg, -⟩
    · refine .inl ?_
      rw [hblocks, ← List.append_assoc] at heq
      exact heq
    · exact absurd hg hlive

/-- A call that succeeds, or fails. -/
theorem Books.call (h : Books c d s.link b) (hf : Flows c d s) (fileid : CString) (op : FileCall)
    (sent : Bool) {t : Transfer} {o : List TransferOutput}
    (hs : transferStep s (.call p fileid op sent) = some (t, o)) :
    Books c d t.link (o.foldl Ledger.note b) := by
  cases hs
  have hcall := fileCall_called (s.link.channels p) (hf.nonzero p) (hf.live p).channel fileid sent op
  generalize fileCall (s.ft p) (s.link.channels p) fileid sent op = r at hcall
  cases hcall with
  | failed e ret ft channels hsent =>
    have hlink : s.link.after p s.link.wire s.link.next ⟨r.channels, r.sent, [], r.ret⟩ = s.link := by
      simp [Link.after, channels, hsent]
    rw [hlink, ret]
    exact h
  | done i state x ch role channel ret ft channels found status hsent =>
    have hsame := after_unchanged (r := ⟨r.channels, r.sent, [], r.ret⟩) channels s.link.wire s.link.next
    obtain ⟨rfl, -⟩ := hf.channel p x ch found
    have hrole : op.role = part p := role.symm.trans (hf.live p).role
    obtain ⟨k, hk⟩ : ∃ k, k = s.link.after p s.link.wire s.link.next ⟨r.channels, r.sent, [], r.ret⟩ :=
      ⟨_, rfl⟩
    have hwire : k.wire = s.link.wire.send p
        [sendPacket op.packet.1 .user (ends c d p) ch.remoteId op.packet.2 ch.tag] := by
      rw [hk, ← hsent]
      rfl
    rw [← hk] at hsame
    have hgone : ∀ q, gone c d k q ↔ gone c d s.link q := fun q => by rw [gone, hsame, gone]
    change Books c d (s.link.after p s.link.wire s.link.next ⟨r.channels, r.sent, [], r.ret⟩) _
    rw [← hk, ret]
    have hright : p = .right → k.wire .left = s.link.wire .left ∧ pullsInFlight k = pullsInFlight s.link +
        if isPull (sendPacket op.packet.1 .user (ends c d p) ch.remoteId op.packet.2 ch.tag) then 1 else 0 := by
      rintro rfl
      refine ⟨by rw [hwire]; exact Wires.send_other .., ?_⟩
      rw [pullsInFlight, hwire, Wires.send_self, List.countP_append, List.countP_singleton, pullsInFlight]
    cases op with
    | pull offset =>
      cases p with
      | left => cases hrole
      | right => exact h.pulls hgone ((hright rfl).2.trans rfl)
    | send data =>
      cases p with
      | right => cases hrole
      | left =>
        have hlive : ¬ gone c d s.link .left := by
          rw [gone, found]
          simp
        refine h.sends hgone (by rw [hwire, Wires.send_self]) ?_ hlive
        rw [pullsInFlight, hwire, Wires.send_of_ne _ _ (by decide), pullsInFlight]
    | cancel status reason =>
      cases p with
      | left => cases hrole
      | right => exact h.quiet hgone (hright rfl).1 ((hright rfl).2.trans rfl)
    | pend =>
      cases p with
      | left => cases hrole
      | right => exact h.quiet hgone (hright rfl).1 ((hright rfl).2.trans rfl)
    | resume =>
      cases p with
      | left => cases hrole
      | right => exact h.quiet hgone (hright rfl).1 ((hright rfl).2.trans rfl)

/-- The sender keeps the channel for a pull that it takes up, and for nothing else. -/
theorem sender_data (h : ft.senderReceiver = .sender) (data : List UInt8) (more : Bool) :
    ((streamChannelData ft c data more).keep = true ∧ packetType data = packetPull ∧
      ∃ id offset, (streamChannelData ft c data more).event = some (.pull id offset)) ∨
    ((streamChannelData ft c data more).keep = false ∧
      ((streamChannelData ft c data more).event = none ∨
        ∃ id status reason, (streamChannelData ft c data more).event = some (.cancel id status reason))) := by
  unfold streamChannelData
  split
  · exact .inr ⟨rfl, .inl rfl⟩
  next i hi =>
    rw [h]
    dsimp only
    split
    next hpull =>
      split
      · exact .inr ⟨rfl, .inl rfl⟩
      · exact .inl ⟨rfl, hpull, _, _, rfl⟩
    · split
      · exact .inr ⟨rfl, .inr ⟨_, _, _, rfl⟩⟩
      · exact .inr ⟨rfl, .inl rfl⟩

theorem paused_event (ft : ElaFileTransfer) (c : ChannelId) (old new : FileTransferState) (event : CString → FileEvent) :
    (streamChannelPaused ft c old new event).2 = none ∨
      ∃ id, (streamChannelPaused ft c old new event).2 = some (event id) := by
  unfold streamChannelPaused
  split
  · exact .inl rfl
  dsimp only
  split
  · exact .inl rfl
  · split
    · exact .inl rfl
    · exact .inr ⟨_, rfl⟩

/-- The receiver hands a block over where its item is transfering. -/
theorem receiver_data (h : ft.senderReceiver = .receiver) (data : List UInt8) (more : Bool) :
    (ft.getFileinfoChannel c = none ∧ (streamChannelData ft c data more).event = none ∧
      (streamChannelData ft c data more).keep = false) ∨
    ∃ i, ft.getFileinfoChannel c = some i ∧ ((ft.files i).state = .transfering →
      ∃ id, (streamChannelData ft c data more).event = some (.data id data)) := by
  unfold streamChannelData
  split
  next hi => exact .inl ⟨hi, rfl, rfl⟩
  next i hi =>
    refine .inr ⟨i, hi, fun hst => ?_⟩
    rw [h]
    dsimp only
    rw [if_neg (not_not.mpr hst)]
    exact ⟨_, rfl⟩

theorem handled_data {data : List UInt8} {more : Bool} :
    (handleEvents ft more [.channelData c data]).2 = (streamChannelData ft c data more).event.toList :=
  List.append_nil _

theorem handled_data_close {data : List UInt8} {more : Bool} {reason : CloseReason} :
    (handleEvents ft more [.channelData c data, .channelClose c reason]).2 =
      (streamChannelData ft c data more).event.toList :=
  List.append_nil _

/-- The sender's end after an arrival from the receiver. -/
theorem Books.toSender (h : Books c d s.link b) (hf : Flows c d s) {more : Bool} {pb : Packet}
    {rest : List Packet} {r : MuxResult Nat} {k : Link} (hw : s.link.wire .right = pb :: rest)
    (hg : undisturbed s (.deliver .left more) = true)
    (ha : Arrival (s.link.channels .left) pb (fileEnv (s.ft .left) pb more).keep r)
    (hk : pullsInFlight k = rest.countP isPull) (hleft : k.wire .left = s.link.wire .left)
    (hself : k.channels .left = r.channels) (hother : k.channels .right = s.link.channels .right) :
    Books c d k (((handleEvents (s.ft .left) more r.events).2.map (.notified .left)).foldl Ledger.note b) := by
  have hm : pb ∈ s.link.wire .right := by
    rw [hw]
    exact List.mem_cons_self
  have hlocal : pb.localChannelId = c := (hf.packet .right pb hm).1
  have hpulls : pullsInFlight s.link = pullsInFlight k + (isPull pb).toNat := by
    rw [pullsInFlight, hw, List.countP_cons, hk]
    cases isPull pb <;> rfl
  have hguard : isPull pb = true → s.link.wire .left = [] := by
    intro hp
    simpa [undisturbed, hw, hp] using hg
  have hright : gone c d k .right ↔ gone c d s.link .right := by rw [gone, hother, gone]
  have hdata := sender_data (c := pb.localChannelId) (hf.live .left).role pb.payload more
  have hpaused : ∀ {e : Option FileEvent}, (e = none ∨ ∃ id, e = some (.pending id)) ∨
      (e = none ∨ ∃ id, e = some (.resume id)) →
      (((e.toList ++ []).map (TransferOutput.notified .left)).foldl Ledger.note b) = b := by
    rintro e ((rfl | ⟨id, rfl⟩) | rfl | ⟨id, rfl⟩) <;> rfl
  cases ha with
  | ignored why confirmed channels events =>
    rw [events]
    have hsame : gone c d k .left ↔ gone c d s.link .left := by rw [gone, hself, channels, gone]
    cases hp : isPull pb with
    | false =>
      rw [hp] at hpulls
      refine h.quiet (fun q => ?_) hleft hpulls.symm
      cases q with
      | left => exact hsame
      | right => exact hright
    | true =>
      -- The data of a pull are ignored only where the channel is gone.
      have hgone : gone c d s.link .left := by
        rw [gone]
        cases hl : (s.link.channels .left).lookup c with
        | none => exact hl
        | some ch =>
          rw [← hlocal] at hl
          have htype : pb.type = .channelData := by
            simp only [isPull, Bool.and_eq_true, decide_eq_true_eq] at hp
            exact hp.1
          have hconf := hf.confirms (p := .left) hw hl (why htype ch hl)
          rw [htype] at hconf
          cases hconf
      exact h.senderGone true (hsame.mpr hgone) hright hleft (hp ▸ hpulls) fun _ => hguard hp
  | changed x x' e type found channels status remote events event =>
    have hp : isPull pb = false := by simp [isPull, type]
    rw [hp] at hpulls
    have hquiet : Books c d k b := by
      refine h.quiet (fun q => ?_) hleft hpulls.symm
      cases q with
      | left =>
        rw [gone, gone, hself, ends, ← hlocal, channels, if_pos rfl, found]
        simp
      | right => exact hright
    rw [events]
    rcases event with rfl | rfl | rfl
    · exact hquiet
    · have hb := hpaused (.inl (paused_event (s.ft .left) pb.localChannelId .transfering .standby .pending))
      exact hb.symm ▸ hquiet
    · have hb := hpaused (.inr (paused_event (s.ft .left) pb.localChannelId .standby .transfering .resume))
      exact hb.symm ▸ hquiet
  | handed x type keep found channels events =>
    have hlive : ¬ gone c d s.link .left := by
      rw [gone, ends, ← hlocal, found]
      simp
    have hstill : ¬ gone c d k .left := by
      rwa [gone, hself, channels]
    rw [events, handled_data]
    rcases hdata with ⟨-, hpull, id, offset, hevent⟩ | ⟨hkeep, -⟩
    · have hp : isPull pb = true := by simp [isPull, type, hpull]
      rw [hp] at hpulls
      rw [hevent]
      exact h.takesUp hlive hstill (hleft.trans (hguard hp)) hpulls
    · exact absurd (hkeep.symm.trans keep) Bool.false_ne_true
  | ended x type keep found channels events =>
    have hgone : gone c d k .left := by
      rw [gone, hself, ends, ← hlocal, channels, if_pos rfl]
    rw [events, handled_data_close]
    have hends := h.senderGone (isPull pb) hgone hright hleft hpulls hguard
    rcases hdata with ⟨hkeep, -⟩ | ⟨-, hevent | ⟨id, status, reason, hevent⟩⟩
    · exact absurd (hkeep.symm.trans keep) Bool.true_eq_false.mp
    · rw [hevent]
      exact hends
    · rw [hevent]
      exact hends

/-- The receiver's end after an arrival from the sender. -/
theorem Books.toReceiver (h : Books c d s.link b) (hf : Flows c d s) {more : Bool} {pb : Packet}
    {rest : List Packet} {r : MuxResult Nat} {k : Link} (hw : s.link.wire .left = pb :: rest)
    (hg : undisturbed s (.deliver .right more) = true)
    (ha : Arrival (s.link.channels .right) pb (fileEnv (s.ft .right) pb more).keep r)
    (hk : k.wire .left = rest) (hright : k.wire .right = s.link.wire .right)
    (hself : k.channels .right = r.channels) (hother : k.channels .left = s.link.channels .left) :
    Books c d k (((handleEvents (s.ft .right) more r.events).2.map (.notified .right)).foldl Ledger.note b) := by
  have hm : pb ∈ s.link.wire .left := by
    rw [hw]
    exact List.mem_cons_self
  obtain ⟨hlocal, -, htype⟩ := hf.packet .left pb hm
  have hpulls : pullsInFlight k = pullsInFlight s.link := by rw [pullsInFlight, hright, pullsInFlight]
  have hleft : gone c d k .left ↔ gone c d s.link .left := by rw [gone, hother, gone]
  have hwire : s.link.wire .left = pb :: k.wire .left := by rw [hw, hk]
  have hdata := receiver_data (c := pb.localChannelId) (hf.live .right).role pb.payload more
  -- With the channel there, a block that finds an item is handed over.
  have hover : ∀ x, (s.link.channels .right).lookup pb.localChannelId = some x →
      (((s.ft .right).getFileinfoChannel pb.localChannelId = none ∧
        (streamChannelData (s.ft .right) pb.localChannelId pb.payload more).event = none ∧
        (streamChannelData (s.ft .right) pb.localChannelId pb.payload more).keep = false) ∨
      ((∃ id, (streamChannelData (s.ft .right) pb.localChannelId pb.payload more).event =
        some (.data id pb.payload)) ∧ Books c d k { b with handed := b.handed ++ pb.payload })) := by
    intro x hx
    refine hdata.imp_right fun ⟨i, hi, hevent⟩ => ?_
    simp only [undisturbed, hw, hi, hx, Option.isNone_some, Bool.false_or, Bool.and_eq_true,
      decide_eq_true_eq, Bool.not_eq_true', List.any_eq_false] at hg
    have hlive : ¬ gone c d s.link .right := by
      change ¬ (s.link.channels .right).lookup d = none
      rw [show d = pb.localChannelId from hlocal.symm, hx]
      simp
    refine ⟨hevent hg.1, h.handsOver hlive hleft hwire hpulls ?_⟩
    rw [pullsInFlight, List.countP_eq_zero]
    exact hg.2
  cases ha with
  | ignored why confirmed channels events =>
    rw [events]
    refine h.receiverGone ?_ hleft hwire hpulls
    change (k.channels .right).lookup d = none
    rw [hself, channels, show d = pb.localChannelId from hlocal.symm]
    cases hl : (s.link.channels .right).lookup pb.localChannelId with
    | none => rfl
    | some x => exact absurd (hf.opening .right _ x hl (why htype x hl)).1 (by decide)
  | changed x x' e type => exact absurd htype type
  | handed x type keep found channels events =>
    rw [events, handled_data]
    rcases hover x found with ⟨-, -, hkeep⟩ | ⟨⟨id, hevent⟩, hbooks⟩
    · exact absurd (hkeep.symm.trans keep) Bool.false_ne_true
    · rw [hevent]
      exact hbooks
  | ended x type keep found channels events =>
    rw [events, handled_data_close]
    rcases hover x found with ⟨-, hevent, -⟩ | ⟨⟨id, hevent⟩, hbooks⟩
    · rw [hevent]
      refine h.receiverGone ?_ hleft hwire hpulls
      change (k.channels .right).lookup d = none
      rw [hself, show d = pb.localChannelId from hlocal.symm, channels, if_pos rfl]
    · rw [hevent]
      exact hbooks

/-- An arrival at either end. -/
theorem Books.deliver (h : Books c d s.link b) (hf : Flows c d s) (more : Bool) {t : Transfer}
    {o : List TransferOutput} (hg : undisturbed s (.deliver p more) = true)
    (hs : transferStep s (.deliver p more) = some (t, o)) : Books c d t.link (o.foldl Ledger.note b) := by
  simp only [transferStep] at hs
  split at hs
  · cases hs
  next pb rest hw =>
  cases hs
  have hm : pb ∈ s.link.wire p.other := by
    rw [hw]
    exact List.mem_cons_self
  obtain ⟨-, hremote, htype⟩ := hf.packet p.other pb hm
  obtain ⟨ha, hsent⟩ := notify_arrival (s.link.channels p) pb (fileEnv (s.ft p) pb more) (carries_transferPacket htype) (hremote ▸ hf.nonzero p.other)
  generalize notifyPacket (s.link.channels p) pb (fileEnv (s.ft p) pb more) = r at ha hsent
  have hwire : (s.link.after p (s.link.wire.taken p.other) s.link.next r).wire =
      s.link.wire.taken p.other := by
    simp only [Link.after, hsent, Wires.send_nil]
  have hself : (s.link.after p (s.link.wire.taken p.other) s.link.next r).channels p = r.channels :=
    Function.update_self ..
  have hother : (s.link.after p (s.link.wire.taken p.other) s.link.next r).channels p.other =
      s.link.channels p.other := Function.update_of_ne p.other_ne ..
  cases p with
  | left =>
    have hw : s.link.wire .right = pb :: rest := hw
    refine h.toSender hf hw hg ha ?_ ?_ hself hother
    · rw [pullsInFlight, hwire, Peer.other, Wires.taken_self, hw, List.tail_cons]
    · rw [hwire]
      exact Wires.taken_of_ne _ (by decide)
  | right =>
    have hw : s.link.wire .left = pb :: rest := hw
    refine h.toReceiver hf hw hg ha ?_ ?_ hself hother
    · rw [hwire, Peer.other, Wires.taken_self, hw, List.tail_cons]
    · rw [hwire]
      exact Wires.taken_of_ne _ (by decide)

/-- The books along a run. -/
structure Sound (c d : ChannelId) (s : Transfer) (os : List TransferOutput) : Prop where
  flows : Flows c d s
  books : Books c d s.link (ledger os)

theorem sound_step {os o : List TransferOutput} {t : Transfer} {i : TransferInput} (h : Sound c d s os)
    (hg : undisturbed s i = true) (hs : transferStep s i = some (t, o)) : Sound c d t (os ++ o) := by
  cases i with
  | call p fileid op sent =>
    exact ⟨h.flows.call fileid op sent hs, ledger_append os o ▸ h.books.call h.flows fileid op sent hs⟩
  | deliver p more =>
    exact ⟨h.flows.deliver more hs, ledger_append os o ▸ h.books.deliver h.flows more hg hs⟩

theorem sound_accepted (fileid filename : CString) (filesz : UInt64) (hc : c ≠ 0) (hd : d ≠ 0) :
    Sound c d (.accepted fileid filename filesz c d) [] := by
  have hlookup : ∀ {x y : ChannelId} {ch e : Channel Nat},
      ((∅ : Channels Nat).insert x ch).lookup y = some e → y = x ∧ ch = e := by
    intro x y ch e h
    rw [Table.lookup_insert_eq] at h
    split at h
    next hy => exact ⟨hy, Option.some.inj h⟩
    · cases h
  have hlive : ∀ (x : ChannelId) (role : Role), Live ⟨Function.update (fun _ => .unused) 0
      ⟨fileid, some filename, filesz, .standby, some x⟩, .connected, role⟩ role x := by
    intro x role
    have hunused : Live ⟨fun _ => .unused, .connected, role⟩ role x := ⟨rfl, fun i hi => absurd rfl hi⟩
    exact hunused.update fun _ => rfl
  have hright : (Transfer.accepted fileid filename filesz c d).link.wire .right =
      [sendPacket .channelOpenConfirmation .user d c [] 1] := rfl
  have hleft : (Transfer.accepted fileid filename filesz c d).link.wire .left = [] := rfl
  constructor
  case flows =>
    refine ⟨?_, ?_, ?_, ?_, ?_⟩
    · rintro (_ | _)
      · exact hc
      · exact hd
    · rintro (_ | _)
      · exact hlive c .sender
      · exact hlive d .receiver
    · rintro (_ | _) x ch hl
      · obtain ⟨rfl, rfl⟩ := hlookup hl
        exact ⟨rfl, fun h => absurd rfl h⟩
      · obtain ⟨rfl, rfl⟩ := hlookup hl
        exact ⟨rfl, fun _ => rfl⟩
    · rintro (_ | _) x ch hl hst
      · exact ⟨rfl, _, _, hright, rfl⟩
      · obtain ⟨-, rfl⟩ := hlookup hl
        cases hst
    · rintro (_ | _) y hy
      · rw [hleft] at hy
        cases hy
      · rw [hright, List.mem_singleton] at hy
        subst hy
        exact ⟨rfl, rfl, .inl rfl⟩
  case books =>
    have hpulls : pullsInFlight (Transfer.accepted fileid filename filesz c d).link = 0 := by
      rw [pullsInFlight, hright]
      rfl
    refine ⟨?_, .inl ?_, fun h => absurd h Bool.false_ne_true, fun h => absurd h (Nat.lt_irrefl 0)⟩
    · rw [hpulls, ledger_nil]
    · rw [hpulls, ledger_nil]

/-- In every run in which blocks find their item transfering, and pulls and blocks do not
cross, the receiver gets a prefix of what was sent for its last pull. -/
theorem nothing_skipped {fileid filename : CString} {filesz : UInt64} {c d : ChannelId} (hc : c ≠ 0)
    (hd : d ≠ 0) {is : List TransferInput} {os : List TransferOutput} {u : Transfer}
    (h : transferMachine.Run (fun s i => undisturbed s i = true) (.accepted fileid filename filesz c d)
      is os u) : NothingSkipped os := by
  have hend : Sound c d u ([] ++ os) :=
    h.history (fun hi hg hs => sound_step hi hg hs) (sound_accepted fileid filename filesz hc hd)
  rw [List.nil_append] at hend
  exact hend.books.skipped

/-- A name of one byte. -/
def shortName (b : UInt8) (h : b ≠ 0) : CString := ⟨[b], by simpa using h.symm⟩

theorem code_a_ne : (97 : UInt8) ≠ 0 := by decide

theorem code_b_ne : (98 : UInt8) ≠ 0 := by decide

/-- One block goes over before the receiver pauses, and one after it has resumed. -/
def pauseBetweenBlocks : List TransferInput :=
  let id := shortName 65 (by decide)
  [.deliver .left true, .call .right id (.pull 0) true, .deliver .left true,
    .call .left id (.send [1]) true, .deliver .right true, .call .right id .pend true, .deliver .left true,
    .call .right id .resume true, .deliver .left true, .call .left id (.send [2]) true, .deliver .right true]

theorem nothing_skipped_paused : ∃ os : List TransferOutput,
    ledger os = ⟨true, 0, [1, 2], [1, 2]⟩ ∧ NothingSkipped os := by
  obtain ⟨u, os, he, hp⟩ := transferMachine.exec_any
    (.accepted (shortName 65 (by decide)) (shortName 66 (by decide)) 10 1 3) pauseBetweenBlocks
    (fun r => decide (ledger r.2 = ⟨true, 0, [1, 2], [1, 2]⟩)) (by decide +kernel)
  exact ⟨os, of_decide_eq_true hp, nothing_skipped (by decide) (by decide)
    (Machine.run_of_exec (fun _ _ h => h) he (by decide +kernel))⟩

/-- A block that arrives after the receiver has paused is lost, and the next one is handed over. -/
theorem block_skipped : ¬ ∀ (fileid filename : CString) (filesz : UInt64) (c d : ChannelId)
    (is : List TransferInput) (os : List TransferOutput) (u : Transfer), c ≠ 0 → d ≠ 0 →
    transferMachine.Run Machine.Free (.accepted fileid filename filesz c d) is os u →
      NothingSkipped os := by
  intro h
  obtain ⟨u, os, he, hp⟩ := transferMachine.exec_any
    (.accepted (shortName 65 (by decide)) (shortName 66 (by decide)) 10 1 3)
    [.deliver .left true, .call .right (shortName 65 (by decide)) (.pull 0) true, .deliver .left true,
      .call .left (shortName 65 (by decide)) (.send [1]) true,
      .call .right (shortName 65 (by decide)) .pend true, .deliver .right true, .deliver .left true,
      .call .right (shortName 65 (by decide)) .resume true, .deliver .left true,
      .call .left (shortName 65 (by decide)) (.send [2]) true, .deliver .right true]
    (fun r => decide (ledger r.2 = ⟨true, 0, [2], [1, 2]⟩)) (by decide +kernel)
  have hl := of_decide_eq_true hp
  have hbegin := h _ _ _ 1 3 _ os u (by decide) (by decide) (Machine.free_run_of_exec he)
  rw [NothingSkipped, hl] at hbegin
  exact absurd (hbegin rfl) (by decide)

end CarrierSdk.FileTransfer
