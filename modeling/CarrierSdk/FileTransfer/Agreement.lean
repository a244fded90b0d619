import CarrierSdk.FileTransfer.FilePairing

/-! Sender and receiver agree on the state of each file, as long as no end of a channel is closed alone and pausing
and resuming take turns. -/
namespace CarrierSdk.FileTransfer
open Mux Replica

/-! The property. -/

/-- The state of the item that a peer has for a file. -/
def Transfer.fileState (s : Transfer) (p : Peer) (fileid : CString) : FileTransferState :=
  match (s.ft p).getFileinfoFileid fileid with
  | none => .none
  | some i => (s.item p i).state

/-- The incarnation of the channel that a peer has for a file. -/
def Transfer.fileTag (s : Transfer) (p : Peer) (fileid : CString) : Option Nat := do
  let i ← (s.ft p).getFileinfoFileid fileid
  let c ← (s.item p i).channel
  if (s.item p i).state = .none then none else ((s.link.channels p).lookup c).map Channel.tag

/-- No message of a file's channel is in flight. -/
def Transfer.Quiet (s : Transfer) (fileid : CString) : Prop :=
  ∀ p q, ∀ pb ∈ s.link.wire q, s.fileTag p fileid ≠ some pb.tag

def Transfer.Agree (s : Transfer) (fileid : CString) : Prop :=
  s.Quiet fileid →
    ((s.fileState .left fileid ≠ .none ↔ s.fileState .right fileid ≠ .none) ∧
      (s.fileState .left fileid = .transfering ↔ s.fileState .right fileid = .transfering))

/-! The condition. -/

/-- The cookie of a file is refused, or it is read as what it stands for. -/
def readsBack (o : Offer) : Bool :=
  (scanOffer (offerCookie o)).all fun r => decide (r.fileid = o.fileid) && decide (r.filesz = o.filesz)

def statusAfter (status : ChannelStatus) (pb : Packet) : ChannelStatus :=
  match pb.type with
  | .channelOpenConfirmation => .open
  | .channelPending => .pending
  | .channelResume => .open
  | _ => status

/-- The status of the sender's channel for a file, once what is in flight to it has arrived. -/
def comingStatus (s : Transfer) (fileid : CString) : Option ChannelStatus := do
  let j ← (s.ft .right).getFileinfoFileid fileid
  let d ← (s.item .right j).channel
  let ch ← (s.link.channels .right).lookup d
  let peer ← (s.link.channels .left).lookup ch.remoteId
  some ((s.inFlight .right ch.tag).foldl statusAfter peer.status)

def isId : Alloc → Bool
  | .id _ => true
  | _ => false

/-- A new file has an id that no other has, pausing and resuming take turns, a channel is confirmed, the
application wants more data, and no cancel packet arrives. -/
def staysInStep (s : Transfer) : FilesInput → Bool
  | .add .left info drawn _ _ =>
    match checkAdd (s.ft .left) info with
    | .error _ => true
    | .ok _ => readsBack (info.offer drawn) && decide (s.fileState .left (info.chosenId drawn) = .none)
  | .call .right fileid .pend sent =>
    !sent || decide (s.fileState .right fileid ≠ .transfering) || decide (comingStatus s fileid ≠ some .pending)
  | .call .right fileid .resume sent =>
    !sent || decide (s.fileState .right fileid ≠ .standby) || decide (comingStatus s fileid ≠ some .open)
  | .deliver .left tag _ _ _ =>
    match s.inFlight .right tag with
    | [] => true
    | pb :: _ => !(decide (pb.type = .channelData) && decide (packetType pb.payload = packetCancel))
  | .deliver .right tag alloc sent more =>
    match s.inFlight .left tag with
    | [] => true
    | pb :: _ =>
      match pb.type with
      | .channelOpen => isId alloc && sent
      | .channelData =>
        match (s.ft .right).getFileinfoChannel pb.localChannelId with
        | none => true
        | some j => decide ((s.item .right j).state ≠ .transfering) || more
      | _ => true
  | _ => true

/-- The first file is refused or read as what it stands for. Where the receiver knows of it already, the size is
the same and the channel is opened. -/
def startsInStep (first : Option FirstFile) (alloc : Alloc) (sent : Bool) : Bool :=
  match first with
  | none => true
  | some f =>
    readsBack f.offer && f.known.all fun k =>
      decide (k.2 = f.info.size) && (scanOffer (offerCookie f.offer)).isSome && isId alloc && sent

variable {s s' : Transfer} {i j : Slot} {c d : ChannelId} {ch : Channel Nat} {p : Peer} {item : FileTransferItem}
  {ft : ElaFileTransfer} {chs : Channels Nat} {alloc : Alloc} {sent more : Bool}

/-! Names that are read back. -/

theorem readsBack_iff {o : Offer} : readsBack o = true ↔
    ∀ r, scanOffer (offerCookie o) = some r → r.fileid = o.fileid ∧ r.filesz = o.filesz := by
  rw [readsBack, Option.all_eq_true_iff_get]
  constructor
  · intro h r hr
    have hget := h (by rw [hr]; rfl)
    simpa [hr] using hget
  · intro h hsome
    simpa using h _ (Option.some_get hsome).symm

theorem readsBack_solid {o : Offer} (hname : Solid o.filename.bytes) (hname' : o.filename ≠ .empty)
    (hlen : o.filename.strlen ≤ 255) (hid : Solid o.fileid.bytes) (hid' : o.fileid ≠ .empty)
    (hlen' : o.fileid.strlen ≤ 45) : readsBack o = true := by
  rw [readsBack, scanOffer_offerCookie hname hname' hlen hid hid' hlen']
  simp

/-- A file whose name has no white space is read as what it stands for, whether it is added later or was given at
the start. -/
theorem readsBack_offer {info : FileInfo} (h : info.valid = true) (hname : Solid info.filename.bytes)
    (drawn : PublicKey) : readsBack (info.offer drawn) = true ∧
      readsBack ⟨basename info.filename, info.chosenId drawn, info.size⟩ = true := by
  obtain ⟨hid, hlen⟩ := chosenId_solid h drawn
  have hne : info.filename ≠ .empty := by
    simp only [FileInfo.valid, Bool.and_eq_true, decide_eq_true_eq] at h
    exact h.1.1
  have hcut := cutSlashes_sublist info.filename
  have hbase := basename_sublist hne
  refine ⟨readsBack_solid ?_ (cutSlashes_ne_empty hne) ?_ hid (chosenId_ne_empty info drawn) hlen,
    readsBack_solid ?_ (basename_ne_empty _) ?_ hid (chosenId_ne_empty info drawn) hlen⟩
  · exact fun b hb => hname b (hcut.subset hb)
  · exact hcut.length_le.trans info.filenameFits
  · exact fun b hb => hname b (hbase.subset hb)
  · exact hbase.length_le.trans info.filenameFits

/-! A file is added. -/

theorem checkAdd_ok {info : FileInfo} (h : checkAdd ft info = .ok i) :
    ft.senderReceiver = .sender ∧ (ft.files i).state = .none ∧ ∀ j < i, (ft.files j).state ≠ .none := by
  unfold checkAdd at h
  split at h
  · cases h
  split at h
  · cases h
  next hrole =>
    split at h
    · cases h
    split at h
    · cases h
    next k hk =>
      obtain rfl := Except.ok.inj h
      obtain ⟨hfree, hused⟩ := find_slot.mp hk
      exact ⟨not_not.mp hrole, of_decide_eq_true hfree, fun j hj => of_decide_eq_false (hused j hj)⟩

theorem offerItem_cases (ft : ElaFileTransfer) (i : Slot) (item : FileTransferItem) (cookie : CString) (sent : Bool)
    (tag : Nat) (hf : allocFree chs alloc = true) :
    (∃ c, alloc = .id c ∧ sent = true ∧ c ≠ 0 ∧ chs.lookup c = none ∧
      offerItem ft chs i item cookie alloc sent tag =
        ⟨ft.put i { item with state := .standby, channel := some c }, chs.insert c ⟨0, .opening, tag⟩,
          [sendPacket .channelOpen .user c 0 (cookiePayload (some cookie)) tag], .ok ()⟩) ∨
    ((isId alloc && sent) = false ∧ ∃ e, offerItem ft chs i item cookie alloc sent tag =
      ⟨ft.put i { item with state := .none, filename := none, channel := none }, chs, [], .error e⟩) := by
  cases alloc with
  | outOfMemory => exact .inr ⟨rfl, _, rfl⟩
  | limitExceeded => exact .inr ⟨rfl, _, rfl⟩
  | id c =>
    simp only [allocFree, Bool.and_eq_true, decide_eq_true_eq, Option.isNone_iff_eq_none] at hf
    cases sent with
    | true => exact .inl ⟨c, rfl, rfl, hf.1.1, hf.2, rfl⟩
    | false =>
      have hr : openChannel chs (.id c) (cookiePayload (some cookie)) false tag = ⟨chs, [], [], .error .write⟩ := by
        rw [openChannel, if_neg Bool.false_ne_true, Table.erase_insert_of_free hf.2]
      refine .inr ⟨rfl, .write, ?_⟩
      simp only [offerItem, hr]

/-- The sender has a new item, and has offered the file. -/
structure Offered (s s' : Transfer) (i : Slot) (item : FileTransferItem) (c : ChannelId) (cookie : CString) :
    Prop where
  sender : (s'.ft .left).senderReceiver = (s.ft .left).senderReceiver
  receiver : (s'.ft .right).senderReceiver = (s.ft .right).senderReceiver
  next : s.link.next < s'.link.next
  free : (s.item .left i).state = .none
  others : ∀ k, (s.item .left k).state ≠ .none → (s.item .left k).fileid ≠ item.fileid
  before : ∀ k < i, (s.item .left k).state ≠ .none
  fileid : item.fileid ≠ .empty
  placed : s'.item .left i = { item with state := .standby, channel := some c }
  items : ∀ k ≠ i, s'.item .left k = s.item .left k
  nonzero : c ≠ 0
  unused : (s.link.channels .left).lookup c = none
  table : SetAt (s.link.channels .left) (s'.link.channels .left) c (some ⟨0, .opening, s.link.next⟩)
  wires : ∀ p, ∀ t' ≠ s.link.next, s'.inFlight p t' = s.inFlight p t'
  left : s'.inFlight .left s.link.next =
    [sendPacket .channelOpen .user c 0 (cookiePayload (some cookie)) s.link.next]
  right : s'.inFlight .right s.link.next = []
  channels : s'.link.channels .right = s.link.channels .right
  received : ∀ j, s'.item .right j = s.item .right j ∨ s.item .right j = .unused ∧
    (s'.item .right j).fileid = item.fileid
  distinct : ∀ {j j'}, (s'.item .right j).fileid = (s'.item .right j').fileid →
    (s'.item .right j).fileid ≠ .empty → j = j'
  readsBack : ∀ o, scanOffer cookie = some o → o.fileid = item.fileid ∧ o.filesz = item.filesz
  ready : (∀ j, (s'.item .right j).fileid ≠ item.fileid) ∨ (scanOffer cookie ≠ none ∧
    ∃ j filename, s'.item .right j = ⟨item.fileid, filename, item.filesz, .standby, none⟩)

theorem InStep.offer {cookie : CString} (h : InStep s) (ho : Offered s s' i item c cookie) : InStep s' := by
  have hdead : ∀ {x y}, ¬ Owner s i x y := fun hx => hx.live ho.free
  have honly : OnlyFile s s' i c s.link.next item.fileid := by
    refine ⟨ho.sender, ho.receiver, ho.next.le, ho.items, ?_, ho.wires, ?_, ?_, ?_, ?_⟩
    · intro x hx
      rw [ho.table x, if_neg hx]
    · intro j
      exact (ho.received j).imp_right fun hj => ⟨.inr hj.1, hj.2⟩
    · intro d y _ hy
      rwa [ho.channels]
    · exact fun hx => absurd hx hdead
    · intro k x y _ hx
      refine ⟨?_, (h.owner hx).2.1.ne, ho.others k hx.live⟩
      rintro rfl
      exact absurd (hx.found.symm.trans ho.unused) (by simp)
  have hlive : (s'.item .left i).state ≠ .none := by
    rw [ho.placed]
    exact fun hs => nomatch hs
  have hfound : (s'.link.channels .left).lookup c = some ⟨0, .opening, s.link.next⟩ := by
    rw [ho.table c, if_pos rfl]
  have hchannel : ∀ k, (s.item .left k).state ≠ .none → (s.item .left k).channel ≠ some c := by
    intro k hk hc
    obtain ⟨x, y, hx⟩ := h.live k hk
    obtain rfl : x = c := Option.some.inj (hx.channel.symm.trans hc)
    exact absurd (hx.found.symm.trans ho.unused) (by simp)
  refine h.rebuild honly ?_ (fun hs => absurd hs hlive) ?_ ?_ (fun _ _ _ => hlive) ho.distinct
  · intro _
    rw [ho.placed]
    refine ⟨⟨_, ⟨hlive, by rw [ho.placed], hfound⟩, rfl, ?_⟩, ho.nonzero, ho.next, rfl, ho.fileid⟩
    exact .offered cookie rfl rfl ho.left ho.right ho.readsBack ho.ready
  · intro _ k hk
    rw [ho.placed]
    exact ⟨ho.others k (ho.before k hk), hchannel k (ho.before k hk)⟩
  · intro k _ hk
    rw [ho.placed]
    exact ⟨(ho.others k hk).symm, (hchannel k hk).symm⟩

/-- The sender has dropped the item of a file that it could not offer. -/
structure NotOffered (s s' : Transfer) (i : Slot) (fileid : CString) : Prop where
  sender : (s'.ft .left).senderReceiver = (s.ft .left).senderReceiver
  next : s.link.next ≤ s'.link.next
  free : (s.item .left i).state = .none
  others : ∀ k, (s.item .left k).state ≠ .none → (s.item .left k).fileid ≠ fileid
  dropped : (s'.item .left i).state = .none ∧ (s'.item .left i).fileid = fileid ∧ (s'.item .left i).channel = none
  items : ∀ k ≠ i, s'.item .left k = s.item .left k
  receiver : s'.ft .right = s.ft .right
  channels : s'.link.channels = s.link.channels
  wire : s'.link.wire = s.link.wire

theorem InStep.notOffered {fileid : CString} (h : InStep s) (ho : NotOffered s s' i fileid) : InStep s' := by
  have hright : ∀ j, s'.item .right j = s.item .right j := fun j => by rw [Transfer.item, ho.receiver]
  have hflight : s'.inFlight = s.inFlight := by
    unfold Transfer.inFlight
    rw [ho.wire]
  have honly : OnlyFile s s' i 0 s.link.next fileid := by
    refine ⟨ho.sender, by rw [ho.receiver], ho.next, ho.items, ?_, ?_, fun j => .inl (hright j), ?_, ?_, ?_⟩
    · intro x _
      rw [ho.channels]
    · intro p t' _
      rw [hflight]
    · intro d y _ hy
      rwa [ho.channels]
    · exact fun hx => absurd ho.free hx.live
    · intro k x y _ hx
      exact ⟨(h.owner hx).1, (h.owner hx).2.1.ne, ho.others k hx.live⟩
  refine h.rebuild honly (fun hs => absurd ho.dropped.1 hs) ?_ (fun hs => absurd ho.dropped.1 hs) ?_ ?_
    (h.distinct_of_same hright)
  · intro _ p
    rw [hflight]
    exact h.none_inFlight p
  · intro k _ hk
    rw [ho.dropped.2.1, ho.dropped.2.2]
    obtain ⟨x, y, hx⟩ := h.live k hk
    refine ⟨(ho.others k hk).symm, fun hc => ?_⟩
    rw [hx.channel] at hc
    cases hc
  · intro j hj hused
    rw [hright] at hj hused
    obtain ⟨k, hk, hfile⟩ := (h.known j).resolve_left hused
    exact absurd (hfile.trans hj) (ho.others k hk)

/-! Steps that change nothing. -/

section Steps
variable {w : Wires Packet} {next : Nat} {r : MuxResult Nat}

theorem stepped_same (hr : r.channels = s.link.channels p) (hs : r.sent = []) :
    s.stepped p s.link.wire next r (s.ft p) = ⟨⟨s.link.channels, s.link.wire, next⟩, s.ft⟩ := by
  unfold Transfer.stepped Link.after
  rw [hr, hs, Wires.send_nil, Function.update_eq_self, Function.update_eq_self]

theorem InStep.later (h : InStep s) (hn : s.link.next ≤ next) :
    InStep ⟨⟨s.link.channels, s.link.wire, next⟩, s.ft⟩ := by
  refine ⟨h.sender, h.receiver, fun i hi => ?_, fun ho => ?_, h.first, fun ho ho' ht => ?_, fun hpb => ?_, h.known,
    h.distinct⟩
  · obtain ⟨c, ch, ho⟩ := h.live i hi
    exact ⟨c, ch, ho.live, ho.channel, ho.found⟩
  · obtain ⟨hc, hnext, hne, hstage⟩ := h.owner ⟨ho.live, ho.channel, ho.found⟩
    refine ⟨hc, hnext.trans_le hn, hne, ?_⟩
    cases hstage with
    | offered cookie state status left right readsBack ready =>
      exact .offered cookie state status left right readsBack ready
    | refused state status left right absent => exact .refused state status left right absent
    | accepted j d status controls blocks ha =>
      exact .accepted j d status controls blocks ⟨ha.fileid, ha.channel, ha.nonzero, ha.found, ha.remote, ha.opened,
        ha.right, ha.follows, ha.left⟩
  · exact h.tags ⟨ho.live, ho.channel, ho.found⟩ ⟨ho'.live, ho'.channel, ho'.found⟩ ht
  · obtain ⟨i, c, ch, ho, ht⟩ := h.owned hpb
    exact ⟨i, c, ch, ⟨ho.live, ho.channel, ho.found⟩, ht⟩

theorem InStep.unchanged (h : InStep s) (hr : r.channels = s.link.channels p) (hs : r.sent = [])
    (hn : s.link.next ≤ next) : InStep (s.stepped p s.link.wire next r (s.ft p)) := by
  rw [stepped_same hr hs]
  exact h.later hn

theorem InStep.senderState (h : InStep s) (ho : Owner s i c ch) :
    s.fileState .left (s.item .left i).fileid = (s.item .left i).state := by
  rw [Transfer.fileState, h.senderFile ho]

theorem InStep.added {info : FileInfo} {drawn : PublicKey} (h : InStep s)
    (hg : staysInStep s (.add .left info drawn alloc sent) = true) (hf : allocFree (s.link.channels .left) alloc = true)
    {r : FileResult Nat}
    (hr : elaFiletransferAdd (s.ft .left) (s.link.channels .left) info drawn alloc sent s.link.next = r) :
    InStep (s.stepped .left s.link.wire (s.link.next + 1) ⟨r.channels, r.sent, [], r.ret⟩ r.ft) := by
  unfold elaFiletransferAdd at hr
  simp only [staysInStep] at hg
  cases hcheck : checkAdd (s.ft .left) info with
  | error e =>
    rw [hcheck] at hr
    subst hr
    exact h.unchanged rfl rfl (Nat.le_succ _)
  | ok i =>
    rw [hcheck] at hr hg
    simp only [Bool.and_eq_true, decide_eq_true_eq, readsBack_iff] at hg
    obtain ⟨hreads, hnew⟩ := hg
    obtain ⟨-, hfree, hbefore⟩ := checkAdd_ok hcheck
    have hothers : ∀ k, (s.item .left k).state ≠ .none → (s.item .left k).fileid ≠ info.chosenId drawn := by
      intro k hk hfile
      obtain ⟨x, y, hx⟩ := h.live k hk
      rw [← hfile, h.senderState hx] at hnew
      exact hk hnew
    have habsent : ∀ j, (s.item .right j).fileid ≠ info.chosenId drawn := by
      intro j hj
      rcases h.known j with hunused | ⟨k, hk, hfile⟩
      · rw [hunused] at hj
        exact chosenId_ne_empty info drawn hj.symm
      · exact hothers k hk (hfile.trans hj)
    have hreceiver : ((s.stepped .left s.link.wire (s.link.next + 1) ⟨r.channels, r.sent, [], r.ret⟩ r.ft).ft
        .right).senderReceiver = (s.ft .right).senderReceiver := by
      rw [stepped_ft_other (by decide)]
    have hright : ∀ j, (s.stepped .left s.link.wire (s.link.next + 1) ⟨r.channels, r.sent, [], r.ret⟩ r.ft).item
        .right j = s.item .right j := stepped_item_other (by decide)
    rcases offerItem_cases (s.ft .left) i
      ⟨info.chosenId drawn, some (basename info.filename), info.size, .none, none⟩
      (offerCookie (info.offer drawn)) sent s.link.next hf with ⟨c, -, -, hc, hunused, hres⟩ | ⟨-, e, hres⟩
    · replace hr := hres.symm.trans hr
      have hft : r.ft = _ := (congrArg FileResult.ft hr).symm
      have hchannels : r.channels = _ := (congrArg FileResult.channels hr).symm
      have hpacket : r.sent = _ := (congrArg FileResult.sent hr).symm
      have hsent : ∀ y ∈ r.sent, y.tag = s.link.next := tag_of_packet hpacket rfl
      refine @InStep.offer s _ i c ⟨info.chosenId drawn, some (basename info.filename), info.size, .none, none⟩
        (offerCookie (info.offer drawn)) h ⟨?_, hreceiver, Nat.lt_succ_self _, hfree, hothers, hbefore, chosenId_ne_empty info drawn, ?_, ?_,
        hc, hunused, ?_, fun p t' ht => Arrived.call.inFlight_other hsent ht p, ?_, ?_, ?_, fun j => .inl (hright j),
        h.distinct_of_same hright, hreads, .inl ?_⟩
      · rw [stepped_ft_self, hft]
        rfl
      · simp [Transfer.item, hft]
      · intro k hk
        simp [Transfer.item, hft, hk]
      · rw [stepped_channels_self, hchannels]
        exact setAt_insert _ _ _
      · rw [inFlight_sent hsent (h.none_inFlight .left)]
        exact hpacket
      · rw [stepped_inFlight_other (by decide)]
        exact h.none_inFlight .right
      · exact stepped_channels_other (by decide)
      · intro j
        rw [hright]
        exact habsent j
    · replace hr := hres.symm.trans hr
      have hft : r.ft = _ := (congrArg FileResult.ft hr).symm
      have hchannels : r.channels = _ := (congrArg FileResult.channels hr).symm
      have hpacket : r.sent = _ := (congrArg FileResult.sent hr).symm
      refine h.notOffered ⟨?_, Nat.le_succ _, hfree, hothers, ?_, ?_, stepped_ft_other (by decide), ?_, ?_⟩
      · rw [stepped_ft_self, hft]
        rfl
      · simp [Transfer.item, hft]
      · intro k hk
        simp [Transfer.item, hft, hk]
      · exact after_unchanged hchannels _ _
      · change s.link.wire.send .left r.sent = s.link.wire
        rw [hpacket, Wires.send_nil]

end Steps

/-! Calls on an item. -/

/-- The states of an item in which a call is allowed. -/
def FileCall.allowed : FileCall → FileTransferState → Bool
  | .pull _, state => decide (state = .standby)
  | .send _, state => decide (state = .transfering)
  | .cancel .., state => decide (state ≠ .none)
  | .pend, state => decide (state = .transfering)
  | .resume, state => decide (state = .standby)

/-- The state of the item after a call. -/
def FileCall.newState : FileCall → FileTransferState → FileTransferState
  | .pull _, _ => .transfering
  | .send _, state => state
  | .cancel .., state => state
  | .pend, _ => .standby
  | .resume, _ => .transfering

/-- A call changes nothing, or its packet goes out over the channel of the first item with the file id. -/
inductive CallOutcome (ft : ElaFileTransfer) (chs : Channels Nat) (fileid : CString) (op : FileCall) (sent : Bool)
    (r : FileResult Nat) : Prop
  | refused (ft : r.ft = ft) (channels : r.channels = chs) (packet : r.sent = [])
  | done (i : Slot) (c : ChannelId) (ch : Channel Nat) (item : ft.getFileinfoFileid fileid = some i)
      (role : ft.senderReceiver = op.role) (allowed : op.allowed (ft.files i).state = true)
      (channel : (ft.files i).channel = some c) (found : chs.lookup c = some ch) (status : ch.status ≠ .opening)
      (went : sent = true) (ft : r.ft = ft.setState i (op.newState (ft.files i).state)) (channels : r.channels = chs)
      (packet : r.sent = [sendPacket op.packet.1 .user c ch.remoteId op.packet.2 ch.tag])

theorem sendOnChannel_ok {type : PacketType} {payload : List UInt8}
    (h : (sendOnChannel type chs c payload sent).ret = .ok ()) : sent = true := by
  unfold sendOnChannel at h
  split at h
  · cases h
  split at h
  · cases h
  split at h
  · cases h
  split at h
  next hsent => exact hsent
  · cases h

theorem write_ok (hc : c ≠ 0) {payload : List UInt8} {tag : Nat}
    (h : (elaStreamWriteChannel chs c payload sent tag).ret = .ok ()) : sent = true := by
  unfold elaStreamWriteChannel at h
  split at h
  · cases h
  · rw [writeChannel, if_neg hc] at h
    exact sendOnChannel_ok h

theorem checkItem_found {fileid : CString} {fits : FileTransferItem → Bool} {role : Role}
    {allowed : FileTransferState → Bool} (h : checkItem ft fileid fits role allowed = .ok i) :
    ft.getFileinfoFileid fileid = some i := by
  unfold checkItem at h
  split at h
  · cases h
  split at h
  · cases h
  next k hk =>
    split at h
    · cases h
    split at h
    · cases h
    split at h
    · cases h
    split at h
    · cases h
    · rw [hk, Except.ok.inj h]

theorem callItem_outcome {fileid : CString} {fits : FileTransferItem → Bool} {call : ChannelId → MuxResult Nat}
    (op : FileCall) (hnz : ∀ i c, (ft.files i).state ≠ .none → (ft.files i).channel = some c → c ≠ 0)
    (hlive : op.allowed .none = false)
    (hcall : ∀ c, c ≠ 0 → Sends chs c op.packet.1 op.packet.2 (call c) ∧ ((call c).ret = .ok () → sent = true)) :
    CallOutcome ft chs fileid op sent
      (callItem ft chs (checkItem ft fileid fits op.role op.allowed) op.newState call) := by
  unfold callItem
  split
  · exact .refused rfl rfl rfl
  next i hi =>
    obtain ⟨hrole, hallowed⟩ := checkItem_ok hi
    have hstate : (ft.files i).state ≠ .none := by
      intro hs
      rw [hs, hlive] at hallowed
      cases hallowed
    unfold sendOver
    split
    · exact .refused rfl rfl rfl
    next c hc =>
      obtain ⟨hsends, hwent⟩ := hcall c (hnz i c hstate hc)
      dsimp only
      cases hsends with
      | refused e ret channels packet =>
        rw [ret]
        exact .refused rfl channels packet
      | sent ch ret channels found status packet =>
        rw [ret]
        exact .done i c ch (checkItem_found hi) hrole hallowed hc found status (hwent ret) rfl channels packet

theorem fileCall_outcome (hnz : ∀ i c, (ft.files i).state ≠ .none → (ft.files i).channel = some c → c ≠ 0)
    (fileid : CString) (op : FileCall) (sent : Bool) :
    CallOutcome ft chs fileid op sent (fileCall ft chs fileid sent op) := by
  cases op with
  | pull offset =>
    exact callItem_outcome (.pull offset) hnz rfl fun c hc => ⟨write_sends chs hc _ sent _, write_ok hc⟩
  | send data =>
    exact callItem_outcome (.send data) hnz rfl fun c hc => ⟨write_sends chs hc _ sent _, write_ok hc⟩
  | cancel status reason =>
    exact callItem_outcome (.cancel status reason) hnz rfl fun c hc => ⟨write_sends chs hc _ sent _, write_ok hc⟩
  | pend =>
    refine callItem_outcome .pend hnz rfl fun c hc => ?_
    rw [streamCall, if_neg hc]
    exact ⟨sendOnChannel_sends .channelPending chs c [] sent, sendOnChannel_ok⟩
  | resume =>
    refine callItem_outcome .resume hnz rfl fun c hc => ?_
    rw [streamCall, if_neg hc]
    exact ⟨sendOnChannel_sends .channelResume chs c [] sent, sendOnChannel_ok⟩

/-- The sender sends a block. -/
theorem InStep.sends {fileid : CString} {op : FileCall} {r : FileResult Nat} (h : InStep s)
    (hout : CallOutcome (s.ft .left) (s.link.channels .left) fileid op sent r) :
    InStep (s.stepped .left s.link.wire s.link.next ⟨r.channels, r.sent, [], r.ret⟩ r.ft) := by
  cases hout with
  | refused ft channels packet =>
    rw [ft]
    exact h.unchanged channels packet le_rfl
  | done i c ch item role allowed channel found status went ft channels packet =>
    rw [h.sender] at role
    cases op with
    | send data =>
      have hstate : (s.item .left i).state = .transfering := of_decide_eq_true allowed
      have hlive : (s.item .left i).state ≠ .none := by
        rw [hstate]
        decide
      have hown : Owner s i c ch := ⟨hlive, channel, found⟩
      have hsent : ∀ y ∈ r.sent, y.tag = ch.tag := tag_of_packet packet rfl
      refine h.senderStep hown hlive ft rfl ?_ .call hsent ?_
      · rw [channels]
        exact setAt_same found
      · obtain ⟨-, -, -, hstage⟩ := h.owner hown
        cases hstage with
        | offered cookie state => exact absurd (state.symm.trans hstate) (by decide)
        | refused state => exact absurd (state.symm.trans hstate) (by decide)
        | accepted j d remaining controls blocks ha =>
          refine .accepted j d remaining controls (blocks ++ [data])
            (ha.afterSender rfl rfl ha.remote ha.right ha.follows hsent ?_)
          rw [packet, List.map_append, ← ha.left, ha.remote status]
          rfl
    | pull offset => cases role
    | cancel status reason => cases role
    | pend => cases role
    | resume => cases role

/-- The states in which a control means something, and what it does. -/
def Control.Takes (a b : FileTransferState × ChannelStatus) : Control → Prop
  | .confirm => a = (.standby, .opening) ∧ b = (.standby, .open)
  | .pull _ => a.1 = .standby ∧ a.2 ≠ .opening ∧ b = (.transfering, a.2)
  | .cancel .. => a.2 ≠ .opening ∧ b = a
  | .pend => a = (.transfering, .open) ∧ b = (.standby, .pending)
  | .resume => a = (.standby, .pending) ∧ b = (.transfering, .open)

theorem Control.apply_some {a b : FileTransferState × ChannelStatus} {u : Control} (h : Control.apply a u = some b) :
    u.Takes a b := by
  unfold Control.apply at h
  split at h
  all_goals cases h <;> simp [Control.Takes]

theorem Control.apply_live {a b : FileTransferState × ChannelStatus} {u : Control} (h : Control.apply a u = some b)
    (ha : a.1 ≠ .none) : b.1 ≠ .none := by
  have hu := Control.apply_some h
  cases u with
  | confirm => exact hu.2 ▸ fun hs => nomatch hs
  | pull offset => exact hu.2.2 ▸ fun hs => nomatch hs
  | cancel status reason => exact hu.2 ▸ ha
  | pend => exact hu.2 ▸ fun hs => nomatch hs
  | resume => exact hu.2 ▸ fun hs => nomatch hs

theorem statusAfter_packet {a b : FileTransferState × ChannelStatus} {u : Control} (h : Control.apply a u = some b)
    (d c : ChannelId) (tag : Nat) : b.2 = statusAfter a.2 (u.packet d c tag) := by
  have hu := Control.apply_some h
  cases u with
  | confirm =>
    rw [hu.2]
    rfl
  | pull offset =>
    rw [hu.2.2]
    rfl
  | cancel status reason =>
    rw [hu.2]
    rfl
  | pend =>
    rw [hu.2]
    rfl
  | resume =>
    rw [hu.2]
    rfl

section Receiver
variable {status : ChannelStatus} {controls : List Control} {blocks : List (List UInt8)}

theorem InStep.comingStatus (h : InStep s) (hown : Owner s i c ch)
    (ha : Accepted s (s.item .left i) c ch j d status controls blocks) :
    comingStatus s (s.item .right j).fileid = some status := by
  have hne : (s.item .right j).fileid ≠ .empty := by
    rw [ha.fileid]
    exact (h.owner hown).2.2.1
  have hstatus := ha.follows.foldl (f := Prod.snd) (g := fun status u => statusAfter status (u.packet d c ch.tag))
    fun a u b hu => statusAfter_packet hu d c ch.tag
  simp only [FileTransfer.comingStatus, h.receiverFile hne, Option.bind_eq_bind, Option.bind_some, ha.channel, ha.found,
    hown.found, ha.right, List.foldl_map]
  exact congrArg some hstatus.symm

theorem InStep.receiverState (h : InStep s) (hne : (s.item .right j).fileid ≠ .empty) :
    s.fileState .right (s.item .right j).fileid = (s.item .right j).state := by
  rw [Transfer.fileState, h.receiverFile hne]

/-- What the receiver calls is a control that the sender can follow. -/
theorem FileCall.control {op : FileCall} {state : FileTransferState} (hrole : op.role = .receiver)
    (hallowed : op.allowed state = true) (hopened : status ≠ .opening) (hpend : op = .pend → status ≠ .pending)
    (hresume : op = .resume → status ≠ .open) : ∃ u status', status' ≠ ChannelStatus.opening ∧
      Control.apply (state, status) u = some (op.newState state, status') ∧
      ∀ d c tag, sendPacket op.packet.1 .user d c op.packet.2 tag = u.packet d c tag := by
  cases op with
  | pull offset =>
    obtain rfl : state = .standby := of_decide_eq_true hallowed
    refine ⟨.pull offset, status, hopened, ?_, fun d c tag => rfl⟩
    cases status with
    | opening => exact absurd rfl hopened
    | «open» => rfl
    | pending => rfl
  | send data => cases hrole
  | cancel code reason =>
    refine ⟨.cancel code reason, status, hopened, ?_, fun d c tag => rfl⟩
    cases status with
    | opening => exact absurd rfl hopened
    | «open» => cases state <;> rfl
    | pending => cases state <;> rfl
  | pend =>
    obtain rfl : state = .transfering := of_decide_eq_true hallowed
    refine ⟨.pend, .pending, by decide, ?_, fun d c tag => rfl⟩
    cases status with
    | opening => exact absurd rfl hopened
    | «open» => rfl
    | pending => exact absurd rfl (hpend rfl)
  | resume =>
    obtain rfl : state = .standby := of_decide_eq_true hallowed
    refine ⟨.resume, .open, by decide, ?_, fun d c tag => rfl⟩
    cases status with
    | opening => exact absurd rfl hopened
    | «open» => exact absurd rfl (hresume rfl)
    | pending => rfl

/-- The receiver pulls, cancels, pauses or resumes. -/
theorem InStep.tells {fileid : CString} {op : FileCall} {r : FileResult Nat} (h : InStep s)
    (hg : staysInStep s (.call .right fileid op sent) = true)
    (hout : CallOutcome (s.ft .right) (s.link.channels .right) fileid op sent r) :
    InStep (s.stepped .right s.link.wire s.link.next ⟨r.channels, r.sent, [], r.ret⟩ r.ft) := by
  cases hout with
  | refused ft channels packet =>
    rw [ft]
    exact h.unchanged channels packet le_rfl
  | done j d own item role allowed channel found opened went ft channels packet =>
    rw [h.receiver] at role
    have hfile : (s.item .right j).fileid = fileid := of_decide_eq_true (find_slot.mp item).1
    have hused : s.item .right j ≠ .unused := by
      intro hunused
      have hnone : (s.item .right j).state = .none := by rw [hunused]; rfl
      change op.allowed (s.item .right j).state = true at allowed
      rw [hnone] at allowed
      cases op <;> cases allowed
    obtain ⟨i, c, ch, status, controls, blocks, hown, ha⟩ := h.receiverLive hused channel
    obtain rfl : (⟨c, .open, ch.tag⟩ : Channel Nat) = own := Option.some.inj (ha.found.symm.trans found)
    have hstate : s.fileState .right fileid = (s.item .right j).state := by rw [Transfer.fileState, item]
    have hcoming : FileTransfer.comingStatus s fileid = some status := hfile ▸ h.comingStatus hown ha
    have hpend : op = .pend → status ≠ .pending := by
      rintro rfl rfl
      have htransfering : (s.item .right j).state = .transfering := of_decide_eq_true allowed
      simp [staysInStep, went, hstate, hcoming, htransfering] at hg
    have hresume : op = .resume → status ≠ .open := by
      rintro rfl rfl
      have hstandby : (s.item .right j).state = .standby := of_decide_eq_true allowed
      simp [staysInStep, went, hstate, hcoming, hstandby] at hg
    obtain ⟨u, status', hopened, happly, hu⟩ := FileCall.control role.symm allowed ha.opened hpend hresume
    have hsent : ∀ y ∈ r.sent, y.tag = ch.tag := tag_of_packet packet rfl
    rw [hu] at packet
    have hkept : ∀ k, (r.ft.files k).fileid = (s.item .right k).fileid := by
      intro k
      rw [ft, ElaFileTransfer.setState_fileid]
    have hj : r.ft.files j = { s.item .right j with state := op.newState (s.item .right j).state } := by
      rw [ft, ElaFileTransfer.setState_self]
    refine h.receiverStep hown (by rw [ft]; rfl) ?_ ?_ (fun x y _ hx => ?_) .call hsent ?_
    · intro k
      by_cases hk : k = j
      · exact .inr ⟨.inl (hk ▸ ha.fileid), by rw [hkept, hk, ha.fileid]⟩
      · refine .inl ?_
        rw [ft, ElaFileTransfer.setState_of_ne _ _ hk]
    · intro k l hkl hne
      rw [hkept, hkept] at hkl
      rw [hkept] at hne
      exact h.distinct hkl hne
    · rwa [channels]
    · refine .accepted j d status' (controls ++ [u]) blocks (.afterReceiver ?_ ?_ ha.nonzero ?_ ha.remote hopened hsent ?_
        ?_ ha.left)
      · rw [hkept, ha.fileid]
      · rw [hj, ha.channel]
      · rw [channels, ha.found]
      · rw [packet, List.map_append, ← ha.right]
        rfl
      · rw [hj]
        exact ha.follows.sent happly

end Receiver

/-! Packets arrive at the sender. -/

theorem notifyPacket_known {pb : Packet} (env : NotifyEnv) (hremote : pb.remoteChannelId ≠ 0 ∨ pb.type ≠ .channelData)
    (hopen : pb.type ≠ .channelOpen) (hl : chs.lookup pb.localChannelId = some ch) :
    notifyPacket chs pb env = notifyChannel chs ch pb env := by
  have hstream : ¬ (pb.remoteChannelId = 0 ∧ pb.localChannelId = 0 ∧ pb.type = .channelData) := by
    rintro ⟨hr, -, ht⟩
    exact hremote.elim (absurd hr) (absurd ht)
  rw [notifyPacket, if_neg hstream, if_neg hopen, hl]

theorem notifyChannel_kept {pb : Packet} {env : NotifyEnv} (ht : pb.type = .channelData) (hopened : ch.status ≠ .opening)
    (hkeep : env.keep = true) :
    notifyChannel chs ch pb env = ⟨chs, [], [.channelData pb.localChannelId pb.payload], .ok ()⟩ := by
  have hready : ¬ (ch.status ≠ .pending ∧ ch.status ≠ .open) := by
    rintro ⟨hpending, hopen⟩
    cases hs : ch.status with
    | opening => exact hopened hs
    | «open» => exact hopen hs
    | pending => exact hpending hs
  simp only [notifyChannel, ht, if_neg hready, hkeep, Bool.not_true, Bool.false_eq_true, if_false]

theorem setState_eq_self {state : FileTransferState} (h : (ft.files i).state = state) : ft.setState i state = ft := by
  subst h
  exact congrArg (fun files => { ft with files }) (Function.update_eq_self i ft.files)

theorem sender_pull (hsender : ft.senderReceiver = .sender) (hi : ft.getFileinfoChannel c = some i)
    (hstate : (ft.files i).state = .standby) (offset : UInt64) (more : Bool) : streamChannelData ft c (pullBytes offset) more =
      ⟨ft.setState i .transfering, some (.pull (ft.files i).fileid (packetOffset (pullBytes offset))), true⟩ := by
  simp [streamChannelData, hi, hsender, hstate]

theorem paused_state {old new : FileTransferState} {event : CString → FileEvent}
    (hsender : ft.senderReceiver = .sender) (hi : ft.getFileinfoChannel c = some i) (hstate : (ft.files i).state = old) :
    (streamChannelPaused ft c old new event).1 = ft.setState i new := by
  simp [streamChannelPaused, hsender, hi, hstate]

/-- The sender's item and its channel take up a control. -/
theorem control_arrives {u : Control} {x : FileTransferState × ChannelStatus} (hsender : ft.senderReceiver = .sender)
    (hi : ft.getFileinfoChannel c = some i) (hl : chs.lookup c = some ch) (hd : d ≠ 0)
    (hremote : ch.status ≠ .opening → ch.remoteId = d)
    (hu : Control.apply ((ft.files i).state, ch.status) u = some x) (hcancel : ∀ code reason, u ≠ .cancel code reason)
    {r : MuxResult Nat} (hr : notifyPacket chs (u.packet d c ch.tag)
      (filesEnv ft (u.packet d c ch.tag) alloc sent more) = r) :
    SetAt chs r.channels c (some ⟨d, x.2, ch.tag⟩) ∧ r.sent = [] ∧
      (filesEvents .left ft more r.events).1 = ft.setState i x.1 := by
  have happly := Control.apply_some hu
  have hknown : ∀ env, notifyPacket chs (u.packet d c ch.tag) env = notifyChannel chs ch (u.packet d c ch.tag) env := by
    intro env
    have hopen : (u.packet d c ch.tag).type ≠ .channelOpen := by cases u <;> exact fun h => nomatch h
    have hlocal : (u.packet d c ch.tag).localChannelId = c := by cases u <;> rfl
    have hnonzero : (u.packet d c ch.tag).remoteChannelId ≠ 0 := by cases u <;> exact hd
    exact notifyPacket_known env (.inl hnonzero) hopen (by rwa [hlocal])
  rw [hknown] at hr
  cases u with
  | confirm =>
    obtain ⟨hst, rfl⟩ := happly
    obtain ⟨hstate, hstatus⟩ := Prod.mk.inj hst
    have hres : r = ⟨chs.insert c { ch with status := .open, remoteId := d }, [], [.channelOpened c], .ok ()⟩ := by
      simp [← hr, notifyChannel, Control.packet, sendPacket, hstatus, hd]
    subst hres
    refine ⟨setAt_insert _ _ _, rfl, ?_⟩
    rw [setState_eq_self hstate]
    simp [filesEvents, filesEvent, hsender]
  | pull offset =>
    obtain ⟨hstate, hopened, rfl⟩ := happly
    have hdata := sender_pull hsender hi hstate offset more
    have hkeep : (filesEnv ft ((Control.pull offset).packet d c ch.tag) alloc sent more).keep = true :=
      congrArg CallbackResult.keep hdata
    have hres : r = ⟨chs, [], [.channelData c (pullBytes offset)], .ok ()⟩ :=
      hr.symm.trans (notifyChannel_kept rfl hopened hkeep)
    subst hres
    refine ⟨setAt_same (hl.trans ?_), rfl, ?_⟩
    · rw [← hremote hopened]
    · exact congrArg CallbackResult.ft hdata
  | cancel code reason => exact absurd rfl (hcancel code reason)
  | pend =>
    obtain ⟨hst, rfl⟩ := happly
    obtain ⟨hstate, hstatus⟩ := Prod.mk.inj hst
    have hres : r = ⟨chs.insert c { ch with status := .pending }, [], [.channelPending c], .ok ()⟩ := by
      simp [← hr, notifyChannel, Control.packet, sendPacket, hstatus]
    subst hres
    have hremote := hremote (by rw [hstatus]; decide)
    refine ⟨hremote ▸ setAt_insert _ _ _, rfl, paused_state hsender hi hstate⟩
  | resume =>
    obtain ⟨hst, rfl⟩ := happly
    obtain ⟨hstate, hstatus⟩ := Prod.mk.inj hst
    have hres : r = ⟨chs.insert c { ch with status := .open }, [], [.channelResume c], .ok ()⟩ := by
      simp [← hr, notifyChannel, Control.packet, sendPacket, hstatus]
    subst hres
    have hremote := hremote (by rw [hstatus]; decide)
    refine ⟨hremote ▸ setAt_insert _ _ _, rfl, paused_state hsender hi hstate⟩

section Arrivals
variable {w : Wires Packet} {r : MuxResult Nat} {status : ChannelStatus} {controls : List Control}
  {blocks : List (List UInt8)}

/-- The sender drops the item of a file that the receiver does not have. -/
theorem InStep.dropped (h : InStep s) (hown : Owner s i c ch)
    (habsent : ∀ j, (s.item .right j).fileid ≠ (s.item .left i).fileid) (hw : Arrived s .left ch.tag w)
    (hflight : ∀ p, w.only (ofIncarnation ch.tag) p = [])
    (hft : ft = (s.ft .left).put i { s.item .left i with state := .none, filename := none })
    (htable : SetAt (s.link.channels .left) r.channels c none) (hsent : r.sent = []) :
    InStep (s.stepped .left w s.link.next r ft) := by
  have hall : ∀ y ∈ r.sent, y.tag = ch.tag := fun y hy => by
    rw [hsent] at hy
    cases hy
  have hitem : (s.stepped .left w s.link.next r ft).item .left i =
      { s.item .left i with state := .none, filename := none } := by
    rw [stepped_item_self, hft, ElaFileTransfer.put_self]
  have hright : ∀ j, (s.stepped .left w s.link.next r ft).item .right j = s.item .right j :=
    stepped_item_other (by decide)
  have hdead : ((s.stepped .left w s.link.next r ft).item .left i).state = .none := by rw [hitem]
  refine h.rebuild (.senderStep h hown hft htable hw hall) (fun hs => absurd hdead hs) ?_ (fun hs => absurd hdead hs)
    ?_ ?_ (h.distinct_of_same hright)
  · intro _ p
    rw [stepped_inFlight, hsent, List.filter_nil, Wires.send_nil, hflight]
  · intro k hk hlive
    rw [hitem]
    exact h.first hlive hk
  · intro j hj
    rw [hright] at hj
    exact absurd hj (habsent j)

/-- What has arrived is gone from the wire. -/
theorem arrived_inFlight {t : Nat} {pb : Packet} {rest : List Packet} (hfirst : s.inFlight p.other t = pb :: rest) :
    (s.link.wire.takenFirst p.other (ofIncarnation t)).only (ofIncarnation t) p.other = rest ∧
      (s.link.wire.takenFirst p.other (ofIncarnation t)).only (ofIncarnation t) p = s.inFlight p t := by
  rw [Wires.only_takenFirst_self, Wires.taken_self]
  refine ⟨congrArg List.tail hfirst, ?_⟩
  rw [Wires.taken_of_ne _ p.ne_other, Transfer.inFlight]

theorem InStep.toSender {tag : Nat} {pb : Packet} {rest : List Packet} (h : InStep s)
    (hg : staysInStep s (.deliver .left tag alloc sent more) = true) (hfirst : s.inFlight .right tag = pb :: rest)
    (hr : notifyPacket (s.link.channels .left) pb (filesEnv (s.ft .left) pb alloc sent more) = r) :
    InStep (s.stepped .left (s.link.wire.takenFirst .right (ofIncarnation tag)) s.link.next r
      (filesEvents .left (s.ft .left) more r.events).1) := by
  have hmem := Transfer.mem_inFlight.mp (hfirst ▸ List.mem_cons_self : pb ∈ s.inFlight .right tag)
  obtain ⟨i, c, ch, hown, htag⟩ := h.owned hmem.1
  obtain rfl : ch.tag = tag := htag.trans hmem.2
  obtain ⟨hright, hleft⟩ := arrived_inFlight (p := .left) hfirst
  obtain ⟨hc, -, -, hstage⟩ := h.owner hown
  cases hstage with
  | offered cookie state status left right => exact nomatch right.symm.trans hfirst
  | refused state status left right absent =>
    obtain ⟨rfl, rfl⟩ := List.cons.inj (right.symm.trans hfirst)
    have hres : r = ⟨(s.link.channels .left).erase c, [], [.channelClose c .error], .ok ()⟩ := by
      have hknown : ∀ env, notifyPacket (s.link.channels .left) (sendPacket .channelOpenConfirmation .user 0 c [] ch.tag)
          env = notifyChannel (s.link.channels .left) ch (sendPacket .channelOpenConfirmation .user 0 c [] ch.tag) env :=
        fun env => notifyPacket_known env (.inr fun ht => nomatch ht) (fun ht => nomatch ht) hown.found
      rw [← hr, hknown]
      simp [notifyChannel, sendPacket, status]
    subst hres
    refine h.dropped hown absent .deliver ?_ ?_ (setAt_erase _ _) rfl
    · intro p
      cases p with
      | left => exact hleft.trans left
      | right => exact hright
    · simp [filesEvents, filesEvent, handleEvent, streamChannelClose, h.senderChannel hown, ElaFileTransfer.put]
  | accepted j d status controls blocks ha =>
    obtain ⟨u, us, rfl, rfl, rfl⟩ := List.map_eq_cons_iff.mp (ha.right.symm.trans hfirst)
    have hcancel : ∀ code reason, u ≠ .cancel code reason := by
      rintro code reason rfl
      simp [staysInStep, hfirst, Control.packet, sendPacket] at hg
    obtain ⟨x, hu, hrest⟩ := follows_cons.mp ha.follows
    obtain ⟨htable, hsent, hft⟩ :=
      control_arrives h.sender (h.senderChannel hown) hown.found ha.nonzero ha.remote hu hcancel hr
    have hall : ∀ y ∈ r.sent, y.tag = ch.tag := fun y hy => by
      rw [hsent] at hy
      cases hy
    have htag : (⟨d, x.2, ch.tag⟩ : Channel Nat).tag = ch.tag := rfl
    refine h.senderStep hown (Control.apply_live hu hown.live) hft htag htable .deliver hall ?_
    refine .accepted j d status us blocks (ha.afterSender rfl rfl (fun _ => rfl) hright hrest hall ?_)
    rw [hsent, List.append_nil]
    exact hleft.trans ha.left

/-! Packets arrive at the receiver. -/

/-- A slot of the receiver that has been used has a live item. -/
theorem InStep.receiverUsed (h : InStep s) (hused : s.item .right j ≠ .unused) : (s.item .right j).state ≠ .none := by
  obtain ⟨i, c, ch, hown, ⟨hstandby, -⟩ | ⟨d, status, controls, blocks, ha⟩⟩ := h.receiverStage hused
  · rw [hstandby]
    exact fun hs => nomatch hs
  · exact ha.follows.preserves (P := fun a => a.1 ≠ .none) (fun a u b hlive hu => Control.apply_live hu hlive) hown.live

/-- The receiver refuses an offer, or gives the file its slot and the channel. -/
theorem InStep.opens {cookie : CString} (h : InStep s) (hown : Owner s i c ch) (d : ChannelId)
    (hreads : ∀ o, scanOffer cookie = some o →
      o.fileid = (s.item .left i).fileid ∧ o.filesz = (s.item .left i).filesz)
    (hready : (∀ j, (s.item .right j).fileid ≠ (s.item .left i).fileid) ∨ (scanOffer cookie ≠ none ∧ ∃ j filename,
      s.item .right j = ⟨(s.item .left i).fileid, filename, (s.item .left i).filesz, .standby, none⟩)) :
    (streamChannelOpen (s.ft .right) d (some cookie) = (s.ft .right, false) ∧
      ∀ j, (s.item .right j).fileid ≠ (s.item .left i).fileid) ∨
    ∃ j item, streamChannelOpen (s.ft .right) d (some cookie) = ((s.ft .right).put j item, true) ∧
      item.fileid = (s.item .left i).fileid ∧ item.state = .standby ∧ item.channel = some d ∧
      ((s.item .right j).fileid = (s.item .left i).fileid ∨ s.item .right j = .unused) ∧
      ∀ k ≠ j, (s.item .right k).fileid ≠ (s.item .left i).fileid := by
  have hrole : ¬ (s.ft .right).senderReceiver ≠ .receiver := not_not.mpr h.receiver
  simp only [streamChannelOpen, if_neg hrole, Option.bind_some]
  rcases hready with habsent | ⟨hscans, j, filename, hj⟩
  · cases hscan : scanOffer cookie with
    | none => exact .inl ⟨rfl, habsent⟩
    | some o =>
      obtain ⟨hfile, -⟩ := hreads o hscan
      have hnone : (s.ft .right).getFileinfoFileid o.fileid = none := by
        refine List.find?_eq_none.mpr fun k _ hk => habsent k ?_
        exact (of_decide_eq_true hk).trans hfile
      cases hfree : (s.ft .right).getFileinfoFree with
      | none =>
        refine .inl ⟨?_, habsent⟩
        simp only [hnone]
      | some j =>
        have hunused : s.item .right j = .unused := by
          by_contra hused
          exact h.receiverUsed hused (of_decide_eq_true (find_slot.mp hfree).1)
        refine .inr ⟨j, ⟨o.fileid, some o.filename, o.filesz, .standby, some d⟩, ?_, hfile, rfl, rfl, .inr hunused,
          fun k _ => habsent k⟩
        simp only [hnone]
  · obtain ⟨o, hscan⟩ := Option.ne_none_iff_exists'.mp hscans
    obtain ⟨hfile, hsize⟩ := hreads o hscan
    have hne : (s.item .right j).fileid ≠ .empty := by
      rw [hj]
      exact (h.owner hown).2.2.1
    have hfound : (s.ft .right).getFileinfoFileid o.fileid = some j := by
      rw [hfile, ← h.receiverFile hne, hj]
    refine .inr ⟨j, { s.item .right j with channel := some d }, ?_, ?_, ?_, rfl, .inl (by rw [hj]), fun k hk hfilek => ?_⟩
    · simp only [hscan, hfound]
      rw [if_neg, if_neg]
      · change ¬ (s.item .right j).filesz ≠ o.filesz
        rw [hj, hsize]
        exact not_not.mpr rfl
      · change ¬ (s.item .right j).state ≠ .standby
        rw [hj]
        exact not_not.mpr rfl
    · rw [hj]
    · rw [hj]
    · refine hk (h.distinct (hfilek.trans (by rw [hj])) ?_)
      rw [hfilek]
      exact (h.owner hown).2.2.1

theorem payloadCookie_cookiePayload (cookie : CString) : payloadCookie (cookiePayload (some cookie)) = some cookie := by
  rw [payloadCookie, if_neg (by simp [cookiePayload])]
  exact CString.scan_terminated cookie []

/-- An offer arrives and is answered. -/
theorem InStep.answers {cookie : CString} (h : InStep s) (hown : Owner s i c ch)
    (hstate : (s.item .left i).state = .standby) (hstatus : ch.status = .opening)
    (hleft : s.inFlight .left ch.tag = [sendPacket .channelOpen .user c 0 (cookiePayload (some cookie)) ch.tag])
    (hright : s.inFlight .right ch.tag = [])
    (hreads : ∀ o, scanOffer cookie = some o →
      o.fileid = (s.item .left i).fileid ∧ o.filesz = (s.item .left i).filesz)
    (hready : (∀ j, (s.item .right j).fileid ≠ (s.item .left i).fileid) ∨ (scanOffer cookie ≠ none ∧ ∃ j filename,
      s.item .right j = ⟨(s.item .left i).fileid, filename, (s.item .left i).filesz, .standby, none⟩))
    (hfree : allocFree (s.link.channels .right) (.id d) = true)
    (hr : notifyPacket (s.link.channels .right) (sendPacket .channelOpen .user c 0 (cookiePayload (some cookie)) ch.tag)
      (filesEnv (s.ft .right) (sendPacket .channelOpen .user c 0 (cookiePayload (some cookie)) ch.tag) (.id d) true more)
        = r) :
    InStep (s.stepped .right (s.link.wire.takenFirst .left (ofIncarnation ch.tag)) s.link.next r
      (filesEvents .right (s.ft .right) more r.events).1) := by
  obtain ⟨hrest, hkept⟩ := arrived_inFlight (p := .right) hleft
  simp only [Peer.other] at hrest hkept
  simp only [allocFree, Bool.and_eq_true, decide_eq_true_eq, Option.isNone_iff_eq_none] at hfree
  obtain ⟨⟨hd, -⟩, hfree⟩ := hfree
  have hopen : ∀ env, notifyPacket (s.link.channels .right)
      (sendPacket .channelOpen .user c 0 (cookiePayload (some cookie)) ch.tag) env = notifyOpen (s.link.channels .right)
        (sendPacket .channelOpen .user c 0 (cookiePayload (some cookie)) ch.tag) env := by
    intro env
    simp [notifyPacket, sendPacket]
  rw [hopen] at hr
  rcases h.opens hown d hreads hready with ⟨hrefused, habsent⟩ | ⟨j, item, htaken, hfile, hstandby, hchannel, hslot, hothers⟩
  · have hres : r = ⟨s.link.channels .right, [sendPacket .channelOpenConfirmation .user 0 c [] ch.tag],
        [.channelOpen d (cookiePayload (some cookie))], .ok ()⟩ := by
      simp [← hr, notifyOpen, filesEnv, sendPacket, payloadCookie_cookiePayload, hrefused,
        Table.erase_insert_of_free hfree]
    have hft : (filesEvents .right (s.ft .right) more r.events).1 = s.ft .right := by
      simp [hres, filesEvents, filesEvent, payloadCookie_cookiePayload, hrefused]
    have hpacket : r.sent = [sendPacket .channelOpenConfirmation .user 0 c [] ch.tag] := by rw [hres]
    have hsent : ∀ y ∈ r.sent, y.tag = ch.tag := tag_of_packet hpacket rfl
    rw [hft]
    refine h.receiverStep hown rfl (fun _ => .inl rfl) h.distinct (fun _ _ _ hx => ?_) .deliver hsent ?_
    · rwa [hres]
    · refine .refused hstate hstatus ?_ ?_ fun k => ?_
      · rw [stepped_inFlight_other (by decide)]
        exact hrest
      · rw [inFlight_sent hsent (hkept.trans hright)]
        exact hpacket
      · rw [stepped_item_self]
        exact habsent k
  · have hres : r = ⟨((s.link.channels .right).insert d ⟨c, .opening, ch.tag⟩).insert d ⟨c, .open, ch.tag⟩,
        [sendPacket .channelOpenConfirmation .user d c [] ch.tag],
        [.channelOpen d (cookiePayload (some cookie)), .channelOpened d], .ok ()⟩ := by
      simp [← hr, notifyOpen, filesEnv, sendPacket, payloadCookie_cookiePayload, htaken]
    have hft : (filesEvents .right (s.ft .right) more r.events).1 = (s.ft .right).put j item := by
      simp [hres, filesEvents, filesEvent, payloadCookie_cookiePayload, htaken]
    have hpacket : r.sent = [Control.confirm.packet d c ch.tag] := by
      rw [hres]
      rfl
    have hsent : ∀ y ∈ r.sent, y.tag = ch.tag := tag_of_packet hpacket rfl
    have hput : ∀ k, ((s.ft .right).put j item).files k = if k = j then item else s.item .right k := by
      intro k
      split
      next hk => rw [hk, ElaFileTransfer.put_self]
      next hk => exact ElaFileTransfer.put_of_ne _ _ hk _
    rw [hft]
    refine h.receiverStep hown rfl ?_ ?_ ?_ .deliver hsent ?_
    · intro k
      rw [hput]
      split
      next hk => exact .inr ⟨hk ▸ hslot, hfile⟩
      · exact .inl rfl
    · intro k l hkl hne
      rw [hput] at hkl hne
      rw [hput] at hkl
      by_cases hk : k = j
      · by_cases hl : l = j
        · rw [hk, hl]
        · rw [if_pos hk, if_neg hl, hfile] at hkl
          exact absurd hkl.symm (hothers l hl)
      · rw [if_neg hk] at hkl hne
        by_cases hl : l = j
        · rw [if_pos hl, hfile] at hkl
          exact absurd hkl (hothers k hk)
        · rw [if_neg hl] at hkl
          exact h.distinct hkl hne
    · intro x y _ hx
      have hne : x ≠ d := by
        rintro rfl
        exact absurd (hx.symm.trans hfree) (by simp)
      rw [hres, AList.lookup_insert_ne hne, AList.lookup_insert_ne hne, hx]
    · refine .accepted j d .open [.confirm] [] (.afterReceiver ?_ ?_ hd ?_ (fun hs => absurd hstatus hs) (by decide) hsent
        ?_ ?_ hrest)
      · rw [ElaFileTransfer.put_self, hfile]
      · rw [ElaFileTransfer.put_self, hchannel]
      · rw [hres, AList.lookup_insert]
      · rw [hkept.trans hright, hpacket]
        rfl
      · rw [ElaFileTransfer.put_self, hstate, hstatus, hstandby]
        exact follows_cons.mpr ⟨_, rfl, follows_nil.mpr rfl⟩

theorem InStep.toReceiver {tag : Nat} {pb : Packet} {rest : List Packet} (h : InStep s)
    (hg : staysInStep s (.deliver .right tag alloc sent more) = true) (hfirst : s.inFlight .left tag = pb :: rest)
    (hf : allocFree (s.link.channels .right) alloc = true)
    (hr : notifyPacket (s.link.channels .right) pb (filesEnv (s.ft .right) pb alloc sent more) = r) :
    InStep (s.stepped .right (s.link.wire.takenFirst .left (ofIncarnation tag)) s.link.next r
      (filesEvents .right (s.ft .right) more r.events).1) := by
  have hmem := Transfer.mem_inFlight.mp (hfirst ▸ List.mem_cons_self : pb ∈ s.inFlight .left tag)
  obtain ⟨i, c, ch, hown, htag⟩ := h.owned hmem.1
  obtain rfl : ch.tag = tag := htag.trans hmem.2
  obtain ⟨hc, -, -, hstage⟩ := h.owner hown
  cases hstage with
  | offered cookie state status left right readsBack ready =>
    obtain ⟨rfl, rfl⟩ := List.cons.inj (left.symm.trans hfirst)
    simp only [staysInStep, hfirst, sendPacket, Bool.and_eq_true] at hg
    obtain ⟨hid, rfl⟩ := hg
    cases alloc with
    | outOfMemory => cases hid
    | limitExceeded => cases hid
    | id d => exact h.answers hown state status left right readsBack ready hf hr
  | refused state status left right absent => cases left.symm.trans hfirst
  | accepted j d status controls blocks ha =>
    obtain ⟨hrest, hkept⟩ := arrived_inFlight (p := .right) hfirst
    simp only [Peer.other] at hrest hkept
    obtain ⟨b, bs, rfl, rfl, rfl⟩ := List.map_eq_cons_iff.mp (ha.left.symm.trans hfirst)
    have hdata : ∃ e, streamChannelData (s.ft .right) d b more = ⟨s.ft .right, e, true⟩ := by
      simp only [streamChannelData, h.receiverChannel hown ha, h.receiver]
      by_cases hstate : (s.item .right j).state = .transfering
      · obtain rfl : more = true := by
          simpa [staysInStep, hfirst, sendPacket, h.receiverChannel hown ha, hstate] using hg
        exact ⟨_, if_neg (not_not.mpr hstate)⟩
      · exact ⟨none, if_pos hstate⟩
    obtain ⟨e, hdata⟩ := hdata
    have hknown : ∀ env, notifyPacket (s.link.channels .right) (sendPacket .channelData .user c d b ch.tag) env =
        notifyChannel (s.link.channels .right) ⟨c, .open, ch.tag⟩ (sendPacket .channelData .user c d b ch.tag) env :=
      fun env => notifyPacket_known env (.inl hc) (fun ht => by cases ht) ha.found
    have hres : r = ⟨s.link.channels .right, [], [.channelData d b], .ok ()⟩ := by
      refine hr.symm.trans ((hknown _).trans (notifyChannel_kept rfl (fun hs => ?_) (congrArg CallbackResult.keep hdata)))
      cases hs
    have hft : (filesEvents .right (s.ft .right) more r.events).1 = s.ft .right := by
      rw [hres]
      exact congrArg CallbackResult.ft hdata
    have hsent : ∀ y ∈ r.sent, y.tag = ch.tag := fun y hy => by
      rw [hres] at hy
      cases hy
    rw [hft]
    refine h.receiverStep hown rfl (fun _ => .inl rfl) h.distinct (fun _ _ _ hx => ?_) .deliver hsent ?_
    · rwa [hres]
    · refine .accepted j d status controls bs (.afterReceiver ha.fileid ha.channel ha.nonzero ?_ ha.remote ha.opened hsent
        ?_ ha.follows hrest)
      · rw [hres, ha.found]
      · rw [hres, List.append_nil]
        exact hkept.trans ha.right

end Arrivals

/-! Whole runs. -/

theorem InStep.addedRight {info : FileInfo} {drawn : PublicKey} (h : InStep s) {r : FileResult Nat}
    (hr : elaFiletransferAdd (s.ft .right) (s.link.channels .right) info drawn alloc sent s.link.next = r) :
    InStep (s.stepped .right s.link.wire (s.link.next + 1) ⟨r.channels, r.sent, [], r.ret⟩ r.ft) := by
  unfold elaFiletransferAdd at hr
  cases hcheck : checkAdd (s.ft .right) info with
  | error e =>
    rw [hcheck] at hr
    subst hr
    exact h.unchanged rfl rfl (Nat.le_succ _)
  | ok i =>
    have hrole := (checkAdd_ok hcheck).1
    rw [h.receiver] at hrole
    cases hrole

theorem InStep.called {fileid : CString} {op : FileCall} (h : InStep s)
    (hg : staysInStep s (.call p fileid op sent) = true) {r : FileResult Nat}
    (hr : fileCall (s.ft p) (s.link.channels p) fileid sent op = r) :
    InStep (s.stepped p s.link.wire s.link.next ⟨r.channels, r.sent, [], r.ret⟩ r.ft) := by
  have hnz : ∀ i c, (s.item p i).state ≠ .none → (s.item p i).channel = some c → c ≠ 0 := by
    intro i c hlive hc
    cases p with
    | left =>
      obtain ⟨x, y, hown⟩ := h.live i hlive
      obtain rfl : x = c := Option.some.inj (hown.channel.symm.trans hc)
      exact (h.owner hown).1
    | right =>
      have hused : s.item .right i ≠ .unused := by
        intro hunused
        rw [hunused] at hlive
        exact hlive rfl
      obtain ⟨_, _, _, _, _, _, _, ha⟩ := h.receiverLive hused hc
      exact ha.nonzero
  have hout : CallOutcome (s.ft p) (s.link.channels p) fileid op sent r := hr ▸ fileCall_outcome hnz fileid op sent
  cases p with
  | left => exact h.sends hout
  | right => exact h.tells hg hout

theorem inStep_step {input : FilesInput} {t : Transfer} {o : List FilesOutput} (h : InStep s)
    (hg : staysInStep s input = true) (hs : filesMachine.step s input = some (t, o)) : InStep t := by
  cases input with
  | add p info drawn alloc sent =>
    simp only [filesMachine, filesStep] at hs
    split at hs
    next hf =>
      obtain ⟨rfl, -⟩ := Prod.mk.inj (Option.some.inj hs)
      cases p with
      | left => exact h.added hg hf rfl
      | right => exact h.addedRight rfl
    · cases hs
  | call p fileid op sent =>
    obtain ⟨rfl, -⟩ := Prod.mk.inj (Option.some.inj hs)
    exact h.called hg rfl
  | deliver p tag alloc sent more =>
    simp only [filesMachine, filesStep] at hs
    split at hs
    · cases hs
    next pb hpb =>
      split at hs
      next hf =>
        obtain ⟨rfl, -⟩ := Prod.mk.inj (Option.some.inj hs)
        obtain ⟨rest, hfirst⟩ := Wires.only_of_find s.link.wire p.other hpb
        cases p with
        | left => exact h.toSender hg hfirst rfl
        | right => exact h.toReceiver hg hfirst hf rfl
      · cases hs

theorem InStep.senderTag (h : InStep s) (hown : Owner s i c ch) :
    s.fileTag .left (s.item .left i).fileid = some ch.tag := by
  simp [Transfer.fileTag, h.senderFile hown, hown.channel, hown.live, hown.found]

theorem fileState_none {fileid : CString}
    (h : ∀ i, (s.item p i).fileid = fileid → (s.item p i).state = .none) : s.fileState p fileid = .none := by
  unfold Transfer.fileState
  split
  · rfl
  next i hi => exact h i (of_decide_eq_true (find_slot.mp hi).1)

/-- As long as the ends are in step, they agree on a file that has nothing in flight. -/
theorem InStep.agree (h : InStep s) (fileid : CString) : s.Agree fileid := by
  intro hquiet
  by_cases hlive : ∃ i, (s.item .left i).state ≠ .none ∧ (s.item .left i).fileid = fileid
  · obtain ⟨i, hlive, rfl⟩ := hlive
    obtain ⟨c, ch, hown⟩ := h.live i hlive
    have hnone : ∀ q, ∀ pb, pb ∉ s.inFlight q ch.tag := by
      intro q pb hpb
      obtain ⟨hmem, htag⟩ := Transfer.mem_inFlight.mp hpb
      exact hquiet .left q pb hmem ((h.senderTag hown).trans (congrArg some htag.symm))
    obtain ⟨-, -, hne, hstage⟩ := h.owner hown
    cases hstage with
    | offered cookie state status left => exact absurd (left ▸ List.mem_singleton_self _) (hnone .left _)
    | refused state status left right => exact absurd (right ▸ List.mem_singleton_self _) (hnone .right _)
    | accepted j d status controls blocks ha =>
      have hempty : controls = [] :=
        List.map_eq_nil_iff.mp (ha.right.symm.trans (List.eq_nil_iff_forall_not_mem.mpr (hnone .right)))
      have hfollows := ha.follows
      rw [hempty, follows_nil] at hfollows
      have hright : s.fileState .right (s.item .left i).fileid = (s.item .right j).state := by
        rw [← ha.fileid]
        exact h.receiverState (ha.fileid ▸ hne)
      rw [h.senderState hown, hright, (Prod.mk.inj hfollows).1]
      exact ⟨Iff.rfl, Iff.rfl⟩
  · have hleft : s.fileState .left fileid = .none :=
      fileState_none fun i hi => by_contra fun hs => hlive ⟨i, hs, hi⟩
    have hright : s.fileState .right fileid = .none := by
      refine fileState_none fun j hj => ?_
      rcases h.known j with hunused | ⟨i, hs, hi⟩
      · rw [hunused]
        rfl
      · exact absurd ⟨i, hs, hi.trans hj⟩ hlive
    rw [hleft, hright]
    exact ⟨Iff.rfl, Iff.rfl⟩

/-! How a connection starts. -/

theorem connected_item (role : Role) (first : Option FileTransferItem) (i : Slot) :
    (connectedTransfer role first).files i = if i = 0 then first.getD .unused else .unused :=
  Function.update_apply (fun _ => FileTransferItem.unused) 0 (first.getD .unused) i

theorem connected_unused (role : Role) (i : Slot) : (connectedTransfer role none).files i = .unused := by
  rw [connected_item]
  split <;> rfl

theorem inStep_none : InStep (.connected none alloc sent) := by
  have hleft : ∀ i, (Transfer.item (.connected none alloc sent) .left i) = .unused := connected_unused .sender
  have hright : ∀ i, (Transfer.item (.connected none alloc sent) .right i) = .unused := connected_unused .receiver
  have hdead : ∀ {i}, ¬ (Transfer.item (.connected none alloc sent) .left i).state ≠ .none := by
    intro i
    rw [hleft i]
    exact not_not.mpr rfl
  refine ⟨rfl, rfl, fun i hs => absurd hs hdead, fun hown => absurd hown.live hdead, fun hs => absurd hs hdead,
    fun hown => absurd hown.live hdead, fun hpb => (nomatch hpb), fun j => .inl (hright j), fun {j j'} _ hne => ?_⟩
  rw [hright j] at hne
  exact absurd rfl hne

/-- The receiver at the start: it may know of the first file. -/
theorem known_item (f : FirstFile) (alloc : Alloc) (sent : Bool) (j : Slot) :
    Transfer.item (.connected (some f) alloc sent) .right j = .unused ∨
      ∃ k, f.known = some k ∧ j = 0 ∧
        Transfer.item (.connected (some f) alloc sent) .right j = newItem f.fileid k.1 k.2 := by
  have hitem : Transfer.item (.connected (some f) alloc sent) .right j =
      if j = 0 then (f.known.map fun k => newItem f.fileid k.1 k.2).getD .unused else .unused := connected_item ..
  rw [hitem]
  split
  next hj =>
    cases hk : f.known with
    | none => exact .inl rfl
    | some k => exact .inr ⟨k, rfl, hj, rfl⟩
  · exact .inl rfl

theorem startsInStep_some {f : FirstFile} : startsInStep (some f) alloc sent = true ↔ readsBack f.offer = true ∧
    ∀ k, f.known = some k → k.2 = f.info.size ∧ scanOffer (offerCookie f.offer) ≠ none ∧
      (isId alloc && sent) = true := by
  rw [startsInStep, Bool.and_eq_true]
  refine and_congr_right fun _ => ?_
  cases f.known with
  | none => simp
  | some k => simp [Option.isSome_iff_ne_none, and_assoc]

theorem connected_some {f : FirstFile} {r : FileResult Nat}
    (hr : offerItem (connectedTransfer .sender (some (newItem f.fileid f.info.filename f.info.size))) ∅ 0
      (newItem f.fileid f.info.filename f.info.size) (offerCookie f.offer) alloc sent Link.new.next = r) :
    (Transfer.connected (some f) alloc sent).link =
      ((Transfer.connected none alloc sent).stepped .left Link.new.wire (Link.new.next + 1)
        ⟨r.channels, r.sent, [], r.ret⟩ r.ft).link ∧
      (Transfer.connected (some f) alloc sent).ft .left = r.ft := by
  subst hr
  exact ⟨rfl, rfl⟩

/-- The first file is like one that is added. -/
theorem inStep_some {f : FirstFile} (hstart : startsInStep (some f) alloc sent = true)
    (hf : allocFree ∅ alloc = true) : InStep (.connected (some f) alloc sent) := by
  obtain ⟨hreads, hknown⟩ := startsInStep_some.mp hstart
  rw [readsBack_iff] at hreads
  have hbase : InStep (.connected none alloc sent) := inStep_none
  have hleft : ∀ k, (Transfer.item (.connected none alloc sent) .left k) = .unused := connected_unused .sender
  have hdead : ∀ k, ¬ (Transfer.item (.connected none alloc sent) .left k).state ≠ .none := by
    intro k
    rw [hleft k]
    exact not_not.mpr rfl
  have hitems : ∀ k, k ≠ 0 → (connectedTransfer .sender
      (some (newItem f.fileid f.info.filename f.info.size))).files k = .unused := by
    intro k hk
    rw [connected_item, if_neg hk]
  rcases offerItem_cases (connectedTransfer .sender (some (newItem f.fileid f.info.filename f.info.size))) 0
    (newItem f.fileid f.info.filename f.info.size) (offerCookie f.offer) sent Link.new.next hf with
    ⟨c, -, -, hc, hunused, hres⟩ | ⟨hfails, e, hres⟩
  · obtain ⟨hlink, hft⟩ := connected_some hres
    have hsent : ∀ y ∈ [sendPacket .channelOpen .user c 0 (cookiePayload (some (offerCookie f.offer)))
        Link.new.next], y.tag = Link.new.next := tag_of_packet rfl rfl
    have hflight : ∀ p t, (Transfer.connected (some f) alloc sent).inFlight p t = _ := fun p t =>
      congrArg (fun l : Link => l.wire.only (ofIncarnation t) p) hlink
    have hne := chosenId_ne_empty f.info f.drawn
    refine @InStep.offer _ _ 0 c (newItem f.fileid f.info.filename f.info.size) (offerCookie f.offer) hbase
      ⟨?_, rfl, ?_, by rw [hleft]; rfl, fun k hk => absurd hk (hdead k), fun k hk => absurd hk (Fin.not_lt_zero k), hne,
        ?_, ?_, hc, hunused, ?_, ?_, ?_, ?_, ?_, ?_, ?_, hreads, ?_⟩
    · rw [hft]
      rfl
    · rw [hlink]
      exact Nat.lt_succ_self _
    · rw [Transfer.item, hft, ElaFileTransfer.put_self]
    · intro k hk
      rw [Transfer.item, hft, ElaFileTransfer.put_of_ne _ _ hk, hitems k hk, hleft]
    · rw [hlink, stepped_channels_self]
      exact setAt_insert _ _ _
    · intro p t ht
      rw [hflight]
      exact Arrived.call.inFlight_other hsent ht p
    · rw [hflight]
      exact inFlight_sent hsent (hbase.none_inFlight .left)
    · rw [hflight]
      exact hbase.none_inFlight .right
    · rw [hlink, stepped_channels_other (by decide)]
    · intro j
      rcases known_item f alloc sent j with hj | ⟨k, -, -, hj⟩
      · exact .inl (hj.trans (connected_unused .receiver j).symm)
      · refine .inr ⟨connected_unused .receiver j, ?_⟩
        rw [hj]
        rfl
    · intro j j' hj hne'
      have hfirst : ∀ k, (Transfer.item (.connected (some f) alloc sent) .right k).fileid ≠ .empty → k = 0 := by
        intro k hk
        rcases known_item f alloc sent k with hunused | ⟨-, -, hzero, -⟩
        · rw [hunused] at hk
          exact absurd rfl hk
        · exact hzero
      exact (hfirst j hne').trans (hfirst j' (hj ▸ hne')).symm
    · cases hk : f.known with
      | none =>
        refine .inl fun j hj => ?_
        rcases known_item f alloc sent j with hunused | ⟨k, hk', -⟩
        · rw [hunused] at hj
          exact hne hj.symm
        · cases hk.symm.trans hk'
      | some k =>
        obtain ⟨hsize, hscans, -⟩ := hknown k hk
        have hitem : Transfer.item (.connected (some f) alloc sent) .right 0 = newItem f.fileid k.1 k.2 := by
          refine (connected_item _ _ 0).trans ?_
          rw [if_pos rfl]
          simp [hk]
        refine .inr ⟨hscans, 0, some (basename k.1), hitem.trans ?_⟩
        rw [newItem, hsize]
        rfl
  · obtain ⟨hlink, hft⟩ := connected_some hres
    have hnone : f.known = none := by
      cases hk : f.known with
      | none => rfl
      | some k =>
        obtain ⟨-, -, hopened⟩ := hknown k hk
        exact absurd (hopened.symm.trans hfails) (by decide)
    refine @InStep.notOffered _ _ 0 f.fileid hbase ⟨?_, ?_, by rw [hleft]; rfl, fun k hk => absurd hk (hdead k), ?_, ?_,
      ?_, ?_, ?_⟩
    · rw [hft]
      rfl
    · rw [hlink]
      exact Nat.le_succ _
    · rw [Transfer.item, hft, ElaFileTransfer.put_self]
      exact ⟨rfl, rfl, rfl⟩
    · intro k hk
      rw [Transfer.item, hft, ElaFileTransfer.put_of_ne _ _ hk, hitems k hk, hleft]
    · simp only [Transfer.connected, hnone, Option.bind_some, Option.bind_none, Option.map_none]
    · rw [hlink]
      exact Function.update_eq_self Peer.left _
    · rw [hlink]
      exact Wires.send_nil _ _

theorem inStep_connected {first : Option FirstFile} (hstart : startsInStep first alloc sent = true)
    (hf : allocFree ∅ alloc = true) : InStep (.connected first alloc sent) := by
  cases first with
  | none => exact inStep_none
  | some f => exact inStep_some hstart hf

/-- In every run whose steps all meet the condition, sender and receiver agree on each file that has no message in
flight. -/
theorem files_agree {first : Option FirstFile} {u : Transfer} {is : List FilesInput} {os : List FilesOutput}
    (hf : allocFree ∅ alloc = true) (hstart : startsInStep first alloc sent = true)
    (h : filesMachine.Run (fun s i => staysInStep s i = true) (.connected first alloc sent) is os u)
    (fileid : CString) : u.Agree fileid :=
  (h.invariant inStep_step (inStep_connected hstart hf)).agree fileid

/-- A file that both peers know of. -/
def sharedFile : FirstFile where
  info := ⟨shortName 97 (by decide), .empty, 5, by decide, by decide⟩
  drawn := 0
  known := some (shortName 97 (by decide), 5)
  valid := by decide

/-- The offer is accepted, the receiver pulls, and the sender sends a block. -/
def blockSent : List FilesInput :=
  [.deliver .right 1 (.id 2) true true, .deliver .left 1 .limitExceeded true true,
    .call .right sharedFile.fileid (.pull 0) true, .deliver .left 1 .limitExceeded true true,
    .call .left sharedFile.fileid (.send [7]) true]

/-- The receiver wants more and pauses. -/
theorem files_agree_paused : ∃ u os, filesMachine.Run (fun s i => staysInStep s i = true)
    (.connected (some sharedFile) (.id 1) true)
    (blockSent ++ [.deliver .right 1 .limitExceeded true true, .call .right sharedFile.fileid .pend true,
      .deliver .left 1 .limitExceeded true true]) os u ∧
    u.fileState .left sharedFile.fileid = .standby ∧ u.Agree sharedFile.fileid := by
  obtain ⟨u, os, he, hp⟩ := filesMachine.exec_any (.connected (some sharedFile) (.id 1) true)
    (blockSent ++ [.deliver .right 1 .limitExceeded true true, .call .right sharedFile.fileid .pend true,
      .deliver .left 1 .limitExceeded true true])
    (fun r => decide (r.1.fileState .left sharedFile.fileid = .standby)) (by decide +kernel)
  have hrun := Machine.run_of_exec (G := fun s i => staysInStep s i = true) (g := staysInStep) (fun _ _ h => h) he
    (by decide +kernel)
  exact ⟨u, os, hrun, of_decide_eq_true hp, files_agree (by decide) (by decide +kernel) hrun _⟩

/-- The receiver has got what it wants. Its item is gone, and nothing tells the sender. -/
theorem file_left_transfering : ¬ ∀ (first : Option FirstFile) (alloc : Alloc) (sent : Bool) (is : List FilesInput)
    (os : List FilesOutput) (u : Transfer), allocFree ∅ alloc = true →
    filesMachine.Run Machine.Free (.connected first alloc sent) is os u → ∀ fileid, u.Agree fileid := by
  intro h
  obtain ⟨u, os, he, hp⟩ := filesMachine.exec_any (.connected (some sharedFile) (.id 1) true)
    (blockSent ++ [.deliver .right 1 .limitExceeded true false])
    (fun r => decide (r.1.link.wire .left = [] ∧ r.1.link.wire .right = [] ∧
      r.1.fileState .left sharedFile.fileid = .transfering ∧ r.1.fileState .right sharedFile.fileid = .none))
    (by decide +kernel)
  obtain ⟨hleft, hright, hsender, hreceiver⟩ := of_decide_eq_true hp
  have hquiet : u.Quiet sharedFile.fileid := by
    intro p q pb hpb
    cases q with
    | left => exact nomatch hleft ▸ hpb
    | right => exact nomatch hright ▸ hpb
  obtain ⟨hnone, -⟩ := h _ _ _ _ os u (by decide) (Machine.free_run_of_exec he) _ hquiet
  rw [hsender, hreceiver] at hnone
  exact hnone.mp (by decide) rfl

end CarrierSdk.FileTransfer
