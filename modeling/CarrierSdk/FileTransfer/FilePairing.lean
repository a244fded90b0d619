import CarrierSdk.FileTransfer.Delivery
import CarrierSdk.FileTransfer.Offers
import CarrierSdk.Library.Replica
import Mathlib.Logic.Equiv.Fin.Basic

/-! How the items of two connected transfers belong together. Each file that the sender works on has a channel of
its own, and the sender's item follows the receiver's by what is in flight on it. -/
namespace CarrierSdk.FileTransfer
open Mux Replica

abbrev Transfer.item (s : Transfer) (p : Peer) (i : Slot) : FileTransferItem := (s.ft p).files i

/-- The packets of an incarnation, oldest first. -/
def Transfer.inFlight (s : Transfer) (p : Peer) (tag : Nat) : List Packet := s.link.wire.only (ofIncarnation tag) p

theorem Transfer.mem_inFlight {s : Transfer} {p : Peer} {tag : Nat} {pb : Packet} :
    pb ∈ s.inFlight p tag ↔ pb ∈ s.link.wire p ∧ pb.tag = tag := by
  simp [inFlight, Wires.only, ofIncarnation]

/-! A slot that changes. -/

namespace ElaFileTransfer
variable (ft : ElaFileTransfer) (i : Slot)

@[simp] theorem put_self (item : FileTransferItem) : (ft.put i item).files i = item := Function.update_self ..

@[simp] theorem put_of_ne {k : Slot} (h : k ≠ i) (item : FileTransferItem) : (ft.put i item).files k = ft.files k :=
  Function.update_of_ne h ..

@[simp] theorem setState_self (state : FileTransferState) :
    (ft.setState i state).files i = { ft.files i with state } := Function.update_self ..

@[simp] theorem setState_of_ne {k : Slot} (h : k ≠ i) (state : FileTransferState) :
    (ft.setState i state).files k = ft.files k := Function.update_of_ne h ..

@[simp] theorem setState_fileid (state : FileTransferState) (k : Slot) :
    ((ft.setState i state).files k).fileid = (ft.files k).fileid := by
  by_cases h : k = i
  · rw [h, setState_self]
  · rw [setState_of_ne ft i h]

end ElaFileTransfer

/-! What the receiver tells the sender. -/

inductive Control
  | confirm
  | pull (offset : UInt64)
  | cancel (status : Int32) (reason : CString)
  | pend
  | resume

/-- The packet to channel c, from channel d. -/
def Control.packet (d c : ChannelId) (tag : Nat) : Control → Packet
  | .confirm => sendPacket .channelOpenConfirmation .user d c [] tag
  | .pull offset => sendPacket .channelData .user d c (pullBytes offset) tag
  | .cancel status reason => sendPacket .channelData .user d c (cancelBytes status reason) tag
  | .pend => sendPacket .channelPending .user d c [] tag
  | .resume => sendPacket .channelResume .user d c [] tag

/-- What becomes of the state of an item and of the status of the sender's channel. Where this is undefined, the
two ends come apart. A cancel packet changes nothing as long as it is in flight. -/
def Control.apply : FileTransferState × ChannelStatus → Control → Option (FileTransferState × ChannelStatus)
  | (.standby, .opening), .confirm => some (.standby, .open)
  | (.standby, .open), .pull _ => some (.transfering, .open)
  | (.standby, .pending), .pull _ => some (.transfering, .pending)
  | (state, .open), .cancel .. => some (state, .open)
  | (state, .pending), .cancel .. => some (state, .pending)
  | (.transfering, .open), .pend => some (.standby, .pending)
  | (.standby, .pending), .resume => some (.transfering, .open)
  | _, _ => none

/-! The two items of a file. -/

section Pairs
variable (s : Transfer)

/-- An item of the sender in use, with its channel. -/
structure Owner (i : Slot) (c : ChannelId) (ch : Channel Nat) : Prop where
  live : (s.item .left i).state ≠ .none
  channel : (s.item .left i).channel = some c
  found : (s.link.channels .left).lookup c = some ch

/-- The receiver has accepted a file in slot j, over its channel d. The controls and the blocks are in flight. -/
structure Accepted (item : FileTransferItem) (c : ChannelId) (ch : Channel Nat) (j : Slot) (d : ChannelId)
    (status : ChannelStatus) (controls : List Control) (blocks : List (List UInt8)) : Prop where
  fileid : (s.item .right j).fileid = item.fileid
  channel : (s.item .right j).channel = some d
  nonzero : d ≠ 0
  found : (s.link.channels .right).lookup d = some ⟨c, .open, ch.tag⟩
  remote : ch.status ≠ .opening → ch.remoteId = d
  opened : status ≠ .opening
  right : s.inFlight .right ch.tag = controls.map (Control.packet d c ch.tag)
  follows : Follows Control.apply (item.state, ch.status) controls ((s.item .right j).state, status)
  left : s.inFlight .left ch.tag = blocks.map fun b => sendPacket .channelData .user c d b ch.tag

/-- How far a file has come that the sender has an item for. -/
inductive FileStage (item : FileTransferItem) (c : ChannelId) (ch : Channel Nat) : Prop
  /-- The offer is under way. -/
  | offered (cookie : CString) (state : item.state = .standby) (status : ch.status = .opening)
      (left : s.inFlight .left ch.tag = [sendPacket .channelOpen .user c 0 (cookiePayload (some cookie)) ch.tag])
      (right : s.inFlight .right ch.tag = [])
      (readsBack : ∀ o, scanOffer cookie = some o → o.fileid = item.fileid ∧ o.filesz = item.filesz)
      (ready : (∀ j, (s.item .right j).fileid ≠ item.fileid) ∨ (scanOffer cookie ≠ none ∧
        ∃ j filename, s.item .right j = ⟨item.fileid, filename, item.filesz, .standby, none⟩))
  /-- The refusal is under way. -/
  | refused (state : item.state = .standby) (status : ch.status = .opening)
      (left : s.inFlight .left ch.tag = [])
      (right : s.inFlight .right ch.tag = [sendPacket .channelOpenConfirmation .user 0 c [] ch.tag])
      (absent : ∀ j, (s.item .right j).fileid ≠ item.fileid)
  /-- The receiver has a channel for the file. -/
  | accepted (j : Slot) (d : ChannelId) (status : ChannelStatus) (controls : List Control) (blocks : List (List UInt8))
      (h : Accepted s item c ch j d status controls blocks)

/-- Both ends keep the files apart, and each file of the sender is at some stage. -/
structure InStep : Prop where
  sender : (s.ft .left).senderReceiver = .sender
  receiver : (s.ft .right).senderReceiver = .receiver
  live : ∀ i, (s.item .left i).state ≠ .none → ∃ c ch, Owner s i c ch
  owner : ∀ {i c ch}, Owner s i c ch → c ≠ 0 ∧ ch.tag < s.link.next ∧ (s.item .left i).fileid ≠ .empty ∧
    FileStage s (s.item .left i) c ch
  first : ∀ {i j}, (s.item .left i).state ≠ .none → j < i → (s.item .left j).fileid ≠ (s.item .left i).fileid ∧
    (s.item .left j).channel ≠ (s.item .left i).channel
  tags : ∀ {i i' c c' ch ch'}, Owner s i c ch → Owner s i' c' ch' → ch.tag = ch'.tag → i = i'
  owned : ∀ {p pb}, pb ∈ s.link.wire p → ∃ i c ch, Owner s i c ch ∧ ch.tag = pb.tag
  known : ∀ j, s.item .right j = .unused ∨
    ∃ i, (s.item .left i).state ≠ .none ∧ (s.item .left i).fileid = (s.item .right j).fileid
  distinct : ∀ {j j'}, (s.item .right j).fileid = (s.item .right j').fileid →
    (s.item .right j).fileid ≠ .empty → j = j'

end Pairs

variable {s s' : Transfer} {i i' j : Slot} {c c' d : ChannelId} {ch ch' : Channel Nat} {p : Peer} {t : Nat}
  {f : CString} {item : FileTransferItem}

theorem Owner.unique (h : Owner s i c ch) (h' : Owner s i c' ch') : c = c' ∧ ch = ch' := by
  obtain rfl : c = c' := Option.some.inj (h.channel.symm.trans h'.channel)
  exact ⟨rfl, Option.some.inj (h.found.symm.trans h'.found)⟩

/-- Files of different items of the sender have different ids, channels and incarnations. -/
theorem InStep.apart (h : InStep s) (ho : Owner s i c ch) (ho' : Owner s i' c' ch') (hne : i' ≠ i) :
    (s.item .left i').fileid ≠ (s.item .left i).fileid ∧ c' ≠ c ∧ ch'.tag ≠ ch.tag := by
  have hkeys : (s.item .left i').fileid ≠ (s.item .left i).fileid ∧
      (s.item .left i').channel ≠ (s.item .left i).channel := by
    rcases lt_or_gt_of_ne hne with hlt | hlt
    · exact h.first ho.live hlt
    · exact ⟨(h.first ho'.live hlt).1.symm, (h.first ho'.live hlt).2.symm⟩
  refine ⟨hkeys.1, fun hc => hkeys.2 ?_, fun ht => hne (h.tags ho' ho ht)⟩
  rw [ho.channel, ho'.channel, hc]

/-- The next incarnation has no packets yet. -/
theorem InStep.none_inFlight (h : InStep s) (p : Peer) : s.inFlight p s.link.next = [] := by
  rw [List.eq_nil_iff_forall_not_mem]
  intro pb hpb
  obtain ⟨hmem, htag⟩ := Transfer.mem_inFlight.mp hpb
  obtain ⟨i, c, ch, ho, ht⟩ := h.owned hmem
  exact (h.owner ho).2.1.ne (ht.trans htag)

/-! Which item a search finds. -/

theorem find_slot {q : Slot → Bool} : ElaFileTransfer.slots.find? q = some i ↔ q i = true ∧ ∀ j < i, q j = false := by
  rw [ElaFileTransfer.slots, ← Fin.find?_eq_find?_finRange, Fin.find?_eq_some_iff]

theorem InStep.senderFile (h : InStep s) (ho : Owner s i c ch) :
    (s.ft .left).getFileinfoFileid (s.item .left i).fileid = some i :=
  find_slot.mpr ⟨decide_eq_true rfl, fun _ hj => decide_eq_false (h.first ho.live hj).1⟩

theorem InStep.senderChannel (h : InStep s) (ho : Owner s i c ch) : (s.ft .left).getFileinfoChannel c = some i :=
  find_slot.mpr ⟨decide_eq_true ho.channel, fun _ hj =>
    decide_eq_false fun he => (h.first ho.live hj).2 (he.trans ho.channel.symm)⟩

theorem InStep.receiverFile (h : InStep s) (hne : (s.item .right j).fileid ≠ .empty) :
    (s.ft .right).getFileinfoFileid (s.item .right j).fileid = some j :=
  find_slot.mpr ⟨decide_eq_true rfl, fun _ hk => decide_eq_false fun he => hk.ne (h.distinct he (he ▸ hne))⟩

/-- A slot of the receiver that is in use has a file of the sender: one that it only knows of, or one that it has
accepted. -/
theorem InStep.receiverStage (h : InStep s) (hused : s.item .right j ≠ .unused) :
    ∃ i c ch, Owner s i c ch ∧ ((s.item .right j).state = .standby ∧ (s.item .right j).channel = none ∨
      ∃ d status controls blocks, Accepted s (s.item .left i) c ch j d status controls blocks) := by
  obtain ⟨i, hlive, hfile⟩ := (h.known j).resolve_left hused
  obtain ⟨c, ch, ho⟩ := h.live i hlive
  obtain ⟨-, -, hne, hstage⟩ := h.owner ho
  have hsame : ∀ {k}, (s.item .right k).fileid = (s.item .left i).fileid → k = j := fun hk =>
    h.distinct (hk.trans hfile) (hk ▸ hne)
  refine ⟨i, c, ch, ho, ?_⟩
  cases hstage with
  | offered cookie state status left right readsBack ready =>
    rcases ready with habsent | ⟨-, k, filename, hk⟩
    · exact absurd hfile.symm (habsent j)
    · obtain rfl := hsame (k := k) (by rw [hk])
      rw [hk]
      exact .inl ⟨rfl, rfl⟩
  | refused state status left right absent => exact absurd hfile.symm (absent j)
  | accepted k d status controls blocks ha =>
    obtain rfl := hsame ha.fileid
    exact .inr ⟨d, status, controls, blocks, ha⟩

/-- The receiver's item with a channel is one that the sender works on. -/
theorem InStep.receiverLive (h : InStep s) (hused : s.item .right j ≠ .unused)
    (hchannel : (s.item .right j).channel = some d) : ∃ i c ch status controls blocks,
      Owner s i c ch ∧ Accepted s (s.item .left i) c ch j d status controls blocks := by
  obtain ⟨i, c, ch, ho, ⟨-, hnone⟩ | ⟨x, status, controls, blocks, ha⟩⟩ := h.receiverStage hused
  · exact nomatch hnone.symm.trans hchannel
  · obtain rfl : x = d := Option.some.inj (ha.channel.symm.trans hchannel)
    exact ⟨i, c, ch, status, controls, blocks, ho, ha⟩

theorem InStep.receiverChannel (h : InStep s) (ho : Owner s i c ch) {status : ChannelStatus} {controls : List Control}
    {blocks : List (List UInt8)} (ha : Accepted s (s.item .left i) c ch j d status controls blocks) :
    (s.ft .right).getFileinfoChannel d = some j := by
  refine find_slot.mpr ⟨decide_eq_true ha.channel, fun k hk => decide_eq_false fun hd => ?_⟩
  change (s.item .right k).channel = some d at hd
  have hused : s.item .right k ≠ .unused := by
    intro hunused
    rw [hunused] at hd
    exact ha.nonzero (Option.some.inj hd).symm
  obtain ⟨i', c', ch', _, _, _, ho', ha'⟩ := h.receiverLive hused hd
  have htag : ch'.tag = ch.tag := (Channel.mk.inj (Option.some.inj (ha'.found.symm.trans ha.found))).2.2
  obtain rfl := h.tags ho' ho htag
  exact hk.ne (h.distinct (ha'.fileid.trans ha.fileid.symm) (ha'.fileid ▸ (h.owner ho).2.2.1))

/-! One file changes at a time. -/

/-- The step is about slot i of the sender, channel c, incarnation t and file id f only. -/
structure OnlyFile (s s' : Transfer) (i : Slot) (c : ChannelId) (t : Nat) (f : CString) : Prop where
  sender : (s'.ft .left).senderReceiver = (s.ft .left).senderReceiver
  receiver : (s'.ft .right).senderReceiver = (s.ft .right).senderReceiver
  next : s.link.next ≤ s'.link.next
  items : ∀ i' ≠ i, s'.item .left i' = s.item .left i'
  table : ∀ x ≠ c, (s'.link.channels .left).lookup x = (s.link.channels .left).lookup x
  wires : ∀ p, ∀ t' ≠ t, s'.inFlight p t' = s.inFlight p t'
  received : ∀ j, s'.item .right j = s.item .right j ∨
    ((s.item .right j).fileid = f ∨ s.item .right j = .unused) ∧ (s'.item .right j).fileid = f
  channels : ∀ d ch, ch.tag ≠ t → (s.link.channels .right).lookup d = some ch →
    (s'.link.channels .right).lookup d = some ch
  self : ∀ {c' ch}, Owner s i c' ch → ch.tag = t ∧ (s.item .left i).fileid = f
  foreign : ∀ {i' c' ch}, i' ≠ i → Owner s i' c' ch → c' ≠ c ∧ ch.tag ≠ t ∧ (s.item .left i').fileid ≠ f

/-- The receiver's item of another file stays. -/
theorem OnlyFile.receivedOther (ho : OnlyFile s s' i c t f) (hf : item.fileid ≠ f) (hne : item.fileid ≠ .empty)
    (hj : (s.item .right j).fileid = item.fileid ∨ (s'.item .right j).fileid = item.fileid) :
    s'.item .right j = s.item .right j := by
  rcases ho.received j with hsame | ⟨hold, hnew⟩
  · exact hsame
  exfalso
  rcases hj with hj | hj
  · rcases hold with hold | hold
    · exact hf (hj.symm.trans hold)
    · rw [hold] at hj
      exact hne hj.symm
  · exact hf (hj.symm.trans hnew)

theorem FileStage.frame (h : FileStage s item c' ch) (ho : OnlyFile s s' i c t f) (ht : ch.tag ≠ t)
    (hf : item.fileid ≠ f) (hne : item.fileid ≠ .empty) : FileStage s' item c' ch := by
  have habsent : (∀ j, (s.item .right j).fileid ≠ item.fileid) → ∀ j, (s'.item .right j).fileid ≠ item.fileid := by
    intro ha j hj
    rw [ho.receivedOther hf hne (.inr hj)] at hj
    exact ha j hj
  cases h with
  | offered cookie state status left right readsBack ready =>
    refine .offered cookie state status ((ho.wires _ _ ht).trans left) ((ho.wires _ _ ht).trans right) readsBack ?_
    refine ready.imp habsent fun hr => ⟨hr.1, ?_⟩
    obtain ⟨-, j, filename, hj⟩ := hr
    exact ⟨j, filename, (ho.receivedOther hf hne (.inl (by rw [hj]))).trans hj⟩
  | refused state status left right absent =>
    exact .refused state status ((ho.wires _ _ ht).trans left) ((ho.wires _ _ ht).trans right) (habsent absent)
  | accepted j d status controls blocks h =>
    have hj := ho.receivedOther hf hne (.inl h.fileid)
    exact .accepted j d status controls blocks ⟨hj ▸ h.fileid, hj ▸ h.channel, h.nonzero, ho.channels d _ ht h.found,
      h.remote, h.opened, (ho.wires _ _ ht).trans h.right, hj ▸ h.follows, (ho.wires _ _ ht).trans h.left⟩

theorem OnlyFile.owner_iff (ho : OnlyFile s s' i c t f) (h : InStep s) (hne : i' ≠ i) :
    Owner s' i' c' ch ↔ Owner s i' c' ch := by
  constructor
  · rintro ⟨hlive, hchannel, hfound⟩
    rw [ho.items i' hne] at hlive hchannel
    obtain ⟨x, y, hx⟩ := h.live i' hlive
    obtain rfl : x = c' := Option.some.inj (hx.channel.symm.trans hchannel)
    rw [ho.table x (ho.foreign hne hx).1] at hfound
    exact ⟨hlive, hchannel, hfound⟩
  · intro hx
    refine ⟨?_, ?_, (ho.table c' (ho.foreign hne hx).1).trans hx.found⟩
    · rw [ho.items i' hne]
      exact hx.live
    · rw [ho.items i' hne]
      exact hx.channel

/-- What has to be checked of the one file. -/
theorem InStep.rebuild (h : InStep s) (ho : OnlyFile s s' i c t f)
    (hslot : (s'.item .left i).state ≠ .none → (∃ ch, Owner s' i c ch ∧ ch.tag = t ∧
      FileStage s' (s'.item .left i) c ch) ∧ c ≠ 0 ∧ t < s'.link.next ∧ (s'.item .left i).fileid = f ∧ f ≠ .empty)
    (hdead : (s'.item .left i).state = .none → ∀ p, s'.inFlight p t = [])
    (hafter : (s'.item .left i).state ≠ .none → ∀ j < i, (s.item .left j).fileid ≠ (s'.item .left i).fileid ∧
      (s.item .left j).channel ≠ (s'.item .left i).channel)
    (hbefore : ∀ i', i < i' → (s.item .left i').state ≠ .none →
      (s'.item .left i).fileid ≠ (s.item .left i').fileid ∧ (s'.item .left i).channel ≠ (s.item .left i').channel)
    (hknown : ∀ j, (s'.item .right j).fileid = f → s'.item .right j ≠ .unused → (s'.item .left i).state ≠ .none)
    (hdistinct : ∀ {j j'}, (s'.item .right j).fileid = (s'.item .right j').fileid →
      (s'.item .right j).fileid ≠ .empty → j = j') : InStep s' where
  sender := ho.sender.trans h.sender
  receiver := ho.receiver.trans h.receiver
  live k hk := by
    by_cases hki : k = i
    · subst hki
      obtain ⟨⟨ch, hown, -⟩, -⟩ := hslot hk
      exact ⟨c, ch, hown⟩
    · rw [ho.items k hki] at hk
      obtain ⟨x, y, hx⟩ := h.live k hk
      exact ⟨x, y, (ho.owner_iff h hki).mpr hx⟩
  owner {k x y} hown := by
    by_cases hki : k = i
    · subst hki
      obtain ⟨⟨ch, hown', htag, hstage⟩, hc, hnext, hf, hne⟩ := hslot hown.live
      obtain ⟨rfl, rfl⟩ := hown.unique hown'
      exact ⟨hc, htag ▸ hnext, hf ▸ hne, hstage⟩
    · have hold := (ho.owner_iff h hki).mp hown
      obtain ⟨hc, hnext, hne, hstage⟩ := h.owner hold
      obtain ⟨-, htag, hf⟩ := ho.foreign hki hold
      rw [ho.items k hki]
      exact ⟨hc, hnext.trans_le ho.next, hne, hstage.frame ho htag hf hne⟩
  first {k l} hk hlk := by
    by_cases hki : k = i
    · subst hki
      rw [ho.items l hlk.ne]
      exact hafter hk l hlk
    · rw [ho.items k hki] at hk ⊢
      by_cases hli : l = i
      · subst hli
        exact hbefore k hlk hk
      · rw [ho.items l hli]
        exact h.first hk hlk
  tags {k k' x x' y y'} hk hk' htag := by
    by_contra hkk
    -- Only one of the two can be the item of the step, and its tag is not that of another.
    by_cases hki : k = i
    · subst hki
      obtain ⟨⟨ch, hown, hch, -⟩, -⟩ := hslot hk.live
      obtain ⟨rfl, rfl⟩ := hk.unique hown
      have hne : k' ≠ k := fun he => hkk he.symm
      exact (ho.foreign hne ((ho.owner_iff h hne).mp hk')).2.1 (htag.symm.trans hch)
    · have hold := (ho.owner_iff h hki).mp hk
      by_cases hki' : k' = i
      · subst hki'
        obtain ⟨⟨ch, hown, hch, -⟩, -⟩ := hslot hk'.live
        obtain ⟨rfl, rfl⟩ := hk'.unique hown
        exact (ho.foreign hki hold).2.1 (htag.trans hch)
      · exact hkk (h.tags hold ((ho.owner_iff h hki').mp hk') htag)
  owned {p pb} hpb := by
    have hflight : pb ∈ s'.inFlight p pb.tag := Transfer.mem_inFlight.mpr ⟨hpb, rfl⟩
    by_cases ht : pb.tag = t
    · rw [ht] at hflight
      by_cases hlive : (s'.item .left i).state = .none
      · rw [hdead hlive p] at hflight
        cases hflight
      · obtain ⟨⟨ch, hown, hch, -⟩, -⟩ := hslot hlive
        exact ⟨i, c, ch, hown, hch.trans ht.symm⟩
    · rw [ho.wires p _ ht] at hflight
      obtain ⟨k, x, y, hown, hy⟩ := h.owned (Transfer.mem_inFlight.mp hflight).1
      have hki : k ≠ i := by
        rintro rfl
        exact ht (hy.symm.trans (ho.self hown).1)
      exact ⟨k, x, y, (ho.owner_iff h hki).mpr hown, hy⟩
  known j := by
    by_cases hused : s'.item .right j = .unused
    · exact .inl hused
    have hmine : (s'.item .right j).fileid = f → ∃ i, (s'.item .left i).state ≠ .none ∧
        (s'.item .left i).fileid = (s'.item .right j).fileid := by
      intro hf
      have hlive := hknown j hf hused
      exact ⟨i, hlive, (hslot hlive).2.2.2.1.trans hf.symm⟩
    rcases ho.received j with hsame | ⟨-, hnew⟩
    · rw [hsame] at hused hmine ⊢
      obtain ⟨k, hk, hfile⟩ := (h.known j).resolve_left hused
      by_cases hki : k = i
      · subst hki
        obtain ⟨x, y, hx⟩ := h.live k hk
        exact .inr (hmine (hfile.symm.trans (ho.self hx).2))
      · exact .inr ⟨k, by rwa [ho.items k hki], by rw [ho.items k hki, hfile]⟩
    · exact .inr (hmine hnew)
  distinct := hdistinct

/-- A file stays with its slot and its channel. -/
theorem InStep.changed (h : InStep s) (hown : Owner s i c ch) (hown' : Owner s' i c ch') (htag : ch'.tag = ch.tag)
    (hfile : (s'.item .left i).fileid = (s.item .left i).fileid)
    (ho : OnlyFile s s' i c ch.tag (s.item .left i).fileid) (hstage : FileStage s' (s'.item .left i) c ch')
    (hdistinct : ∀ {j j'}, (s'.item .right j).fileid = (s'.item .right j').fileid →
      (s'.item .right j).fileid ≠ .empty → j = j') : InStep s' := by
  obtain ⟨hc, hnext, hne, -⟩ := h.owner hown
  have hchannel : (s'.item .left i).channel = (s.item .left i).channel := hown'.channel.trans hown.channel.symm
  refine h.rebuild ho (fun _ => ⟨⟨ch', hown', htag, hstage⟩, hc, hnext.trans_le ho.next, hfile, hne⟩)
    (fun hdead => absurd hdead hown'.live) ?_ ?_ (fun _ _ _ => hown'.live) hdistinct
  · intro _ j hj
    rw [hfile, hchannel]
    exact h.first hown.live hj
  · intro k hk hlive
    rw [hfile, hchannel]
    exact h.first hlive hk

/-! The transfers after a step of one peer. -/

section Steps
variable {w : Wires Packet} {next : Nat} {r : MuxResult Nat} {ft : ElaFileTransfer}

/-- One peer has made a step. -/
def Transfer.stepped (s : Transfer) (p : Peer) (w : Wires Packet) (next : Nat) (r : MuxResult Nat)
    (ft : ElaFileTransfer) : Transfer := ⟨s.link.after p w next r, Function.update s.ft p ft⟩

@[simp] theorem stepped_ft_self : (s.stepped p w next r ft).ft p = ft := Function.update_self ..

@[simp] theorem stepped_ft_other {q : Peer} (h : q ≠ p) : (s.stepped p w next r ft).ft q = s.ft q :=
  Function.update_of_ne h ..

theorem stepped_item_self (i : Slot) : (s.stepped p w next r ft).item p i = ft.files i := by
  rw [Transfer.item, stepped_ft_self]

theorem stepped_item_other {q : Peer} (h : q ≠ p) (i : Slot) : (s.stepped p w next r ft).item q i = s.item q i := by
  rw [Transfer.item, stepped_ft_other h]

@[simp] theorem stepped_channels_self : (s.stepped p w next r ft).link.channels p = r.channels :=
  Function.update_self ..

@[simp] theorem stepped_channels_other {q : Peer} (h : q ≠ p) :
    (s.stepped p w next r ft).link.channels q = s.link.channels q := Function.update_of_ne h ..

theorem stepped_inFlight (q : Peer) (t : Nat) : (s.stepped p w next r ft).inFlight q t =
    (w.only (ofIncarnation t)).send p (r.sent.filter (ofIncarnation t)) q :=
  congrFun (Wires.only_send w p r.sent (ofIncarnation t)) q

theorem stepped_inFlight_other {q : Peer} (h : q ≠ p) (t : Nat) :
    (s.stepped p w next r ft).inFlight q t = w.only (ofIncarnation t) q := by
  rw [stepped_inFlight, Wires.send_of_ne _ _ h]

theorem tag_of_packet {l : List Packet} {y : Packet} (h : l = [y]) (ht : y.tag = t) : ∀ z ∈ l, z.tag = t := by
  intro z hz
  rw [h, List.mem_singleton] at hz
  rw [hz, ht]

/-- The wires before a step and after the packet that it begins with has arrived. -/
inductive Arrived (s : Transfer) (p : Peer) (t : Nat) : Wires Packet → Prop
  | call : Arrived s p t s.link.wire
  | deliver : Arrived s p t (s.link.wire.takenFirst p.other (ofIncarnation t))

theorem Arrived.inFlight_other (hw : Arrived s p t w) (hsent : ∀ y ∈ r.sent, y.tag = t) {t' : Nat} (ht : t' ≠ t)
    (q : Peer) : (s.stepped p w next r ft).inFlight q t' = s.inFlight q t' := by
  have hnone : r.sent.filter (ofIncarnation t') = [] := by
    rw [List.filter_eq_nil_iff]
    intro y hy
    simp [ofIncarnation, hsent y hy, ht.symm]
  have hkept : w.only (ofIncarnation t') = s.link.wire.only (ofIncarnation t') := by
    cases hw with
    | call => rfl
    | deliver =>
      refine Wires.only_takenFirst_of_disjoint _ _ fun m hm => ?_
      simp only [ofIncarnation, decide_eq_true_eq, decide_eq_false_iff_not] at hm ⊢
      exact fun h => ht (h.symm.trans hm)
  rw [stepped_inFlight, hnone, Wires.send_nil, hkept, Transfer.inFlight]

theorem inFlight_sent (hsent : ∀ y ∈ r.sent, y.tag = t) {l : List Packet} (hl : w.only (ofIncarnation t) p = l) :
    (s.stepped p w next r ft).inFlight p t = l ++ r.sent := by
  have hall : r.sent.filter (ofIncarnation t) = r.sent := by
    rw [List.filter_eq_self]
    intro y hy
    simp [ofIncarnation, hsent y hy]
  rw [stepped_inFlight, hall, Wires.send_self, hl]

/-- The sender's steps on the channel of an item are about its file only. -/
theorem OnlyFile.senderStep (h : InStep s) (hown : Owner s i c ch) {item : FileTransferItem}
    (hft : ft = (s.ft .left).put i item) {o : Option (Channel Nat)}
    (htable : SetAt (s.link.channels .left) r.channels c o) (hw : Arrived s .left ch.tag w)
    (hsent : ∀ y ∈ r.sent, y.tag = ch.tag) :
    OnlyFile s (s.stepped .left w s.link.next r ft) i c ch.tag (s.item .left i).fileid := by
  refine ⟨?_, ?_, le_rfl, ?_, ?_, ?_, fun j => .inl (stepped_item_other (by decide) j), ?_, ?_, ?_⟩
  · rw [stepped_ft_self, hft]
    rfl
  · rw [stepped_ft_other (by decide)]
  · intro k hk
    rw [stepped_item_self, hft, ElaFileTransfer.put_of_ne _ _ hk]
  · intro y hy
    rw [stepped_channels_self, htable y, if_neg hy]
  · exact fun q t' ht => hw.inFlight_other hsent ht q
  · intro d y _ hy
    rwa [stepped_channels_other (by decide)]
  · intro x y hxy
    obtain ⟨rfl, rfl⟩ := hown.unique hxy
    exact ⟨rfl, rfl⟩
  · intro k x y hk hxy
    obtain ⟨h1, h2, h3⟩ := h.apart hown hxy hk
    exact ⟨h2, h3, h1⟩

/-- The receiver's items stay apart where nothing happens to them. -/
theorem InStep.distinct_of_same (h : InStep s) (hright : ∀ j, s'.item .right j = s.item .right j) {j j' : Slot}
    (hj : (s'.item .right j).fileid = (s'.item .right j').fileid) (hne : (s'.item .right j).fileid ≠ .empty) :
    j = j' := by
  rw [hright, hright] at hj
  rw [hright] at hne
  exact h.distinct hj hne

/-- The sender has made a step on the channel of an item. -/
theorem InStep.senderStep (h : InStep s) (hown : Owner s i c ch) {x : FileTransferState} (hx : x ≠ .none)
    (hft : ft = (s.ft .left).setState i x) (htag : ch'.tag = ch.tag)
    (htable : SetAt (s.link.channels .left) r.channels c (some ch')) (hw : Arrived s .left ch.tag w)
    (hsent : ∀ y ∈ r.sent, y.tag = ch.tag)
    (hstage : FileStage (s.stepped .left w s.link.next r ft) { s.item .left i with state := x } c ch') :
    InStep (s.stepped .left w s.link.next r ft) := by
  have hitem : (s.stepped .left w s.link.next r ft).item .left i = { s.item .left i with state := x } := by
    rw [stepped_item_self, hft, ElaFileTransfer.setState_self]
  refine h.changed hown ⟨?_, ?_, ?_⟩ htag (by rw [hitem]) (.senderStep h hown hft htable hw hsent) (by rwa [hitem])
    (h.distinct_of_same (stepped_item_other (by decide)))
  · rwa [hitem]
  · rw [hitem]
    exact hown.channel
  · rw [stepped_channels_self, htable c, if_pos rfl]

/-- The receiver has made a step on the channel of an item. -/
theorem InStep.receiverStep (h : InStep s) (hown : Owner s i c ch)
    (hft : ft.senderReceiver = (s.ft .right).senderReceiver)
    (hreceived : ∀ j, ft.files j = s.item .right j ∨
      ((s.item .right j).fileid = (s.item .left i).fileid ∨ s.item .right j = .unused) ∧
        (ft.files j).fileid = (s.item .left i).fileid)
    (hdistinct : ∀ {j j'}, (ft.files j).fileid = (ft.files j').fileid → (ft.files j).fileid ≠ .empty → j = j')
    (htable : ∀ d y, y.tag ≠ ch.tag → (s.link.channels .right).lookup d = some y → r.channels.lookup d = some y)
    (hw : Arrived s .right ch.tag w) (hsent : ∀ y ∈ r.sent, y.tag = ch.tag)
    (hstage : FileStage (s.stepped .right w s.link.next r ft) (s.item .left i) c ch) :
    InStep (s.stepped .right w s.link.next r ft) := by
  have hleft : ∀ k, (s.stepped .right w s.link.next r ft).item .left k = s.item .left k :=
    stepped_item_other (by decide)
  refine h.changed hown ⟨?_, ?_, ?_⟩ rfl (by rw [hleft]) ?_ (by rwa [hleft]) ?_
  · rw [hleft]
    exact hown.live
  · rw [hleft]
    exact hown.channel
  · rw [stepped_channels_other (by decide)]
    exact hown.found
  · refine ⟨?_, ?_, le_rfl, fun k _ => hleft k, ?_, ?_, ?_, ?_, ?_, ?_⟩
    · rw [stepped_ft_other (by decide)]
    · rw [stepped_ft_self, hft]
    · intro y _
      rw [stepped_channels_other (by decide)]
    · exact fun q t' ht => hw.inFlight_other hsent ht q
    · intro j
      rw [stepped_item_self]
      exact hreceived j
    · intro d y hy hd
      rw [stepped_channels_self]
      exact htable d y hy hd
    · intro x y hxy
      obtain ⟨rfl, rfl⟩ := hown.unique hxy
      exact ⟨rfl, rfl⟩
    · intro k x y hk hxy
      obtain ⟨h1, h2, h3⟩ := h.apart hown hxy hk
      exact ⟨h2, h3, h1⟩
  · intro j j' hj hne
    rw [stepped_item_self, stepped_item_self] at hj
    rw [stepped_item_self] at hne
    exact hdistinct hj hne

variable {status status' : ChannelStatus} {controls controls' : List Control} {blocks blocks' : List (List UInt8)}

theorem Accepted.afterSender (h : Accepted s item c ch j d status controls blocks) {item' : FileTransferItem}
    (hfile : item'.fileid = item.fileid) (htag : ch'.tag = ch.tag) (hremote : ch'.status ≠ .opening → ch'.remoteId = d)
    (hright : w.only (ofIncarnation ch.tag) .right = controls'.map (Control.packet d c ch.tag))
    (hfollows : Follows Control.apply (item'.state, ch'.status) controls' ((s.item .right j).state, status))
    (hsent : ∀ y ∈ r.sent, y.tag = ch.tag) (hleft : w.only (ofIncarnation ch.tag) .left ++ r.sent =
      blocks'.map fun b => sendPacket .channelData .user c d b ch.tag) :
    Accepted (s.stepped .left w next r ft) item' c ch' j d status controls' blocks' := by
  have hitem : (s.stepped .left w next r ft).item .right j = s.item .right j := stepped_item_other (by decide) j
  refine ⟨?_, ?_, h.nonzero, ?_, hremote, h.opened, ?_, ?_, ?_⟩
  · rw [hitem, h.fileid, hfile]
  · rw [hitem, h.channel]
  · rw [stepped_channels_other (by decide), h.found, htag]
  · rw [stepped_inFlight_other (by decide), htag, hright]
  · rwa [hitem]
  · rw [htag, inFlight_sent hsent rfl, hleft]

theorem Accepted.afterReceiver (hfile : (ft.files j).fileid = item.fileid) (hchannel : (ft.files j).channel = some d)
    (hd : d ≠ 0) (hfound : r.channels.lookup d = some ⟨c, .open, ch.tag⟩)
    (hremote : ch.status ≠ .opening → ch.remoteId = d) (hopened : status ≠ .opening)
    (hsent : ∀ y ∈ r.sent, y.tag = ch.tag)
    (hright : w.only (ofIncarnation ch.tag) .right ++ r.sent = controls.map (Control.packet d c ch.tag))
    (hfollows : Follows Control.apply (item.state, ch.status) controls ((ft.files j).state, status))
    (hleft : w.only (ofIncarnation ch.tag) .left = blocks.map fun b => sendPacket .channelData .user c d b ch.tag) :
    Accepted (s.stepped .right w next r ft) item c ch j d status controls blocks := by
  have hitem : (s.stepped .right w next r ft).item .right j = ft.files j := stepped_item_self j
  refine ⟨hitem ▸ hfile, hitem ▸ hchannel, hd, ?_, hremote, hopened, ?_, hitem ▸ hfollows, ?_⟩
  · rw [stepped_channels_self, hfound]
  · rw [inFlight_sent hsent rfl, hright]
  · rw [stepped_inFlight_other (by decide), hleft]

end Steps

end CarrierSdk.FileTransfer
