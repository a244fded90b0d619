import CarrierSdk.FileTransfer.FileIds

/-! A transfer and the channels that the multiplexer has open for it. Slots whose file has ended keep the number of
their channel, and the multiplexer gives numbers out again. -/
namespace CarrierSdk.FileTransfer
open Mux

/-- A transfer over a stream with its channels. -/
structure StreamTransfer where
  ft : ElaFileTransfer
  channels : Channels Nat

inductive StreamCall
  | add (info : FileInfo) (drawn : PublicKey) (alloc : Alloc) (sent : Bool)
  | op (fileid : CString) (op : FileCall) (sent : Bool)

inductive StreamInput
  | connect (role : Role)
  | reported (state : FileTransferConnection)
  | connected (calls : List StreamCall) (alloc : Alloc) (sent : Bool)
  | call (call : StreamCall)
  | channelOpen (c remoteId : ChannelId) (cookie : Option CString)
  | channelChanged (c : ChannelId) (ch : Channel Nat)
  | event (e : MuxEvent) (more : Bool)

namespace StreamTransfer

def after (r : FileResult Nat) : StreamTransfer := ⟨r.ft, r.channels⟩

def call (s : StreamTransfer) : StreamCall → Option StreamTransfer
  | .add info drawn alloc sent =>
    if allocFree s.channels alloc then some (after (elaFiletransferAdd s.ft s.channels info drawn alloc sent 0)) else none
  | .op fileid op sent => some (after (fileCall s.ft s.channels fileid sent op))

/-- The end of sender_state_changed on a connected stream. -/
def openFirst (s : StreamTransfer) (alloc : Alloc) (sent : Bool) : Option StreamTransfer :=
  let first := s.ft.files 0
  if s.ft.senderReceiver ≠ .sender then some s
  else if first.state ≠ .standby then some s
  else if allocFree s.channels alloc then
    some (after (offerItem s.ft s.channels 0 first ((senderCookie first).getD .empty) alloc sent 0))
  else none

/-- The peer opens a channel. The multiplexer drops it again where the callback refuses it. -/
def channelOpen (s : StreamTransfer) (c remoteId : ChannelId) (cookie : Option CString) : StreamTransfer :=
  let r := streamChannelOpen s.ft c cookie
  ⟨r.1, if r.2 then s.channels.insert c ⟨remoteId, .opening, 0⟩ else s.channels⟩

end StreamTransfer

/-- The channel that a callback is about. Data of the stream itself have none. -/
def eventChannel : MuxEvent → ChannelId
  | .channelOpen c _ | .channelOpened c | .channelClose c _ | .channelData c _ | .channelPending c
  | .channelResume c => c
  | .streamData _ => 0

/-- A channel is in the table until its close callback has returned. Confirmations, pauses and resumptions change it
there. -/
def streamStep (s : StreamTransfer) : StreamInput → Option (StreamTransfer × List FileEvent)
  | .connect role =>
    if s.ft.state = .initialized then some (⟨{ s.ft with senderReceiver := role }, s.channels⟩, []) else none
  | .reported state => if state ≠ .connected then some (⟨{ s.ft with state }, s.channels⟩, []) else none
  | .connected calls alloc sent =>
    if s.ft.state ≠ .connected then
      ((calls.foldlM StreamTransfer.call ⟨{ s.ft with state := .connected }, s.channels⟩).bind fun t =>
        t.openFirst alloc sent).map fun t => (t, [])
    else none
  | .call call => (s.call call).map fun t => (t, [])
  | .channelOpen c remoteId cookie =>
    if allocFree s.channels (.id c) then some (s.channelOpen c remoteId cookie, []) else none
  | .channelChanged c ch =>
    if (s.channels.lookup c).isSome then some (⟨s.ft, s.channels.insert c ch⟩, []) else none
  | .event e more =>
    if (s.channels.lookup (eventChannel e)).isSome then
      let r := handleEvent s.ft more e
      let channels := match e with
        | .channelClose c _ => s.channels.erase c
        | _ => s.channels
      some (⟨r.1, channels⟩, r.2.toList)
    else none

def streamMachine : Machine StreamTransfer StreamInput FileEvent := ⟨streamStep⟩

/-! The property and its condition. -/

/-- The search for an open channel finds the live item that it is open for. -/
def StreamTransfer.FindsChannels (s : StreamTransfer) : Prop :=
  ∀ c i, s.channels.lookup c ≠ none → s.ft.Live i → (s.ft.files i).channel = some c →
    s.ft.getFileinfoChannel c = some i

/-- An item that stands by, and is offered again, does not get the number that an earlier slot still has. -/
def unshadowed (s : StreamTransfer) : StreamInput → Bool
  | .channelOpen c _ cookie =>
    decide (s.ft.senderReceiver ≠ .receiver) || (cookie.bind scanOffer).all fun o =>
      (s.ft.getFileinfoFileid o.fileid).all fun i =>
        decide ((s.ft.files i).state ≠ .standby) || decide ((s.ft.files i).filesz ≠ o.filesz) ||
          decide (∀ j < i, (s.ft.files j).channel ≠ some c)
  | _ => true

/-! The invariant: free slots are used from the front, so a slot with an old number comes after the item that the
number has gone to. -/

variable {s t : StreamTransfer} {ft' : ElaFileTransfer} {channels : Channels Nat} {i : Slot} {c : ChannelId}

structure Unshadowed (s : StreamTransfer) : Prop where
  opened : ∀ i c, s.ft.Live i → (s.ft.files i).channel = some c → c ≠ 0 ∧ s.channels.lookup c ≠ none
  first : ∀ i c, s.ft.Live i → (s.ft.files i).channel = some c → ∀ j < i, (s.ft.files j).channel ≠ some c

theorem Unshadowed.finds (h : Unshadowed s) : s.FindsChannels := fun c i _ hi hc =>
  find_slot.mpr ⟨decide_eq_true hc, fun j hj => decide_eq_false (h.first i c hi hc j hj)⟩

/-- Items change state, and no channel of a live one is closed. -/
theorem Unshadowed.restated (h : Unshadowed s) (hlive : ∀ i, ft'.Live i → s.ft.Live i)
    (hchannel : ∀ i, (ft'.files i).channel = (s.ft.files i).channel)
    (hkept : ∀ i c, ft'.Live i → (s.ft.files i).channel = some c → channels.lookup c ≠ none) :
    Unshadowed ⟨ft', channels⟩ where
  opened i c hi hc := by
    rw [hchannel] at hc
    exact ⟨(h.opened i c (hlive i hi) hc).1, hkept i c hi hc⟩
  first i c hi hc j hj := by
    rw [hchannel] at hc ⊢
    exact h.first i c (hlive i hi) hc j hj

/-- An item gets a new channel, or none. -/
theorem Unshadowed.put (h : Unshadowed s) {item : FileTransferItem}
    (hkept : ∀ c, s.channels.lookup c ≠ none → channels.lookup c ≠ none)
    (hnew : ∀ c, item.channel = some c → c ≠ 0 ∧ s.channels.lookup c = none ∧ channels.lookup c ≠ none ∧
      ∀ j < i, (s.ft.files j).channel ≠ some c) :
    Unshadowed ⟨s.ft.put i item, channels⟩ where
  opened k c hk hc := by
    by_cases hki : k = i
    · rw [hki, put_self] at hc
      obtain ⟨hzero, -, hopen, -⟩ := hnew c hc
      exact ⟨hzero, hopen⟩
    · rw [ElaFileTransfer.Live, put_other hki] at hk
      rw [put_other hki] at hc
      obtain ⟨hzero, hopen⟩ := h.opened k c hk hc
      exact ⟨hzero, hkept c hopen⟩
  first k c hk hc j hj := by
    by_cases hki : k = i
    · subst hki
      rw [put_self] at hc
      rw [put_other hj.ne]
      exact (hnew c hc).2.2.2 j hj
    · rw [ElaFileTransfer.Live, put_other hki] at hk
      rw [put_other hki] at hc
      by_cases hji : j = i
      · rw [hji, put_self]
        exact fun hic => (h.opened k c hk hc).2 (hnew c hic).2.1
      · rw [put_other hji]
        exact h.first k c hk hc j hj

theorem Unshadowed.earlier (h : Unshadowed s) (hused : ∀ j < i, s.ft.Live j) (hc : s.channels.lookup c = none) :
    ∀ j < i, (s.ft.files j).channel ≠ some c := fun j hj hjc => (h.opened j c (hused j hj) hjc).2 hc

theorem kept_insert {ch : Channel Nat} (c' : ChannelId) (h : channels.lookup c' ≠ none) :
    (channels.insert c ch).lookup c' ≠ none := by
  rw [Table.lookup_insert_eq]
  split
  · exact Option.some_ne_none _
  · exact h

theorem found_insert (channels : Channels Nat) (c : ChannelId) (ch : Channel Nat) :
    (channels.insert c ch).lookup c ≠ none := by
  rw [Table.lookup_insert_eq, if_pos rfl]
  exact Option.some_ne_none _

/-! Calls. -/

theorem Unshadowed.offerItem (h : Unshadowed s) {item : FileTransferItem} {cookie : CString} {alloc : Alloc}
    {sent : Bool} (hf : allocFree s.channels alloc = true) (hused : ∀ j < i, s.ft.Live j) :
    Unshadowed (.after (offerItem s.ft s.channels i item cookie alloc sent 0)) := by
  rcases offerItem_cases s.ft i item cookie sent 0 hf with ⟨c, -, -, hzero, hfree, hr⟩ | ⟨-, e, hr⟩
  · rw [hr]
    refine h.put kept_insert fun c' hc' => ?_
    obtain rfl := Option.some.inj hc'
    exact ⟨hzero, hfree, found_insert _ _ _, h.earlier hused hfree⟩
  · rw [hr]
    exact h.put (fun _ => id) fun c hc => by cases hc

theorem put_channel {ft : ElaFileTransfer} (item : FileTransferItem) (h : item.channel = (ft.files i).channel) (j : Slot) :
    ((ft.put i item).files j).channel = (ft.files j).channel := by
  by_cases hji : j = i
  · rw [hji, put_self, h]
  · rw [put_other hji]

theorem setState_channel (ft : ElaFileTransfer) (i : Slot) (state : FileTransferState) (j : Slot) :
    ((ft.setState i state).files j).channel = (ft.files j).channel :=
  put_channel { ft.files i with state } rfl j

theorem put_live {ft : ElaFileTransfer} {item : FileTransferItem} (hi : item.state ≠ .none → ft.Live i) {j : Slot}
    (hj : (ft.put i item).Live j) : ft.Live j := by
  by_cases hji : j = i
  · rw [ElaFileTransfer.Live, hji, put_self] at hj
    exact hji ▸ hi hj
  · rwa [ElaFileTransfer.Live, put_other hji] at hj

theorem Unshadowed.call (h : Unshadowed s) {call : StreamCall} (hcall : s.call call = some t) : Unshadowed t := by
  cases call with
  | add info drawn alloc sent =>
    simp only [StreamTransfer.call] at hcall
    split at hcall
    next hf =>
      obtain rfl := Option.some.inj hcall
      unfold elaFiletransferAdd
      cases hcheck : checkAdd s.ft info with
      | error e => exact h
      | ok i => exact h.offerItem hf (checkAdd_ok hcheck).2.2
    · cases hcall
  | op fileid op sent =>
    obtain rfl := Option.some.inj hcall
    cases fileCall_outcome (fun i c hi hc => (h.opened i c hi hc).1) fileid op sent with
    | refused hft channels packet =>
      rw [StreamTransfer.after, hft, channels]
      exact h
    | done i c ch item role allowed channel found status went hft channels packet =>
      have hi : s.ft.Live i := by
        intro hnone
        rw [hnone] at allowed
        cases op <;> cases allowed
      rw [StreamTransfer.after, hft, channels]
      have hlive : ∀ j, (s.ft.setState i (op.newState (s.ft.files i).state)).Live j → s.ft.Live j := fun j =>
        put_live fun _ => hi
      exact h.restated hlive (setState_channel _ _ _) fun j c hj hc => (h.opened j c (hlive j hj) hc).2

theorem Unshadowed.calls (h : Unshadowed s) {calls : List StreamCall}
    (hcalls : calls.foldlM StreamTransfer.call s = some t) : Unshadowed t := by
  induction calls generalizing s with
  | nil =>
    obtain rfl := Option.some.inj hcalls
    exact h
  | cons call calls ih =>
    obtain ⟨u, hcall, hrest⟩ := Option.bind_eq_some_iff.mp hcalls
    exact ih (h.call hcall) hrest

theorem Unshadowed.openFirst (h : Unshadowed s) {alloc : Alloc} {sent : Bool}
    (hopen : s.openFirst alloc sent = some t) : Unshadowed t := by
  simp only [StreamTransfer.openFirst] at hopen
  split at hopen
  · exact Option.some.inj hopen ▸ h
  split at hopen
  · exact Option.some.inj hopen ▸ h
  split at hopen
  next hf => exact Option.some.inj hopen ▸ h.offerItem hf fun j hj => absurd hj (Nat.not_lt_zero j)
  · cases hopen

/-! Callbacks. -/

theorem handleEvent_channel (ft : ElaFileTransfer) (more : Bool) (e : MuxEvent) (j : Slot) :
    ((handleEvent ft more e).1.files j).channel = (ft.files j).channel := by
  have hpaused : ∀ c old new event,
      ((streamChannelPaused ft c old new event).1.files j).channel = (ft.files j).channel := by
    intro c old new event
    unfold streamChannelPaused
    split
    · rfl
    split
    · rfl
    simp only
    split
    · rfl
    · exact setState_channel _ _ _ _
  cases e with
  | channelData c data =>
    change ((streamChannelData ft c data more).ft.files j).channel = _
    unfold streamChannelData
    split
    · rfl
    simp only
    split
    · split
      · split
        · rfl
        · exact setState_channel _ _ _ _
      · split
        · exact setState_channel _ _ _ _
        · rfl
    · split <;> rfl
    · rfl
  | channelPending c => exact hpaused c _ _ _
  | channelResume c => exact hpaused c _ _ _
  | channelClose c reason =>
    change ((streamChannelClose ft c).files j).channel = _
    unfold streamChannelClose
    split
    · rfl
    next i _ => exact put_channel { ft.files i with state := .none, filename := none } rfl j
  | channelOpen c payload => rfl
  | channelOpened c => rfl
  | streamData data => rfl

theorem handleEvent_live {ft : ElaFileTransfer} {more : Bool} {e : MuxEvent} {j : Slot}
    (hj : (handleEvent ft more e).1.Live j) : ft.Live j := by
  have hout := handleEvent_outcome ft e more
  generalize (handleEvent ft more e).1 = u at hout hj
  cases hout with
  | unchanged => exact hj
  | restated i state live later => exact put_live (fun _ => live) hj
  | ended i c item found state closes => exact put_live (fun hne => absurd state hne) hj

/-- A channel that closes ends the item that it is open for. -/
theorem closed_item_ended (h : Unshadowed s) (hi : s.ft.Live i) (hc : (s.ft.files i).channel = some c) :
    ¬ (streamChannelClose s.ft c).Live i := by
  have hfind : s.ft.getFileinfoChannel c = some i := h.finds c i (h.opened i c hi hc).2 hi hc
  intro hlive
  rw [ElaFileTransfer.Live, streamChannelClose, hfind] at hlive
  exact hlive (congrArg FileTransferItem.state put_self)

theorem Unshadowed.event (h : Unshadowed s) (e : MuxEvent) (more : Bool) :
    Unshadowed ⟨(handleEvent s.ft more e).1, match e with
      | .channelClose c _ => s.channels.erase c
      | _ => s.channels⟩ := by
  refine h.restated (fun i => handleEvent_live) (handleEvent_channel s.ft more e) fun i c hi hc => ?_
  have hopen : s.channels.lookup c ≠ none := (h.opened i c (handleEvent_live hi) hc).2
  cases e with
  | channelClose c' reason =>
    have hne : c' ≠ c := by
      rintro rfl
      exact closed_item_ended h (handleEvent_live hi) hc hi
    rwa [Table.lookup_erase_eq, if_neg hne.symm]
  | channelData c' data => exact hopen
  | channelPending c' => exact hopen
  | channelResume c' => exact hopen
  | channelOpen c' payload => exact hopen
  | channelOpened c' => exact hopen
  | streamData data => exact hopen

/-- The peer's offer is refused, or an item gets the channel. -/
theorem channelOpen_cases (h : Unshadowed s) (hc : s.channels.lookup c = none) (remoteId : ChannelId)
    (cookie : Option CString) :
    (streamChannelOpen s.ft c cookie = (s.ft, false) ∧ unshadowed s (.channelOpen c remoteId cookie) = true) ∨
    ∃ i item, streamChannelOpen s.ft c cookie = (s.ft.put i item, true) ∧ item.state = .standby ∧
      item.channel = some c ∧ (unshadowed s (.channelOpen c remoteId cookie) = true ↔
        ∀ j < i, (s.ft.files j).channel ≠ some c) := by
  unfold streamChannelOpen
  simp only [unshadowed]
  split
  next hrole => exact .inl ⟨rfl, by simp [hrole]⟩
  next hrole =>
    split
    next hcookie => exact .inl ⟨rfl, by simp [hcookie]⟩
    next o ho =>
      split
      next hi =>
        split
        · exact .inl ⟨rfl, by simp [ho, hi]⟩
        next i hfree =>
          have hused : ∀ j < i, s.ft.Live j := fun j hj => of_decide_eq_false ((find_slot.mp hfree).2 j hj)
          exact .inr ⟨i, _, rfl, rfl, rfl, iff_of_true (by simp [ho, hi]) (h.earlier hused hc)⟩
      next i hi =>
        split
        next hstate => exact .inl ⟨rfl, by simp [ho, hi, hstate]⟩
        next hstate =>
          split
          next hsize => exact .inl ⟨rfl, by simp [ho, hi, hsize]⟩
          next hsize => exact .inr ⟨i, _, rfl, not_not.mp hstate, rfl, by simp [hrole, ho, hi, hstate, hsize]⟩

theorem Unshadowed.channelOpen (h : Unshadowed s) {remoteId : ChannelId} {cookie : Option CString}
    (hf : allocFree s.channels (.id c) = true) :
    (unshadowed s (.channelOpen c remoteId cookie) = true → Unshadowed (s.channelOpen c remoteId cookie)) ∧
    ((s.channelOpen c remoteId cookie).FindsChannels → unshadowed s (.channelOpen c remoteId cookie) = true) := by
  simp only [allocFree, Bool.and_eq_true, decide_eq_true_eq, Option.isNone_iff_eq_none] at hf
  obtain ⟨⟨hzero, -⟩, hfree⟩ := hf
  rcases channelOpen_cases h hfree remoteId cookie with ⟨hr, hg⟩ | ⟨i, item, hr, hstate, hchannel, hg⟩
  · rw [StreamTransfer.channelOpen, hr]
    exact ⟨fun _ => h, fun _ => hg⟩
  · rw [StreamTransfer.channelOpen, hr, hg]
    constructor
    · intro hearlier
      refine h.put kept_insert fun c' hc' => ?_
      obtain rfl := Option.some.inj (hchannel.symm.trans hc')
      exact ⟨hzero, hfree, found_insert _ _ _, hearlier⟩
    · intro hfinds j hj hjc
      have hlive : (s.ft.put i item).Live i := by
        rw [ElaFileTransfer.Live, put_self, hstate]
        decide
      have hfound := hfinds c i (found_insert _ _ _) hlive (by rw [put_self, hchannel])
      have hother := of_decide_eq_false ((find_slot.mp hfound).2 j hj)
      rw [put_other hj.ne] at hother
      exact hother hjc

/-- A step that meets the condition keeps the invariant, and another one breaks the property. -/
theorem streamStep_unshadowed (h : Unshadowed s) {input : StreamInput} {o : List FileEvent}
    (hstep : streamStep s input = some (t, o)) :
    (unshadowed s input = true → Unshadowed t) ∧ (t.FindsChannels → unshadowed s input = true) := by
  have hsame : ∀ {ft' : ElaFileTransfer}, ft'.files = s.ft.files → Unshadowed ⟨ft', s.channels⟩ := by
    intro ft' hfiles
    have hlive : ∀ i, ft'.Live i → s.ft.Live i := by
      intro i hi
      rwa [ElaFileTransfer.Live, hfiles] at hi
    exact h.restated hlive (fun i => by rw [hfiles]) fun i c hi hc => (h.opened i c (hlive i hi) hc).2
  cases input with
  | connect role =>
    simp only [streamStep] at hstep
    split at hstep <;> cases hstep
    exact ⟨fun _ => hsame rfl, fun _ => rfl⟩
  | reported state =>
    simp only [streamStep] at hstep
    split at hstep <;> cases hstep
    exact ⟨fun _ => hsame rfl, fun _ => rfl⟩
  | connected calls alloc sent =>
    simp only [streamStep] at hstep
    split at hstep
    · obtain ⟨u, hu, hpair⟩ := Option.map_eq_some_iff.mp hstep
      obtain ⟨v, hcalls, hfirst⟩ := Option.bind_eq_some_iff.mp hu
      obtain rfl := (Prod.mk.inj hpair).1
      have hstart : Unshadowed ⟨{ s.ft with state := .connected }, s.channels⟩ := hsame rfl
      exact ⟨fun _ => (hstart.calls hcalls).openFirst hfirst, fun _ => rfl⟩
    · cases hstep
  | call call =>
    obtain ⟨u, hcall, hpair⟩ := Option.map_eq_some_iff.mp hstep
    obtain rfl := (Prod.mk.inj hpair).1
    exact ⟨fun _ => h.call hcall, fun _ => rfl⟩
  | channelOpen c remoteId cookie =>
    simp only [streamStep] at hstep
    split at hstep
    next hf =>
      cases hstep
      exact h.channelOpen hf
    · cases hstep
  | channelChanged c ch =>
    simp only [streamStep] at hstep
    split at hstep <;> cases hstep
    exact ⟨fun _ => h.restated (fun _ => id) (fun _ => rfl) fun i c hi hc => kept_insert c (h.opened i c hi hc).2,
      fun _ => rfl⟩
  | event e more =>
    simp only [streamStep] at hstep
    split at hstep <;> cases hstep
    exact ⟨fun _ => h.event e more, fun _ => rfl⟩

/-! Whole runs. -/

theorem unshadowed_new {ft : ElaFileTransfer} {info : Option FileInfo} {drawn : PublicKey} {ext alloc : Bool}
    (h : elaFiletransferNew info drawn ext alloc = .ok ft) : Unshadowed ⟨ft, ∅⟩ := by
  have hnone : ∀ i c, ft.Live i → (ft.files i).channel ≠ some c := by
    intro i c hi hc
    rw [(live_new h hi).2.2] at hc
    cases hc
  exact ⟨fun i c hi hc => absurd hc (hnone i c hi), fun i c hi hc => absurd hc (hnone i c hi)⟩

/-- In every run whose steps all meet the condition, the search for a channel finds the item that it is open for. The
next step keeps that if and only if it meets the condition. -/
theorem open_channel_found {ft : ElaFileTransfer} {info : Option FileInfo} {drawn : PublicKey} {ext alloc : Bool}
    {u : StreamTransfer} {is : List StreamInput} {os : List FileEvent}
    (hnew : elaFiletransferNew info drawn ext alloc = .ok ft)
    (h : streamMachine.Run (fun s i => unshadowed s i = true) ⟨ft, ∅⟩ is os u) :
    u.FindsChannels ∧ ∀ input t o, streamStep u input = some (t, o) →
      (t.FindsChannels ↔ unshadowed u input = true) := by
  have hu : Unshadowed u := by
    apply h.invariant _ (unshadowed_new hnew)
    exact fun hs hg hstep => (streamStep_unshadowed hs hstep).1 hg
  refine ⟨hu.finds, fun input t o hstep => ?_⟩
  obtain ⟨hkept, hbroken⟩ := streamStep_unshadowed hu hstep
  exact ⟨hbroken, fun hg => (hkept hg).finds⟩

def offered (name : UInt8) (h : name ≠ 0) (key : PublicKey) (c remoteId : ChannelId) : List StreamInput :=
  [.channelOpen c remoteId (some (offerCookie ⟨shortName name h, (Friends.base58Key key).text, 5⟩)),
    .channelChanged c ⟨remoteId, .open, 0⟩]

/-- Two files are offered, and the first is received. -/
def firstReceived : List StreamInput :=
  [.connect .receiver, .connected [] .limitExceeded true] ++ offered 97 code_a_ne 7 3 1 ++
    offered 98 code_b_ne 8 5 2 ++ [.call (.op (Friends.base58Key 7).text (.pull 0) true),
      .event (.channelData 3 [104, 101, 108, 108, 111]) false, .event (.channelClose 3 .error) true]

/-- A third file gets the number of the first. -/
theorem open_channel_found_third : ∃ u os, streamMachine.Run (fun s i => unshadowed s i = true) ⟨emptyTransfer, ∅⟩
    (firstReceived ++ offered 99 (by decide) 9 3 4) os u ∧ u.FindsChannels ∧ u.ft.getFileinfoChannel 3 = some 0 := by
  obtain ⟨u, os, he, hp⟩ := streamMachine.exec_any ⟨emptyTransfer, ∅⟩ (firstReceived ++ offered 99 (by decide) 9 3 4)
    (fun r => decide (r.1.ft.getFileinfoChannel 3 = some 0)) (by decide +kernel)
  have hrun := Machine.run_of_exec (G := fun s i => unshadowed s i = true) (g := unshadowed) (fun _ _ h => h) he
    (by decide +kernel)
  have hnew : elaFiletransferNew none 0 true true = .ok emptyTransfer := rfl
  exact ⟨u, os, hrun, (open_channel_found hnew hrun).1, of_decide_eq_true hp⟩

instance (ft : ElaFileTransfer) : Decidable ft.UniqueIds :=
  inferInstanceAs (Decidable (∀ i j, ft.Live i → ft.Live j → (ft.files i).fileid = (ft.files j).fileid → i = j))

/-- The second file stands by, and the receiver cancels it. Offered again, it gets the number of the first, which the
slot of the first still has. -/
theorem open_channel_shadowed : ¬ ∀ (is : List StreamInput) (os : List FileEvent) (u : StreamTransfer),
    streamMachine.Run (fun s _ => s.ft.UniqueIds) ⟨emptyTransfer, ∅⟩ is os u → u.ft.UniqueIds → u.FindsChannels := by
  intro h
  let is := firstReceived ++ (.call (.op (Friends.base58Key 8).text (.cancel 0 .empty) true) ::
    offered 98 (by decide) 8 3 4)
  obtain ⟨u, os, he, hp⟩ := streamMachine.exec_any ⟨emptyTransfer, ∅⟩ is
    (fun r => decide (r.1.ft.UniqueIds ∧ r.1.channels.lookup 3 ≠ none ∧ r.1.ft.Live 1 ∧
      (r.1.ft.files 1).channel = some 3 ∧ r.1.ft.getFileinfoChannel 3 = some 0)) (by decide +kernel)
  obtain ⟨hids, hopen, hlive, hchannel, hfound⟩ := of_decide_eq_true hp
  have hrun := Machine.run_of_exec (G := fun s _ => s.ft.UniqueIds) (g := fun s _ => decide s.ft.UniqueIds)
    (fun _ _ h => of_decide_eq_true h) he (by decide +kernel)
  exact absurd (hfound.symm.trans (h is os u hrun hids 3 1 hopen hlive hchannel)) (by decide)

end CarrierSdk.FileTransfer
