import CarrierSdk.FileTransfer.OfferSurvival

/-! The items of one transfer, under any calls of the application and any callbacks of the stream: file ids that
are in use once, and channels that are kept until they close. -/
namespace CarrierSdk.FileTransfer
open Mux

/-- A call on a transfer, with the channels that the multiplexer has at that moment. -/
inductive ItemCall
  | add (info : FileInfo) (drawn : PublicKey) (chs : Channels Nat) (alloc : Alloc) (sent : Bool)
  | op (fileid : CString) (op : FileCall) (chs : Channels Nat) (sent : Bool)

def itemCall (ft : ElaFileTransfer) : ItemCall → Option ElaFileTransfer
  | .add info drawn chs alloc sent =>
    if allocFree chs alloc then some (elaFiletransferAdd ft chs info drawn alloc sent 0).ft else none
  | .op fileid op chs sent => some (fileCall ft chs fileid sent op).ft

def itemCalls : ElaFileTransfer → List ItemCall → Option ElaFileTransfer
  | ft, [] => some ft
  | ft, call :: calls => (itemCall ft call).bind fun ft => itemCalls ft calls

/-- The end of sender_state_changed on a connected stream: a channel for the first file. -/
def openFirst (ft : ElaFileTransfer) (chs : Channels Nat) (alloc : Alloc) (sent : Bool) : Option ElaFileTransfer :=
  if ft.senderReceiver ≠ .sender then some ft
  else if (ft.files 0).state ≠ .standby then some ft
  else if allocFree chs alloc then
    some (offerItem ft chs 0 (ft.files 0) ((senderCookie (ft.files 0)).getD .empty) alloc sent 0).ft
  else none

/-- What happens to one transfer. When the stream is connected, the application is told first and makes calls
before the sender looks at its first item. -/
inductive ItemsInput
  | connect (role : Role)
  | reported (state : FileTransferConnection)
  | connected (calls : List ItemCall) (chs : Channels Nat) (alloc : Alloc) (sent : Bool)
  | call (call : ItemCall)
  | channelOpen (channel : ChannelId) (cookie : Option CString)
  | event (e : MuxEvent) (more : Bool)

def itemsStep (ft : ElaFileTransfer) : ItemsInput → Option (ElaFileTransfer × List FileEvent)
  | .connect role => if ft.state = .initialized then some ({ ft with senderReceiver := role }, []) else none
  | .reported state => if state ≠ .connected then some ({ ft with state }, []) else none
  | .connected calls chs alloc sent =>
    if ft.state ≠ .connected then
      ((itemCalls { ft with state := .connected } calls).bind fun ft => openFirst ft chs alloc sent).map fun ft => (ft, [])
    else none
  | .call call => (itemCall ft call).map fun ft => (ft, [])
  | .channelOpen channel cookie =>
    if channel ≠ 0 then some ((streamChannelOpen ft channel cookie).1, []) else none
  | .event e more =>
    let r := handleEvent ft more e
    some (r.1, r.2.toList)

def itemsMachine : Machine ElaFileTransfer ItemsInput FileEvent := ⟨itemsStep⟩

/-! The property. -/

abbrev ElaFileTransfer.Live (ft : ElaFileTransfer) (i : Slot) : Prop := (ft.files i).state ≠ .none

def ElaFileTransfer.UniqueIds (ft : ElaFileTransfer) : Prop :=
  ∀ i j, ft.Live i → ft.Live j → (ft.files i).fileid = (ft.files j).fileid → i = j

/-- The channel is closed, or the sender's item is cancelled over it. -/
def closesChannel (c : ChannelId) : ItemsInput → Bool
  | .event (.channelClose c' _) _ => decide (c' = c)
  | .event (.channelData c' data) _ => decide (c' = c) && decide (packetType data = packetCancel)
  | _ => false

/-- In every run that goes on under a guard, each live item keeps its file id and its channel until that closes. -/
def ElaFileTransfer.KeepsChannels (guard : ElaFileTransfer → ItemsInput → Prop) (ft : ElaFileTransfer) : Prop :=
  ∀ i c, ft.Live i → (ft.files i).channel = some c → ∀ is os u, itemsMachine.Run guard ft is os u →
    (u.Live i ∧ (u.files i).fileid = (ft.files i).fileid ∧ (u.files i).channel = some c) ∨
      ∃ input ∈ is, closesChannel c input = true

/-- A call by file id sends over the channel of the only live item with that id. -/
def ElaFileTransfer.ActsOnItem (ft : ElaFileTransfer) : Prop :=
  ∀ chs fileid sent op, ∀ pb ∈ (fileCall ft chs fileid sent op).sent, ∃ i c ch,
    ft.Live i ∧ (ft.files i).fileid = fileid ∧ (∀ j, ft.Live j → (ft.files j).fileid = fileid → j = i) ∧
      (ft.files i).channel = some c ∧ chs.lookup c = some ch ∧
      pb = sendPacket op.packet.1 .user c ch.remoteId op.packet.2 ch.tag

/-! The condition. -/

/-- No live item has the id of a file that is added, or its channel is not opened. -/
def freshCall (ft : ElaFileTransfer) : ItemCall → Bool
  | .add info drawn _ alloc sent =>
    match checkAdd ft info with
    | .error _ => true
    | .ok _ => !(isId alloc && sent) || ElaFileTransfer.slots.all fun j =>
        decide ((ft.files j).state = .none) || decide ((ft.files j).fileid ≠ info.chosenId drawn)
  | .op .. => true

def freshCalls : ElaFileTransfer → List ItemCall → Bool
  | _, [] => true
  | ft, call :: calls => freshCall ft call && (itemCall ft call).all fun ft => freshCalls ft calls

/-- An item that stands by has no channel when it is given one. -/
def freshOffers (ft : ElaFileTransfer) : ItemsInput → Bool
  | .connected calls _ _ _ =>
    freshCalls { ft with state := .connected } calls && (itemCalls { ft with state := .connected } calls).all fun ft =>
      decide (ft.senderReceiver ≠ .sender) || decide ((ft.files 0).state ≠ .standby) ||
        decide ((ft.files 0).channel = none)
  | .call call => freshCall ft call
  | .channelOpen _ cookie =>
    decide (ft.senderReceiver ≠ .receiver) || (cookie.bind scanOffer).all fun o =>
      (ft.getFileinfoFileid o.fileid).all fun i =>
        decide ((ft.files i).state ≠ .standby) || decide ((ft.files i).filesz ≠ o.filesz) ||
          decide ((ft.files i).channel = none)
  | _ => true

/-! What one step does to the items. -/

variable {ft ft' : ElaFileTransfer} {i : Slot} {c : ChannelId} {closed : ChannelId → Prop}

/-- File ids of live items are unique, and their channels have been opened. -/
structure Distinct (ft : ElaFileTransfer) : Prop where
  fileid : ft.UniqueIds
  channel : ∀ i c, ft.Live i → (ft.files i).channel = some c → c ≠ 0

/-- Live items keep what they have, or end with their channel. -/
structure Keeps (closed : ChannelId → Prop) (ft ft' : ElaFileTransfer) : Prop where
  distinct : Distinct ft → Distinct ft'
  kept : ∀ i c, ft.Live i → (ft.files i).channel = some c →
    (ft'.Live i ∧ (ft'.files i).fileid = (ft.files i).fileid ∧ (ft'.files i).channel = some c) ∨ closed c

theorem Keeps.same (h : ft'.files = ft.files) : Keeps closed ft ft' where
  distinct hd := by
    constructor
    · intro i j hi hj he
      rw [ElaFileTransfer.Live, h] at hi hj
      rw [h] at he
      exact hd.fileid i j hi hj he
    · intro i c hi hc
      rw [ElaFileTransfer.Live, h] at hi
      rw [h] at hc
      exact hd.channel i c hi hc
  kept i c hi hc := .inl (by rw [ElaFileTransfer.Live, h]; exact ⟨hi, rfl, hc⟩)

theorem Keeps.trans {ft'' : ElaFileTransfer} (h : Keeps closed ft ft') (h' : Keeps closed ft' ft'') :
    Keeps closed ft ft'' where
  distinct hd := h'.distinct (h.distinct hd)
  kept i c hi hc := by
    rcases h.kept i c hi hc with ⟨hi', hid, hc'⟩ | hclosed
    · exact (h'.kept i c hi' hc').imp_left fun ⟨hi'', hid', hc''⟩ => ⟨hi'', hid'.trans hid, hc''⟩
    · exact .inr hclosed

theorem Keeps.mono {closed' : ChannelId → Prop} (h : Keeps closed ft ft') (hc : ∀ c, closed c → closed' c) :
    Keeps closed' ft ft' where
  distinct := h.distinct
  kept i c hi hch := (h.kept i c hi hch).imp_right (hc c)

theorem put_self {item : FileTransferItem} : (ft.put i item).files i = item := by
  simp [ElaFileTransfer.put]

theorem put_other {item : FileTransferItem} {j : Slot} (h : j ≠ i) : (ft.put i item).files j = ft.files j := by
  simp [ElaFileTransfer.put, h]

/-- One item is replaced. -/
theorem Keeps.put {item : FileTransferItem}
    (hfresh : item.state ≠ .none → ∀ j ≠ i, ft.Live j → (ft.files j).fileid ≠ item.fileid)
    (hchannel : item.state ≠ .none → ∀ c, item.channel = some c →
      c ≠ 0 ∨ ft.Live i ∧ (ft.files i).channel = some c)
    (hkept : ∀ c, ft.Live i → (ft.files i).channel = some c →
      (item.state ≠ .none ∧ item.fileid = (ft.files i).fileid ∧ item.channel = some c) ∨ closed c) :
    Keeps closed ft (ft.put i item) where
  distinct hd := by
    constructor
    · intro j k hj hk he
      by_cases hji : j = i
      · by_cases hki : k = i
        · rw [hji, hki]
        · rw [ElaFileTransfer.Live, put_other hki] at hk
          rw [hji, put_self, put_other hki] at he
          rw [ElaFileTransfer.Live, hji, put_self] at hj
          exact absurd he.symm (hfresh hj k hki hk)
      · rw [ElaFileTransfer.Live, put_other hji] at hj
        by_cases hki : k = i
        · rw [hki, put_self, put_other hji] at he
          rw [ElaFileTransfer.Live, hki, put_self] at hk
          exact absurd he (hfresh hk j hji hj)
        · rw [ElaFileTransfer.Live, put_other hki] at hk
          rw [put_other hji, put_other hki] at he
          exact hd.fileid j k hj hk he
    · intro j c hj hc
      by_cases hji : j = i
      · rw [ElaFileTransfer.Live, hji, put_self] at hj
        rw [hji, put_self] at hc
        rcases hchannel hj c hc with hc' | ⟨hlive, hc'⟩
        · exact hc'
        · exact hd.channel i c hlive hc'
      · rw [ElaFileTransfer.Live, put_other hji] at hj
        rw [put_other hji] at hc
        exact hd.channel j c hj hc
  kept j c hj hc := by
    by_cases hji : j = i
    · subst hji
      rw [ElaFileTransfer.Live, put_self]
      exact hkept c hj hc
    · rw [ElaFileTransfer.Live, put_other hji]
      exact .inl ⟨hj, rfl, hc⟩

/-- A live item stays live in another state. -/
theorem Keeps.setState (hd : Distinct ft) (hi : ft.Live i) {state : FileTransferState} (hs : state ≠ .none) :
    Keeps closed ft (ft.setState i state) :=
  Keeps.put (fun _ j hj hlive he => hj (hd.fileid j i hlive hi he)) (fun _ _ hc => .inr ⟨hi, hc⟩)
    fun _ _ hc => .inl ⟨hs, rfl, hc⟩

/-- An item ends. -/
theorem Keeps.drop {item : FileTransferItem} (hs : item.state = .none)
    (hc : ∀ c, ft.Live i → (ft.files i).channel = some c → closed c) : Keeps closed ft (ft.put i item) :=
  Keeps.put (fun h => absurd hs h) (fun h => absurd hs h) fun c hi hch => .inr (hc c hi hch)

/-- A channel is opened for an item, which has none yet. -/
theorem Keeps.offerItem {chs : Channels Nat} {item : FileTransferItem} {cookie : CString} {alloc : Alloc} {sent : Bool}
    (hf : allocFree chs alloc = true) (hnew : ∀ c, ft.Live i → (ft.files i).channel ≠ some c)
    (hfresh : (isId alloc && sent) = true → ∀ j ≠ i, ft.Live j → (ft.files j).fileid ≠ item.fileid) :
    Keeps closed ft (offerItem ft chs i item cookie alloc sent 0).ft := by
  rcases offerItem_cases ft i item cookie sent 0 hf with ⟨c, rfl, rfl, hc, -, hr⟩ | ⟨-, e, hr⟩
  · rw [hr]
    exact Keeps.put (fun _ => hfresh rfl) (fun _ c' hc' => .inl (Option.some.inj hc' ▸ hc))
      fun c' hi hc' => absurd hc' (hnew c' hi)
  · rw [hr]
    exact Keeps.drop rfl fun c hi hc => absurd hc (hnew c hi)

theorem Keeps.add {info : FileInfo} {drawn : PublicKey} {chs : Channels Nat} {alloc : Alloc} {sent : Bool}
    (hf : allocFree chs alloc = true) (hfresh : freshCall ft (.add info drawn chs alloc sent) = true) :
    Keeps closed ft (elaFiletransferAdd ft chs info drawn alloc sent 0).ft := by
  unfold elaFiletransferAdd
  cases hcheck : checkAdd ft info with
  | error e => exact Keeps.same rfl
  | ok i =>
    obtain ⟨-, hnone, -⟩ := checkAdd_ok hcheck
    refine Keeps.offerItem hf (fun c hi => absurd hnone hi) fun hopened j _ hj he => ?_
    simp only [freshCall, hcheck, hopened, Bool.not_true, Bool.false_or, List.all_eq_true, Bool.or_eq_true,
      decide_eq_true_eq] at hfresh
    rcases hfresh j (List.mem_finRange j) with hdead | hother
    · exact hj hdead
    · exact hother he

theorem newState_live {op : FileCall} {state : FileTransferState} (hs : state ≠ .none) : op.newState state ≠ .none := by
  cases op <;> first | exact hs | exact FileTransferState.noConfusion

theorem Keeps.op (hd : Distinct ft) (chs : Channels Nat) (fileid : CString) (sent : Bool) (op : FileCall) :
    Keeps closed ft (fileCall ft chs fileid sent op).ft := by
  cases fileCall_outcome hd.channel fileid op sent with
  | refused hft => rw [hft]; exact Keeps.same rfl
  | done i c ch item role allowed channel found status went hft channels packet =>
    have hi : ft.Live i := by
      intro hnone
      rw [hnone] at allowed
      cases op <;> cases allowed
    rw [hft]
    exact Keeps.setState hd hi (newState_live hi)

theorem Keeps.call (hd : Distinct ft) {call : ItemCall} (hfresh : freshCall ft call = true)
    (h : itemCall ft call = some ft') : Keeps closed ft ft' := by
  cases call with
  | add info drawn chs alloc sent =>
    simp only [itemCall] at h
    split at h
    next hf =>
      obtain rfl := Option.some.inj h
      exact Keeps.add hf hfresh
    · cases h
  | op fileid op chs sent =>
    obtain rfl := Option.some.inj h
    exact Keeps.op hd chs fileid sent op

theorem Keeps.calls (hd : Distinct ft) {calls : List ItemCall} (hfresh : freshCalls ft calls = true)
    (h : itemCalls ft calls = some ft') : Keeps closed ft ft' := by
  induction calls generalizing ft with
  | nil => exact Keeps.same (by rw [Option.some.inj h])
  | cons call calls ih =>
    obtain ⟨t, hcall, hrest⟩ := Option.bind_eq_some_iff.mp h
    rw [freshCalls, Bool.and_eq_true, hcall, Option.all_some] at hfresh
    have hfirst : Keeps closed ft t := Keeps.call hd hfresh.1 hcall
    exact hfirst.trans (ih (hfirst.distinct hd) hfresh.2 hrest)

/-! What callbacks do to the items. -/

theorem openFirst_cases {chs : Channels Nat} {alloc : Alloc} {sent : Bool}
    (h : openFirst ft chs alloc sent = some ft') : ft' = ft ∨ (ft.senderReceiver = .sender ∧
      (ft.files 0).state = .standby ∧ allocFree chs alloc = true ∧ ft' =
        (offerItem ft chs 0 (ft.files 0) ((senderCookie (ft.files 0)).getD .empty) alloc sent 0).ft) := by
  unfold openFirst at h
  split at h
  · exact .inl (Option.some.inj h).symm
  next hrole =>
    split at h
    · exact .inl (Option.some.inj h).symm
    next hstate =>
      split at h
      next hf => exact .inr ⟨not_not.mp hrole, not_not.mp hstate, hf, (Option.some.inj h).symm⟩
      · cases h

/-- What an offer that arrives over a channel does: it is refused, it gets a free slot, or the item that stands by
under its id gets the channel. -/
inductive OpenOutcome (ft : ElaFileTransfer) (c : ChannelId) (cookie : Option CString) : ElaFileTransfer × Bool → Prop
  | refused : OpenOutcome ft c cookie (ft, false)
  | placed (o : Offer) (i : Slot) (free : (ft.files i).state = .none) (absent : ∀ j, (ft.files j).fileid ≠ o.fileid) :
      OpenOutcome ft c cookie (ft.put i ⟨o.fileid, some o.filename, o.filesz, .standby, some c⟩, true)
  | bound (o : Offer) (i : Slot) (role : ft.senderReceiver = .receiver) (read : cookie.bind scanOffer = some o)
      (found : ft.getFileinfoFileid o.fileid = some i) (state : (ft.files i).state = .standby)
      (size : (ft.files i).filesz = o.filesz) :
      OpenOutcome ft c cookie (ft.put i { ft.files i with channel := some c }, true)

theorem streamChannelOpen_outcome (ft : ElaFileTransfer) (c : ChannelId) (cookie : Option CString) :
    OpenOutcome ft c cookie (streamChannelOpen ft c cookie) := by
  unfold streamChannelOpen
  split
  · exact .refused
  next hrole =>
    have hrole : ft.senderReceiver = .receiver := not_not.mp hrole
    split
    · exact .refused
    next o ho =>
      split
      next hi =>
        split
        · exact .refused
        next i hfree =>
          exact .placed o i (of_decide_eq_true (find_slot.mp hfree).1) fun j he =>
            List.find?_eq_none.mp hi j (List.mem_finRange j) (decide_eq_true he)
      next i hi =>
        split
        · exact .refused
        next hstate =>
          split
          · exact .refused
          next hsize => exact .bound o i hrole ho hi (not_not.mp hstate) (not_not.mp hsize)

/-- What another callback of the stream does: nothing, a live item changes its state, or the item of a channel that
closes or is cancelled ends. -/
inductive EventOutcome (ft : ElaFileTransfer) (e : MuxEvent) : ElaFileTransfer → Prop
  | unchanged : EventOutcome ft e ft
  | restated (i : Slot) (state : FileTransferState) (live : ft.Live i) (later : state ≠ .none) :
      EventOutcome ft e (ft.setState i state)
  | ended (i : Slot) (c : ChannelId) (item : FileTransferItem) (found : (ft.files i).channel = some c)
      (state : item.state = .none) (closes : ∀ more, closesChannel c (.event e more) = true) :
      EventOutcome ft e (ft.put i item)

theorem channel_found (h : ft.getFileinfoChannel c = some i) : (ft.files i).channel = some c :=
  of_decide_eq_true (find_slot.mp h).1

theorem live_of_state {state : FileTransferState} (hs : state ≠ .none) (h : (ft.files i).state = state) : ft.Live i :=
  fun hnone => hs (h.symm.trans hnone)

theorem streamChannelPaused_outcome (ft : ElaFileTransfer) (e : MuxEvent) (c : ChannelId)
    {old new : FileTransferState} (hold : old ≠ .none) (hnew : new ≠ .none) (event : CString → FileEvent) :
    EventOutcome ft e (streamChannelPaused ft c old new event).1 := by
  unfold streamChannelPaused
  split
  · exact .unchanged
  · split
    · exact .unchanged
    · simp only
      split
      · exact .unchanged
      next hstate => exact .restated _ new (live_of_state hold (not_not.mp hstate)) hnew

theorem streamChannelData_outcome (ft : ElaFileTransfer) (c : ChannelId) (data : List UInt8) (more : Bool) :
    EventOutcome ft (.channelData c data) (streamChannelData ft c data more).ft := by
  unfold streamChannelData
  split
  · exact .unchanged
  next i hi =>
    simp only
    split
    · split
      · split
        · exact .unchanged
        next hstate => exact .restated i _ (live_of_state (by decide) (not_not.mp hstate)) (by decide)
      · split
        next hcancel => exact .ended i c _ (channel_found hi) rfl fun _ => by simp [closesChannel, hcancel]
        · exact .unchanged
    · split <;> exact .unchanged
    · exact .unchanged

theorem handleEvent_outcome (ft : ElaFileTransfer) (e : MuxEvent) (more : Bool) :
    EventOutcome ft e (handleEvent ft more e).1 := by
  cases e with
  | channelData c data => exact streamChannelData_outcome ft c data more
  | channelPending c => exact streamChannelPaused_outcome ft _ c (by decide) (by decide) _
  | channelResume c => exact streamChannelPaused_outcome ft _ c (by decide) (by decide) _
  | channelClose c reason =>
    change EventOutcome ft _ (streamChannelClose ft c)
    unfold streamChannelClose
    split
    · exact .unchanged
    next i hi => exact .ended i c _ (channel_found hi) rfl fun _ => by simp [closesChannel]
  | channelOpen c payload => exact .unchanged
  | channelOpened c => exact .unchanged
  | streamData data => exact .unchanged

theorem Keeps.openFirst (hd : Distinct ft) {chs : Channels Nat} {alloc : Alloc} {sent : Bool}
    (hfresh : ft.senderReceiver ≠ .sender ∨ (ft.files 0).state ≠ .standby ∨ (ft.files 0).channel = none)
    (h : openFirst ft chs alloc sent = some ft') : Keeps closed ft ft' := by
  rcases openFirst_cases h with rfl | ⟨hrole, hstate, hf, rfl⟩
  · exact Keeps.same rfl
  · have hnone : (ft.files 0).channel = none :=
      (hfresh.resolve_left fun hne => hne hrole).resolve_left fun hne => hne hstate
    have hlive : ft.Live 0 := live_of_state (by decide) hstate
    exact Keeps.offerItem hf (fun c _ hc => by rw [hnone] at hc; cases hc)
      fun _ j hj hlive' he => hj (hd.fileid j 0 hlive' hlive he)

theorem Keeps.channelOpen (hd : Distinct ft) (hc : c ≠ 0) {cookie : Option CString}
    (hfresh : freshOffers ft (.channelOpen c cookie) = true) :
    Keeps closed ft (streamChannelOpen ft c cookie).1 := by
  have hopened : ∀ c', some c = some c' → c' ≠ 0 := fun c' he => Option.some.inj he ▸ hc
  have hout := streamChannelOpen_outcome ft c cookie
  generalize streamChannelOpen ft c cookie = r at hout ⊢
  cases hout with
  | refused => exact Keeps.same rfl
  | placed o i free absent =>
    exact Keeps.put (fun _ j _ _ => absent j) (fun _ c' hc' => .inl (hopened c' hc')) fun _ hlive => absurd free hlive
  | bound o i role read found state size =>
    have hnone : (ft.files i).channel = none := by
      simpa [freshOffers, role, read, found, state, size] using hfresh
    have hlive : ft.Live i := live_of_state (by decide) state
    refine Keeps.put (fun _ j hj hlive' he => hj (hd.fileid j i hlive' hlive he))
      (fun _ c' hc' => .inl (hopened c' hc')) fun c' _ hc' => ?_
    rw [hnone] at hc'
    cases hc'

theorem Keeps.event (hd : Distinct ft) (e : MuxEvent) (more : Bool) :
    Keeps (fun c => closesChannel c (.event e more) = true) ft (handleEvent ft more e).1 := by
  have hout := handleEvent_outcome ft e more
  generalize (handleEvent ft more e).1 = t at hout ⊢
  cases hout with
  | unchanged => exact Keeps.same rfl
  | restated i state live later => exact Keeps.setState hd live later
  | ended i c item found state closes =>
    refine Keeps.drop state fun c' _ hc' => ?_
    rw [found] at hc'
    exact Option.some.inj hc' ▸ closes more

/-- Each step that meets the condition keeps what live items have. -/
theorem itemsStep_keeps {input : ItemsInput} {o : List FileEvent} (hd : Distinct ft)
    (hfresh : freshOffers ft input = true) (h : itemsStep ft input = some (ft', o)) :
    Keeps (fun c => closesChannel c input = true) ft ft' := by
  cases input with
  | connect role =>
    simp only [itemsStep] at h
    split at h <;> cases h
    exact Keeps.same rfl
  | reported state =>
    simp only [itemsStep] at h
    split at h <;> cases h
    exact Keeps.same rfl
  | connected calls chs alloc sent =>
    simp only [itemsStep] at h
    split at h
    · obtain ⟨u, hu, hpair⟩ := Option.map_eq_some_iff.mp h
      obtain ⟨t, ht, hfirst⟩ := Option.bind_eq_some_iff.mp hu
      simp only [freshOffers, Bool.and_eq_true, ht, Option.all_some, Bool.or_eq_true, decide_eq_true_eq] at hfresh
      obtain rfl := (Prod.mk.inj hpair).1
      have hsame : Keeps (fun _ => False) ft { ft with state := .connected } := Keeps.same rfl
      have hcalls : Keeps (fun _ => False) ft t := hsame.trans (Keeps.calls (hsame.distinct hd) hfresh.1 ht)
      have hopen : Keeps (fun _ => False) t u :=
        Keeps.openFirst (hcalls.distinct hd) (or_assoc.mp hfresh.2) hfirst
      exact (hcalls.trans hopen).mono fun _ => False.elim
    · cases h
  | call call =>
    obtain ⟨t, ht, hpair⟩ := Option.map_eq_some_iff.mp h
    obtain rfl := (Prod.mk.inj hpair).1
    exact Keeps.call hd hfresh ht
  | channelOpen channel cookie =>
    simp only [itemsStep] at h
    split at h
    next hc =>
      cases h
      exact Keeps.channelOpen hd hc hfresh
    · cases h
  | event e more =>
    obtain rfl := (Prod.mk.inj (Option.some.inj h)).1
    exact Keeps.event hd e more

/-! Whole runs. -/

/-- A new transfer has at most its first item, with a name and without a channel. -/
theorem live_new {info : Option FileInfo} {drawn : PublicKey} {ext alloc : Bool}
    (h : elaFiletransferNew info drawn ext alloc = .ok ft) (hi : ft.Live i) :
    i = 0 ∧ (ft.files i).filename ≠ none ∧ (ft.files i).channel = none := by
  unfold elaFiletransferNew at h
  split at h
  · cases h
  split at h
  · cases h
  split at h
  · cases h
  · cases h
    rw [ElaFileTransfer.Live, connected_item] at hi
    rw [connected_item]
    split at hi
    next h0 =>
      rw [if_pos h0]
      cases info with
      | none => exact absurd rfl hi
      | some info => exact ⟨h0, Option.some_ne_none _, rfl⟩
    · exact absurd rfl hi

theorem distinct_new {info : Option FileInfo} {drawn : PublicKey} {ext alloc : Bool}
    (h : elaFiletransferNew info drawn ext alloc = .ok ft) : Distinct ft := by
  refine ⟨fun i j hi hj _ => (live_new h hi).1.trans (live_new h hj).1.symm, fun i c hi hc => ?_⟩
  rw [(live_new h hi).2.2] at hc
  cases hc

/-- In every run whose steps all meet the condition, file ids are unique among live items, each live item keeps its
channel until that closes, and calls by file id act on it. -/
theorem live_ids_unique {info : Option FileInfo} {drawn : PublicKey} {ext alloc : Bool} {u : ElaFileTransfer}
    {is : List ItemsInput} {os : List FileEvent} (hnew : elaFiletransferNew info drawn ext alloc = .ok ft)
    (h : itemsMachine.Run (fun s i => freshOffers s i = true) ft is os u) :
    u.UniqueIds ∧ u.KeepsChannels (fun s i => freshOffers s i = true) ∧ u.ActsOnItem := by
  have hd : Distinct u := by
    apply h.invariant _ (distinct_new hnew)
    exact fun hs hfresh hstep => (itemsStep_keeps hs hfresh hstep).distinct hs
  refine ⟨hd.fileid, fun i c hi hc js ps t hrun => ?_, fun chs fileid sent op pb hpb => ?_⟩
  · have hkept : (Distinct t ∧ t.Live i ∧ (t.files i).fileid = (u.files i).fileid ∧ (t.files i).channel = some c) ∨
        ∃ input ∈ js, closesChannel c input = true := by
      apply hrun.persists _ ⟨hd, hi, rfl, hc⟩
      rintro s input s' o ⟨hds, hlive, hid, hch⟩ hfresh hstep
      have hk := itemsStep_keeps hds hfresh hstep
      rcases hk.kept i c hlive hch with ⟨hlive', hid', hch'⟩ | hclosed
      · exact .inl ⟨hk.distinct hds, hlive', hid'.trans hid, hch'⟩
      · exact .inr hclosed
    exact hkept.imp_left And.right
  · cases fileCall_outcome hd.channel fileid op sent with
    | refused hft channels packet =>
      rw [packet] at hpb
      cases hpb
    | done i c ch item role allowed channel found status went hft channels packet =>
      rw [packet, List.mem_singleton] at hpb
      have hi : u.Live i := by
        intro hnone
        rw [hnone] at allowed
        cases op <;> cases allowed
      have hid : (u.files i).fileid = fileid := of_decide_eq_true (find_slot.mp item).1
      exact ⟨i, c, ch, hi, hid, fun j hj he => hd.fileid j i hj hi (he.trans hid.symm), channel, found, hpb⟩

/-- A transfer without a file. -/
def emptyTransfer : ElaFileTransfer := { connectedTransfer .unset none with state := .initialized }

def connecting (role : Role) : List ItemsInput := [.connect role, .connected [] ∅ .limitExceeded true]

/-- A file of five bytes under a given id. -/
def givenFile (name : UInt8) (h : name ≠ 0) (key : PublicKey) : FileInfo where
  filename := shortName name h
  fileid := (Friends.base58Key key).text
  size := 5
  filenameFits := Nat.le_add_left 1 254
  fileidFits := (Friends.base58Key key).short.trans (by decide)

def addGiven (name : UInt8) (h : name ≠ 0) (key : PublicKey) (c : ChannelId) : ItemsInput :=
  .call (.add (givenFile name h key) 0 ∅ (.id c) true)

/-- Two files under two ids. -/
theorem live_ids_unique_two : ∃ u os, itemsMachine.Run (fun s i => freshOffers s i = true) emptyTransfer
    (connecting .sender ++ [addGiven 97 (by decide) 7 1, addGiven 98 (by decide) 8 2]) os u ∧
    u.Live 0 ∧ u.Live 1 ∧ u.UniqueIds := by
  obtain ⟨u, os, he, hp⟩ := itemsMachine.exec_any emptyTransfer
    (connecting .sender ++ [addGiven 97 (by decide) 7 1, addGiven 98 (by decide) 8 2])
    (fun r => decide (r.1.Live 0 ∧ r.1.Live 1)) (by decide +kernel)
  have hrun := Machine.run_of_exec (G := fun s i => freshOffers s i = true) (g := freshOffers) (fun _ _ h => h) he
    (by decide +kernel)
  have hnew : elaFiletransferNew none 0 true true = .ok emptyTransfer := rfl
  obtain ⟨h0, h1⟩ := of_decide_eq_true hp
  exact ⟨u, os, hrun, h0, h1, (live_ids_unique hnew hrun).1⟩

def givenCookie : CString := offerCookie ⟨shortName 97 code_a_ne, (Friends.base58Key 7).text, 5⟩

def offeredAgain (ft : ElaFileTransfer) : Bool :=
  (itemsMachine.exec ft [.channelOpen 5 (some givenCookie)]).any fun r => decide ((r.1.files 0).channel = some 5)

/-- The sender adds two files under one id; the receiver is offered a file again, over another channel. -/
theorem live_id_twice :
    (¬ ∀ (is : List ItemsInput) (os : List FileEvent) (u : ElaFileTransfer),
      itemsMachine.Run Machine.Free emptyTransfer is os u → u.UniqueIds) ∧
    ¬ ∀ (is : List ItemsInput) (os : List FileEvent) (u : ElaFileTransfer),
      itemsMachine.Run Machine.Free emptyTransfer is os u → u.KeepsChannels Machine.Free := by
  constructor
  · intro h
    obtain ⟨u, os, he, hp⟩ := itemsMachine.exec_any emptyTransfer
      (connecting .sender ++ [addGiven 97 (by decide) 7 1, addGiven 98 (by decide) 7 2])
      (fun r => decide (r.1.Live 0 ∧ r.1.Live 1 ∧ (r.1.files 0).fileid = (r.1.files 1).fileid)) (by decide +kernel)
    obtain ⟨h0, h1, hid⟩ := of_decide_eq_true hp
    exact absurd (h _ os u (Machine.free_run_of_exec he) 0 1 h0 h1 hid) (by decide)
  · intro h
    obtain ⟨u, os, he, hp⟩ := itemsMachine.exec_any emptyTransfer
      (connecting .receiver ++ [.channelOpen 3 (some givenCookie)])
      (fun r => decide (r.1.Live 0 ∧ (r.1.files 0).channel = some 3) && offeredAgain r.1) (by decide +kernel)
    obtain ⟨hfirst, hagain⟩ := (Bool.and_eq_true _ _).mp hp
    obtain ⟨h0, hc⟩ := of_decide_eq_true hfirst
    obtain ⟨t, ps, hstep, hch⟩ := itemsMachine.exec_any u _ _ hagain
    rcases h _ os u (Machine.free_run_of_exec he) 0 3 h0 hc _ ps t (Machine.free_run_of_exec hstep) with
      ⟨-, -, hkept⟩ | ⟨input, hmem, hcloses⟩
    · rw [of_decide_eq_true hch] at hkept
      exact absurd hkept (by decide)
    · rw [List.mem_singleton.mp hmem] at hcloses
      cases hcloses

end CarrierSdk.FileTransfer
