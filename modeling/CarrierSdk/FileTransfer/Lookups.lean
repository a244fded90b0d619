import CarrierSdk.FileTransfer.FileIds

/-! Items looked up by name and by id. The searches go through all slots, also through those of files that have
ended and of files that have never been. -/
namespace CarrierSdk.FileTransfer
open Mux

inductive LookupError | invalidArgs | notExist | bufferTooSmall
  deriving DecidableEq

/-- ELA_MAX_FILE_ID_LEN -/
def maxFileIdLen : Nat := 45

/-- get_fileinfo_name, which stops at the first slot with that name or with none. It compares with NULL there. -/
def ElaFileTransfer.getFileinfoName (ft : ElaFileTransfer) (filename : CString) : Option (Option Slot) :=
  match slots.find? fun i => (ft.files i).filename.all fun name => decide (name = filename) with
  | none => some none
  | some i => if (ft.files i).filename.isNone then none else some (some i)

def elaFiletransferGetFileid (ft : ElaFileTransfer) (filename : CString) (length : Nat) :
    Option (Except LookupError CString) :=
  if filename = .empty ∨ length ≤ maxFileIdLen then some (.error .invalidArgs)
  else (ft.getFileinfoName filename).map fun
    | none => .error .invalidArgs
    | some i => .ok (ft.files i).fileid

/-- ela_filetransfer_get_filename. The name of the item that it finds may be NULL. -/
def elaFiletransferGetFilename (ft : ElaFileTransfer) (fileid : CString) (length : Nat) :
    Option (Except LookupError CString) :=
  if fileid = .empty ∨ length = 0 then some (.error .invalidArgs)
  else match ft.getFileinfoFileid fileid with
    | none => some (.error .notExist)
    | some i => (ft.files i).filename.map fun name =>
      if length ≤ name.strlen then .error .bufferTooSmall else .ok name

/-! The property. -/

/-- A live item with the key, and none only where there is none. -/
def ElaFileTransfer.FindsLive (ft : ElaFileTransfer) (key : FileTransferItem → Prop) (found : Option Slot) : Prop :=
  (∀ i, found = some i → ft.Live i ∧ key (ft.files i)) ∧ (found = none → ∀ i, ft.Live i → ¬ key (ft.files i))

/-- The search by name does not touch a name that is absent. -/
def ElaFileTransfer.FindsName (ft : ElaFileTransfer) (filename : CString) : Prop :=
  ∃ found, ft.getFileinfoName filename = some found ∧ ft.FindsLive (fun item => item.filename = some filename) found

def ElaFileTransfer.FindsId (ft : ElaFileTransfer) (fileid : CString) : Prop :=
  ft.FindsLive (fun item => item.fileid = fileid) (ft.getFileinfoFileid fileid)

/-! The condition. -/

def ElaFileTransfer.OtherName (ft : ElaFileTransfer) (filename : CString) (i : Slot) : Prop :=
  ∃ name, (ft.files i).filename = some name ∧ name ≠ filename

/-- Only slots with other names come before the first with the name, which is live. Where no slot has the name, all
have another. -/
def ElaFileTransfer.NamesLead (ft : ElaFileTransfer) (filename : CString) : Prop :=
  (∃ i, ft.Live i ∧ (ft.files i).filename = some filename ∧ ∀ j < i, ft.OtherName filename j) ∨
    ∀ i, ft.OtherName filename i

/-- A live item with the id comes before each one that has ended. -/
def ElaFileTransfer.LiveFirst (ft : ElaFileTransfer) (fileid : CString) : Prop :=
  ∀ i, ¬ ft.Live i → (ft.files i).fileid = fileid → ∃ j < i, ft.Live j ∧ (ft.files j).fileid = fileid

instance (ft : ElaFileTransfer) (fileid : CString) : Decidable (ft.LiveFirst fileid) :=
  inferInstanceAs (Decidable (∀ i, ¬ ft.Live i → (ft.files i).fileid = fileid →
    ∃ j < i, ft.Live j ∧ (ft.files j).fileid = fileid))

variable {ft ft' : ElaFileTransfer} {i : Slot}

theorem notOther_iff {filename : CString} :
    ((ft.files i).filename.all fun name => decide (name = filename)) = false ↔ ft.OtherName filename i := by
  rw [ElaFileTransfer.OtherName]
  cases (ft.files i).filename <;> simp

/-- Of the names, only that of the first slot without another name matters. -/
theorem namesLead_iff {filename : CString} (hbefore : ∀ j < i, ft.OtherName filename j)
    (hself : ¬ ft.OtherName filename i) :
    ft.NamesLead filename ↔ ft.Live i ∧ (ft.files i).filename = some filename := by
  constructor
  · rintro (⟨j, hj, hname, hlead⟩ | hall)
    · rcases lt_trichotomy i j with hlt | rfl | hlt
      · exact absurd (hlead i hlt) hself
      · exact ⟨hj, hname⟩
      · obtain ⟨name, hn, hne⟩ := hbefore j hlt
        exact absurd (Option.some.inj (hn.symm.trans hname)) hne
    · exact absurd (hall i) hself
  · rintro ⟨hi, hname⟩
    exact .inl ⟨i, hi, hname, hbefore⟩

theorem findsName_iff {filename : CString} : ft.FindsName filename ↔ ft.NamesLead filename := by
  cases hfind : ElaFileTransfer.slots.find?
      fun i => (ft.files i).filename.all fun name => decide (name = filename) with
  | none =>
    have hall : ∀ i, ft.OtherName filename i := fun i =>
      notOther_iff.mp (Bool.eq_false_iff.mpr (List.find?_eq_none.mp hfind i (List.mem_finRange i)))
    refine iff_of_true ⟨none, by rw [ElaFileTransfer.getFileinfoName, hfind], nofun, fun _ i _ hi => ?_⟩ (.inr hall)
    obtain ⟨name, hname, hne⟩ := hall i
    exact hne (Option.some.inj (hname.symm.trans hi))
  | some i =>
    obtain ⟨hstop, hbefore⟩ := find_slot.mp hfind
    have hself : ¬ ft.OtherName filename i := fun h => by
      rw [notOther_iff.mpr h] at hstop
      cases hstop
    rw [namesLead_iff (fun j hj => notOther_iff.mp (hbefore j hj)) hself, ElaFileTransfer.FindsName,
      ElaFileTransfer.getFileinfoName, hfind]
    cases hname : (ft.files i).filename with
    | none =>
      refine iff_of_false (fun ⟨found, hfound, _⟩ => ?_) fun h => by cases h.2
      simp only [hname, Option.isNone_none, if_true] at hfound
      cases hfound
    | some name =>
      simp only [hname, Option.isNone_some, Bool.false_eq_true, if_false]
      constructor
      · rintro ⟨found, hfound, hlive, -⟩
        exact hname ▸ hlive i (Option.some.inj hfound).symm
      · rintro ⟨hi, hkey⟩
        refine ⟨some i, rfl, fun k hk => ?_, nofun⟩
        obtain rfl := Option.some.inj hk
        exact ⟨hi, hname.trans hkey⟩

theorem findsId_iff {fileid : CString} : ft.FindsId fileid ↔ ft.LiveFirst fileid := by
  rw [ElaFileTransfer.FindsId]
  cases hfind : ft.getFileinfoFileid fileid with
  | none =>
    have hother : ∀ i, (ft.files i).fileid ≠ fileid := fun i he =>
      List.find?_eq_none.mp hfind i (List.mem_finRange i) (decide_eq_true he)
    exact iff_of_true ⟨nofun, fun _ i _ => hother i⟩ fun i _ he => absurd he (hother i)
  | some k =>
    obtain ⟨hk, hbefore⟩ := find_slot.mp hfind
    have hid : (ft.files k).fileid = fileid := of_decide_eq_true hk
    constructor
    · rintro ⟨hlive, -⟩ i hi he
      obtain ⟨hk', -⟩ := hlive k rfl
      rcases lt_trichotomy k i with hlt | rfl | hlt
      · exact ⟨k, hlt, hk', hid⟩
      · exact absurd hk' hi
      · exact absurd he (of_decide_eq_false (hbefore i hlt))
    · intro hfirst
      refine ⟨fun i hi => ?_, nofun⟩
      obtain rfl := Option.some.inj hi
      refine ⟨fun hnone => ?_, hid⟩
      obtain ⟨j, hj, -, he⟩ := hfirst k (fun h => h hnone) hid
      exact of_decide_eq_false (hbefore j hj) he

/-! Live items have a name in every reachable state. -/

/-- Live items have a name, and their channels have been opened. -/
def Equipped (ft : ElaFileTransfer) : Prop :=
  ∀ i, ft.Live i → (ft.files i).filename ≠ none ∧ (ft.files i).channel ≠ some 0

theorem Equipped.same (h : Equipped ft) (hfiles : ft'.files = ft.files) : Equipped ft' := by
  intro i hi
  rw [ElaFileTransfer.Live, hfiles] at hi
  rw [hfiles]
  exact h i hi

theorem Equipped.put (h : Equipped ft) {item : FileTransferItem}
    (hitem : item.state ≠ .none → item.filename ≠ none ∧ item.channel ≠ some 0) : Equipped (ft.put i item) := by
  intro j hj
  by_cases hji : j = i
  · rw [ElaFileTransfer.Live, hji, put_self] at hj
    rw [hji, put_self]
    exact hitem hj
  · rw [ElaFileTransfer.Live, put_other hji] at hj
    rw [put_other hji]
    exact h j hj

theorem Equipped.setState (h : Equipped ft) (hi : ft.Live i) (state : FileTransferState) :
    Equipped (ft.setState i state) :=
  Equipped.put h fun _ => h i hi

theorem Equipped.offerItem (h : Equipped ft) {chs : Channels Nat} {item : FileTransferItem} {cookie : CString}
    {alloc : Alloc} {sent : Bool} (hf : allocFree chs alloc = true) (hname : item.filename ≠ none) :
    Equipped (offerItem ft chs i item cookie alloc sent 0).ft := by
  rcases offerItem_cases ft i item cookie sent 0 hf with ⟨c, rfl, rfl, hc, -, hr⟩ | ⟨-, e, hr⟩
  · rw [hr]
    exact h.put fun _ => ⟨hname, fun he => hc (Option.some.inj he)⟩
  · rw [hr]
    exact h.put fun hs => absurd rfl hs

theorem Equipped.call (h : Equipped ft) {call : ItemCall} (hcall : itemCall ft call = some ft') : Equipped ft' := by
  cases call with
  | add info drawn chs alloc sent =>
    simp only [itemCall] at hcall
    split at hcall
    next hf =>
      obtain rfl := Option.some.inj hcall
      unfold elaFiletransferAdd
      split
      · exact h
      · exact h.offerItem hf (Option.some_ne_none _)
    · cases hcall
  | op fileid op chs sent =>
    obtain rfl := Option.some.inj hcall
    have hopened : ∀ i c, ft.Live i → (ft.files i).channel = some c → c ≠ 0 := fun i c hi hc hz =>
      (h i hi).2 (hz ▸ hc)
    cases fileCall_outcome hopened fileid op sent with
    | refused hft => rw [hft]; exact h
    | done i c ch item role allowed channel found status went hft channels packet =>
      rw [hft]
      refine h.setState (fun hnone => ?_) _
      rw [hnone] at allowed
      cases op <;> cases allowed

theorem Equipped.calls (h : Equipped ft) {calls : List ItemCall} (hcalls : itemCalls ft calls = some ft') :
    Equipped ft' := by
  induction calls generalizing ft with
  | nil => exact Option.some.inj hcalls ▸ h
  | cons call calls ih =>
    obtain ⟨t, hcall, hrest⟩ := Option.bind_eq_some_iff.mp hcalls
    exact ih (h.call hcall) hrest

theorem Equipped.openFirst (h : Equipped ft) {chs : Channels Nat} {alloc : Alloc} {sent : Bool}
    (hopen : openFirst ft chs alloc sent = some ft') : Equipped ft' := by
  rcases openFirst_cases hopen with rfl | ⟨-, hstate, hf, rfl⟩
  · exact h
  · exact h.offerItem hf (h 0 (live_of_state (by decide) hstate)).1

theorem Equipped.channelOpen (h : Equipped ft) {c : ChannelId} (hc : c ≠ 0) (cookie : Option CString) :
    Equipped (streamChannelOpen ft c cookie).1 := by
  have hchannel : some c ≠ some 0 := fun he => hc (Option.some.inj he)
  have hout := streamChannelOpen_outcome ft c cookie
  generalize streamChannelOpen ft c cookie = r at hout ⊢
  cases hout with
  | refused => exact h
  | placed o i free absent => exact h.put fun _ => ⟨Option.some_ne_none _, hchannel⟩
  | bound o i role read found state size =>
    exact h.put fun _ => ⟨(h i (live_of_state (by decide) state)).1, hchannel⟩

theorem Equipped.event (h : Equipped ft) (e : MuxEvent) (more : Bool) : Equipped (handleEvent ft more e).1 := by
  have hout := handleEvent_outcome ft e more
  generalize (handleEvent ft more e).1 = t at hout ⊢
  cases hout with
  | unchanged => exact h
  | restated i state live later => exact h.setState live state
  | ended i c item found state closes => exact h.put fun hs => absurd state hs

theorem equipped_step {input : ItemsInput} {o : List FileEvent} (h : Equipped ft)
    (hstep : itemsStep ft input = some (ft', o)) : Equipped ft' := by
  cases input with
  | connect role =>
    simp only [itemsStep] at hstep
    split at hstep <;> cases hstep
    exact h
  | reported state =>
    simp only [itemsStep] at hstep
    split at hstep <;> cases hstep
    exact h
  | connected calls chs alloc sent =>
    simp only [itemsStep] at hstep
    split at hstep
    · obtain ⟨u, hu, hpair⟩ := Option.map_eq_some_iff.mp hstep
      obtain ⟨t, ht, hfirst⟩ := Option.bind_eq_some_iff.mp hu
      obtain rfl := (Prod.mk.inj hpair).1
      have hconnected : Equipped { ft with state := .connected } := h
      exact (hconnected.calls ht).openFirst hfirst
    · cases hstep
  | call call =>
    obtain ⟨t, ht, hpair⟩ := Option.map_eq_some_iff.mp hstep
    obtain rfl := (Prod.mk.inj hpair).1
    exact h.call ht
  | channelOpen channel cookie =>
    simp only [itemsStep] at hstep
    split at hstep
    next hc =>
      cases hstep
      exact h.channelOpen hc cookie
    · cases hstep
  | event e more =>
    obtain rfl := (Prod.mk.inj (Option.some.inj hstep)).1
    exact h.event e more

theorem equipped_new {info : Option FileInfo} {drawn : PublicKey} {ext alloc : Bool}
    (h : elaFiletransferNew info drawn ext alloc = .ok ft) : Equipped ft := by
  intro i hi
  obtain ⟨-, hname, hchannel⟩ := live_new h hi
  rw [hchannel]
  exact ⟨hname, (Option.some_ne_none 0).symm⟩

/-! What depends on the searches. -/

theorem findsName_isSome {filename : CString} (h : ft.FindsName filename) (length : Nat) :
    (elaFiletransferGetFileid ft filename length).isSome := by
  obtain ⟨found, hfound, -⟩ := h
  unfold elaFiletransferGetFileid
  split
  · rfl
  · rw [hfound]
    rfl

theorem findsId_isSome {fileid : CString} (hequipped : Equipped ft) (h : ft.FindsId fileid) (length : Nat) :
    (elaFiletransferGetFilename ft fileid length).isSome := by
  unfold elaFiletransferGetFilename
  split
  · rfl
  · split
    · rfl
    next i hi =>
      obtain ⟨name, hname⟩ := Option.ne_none_iff_exists'.mp (hequipped i (h.1 i hi).1).1
      rw [hname]
      rfl

/-- Where no live item has the id, a search that is right finds nothing. -/
theorem liveFirst_absent {fileid : CString} (hnone : ∀ i, ft.Live i → (ft.files i).fileid ≠ fileid) :
    ft.LiveFirst fileid ↔ ft.getFileinfoFileid fileid = none := by
  rw [← findsId_iff]
  constructor
  · rintro ⟨hlive, -⟩
    cases hi : ft.getFileinfoFileid fileid with
    | none => rfl
    | some i =>
      obtain ⟨hi', hid⟩ := hlive i hi
      exact absurd hid (hnone i hi')
  · intro hi
    rw [ElaFileTransfer.FindsId, hi]
    exact ⟨nofun, fun _ => hnone⟩

/-- A call on an item that has ended is refused, but not as one on an item that does not exist. -/
theorem checkItem_ended {fileid : CString} {fits : FileTransferItem → Bool} {role : Role}
    {allowed : FileTransferState → Bool} (hi : ft.getFileinfoFileid fileid = some i) (hended : ¬ ft.Live i)
    (hallowed : allowed .none = false) : ∃ e, checkItem ft fileid fits role allowed = .error e ∧ e ≠ .notExist := by
  have hstate : (ft.files i).state = .none := not_not.mp hended
  unfold checkItem
  split
  · exact ⟨_, rfl, by decide⟩
  · simp only [hi, hstate, hallowed]
    split
    · exact ⟨_, rfl, by decide⟩
    split
    · exact ⟨_, rfl, by decide⟩
    split
    · exact ⟨_, rfl, by decide⟩
    · exact ⟨_, rfl, by decide⟩

theorem callItem_absent {fileid : CString} {fits : FileTransferItem → Bool} {role : Role}
    {allowed : FileTransferState → Bool} (hne : fileid ≠ .empty)
    (hended : ∀ i, ft.getFileinfoFileid fileid = some i → ¬ ft.Live i) (hallowed : allowed .none = false)
    (chs : Channels Nat) (state : FileTransferState → FileTransferState) (call : ChannelId → MuxResult Nat) :
    (callItem ft chs (checkItem ft fileid fits role allowed) state call).ret = .error .notExist ↔
      ft.getFileinfoFileid fileid = none := by
  cases hi : ft.getFileinfoFileid fileid with
  | none =>
    have hcheck : checkItem ft fileid fits role allowed = .error .notExist := by
      rw [checkItem, if_neg hne, hi]
    exact iff_of_true (by simp only [callItem, hcheck]) rfl
  | some i =>
    obtain ⟨e, hcheck, he⟩ : ∃ e, checkItem ft fileid fits role allowed = .error e ∧ e ≠ .notExist :=
      checkItem_ended hi (hended i hi) hallowed
    refine iff_of_false (fun hret => ?_) (Option.some_ne_none i)
    simp only [callItem, hcheck] at hret
    exact he (Except.error.inj hret)

theorem fileCall_absent {fileid : CString} (hne : fileid ≠ .empty)
    (hnone : ∀ i, ft.Live i → (ft.files i).fileid ≠ fileid) (chs : Channels Nat) (sent : Bool) (op : FileCall) :
    (fileCall ft chs fileid sent op).ret = .error .notExist ↔ ft.LiveFirst fileid := by
  have hended : ∀ i, ft.getFileinfoFileid fileid = some i → ¬ ft.Live i := fun i hi hlive =>
    hnone i hlive (of_decide_eq_true (find_slot.mp hi).1)
  rw [liveFirst_absent hnone]
  cases op <;> exact callItem_absent hne hended rfl chs _ _

/-- A file that is not live can be offered where a search for its id is right. -/
theorem streamChannelOpen_absent {cookie : Option CString} {o : Offer} (hrole : ft.senderReceiver = .receiver)
    (hread : cookie.bind scanOffer = some o) (hnone : ∀ i, ft.Live i → (ft.files i).fileid ≠ o.fileid)
    (hfree : ft.getFileinfoFree.isSome) (c : ChannelId) :
    (streamChannelOpen ft c cookie).2 = true ↔ ft.LiveFirst o.fileid := by
  rw [liveFirst_absent hnone]
  obtain ⟨k, hk⟩ := Option.isSome_iff_exists.mp hfree
  have hreceiver : ¬ ft.senderReceiver ≠ .receiver := fun h => h hrole
  simp only [streamChannelOpen, if_neg hreceiver, hread]
  cases hi : ft.getFileinfoFileid o.fileid with
  | none => exact iff_of_true (by simp only [hk]) rfl
  | some i =>
    have hstate : (ft.files i).state ≠ .standby := fun hs =>
      hnone i (live_of_state (by decide) hs) (of_decide_eq_true (find_slot.mp hi).1)
    exact iff_of_false (by simp only [if_pos hstate]; decide) (Option.some_ne_none i)

/-- In every reachable state a search by name is right where only slots with other names come before the item, and a
search by id where no item that has ended comes before the live one; with them what reads the item's name, the calls
on a file that is not there and the offer of a file that has ended. -/
theorem lookups_find_live_iff {info : Option FileInfo} {drawn : PublicKey} {ext alloc : Bool} {u : ElaFileTransfer}
    {is : List ItemsInput} {os : List FileEvent} (hnew : elaFiletransferNew info drawn ext alloc = .ok ft)
    (h : itemsMachine.Run Machine.Free ft is os u) :
    (∀ filename length, (elaFiletransferGetFileid u filename length).isSome ∧ u.FindsName filename ↔
      u.NamesLead filename) ∧
    (∀ fileid length, (elaFiletransferGetFilename u fileid length).isSome ∧ u.FindsId fileid ↔ u.LiveFirst fileid) ∧
    (∀ fileid chs sent op, fileid ≠ .empty → (∀ i, u.Live i → (u.files i).fileid ≠ fileid) →
      ((fileCall u chs fileid sent op).ret = .error .notExist ↔ u.LiveFirst fileid)) ∧
    ∀ c cookie o, u.senderReceiver = .receiver → cookie.bind scanOffer = some o →
      (∀ i, u.Live i → (u.files i).fileid ≠ o.fileid) → u.getFileinfoFree.isSome →
        ((streamChannelOpen u c cookie).2 = true ↔ u.LiveFirst o.fileid) := by
  have hequipped : Equipped u := by
    apply h.invariant _ (equipped_new hnew)
    exact fun hs _ hstep => equipped_step hs hstep
  refine ⟨fun filename length => ?_, fun fileid length => ?_, fun fileid chs sent op hne hnone =>
    fileCall_absent hne hnone chs sent op, fun c cookie o hrole hread hnone hfree =>
    streamChannelOpen_absent hrole hread hnone hfree c⟩
  · rw [and_iff_right_of_imp fun hfinds => findsName_isSome hfinds length, findsName_iff]
  · rw [and_iff_right_of_imp fun hfinds => findsId_isSome hequipped hfinds length, findsId_iff]

/-- The receiver is offered a file and its channel closes. -/
def offeredAndClosed : List ItemsInput :=
  connecting .receiver ++ [.channelOpen 3 (some givenCookie), .event (.channelClose 3 .normal) true]

/-- While the file is on offer it is found by its id. -/
theorem offered_file_found : ∃ u os, itemsMachine.Run Machine.Free emptyTransfer
    (connecting .receiver ++ [.channelOpen 3 (some givenCookie)]) os u ∧
    u.Live 0 ∧ u.FindsId (Friends.base58Key 7).text := by
  obtain ⟨u, os, he, hp⟩ := itemsMachine.exec_any emptyTransfer
    (connecting .receiver ++ [.channelOpen 3 (some givenCookie)])
    (fun r => decide (r.1.Live 0 ∧ r.1.LiveFirst (Friends.base58Key 7).text)) (by decide +kernel)
  have hnew : elaFiletransferNew none 0 true true = .ok emptyTransfer := rfl
  have hrun := Machine.free_run_of_exec he
  obtain ⟨hlive, hfirst⟩ := of_decide_eq_true hp
  exact ⟨u, os, hrun, hlive, (((lookups_find_live_iff hnew hrun).2.1 _ 1).mpr hfirst).2⟩

/-- After the file has ended, its name and its id are looked up through NULL, and it is not taken when it is offered
again. -/
theorem ended_file_found : ∃ u os, itemsMachine.Run Machine.Free emptyTransfer offeredAndClosed os u ∧
    (∀ i, ¬ u.Live i) ∧ elaFiletransferGetFileid u (shortName 97 (by decide)) 46 = none ∧
    elaFiletransferGetFilename u (Friends.base58Key 7).text 1 = none ∧
    (fileCall u ∅ (Friends.base58Key 7).text true .pend).ret ≠ .error .notExist ∧
    (streamChannelOpen u 5 (some givenCookie)).2 = false := by
  obtain ⟨u, os, he, hp⟩ := itemsMachine.exec_any emptyTransfer offeredAndClosed
    (fun r => decide ((∀ i, ¬ r.1.Live i) ∧ elaFiletransferGetFileid r.1 (shortName 97 (by decide)) 46 = none ∧
      elaFiletransferGetFilename r.1 (Friends.base58Key 7).text 1 = none ∧
      (fileCall r.1 ∅ (Friends.base58Key 7).text true .pend).ret ≠ .error .notExist ∧
      (streamChannelOpen r.1 5 (some givenCookie)).2 = false)) (by decide +kernel)
  exact ⟨u, os, Machine.free_run_of_exec he, of_decide_eq_true hp⟩

end CarrierSdk.FileTransfer
