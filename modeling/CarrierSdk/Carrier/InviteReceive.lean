import CarrierSdk.Carrier.State

/-! The receive path of a carrier node: messages, invite requests and invite responses.
A handler is undefined where it copies a string past its array or reads through NULL. -/
namespace CarrierSdk

/-- A name in the fragment must be the one the assembly was created with. -/
def extMismatch (a : TransactedAssembly) (name : Option CString) : Bool :=
  name.any fun name => decide (a.ext ≠ name)

/-- The checks an invite request fragment fails to be dropped. The sum of the offset and
a length that is at most the unit does not wrap around. -/
def requestRejected (ireq : TransactedAssembly) (friendid : UserId) (cp : ElaCPInviteReq) : Bool :=
  extMismatch ireq cp.ext || decide (ireq.friendid ≠ friendid) || decide (cp.data.length = 0) ||
    decide (inviteDataUnit < cp.data.length) ||
    decide (ireq.dataLen < ireq.dataOff + cp.data.length)

def newRequestAssembly (w : ElaCarrier) (friendid : UserId) (cp : ElaCPInviteReq) :
    Option TransactedAssembly := do
  let ext ← CString.strcpy (elaMaxExtensionNameLen + 1) (cp.ext.getD .empty)
  some { ext, friendid, tid := cp.tid, bundle := cp.bundle, reason := none, data := []
         dataLen := cp.totalsz, expireTime := w.now + tassemblyTimeout }

/-- The sender string under which an invite is recorded. -/
def inviteFrom (friendid : UserId) (name : Option CString) : CString :=
  match name with
  | some name => (friendid.text.strcat colon).strcat name
  | none => friendid.text

/-- Who hears of a complete invite: the session extension, the application, or nobody. -/
def notifyInvite (w : ElaCarrier) (friendid : UserId) (name : Option CString)
    (ireq : TransactedAssembly) : List Notice :=
  match name with
  | some name =>
      if name = sessionName ∧ w.session then [.sessionInvite friendid ireq.bundle ireq.data] else []
  | none => if w.friendInvite then [.friendInvite friendid ireq.bundle ireq.data] else []

/-- handle_invite_request from the fragment checks on. -/
def addRequestFragment (w : ElaCarrier) (friendid : UserId) (cp : ElaCPInviteReq)
    (needAdd : Bool) (ireq : TransactedAssembly) : Option (ElaCarrier × List Notice) :=
  if requestRejected ireq friendid cp then some (w, [])
  else
    let ireq := ireq.append cp.data
    if ireq.dataOff = ireq.dataLen then do
      let sender ← CString.strcpy historyKeySize (inviteFrom friendid cp.ext)
      let w' ← transactionHistoryPutInvite w sender cp.tid
      let ireqs := if needAdd then w'.tassemblyIreqs else w'.tassemblyIreqs.erase cp.tid
      some ({ w' with tassemblyIreqs := ireqs }, notifyInvite w friendid cp.ext ireq)
    else some ({ w with tassemblyIreqs := w.tassemblyIreqs.insert cp.tid ireq }, [])

/-- handle_invite_request. -/
def handleInviteRequest (w : ElaCarrier) (friendNumber : FriendNumber) (cp : ElaCPInviteReq) :
    Option (ElaCarrier × List Notice) :=
  match w.friends.lookup friendNumber with
  | none => some (w, [])
  | some fi =>
    match w.tassemblyIreqs.lookup cp.tid with
    | some ireq => addRequestFragment w fi.userid cp false ireq
    | none =>
      if cp.totalsz = 0 ∨ elaMaxInviteDataLen < cp.totalsz then some (w, [])
      else (newRequestAssembly w fi.userid cp).bind (addRequestFragment w fi.userid cp true)

/-- The payload of a response fragment; a refusal has none. -/
def responseData (cp : ElaCPInviteRsp) : List UInt8 := if cp.status ≠ 0 then [] else cp.data

def responseReason (cp : ElaCPInviteRsp) : Option CString :=
  if cp.status ≠ 0 then cp.reason else none

/-- The checks an invite response fragment fails to be dropped. -/
def responseRejected (irsp : TransactedAssembly) (friendid : UserId) (cp : ElaCPInviteRsp) : Bool :=
  extMismatch irsp cp.ext || decide (irsp.friendid ≠ friendid) ||
    decide (inviteDataUnit < (responseData cp).length) ||
    decide (irsp.dataLen < irsp.dataOff + (responseData cp).length)

def newResponseAssembly (w : ElaCarrier) (friendid : UserId) (cp : ElaCPInviteRsp) :
    Option TransactedAssembly := do
  let ext ← CString.strcpy (elaMaxExtensionNameLen + 1) (cp.ext.getD .empty)
  some { ext, friendid, tid := cp.tid, bundle := cp.bundle, reason := responseReason cp, data := []
         dataLen := cp.totalsz, expireTime := w.now + tassemblyTimeout }

/-- handle_invite_response from the fragment checks on. -/
def addResponseFragment (w : ElaCarrier) (friendid : UserId) (tcb : TransactedCallback)
    (cp : ElaCPInviteRsp) (needAdd : Bool) (irsp : TransactedAssembly) : ElaCarrier × List Notice :=
  if responseRejected irsp friendid cp then (w, [])
  else
    let irsp := irsp.append (responseData cp)
    if irsp.dataOff = irsp.dataLen then
      let w' := transactedCallbacksRemove w cp.tid
      let irsps := if needAdd then w'.tassemblyIrsps else w'.tassemblyIrsps.erase cp.tid
      ({ w' with tassemblyIrsps := irsps },
        [.inviteResponse tcb.callbackContext friendid irsp.bundle cp.status (responseReason cp)
          irsp.data])
    else ({ w with tassemblyIrsps := w.tassemblyIrsps.insert cp.tid irsp }, [])

/-- handle_invite_response. The length of an absent reason is taken before any check. -/
def handleInviteResponse (w : ElaCarrier) (friendNumber : FriendNumber) (cp : ElaCPInviteRsp) :
    Option (ElaCarrier × List Notice) :=
  match w.friends.lookup friendNumber with
  | none => some (w, [])
  | some fi =>
    match w.tcallbacks.lookup cp.tid with
    | none => some (w, [])
    | some tcb =>
      if cp.status ≠ 0 ∧ cp.reason = none then none
      else
        match w.tassemblyIrsps.lookup cp.tid with
        | some irsp => some (addResponseFragment w fi.userid tcb cp false irsp)
        | none =>
          if elaMaxInviteDataLen < cp.totalsz then some (w, [])
          else (newResponseAssembly w fi.userid cp).map (addResponseFragment w fi.userid tcb cp true)

/-- handle_friend_message. -/
def handleFriendMessage (w : ElaCarrier) (friendNumber : FriendNumber) (cp : ElaCPFriendMsg) :
    List Notice :=
  match w.friends.lookup friendNumber with
  | none => []
  | some fi =>
    if w.friendMessage ∧ cp.ext = none then [.friendMessage fi.userid cp.msg] else []

/-- notify_friend_message_cb. -/
def notifyFriendMessage (w : ElaCarrier) (friendNumber : FriendNumber) (packet : FlatPacket) :
    Option (ElaCarrier × List Notice) :=
  match elacpDecode packet with
  | some (.friendMsg cp) => some (w, handleFriendMessage w friendNumber cp)
  | some (.inviteReq cp) => handleInviteRequest w friendNumber cp
  | some (.inviteRsp cp) => handleInviteResponse w friendNumber cp
  | _ => some (w, [])

/-! What one fragment can do. -/

/-- The assembly a request fragment joins: the one held under its tid, or a new one. -/
inductive JoinsRequest (w : ElaCarrier) (friendid : UserId) (cp : ElaCPInviteReq) :
    TransactedAssembly → Prop
  | held {a : TransactedAssembly} : w.tassemblyIreqs.lookup cp.tid = some a → JoinsRequest w friendid cp a
  | fresh {a : TransactedAssembly} : w.tassemblyIreqs.lookup cp.tid = none → cp.totalsz ≠ 0 →
      cp.totalsz ≤ elaMaxInviteDataLen → newRequestAssembly w friendid cp = some a →
      JoinsRequest w friendid cp a

/-- The three things an invite request fragment can do. It is ignored where it comes from
no friend, can join no assembly, or fails a check. -/
inductive RequestStep (w : ElaCarrier) (friendNumber : FriendNumber) (cp : ElaCPInviteReq) :
    ElaCarrier → List Notice → Prop
  | ignored : (∀ fi a, w.friends.lookup friendNumber = some fi → JoinsRequest w fi.userid cp a →
      requestRejected a fi.userid cp = true) → RequestStep w friendNumber cp w []
  | stored {fi : FriendInfo} {a : TransactedAssembly} :
      w.friends.lookup friendNumber = some fi → JoinsRequest w fi.userid cp a →
      requestRejected a fi.userid cp = false → a.dataOff + cp.data.length ≠ a.dataLen →
      RequestStep w friendNumber cp
        { w with tassemblyIreqs := w.tassemblyIreqs.insert cp.tid (a.append cp.data) } []
  | delivered {fi : FriendInfo} {a : TransactedAssembly} {key : CString} :
      w.friends.lookup friendNumber = some fi → JoinsRequest w fi.userid cp a →
      requestRejected a fi.userid cp = false → a.dataOff + cp.data.length = a.dataLen →
      (inviteFrom fi.userid cp.ext).strlen < historyKeySize →
      historyKey (inviteFrom fi.userid cp.ext) = some key →
      RequestStep w friendNumber cp
        { w with
          thistory := w.thistory.insert key cp.tid
          tassemblyIreqs := w.tassemblyIreqs.erase cp.tid }
        (notifyInvite w fi.userid cp.ext (a.append cp.data))

/-- A fragment has one assembly to join at most. -/
theorem JoinsRequest.unique {w : ElaCarrier} {friendid : UserId} {cp : ElaCPInviteReq}
    {a b : TransactedAssembly} (ha : JoinsRequest w friendid cp a) (hb : JoinsRequest w friendid cp b) :
    a = b := by
  cases ha with
  | held ha =>
    cases hb with
    | held hb => exact Option.some.inj (ha.symm.trans hb)
    | fresh hb => cases ha.symm.trans hb
  | fresh ha _ _ hn =>
    cases hb with
    | held hb => cases ha.symm.trans hb
    | fresh _ _ _ hn' => exact Option.some.inj (hn.symm.trans hn')

private theorem addRequestFragment_step {w w' : ElaCarrier} {fn : FriendNumber} {fi : FriendInfo}
    {cp : ElaCPInviteReq} {needAdd : Bool} {a : TransactedAssembly} {ns : List Notice}
    (hf : w.friends.lookup fn = some fi) (hj : JoinsRequest w fi.userid cp a)
    (hn : needAdd = true → w.tassemblyIreqs.lookup cp.tid = none)
    (h : addRequestFragment w fi.userid cp needAdd a = some (w', ns)) :
    RequestStep w fn cp w' ns := by
  unfold addRequestFragment at h
  split at h
  · next hr =>
    cases h
    refine .ignored fun fi' b hf' hb => ?_
    rw [hf, Option.some.injEq] at hf'
    subst hf'
    rw [hb.unique hj, hr]
  · next hr =>
    rw [Bool.not_eq_true] at hr
    simp only [TransactedAssembly.dataOff_append, TransactedAssembly.append_dataLen] at h
    split at h
    · next hd =>
      simp only [Option.bind_eq_bind, Option.bind_eq_some_iff, CString.strcpy_eq_some,
        transactionHistoryPutInvite, Option.map_eq_some_iff] at h
      obtain ⟨_, ⟨hlen, rfl⟩, _, ⟨key, hk, rfl⟩, h⟩ := h
      simp only [Option.some.injEq, Prod.mk.injEq] at h
      obtain ⟨rfl, rfl⟩ := h
      have he : (if needAdd = true then w.tassemblyIreqs else w.tassemblyIreqs.erase cp.tid) =
          w.tassemblyIreqs.erase cp.tid := by
        split
        · next hb => exact (Table.erase_of_free (hn hb)).symm
        · rfl
      rw [he]
      exact .delivered hf hj hr hd hlen hk
    · next hd =>
      cases h
      exact .stored hf hj hr hd

/-- Whatever handle_invite_request does is one of the three steps. -/
theorem handleInviteRequest_step {w w' : ElaCarrier} {fn : FriendNumber} {cp : ElaCPInviteReq}
    {ns : List Notice} (h : handleInviteRequest w fn cp = some (w', ns)) :
    RequestStep w fn cp w' ns := by
  unfold handleInviteRequest at h
  split at h
  · next hf =>
    cases h
    exact .ignored fun fi a hf' => by rw [hf] at hf'; cases hf'
  · next fi hf =>
    split at h
    · next a ha => exact addRequestFragment_step hf (.held ha) (by simp) h
    · next ha =>
      split at h
      · next ht =>
        cases h
        refine .ignored fun fi' b _ hb => ?_
        cases hb with
        | held hb => cases ha.symm.trans hb
        | fresh _ hz hm => exact absurd ht (by omega)
      · next ht =>
        obtain ⟨a, hn, h⟩ := Option.bind_eq_some_iff.mp h
        have hz : cp.totalsz ≠ 0 := fun hz => ht (.inl hz)
        have hm : cp.totalsz ≤ elaMaxInviteDataLen := Nat.le_of_not_lt fun hm => ht (.inr hm)
        exact addRequestFragment_step hf (.fresh ha hz hm hn) (fun _ => ha) h

/-- The assembly a response fragment joins. -/
inductive JoinsResponse (w : ElaCarrier) (friendid : UserId) (cp : ElaCPInviteRsp) :
    TransactedAssembly → Prop
  | held {a : TransactedAssembly} : w.tassemblyIrsps.lookup cp.tid = some a → JoinsResponse w friendid cp a
  | fresh {a : TransactedAssembly} : w.tassemblyIrsps.lookup cp.tid = none →
      cp.totalsz ≤ elaMaxInviteDataLen → newResponseAssembly w friendid cp = some a →
      JoinsResponse w friendid cp a

/-- The three things an invite response fragment can do. -/
inductive ResponseStep (w : ElaCarrier) (friendNumber : FriendNumber) (cp : ElaCPInviteRsp) :
    ElaCarrier → List Notice → Prop
  | ignored : ResponseStep w friendNumber cp w []
  | stored {fi : FriendInfo} {tcb : TransactedCallback} {a : TransactedAssembly} :
      w.friends.lookup friendNumber = some fi → w.tcallbacks.lookup cp.tid = some tcb →
      JoinsResponse w fi.userid cp a → responseRejected a fi.userid cp = false →
      a.dataOff + (responseData cp).length ≠ a.dataLen →
      ResponseStep w friendNumber cp
        { w with tassemblyIrsps := w.tassemblyIrsps.insert cp.tid (a.append (responseData cp)) } []
  | delivered {fi : FriendInfo} {tcb : TransactedCallback} {a : TransactedAssembly} :
      w.friends.lookup friendNumber = some fi → w.tcallbacks.lookup cp.tid = some tcb →
      JoinsResponse w fi.userid cp a → responseRejected a fi.userid cp = false →
      a.dataOff + (responseData cp).length = a.dataLen →
      ResponseStep w friendNumber cp
        { w with
          tcallbacks := w.tcallbacks.erase cp.tid
          tassemblyIrsps := w.tassemblyIrsps.erase cp.tid }
        [.inviteResponse tcb.callbackContext fi.userid a.bundle cp.status (responseReason cp)
          (a.data ++ responseData cp)]

private theorem addResponseFragment_step {w : ElaCarrier} {fn : FriendNumber} {fi : FriendInfo}
    {tcb : TransactedCallback} {cp : ElaCPInviteRsp} {needAdd : Bool} {a : TransactedAssembly}
    (hf : w.friends.lookup fn = some fi) (ht : w.tcallbacks.lookup cp.tid = some tcb)
    (hj : JoinsResponse w fi.userid cp a)
    (hn : needAdd = true → w.tassemblyIrsps.lookup cp.tid = none) :
    ResponseStep w fn cp (addResponseFragment w fi.userid tcb cp needAdd a).1
      (addResponseFragment w fi.userid tcb cp needAdd a).2 := by
  unfold addResponseFragment
  split
  · exact .ignored
  · next hr =>
    rw [Bool.not_eq_true] at hr
    simp only [TransactedAssembly.dataOff_append, TransactedAssembly.append_dataLen]
    split
    · next hd =>
      have he : (if needAdd = true then w.tassemblyIrsps else w.tassemblyIrsps.erase cp.tid) =
          w.tassemblyIrsps.erase cp.tid := by
        split
        · next hb => exact (Table.erase_of_free (hn hb)).symm
        · rfl
      simp only [transactedCallbacksRemove]
      rw [he]
      exact .delivered hf ht hj hr hd
    · next hd => exact .stored hf ht hj hr hd

/-- Whatever handle_invite_response does is one of the three steps. -/
theorem handleInviteResponse_step {w w' : ElaCarrier} {fn : FriendNumber} {cp : ElaCPInviteRsp}
    {ns : List Notice} (h : handleInviteResponse w fn cp = some (w', ns)) :
    ResponseStep w fn cp w' ns := by
  unfold handleInviteResponse at h
  split at h
  · cases h
    exact .ignored
  · next fi hf =>
    split at h
    · cases h
      exact .ignored
    · next tcb ht =>
      split at h
      · cases h
      · split at h
        · next a ha =>
          obtain ⟨rfl, rfl⟩ := Prod.mk.injEq .. ▸ Option.some.inj h
          exact addResponseFragment_step hf ht (.held ha) (by simp)
        · next ha =>
          split at h
          · cases h
            exact .ignored
          · next hm =>
            obtain ⟨a, hn, he⟩ := Option.map_eq_some_iff.mp h
            obtain ⟨rfl, rfl⟩ := Prod.mk.injEq .. ▸ he
            exact addResponseFragment_step hf ht (.fresh ha (Nat.le_of_not_lt hm) hn) (fun _ => ha)

end CarrierSdk
