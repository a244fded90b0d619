import CarrierSdk.Carrier.InviteReceive
import CarrierSdk.Carrier.InviteSend

/-! Reassembly undoes fragmentation, for invites and for their replies. -/
namespace CarrierSdk

/-- Hands packets of one friend to the node in order, with the notices of each. -/
def deliver (friendNumber : FriendNumber) :
    ElaCarrier → List FlatPacket → Option (ElaCarrier × List (List Notice))
  | w, [] => some (w, [])
  | w, packet :: packets =>
    (notifyFriendMessage w friendNumber packet).bind fun r =>
      (deliver friendNumber r.1 packets).map fun q => (q.1, r.2 :: q.2)

/-- Silence for all packets but the last. -/
def atLast (n : Nat) (ns : List Notice) : List (List Notice) := List.replicate (n - 1) [] ++ [ns]

theorem atLast_succ {n : Nat} (hn : 0 < n) (ns : List Notice) :
    atLast (n + 1) ns = [] :: atLast n ns := by
  obtain ⟨k, rfl⟩ := Nat.exists_eq_succ_of_ne_zero (Nat.pos_iff_ne_zero.mp hn)
  rfl

/-- The callback that a complete invite calls, if it is set. -/
def inviteNotices (v : ElaCarrier) (friendid : UserId) (ext bundle : Option CString)
    (data : List UInt8) : List Notice :=
  match ext with
  | none => if v.friendInvite then [.friendInvite friendid bundle data] else []
  | some name =>
      if name = sessionName ∧ v.session then [.sessionInvite friendid bundle data] else []

theorem notifyInvite_eq (v : ElaCarrier) (friendid : UserId) (ext : Option CString)
    (a : TransactedAssembly) :
    notifyInvite v friendid ext a = inviteNotices v friendid ext a.bundle a.data := by
  cases ext <;> rfl

theorem notify_request {w : ElaCarrier} {fn : FriendNumber} {cp : ElaCPInviteReq}
    {packet : FlatPacket} (hp : elacpEncode (.inviteReq cp) = some packet) (ht : cp.totalsz < 2 ^ 32) :
    notifyFriendMessage w fn packet = handleInviteRequest w fn cp := by
  have hd := decode_encode_inviteReq cp ht
  rw [hp, Option.bind_some] at hd
  rw [notifyFriendMessage, hd]

theorem notify_response {w : ElaCarrier} {fn : FriendNumber} {cp : ElaCPInviteRsp}
    {packet : FlatPacket} (hp : elacpEncode (.inviteRsp cp) = some packet) (ht : cp.totalsz < 2 ^ 32)
    (hr : cp.status ≠ 0 → cp.reason.isSome ∧ cp.data = []) (ha : cp.status = 0 → cp.reason = none) :
    notifyFriendMessage w fn packet = handleInviteResponse w fn cp := by
  have hd := decode_encode_inviteRsp cp ht hr ha
  rw [hp, Option.bind_some] at hd
  rw [notifyFriendMessage, hd]

/-! Requests. -/

/-- The extension name of an assembly and of the fragments that belong to it. -/
abbrev NamedBy (a : TransactedAssembly) (name : Option CString) : Prop := a.ext = name.getD .empty

theorem extMismatch_named {a : TransactedAssembly} {name : Option CString} (h : NamedBy a name) :
    extMismatch a name = false := by
  cases name with
  | none => rfl
  | some name => simpa [extMismatch, NamedBy] using h

/-- A fragment that fits the assembly passes every check. -/
theorem requestRejected_fits {a : TransactedAssembly} {friendid : UserId} {cp : ElaCPInviteReq}
    (he : NamedBy a cp.ext) (hf : a.friendid = friendid)
    (hd : 0 < cp.data.length ∧ cp.data.length ≤ inviteDataUnit)
    (ht : a.dataOff + cp.data.length ≤ a.dataLen) : requestRejected a friendid cp = false := by
  simp only [requestRejected, extMismatch_named he, hf, ne_eq, not_true_eq_false, decide_false,
    Bool.false_or, Bool.or_eq_false_iff, decide_eq_false_iff_not]
  omega

theorem inviteFrom_fits {friendid : UserId} {ext : Option CString}
    (he : ∀ e, ext = some e → e.strlen ≤ elaMaxExtensionNameLen) :
    (inviteFrom friendid ext).strlen ≤ 76 := by
  have hs := friendid.short
  cases ext with
  | none => exact Nat.le_trans hs (by omega)
  | some e =>
    have := he e rfl
    simp only [inviteFrom, CString.strlen_strcat, elaMaxExtensionNameLen] at *
    have : colon.strlen = 1 := rfl
    omega

/-- The key under which the history records an invite. -/
def inviteKey (friendid : UserId) (ext : Option CString) : CString :=
  historyPrefix.strcat (inviteFrom friendid ext)

private theorem addRequest_last {w : ElaCarrier} {friendid : UserId} {cp : ElaCPInviteReq}
    {needAdd : Bool} {a : TransactedAssembly} (hr : requestRejected a friendid cp = false)
    (hd : a.dataOff + cp.data.length = a.dataLen)
    (he : ∀ e, cp.ext = some e → e.strlen ≤ elaMaxExtensionNameLen) :
    addRequestFragment w friendid cp needAdd a = some
      ({ w with
          thistory := w.thistory.insert (inviteKey friendid cp.ext) cp.tid
          tassemblyIreqs := if needAdd then w.tassemblyIreqs else w.tassemblyIreqs.erase cp.tid },
        inviteNotices w friendid cp.ext a.bundle (a.data ++ cp.data)) := by
  have hl : (inviteFrom friendid cp.ext).strlen ≤ 76 := inviteFrom_fits he
  have hc : (inviteFrom friendid cp.ext).strlen < historyKeySize := Nat.lt_of_le_of_lt hl (by decide)
  simp only [addRequestFragment, hr, Bool.false_eq_true, if_false, TransactedAssembly.dataOff_append,
    TransactedAssembly.append_dataLen, hd, if_true, CString.strcpy_fits hc, transactionHistoryPutInvite,
    historyKey_fits hl, Option.map_some, Option.bind_eq_bind, Option.bind_some, notifyInvite_eq,
    TransactedAssembly.append_bundle, TransactedAssembly.append_data, inviteKey]

private theorem addRequest_more {w : ElaCarrier} {friendid : UserId} {cp : ElaCPInviteReq}
    {needAdd : Bool} {a : TransactedAssembly} (hr : requestRejected a friendid cp = false)
    (hd : a.dataOff + cp.data.length ≠ a.dataLen) :
    addRequestFragment w friendid cp needAdd a =
      some ({ w with tassemblyIreqs := w.tassemblyIreqs.insert cp.tid (a.append cp.data) }, []) := by
  simp only [addRequestFragment, hr, Bool.false_eq_true, if_false, TransactedAssembly.dataOff_append,
    TransactedAssembly.append_dataLen, hd]

theorem deliver_cons {fn : FriendNumber} {w w' w'' : ElaCarrier} {packet : FlatPacket}
    {packets : List FlatPacket} {ns : List Notice} {nss : List (List Notice)}
    (h : notifyFriendMessage w fn packet = some (w', ns))
    (hs : deliver fn w' packets = some (w'', nss)) :
    deliver fn w (packet :: packets) = some (w'', ns :: nss) := by
  simp only [deliver, h, Option.bind_some, hs, Option.map_some]

/-- The fragments after the first one, handed to an assembly that they fill up. -/
private theorem deliver_laterRequests {w : ElaCarrier} {fn : FriendNumber} {fi : FriendInfo}
    {ext : Option CString} {tid : Tid} {a : TransactedAssembly} {ds : List (List UInt8)}
    {packets : List FlatPacket} (hf : w.friends.lookup fn = some fi)
    (hfree : w.tassemblyIreqs.lookup tid = none) (hds : Pieces inviteDataUnit ds ds.flatten)
    (hne : ds ≠ []) (ha : NamedBy a ext) (hi : a.friendid = fi.userid)
    (ht : a.dataOff + ds.flatten.length = a.dataLen)
    (he : ∀ e, ext = some e → e.strlen ≤ elaMaxExtensionNameLen)
    (hp : Encodes ((ds.map (laterRequest ext tid)).map .inviteReq) packets) :
    deliver fn { w with tassemblyIreqs := w.tassemblyIreqs.insert tid a } packets = some
      ({ w with thistory := w.thistory.insert (inviteKey fi.userid ext) tid },
        atLast packets.length (inviteNotices w fi.userid ext a.bundle (a.data ++ ds.flatten))) := by
  induction ds generalizing a packets with
  | nil => exact absurd rfl hne
  | cons d ds ih =>
    obtain ⟨packet, packets, hpk, hps, rfl⟩ := List.forall₂_cons_left_iff.mp hp
    rw [List.flatten_cons, List.length_append] at ht
    have hr : requestRejected a fi.userid (laterRequest ext tid d) = false :=
      requestRejected_fits ha hi hds.head (by change a.dataOff + d.length ≤ a.dataLen; omega)
    let w' := { w with tassemblyIreqs := w.tassemblyIreqs.insert tid a }
    have hheld : w'.tassemblyIreqs.lookup tid = some a := AList.lookup_insert _
    have hstep : notifyFriendMessage w' fn packet =
        addRequestFragment w' fi.userid (laterRequest ext tid d) false a := by
      rw [notify_request hpk (by simp [laterRequest])]
      simp only [handleInviteRequest, hf, w', laterRequest, AList.lookup_insert]
    cases ds with
    | nil =>
      cases hps
      have hd : a.dataOff + (laterRequest ext tid d).data.length = a.dataLen := by
        simpa [laterRequest] using ht
      rw [addRequest_last hr hd he] at hstep
      refine (deliver_cons hstep rfl).trans ?_
      simp [w', laterRequest, inviteNotices, atLast, Table.erase_insert_of_free hfree]
    | cons d' ds =>
      have hpos : 0 < (d' :: ds).flatten.length := hds.tail.flatten_pos
      have hd : a.dataOff + (laterRequest ext tid d).data.length ≠ a.dataLen := by
        change a.dataOff + d.length ≠ a.dataLen
        omega
      rw [addRequest_more hr hd] at hstep
      have ht' : (a.append d).dataOff + (d' :: ds).flatten.length = (a.append d).dataLen := by
        rw [TransactedAssembly.dataOff_append, TransactedAssembly.append_dataLen]
        omega
      have ha' : NamedBy (a.append d) ext := ha
      have hi' : (a.append d).friendid = fi.userid := hi
      have hrest := ih hds.tail (List.cons_ne_nil _ _) ha' hi' ht' hps
      have hw : (w'.tassemblyIreqs.insert tid (a.append d)) = w.tassemblyIreqs.insert tid (a.append d) :=
        AList.insert_insert _
      have hlen : 0 < packets.length := by rw [← hps.length_eq]; simp
      simp only [laterRequest, hw] at hstep
      refine (deliver_cons hstep hrest).trans ?_
      rw [List.length_cons, atLast_succ hlen, TransactedAssembly.append_data, List.append_assoc]
      rfl

theorem newRequestAssembly_fits {w : ElaCarrier} {friendid : UserId} {cp : ElaCPInviteReq}
    (he : ∀ e, cp.ext = some e → e.strlen ≤ elaMaxExtensionNameLen) :
    newRequestAssembly w friendid cp = some
      { ext := cp.ext.getD .empty, friendid, tid := cp.tid, bundle := cp.bundle, reason := none
        data := [], dataLen := cp.totalsz, expireTime := w.now + tassemblyTimeout } := by
  have hl : (cp.ext.getD .empty).strlen < elaMaxExtensionNameLen + 1 := by
    cases hc : cp.ext with
    | none => decide
    | some e => exact Nat.lt_succ_of_le (he e hc)
  simp only [newRequestAssembly, CString.strcpy_fits hl, Option.bind_eq_bind, Option.bind_some]

/-- All the fragments of an invite, handed to a node that holds nothing under its tid. -/
theorem deliver_invite {w : ElaCarrier} {fn : FriendNumber} {fi : FriendInfo}
    {ext bundle : Option CString} {tid : Tid} {data d : List UInt8} {ds : List (List UInt8)}
    {packets : List FlatPacket} (hf : w.friends.lookup fn = some fi)
    (hfree : w.tassemblyIreqs.lookup tid = none) (hds : Pieces inviteDataUnit (d :: ds) data)
    (hm : data.length ≤ elaMaxInviteDataLen)
    (he : ∀ e, ext = some e → e.strlen ≤ elaMaxExtensionNameLen)
    (hp : Encodes (({ ext, tid, bundle, totalsz := data.length, data := d } ::
      ds.map (laterRequest ext tid)).map .inviteReq) packets) :
    deliver fn w packets = some
      ({ w with thistory := w.thistory.insert (inviteKey fi.userid ext) tid },
        atLast packets.length (inviteNotices w fi.userid ext bundle data)) := by
  obtain ⟨packet, packets, hpk, hps, rfl⟩ := List.forall₂_cons_left_iff.mp hp
  have hlen := hds.length_eq
  have hd := hds.head
  have hsmall : data.length < 2 ^ 32 := Nat.lt_of_le_of_lt hm (by decide)
  have hz : ¬(data.length = 0 ∨ elaMaxInviteDataLen < data.length) := by omega
  -- The first fragment creates the assembly that all of them fill.
  let cp : ElaCPInviteReq := { ext, tid, bundle, totalsz := data.length, data := d }
  let a : TransactedAssembly :=
    { ext := ext.getD .empty, friendid := fi.userid, tid, bundle, reason := none
      data := [], dataLen := data.length, expireTime := w.now + tassemblyTimeout }
  have ha : NamedBy a ext := rfl
  have hr : requestRejected a fi.userid cp = false :=
    requestRejected_fits ha rfl hd (by change 0 + d.length ≤ data.length; omega)
  have hn : newRequestAssembly w fi.userid cp = some a := newRequestAssembly_fits he
  have hstep : notifyFriendMessage w fn packet = addRequestFragment w fi.userid cp true a := by
    rw [notify_request hpk hsmall]
    simp only [handleInviteRequest, hf, hfree, hz, if_false]
    rw [hn, Option.bind_some]
  cases ds with
  | nil =>
    cases hps
    have hdata : data = d := by simpa using hds.flatten.symm
    have hdone : a.dataOff + cp.data.length = a.dataLen := by
      change 0 + d.length = data.length
      rw [Nat.zero_add, hdata]
    rw [addRequest_last hr hdone he] at hstep
    refine (deliver_cons hstep rfl).trans ?_
    rw [hdata]
    rfl
  | cons d' ds =>
    have hpos : 0 < (d' :: ds).flatten.length := hds.tail.flatten_pos
    have hmore : a.dataOff + cp.data.length ≠ a.dataLen := by
      change 0 + d.length ≠ data.length
      omega
    rw [addRequest_more hr hmore] at hstep
    have ha' : NamedBy (a.append d) ext := ha
    have ht : (a.append d).dataOff + (d' :: ds).flatten.length = (a.append d).dataLen := by
      change ([] ++ d).length + _ = data.length
      rwa [List.nil_append]
    have hrest := deliver_laterRequests hf hfree hds.tail (List.cons_ne_nil _ _) ha' rfl ht he hps
    refine (deliver_cons hstep hrest).trans ?_
    have hlen : 0 < packets.length := by rw [← hps.length_eq]; simp
    rw [List.length_cons, atLast_succ hlen, ← hds.flatten, List.flatten_cons]
    rfl

/-! Responses. -/

/-- What every response fragment of one reply has. -/
structure ResponseFits (a : TransactedAssembly) (friendid : UserId) (cp : ElaCPInviteRsp) : Prop where
  named : NamedBy a cp.ext
  sender : a.friendid = friendid
  unit : (responseData cp).length ≤ inviteDataUnit
  room : a.dataOff + (responseData cp).length ≤ a.dataLen

theorem responseRejected_fits {a : TransactedAssembly} {friendid : UserId} {cp : ElaCPInviteRsp}
    (h : ResponseFits a friendid cp) : responseRejected a friendid cp = false := by
  have hu := h.unit
  have hr := h.room
  simp only [responseRejected, extMismatch_named h.named, h.sender, ne_eq, not_true_eq_false,
    decide_false, Bool.false_or, Bool.or_eq_false_iff, decide_eq_false_iff_not]
  omega

theorem addResponse_last {w : ElaCarrier} {friendid : UserId} {tcb : TransactedCallback}
    {cp : ElaCPInviteRsp} {needAdd : Bool} {a : TransactedAssembly}
    (h : ResponseFits a friendid cp) (hd : a.dataOff + (responseData cp).length = a.dataLen) :
    addResponseFragment w friendid tcb cp needAdd a =
      ({ w with
          tcallbacks := w.tcallbacks.erase cp.tid
          tassemblyIrsps := if needAdd then w.tassemblyIrsps else w.tassemblyIrsps.erase cp.tid },
        [.inviteResponse tcb.callbackContext friendid a.bundle cp.status (responseReason cp)
          (a.data ++ responseData cp)]) := by
  simp only [addResponseFragment, responseRejected_fits h, Bool.false_eq_true, if_false,
    TransactedAssembly.dataOff_append, TransactedAssembly.append_dataLen, hd, if_true,
    transactedCallbacksRemove, TransactedAssembly.append_bundle, TransactedAssembly.append_data]

theorem addResponse_more {w : ElaCarrier} {friendid : UserId} {tcb : TransactedCallback}
    {cp : ElaCPInviteRsp} {needAdd : Bool} {a : TransactedAssembly}
    (h : ResponseFits a friendid cp) (hd : a.dataOff + (responseData cp).length ≠ a.dataLen) :
    addResponseFragment w friendid tcb cp needAdd a =
      ({ w with tassemblyIrsps := w.tassemblyIrsps.insert cp.tid (a.append (responseData cp)) }, []) := by
  simp only [addResponseFragment, responseRejected_fits h, Bool.false_eq_true, if_false,
    TransactedAssembly.dataOff_append, TransactedAssembly.append_dataLen, hd]

/-- A data fragment after the first one finds the assembly that is held. -/
theorem notify_laterResponse {w : ElaCarrier} {fn : FriendNumber} {fi : FriendInfo}
    {ext : Option CString} {tid : Tid} {tcb : TransactedCallback} {a : TransactedAssembly}
    {d : List UInt8} {packet : FlatPacket} (hf : w.friends.lookup fn = some fi)
    (hc : w.tcallbacks.lookup tid = some tcb) (ha : w.tassemblyIrsps.lookup tid = some a)
    (hp : elacpEncode (.inviteRsp (laterResponse ext tid d)) = some packet) :
    notifyFriendMessage w fn packet =
      some (addResponseFragment w fi.userid tcb (laterResponse ext tid d) false a) := by
  rw [notify_response hp (by simp [laterResponse]) (by simp [laterResponse]) (by simp [laterResponse])]
  simp only [handleInviteResponse, hf, hc, ha, laterResponse, ne_eq, not_true_eq_false, false_and,
    if_false]

/-- The data fragments after the first one, handed to an assembly that they fill up. -/
private theorem deliver_laterResponses {w : ElaCarrier} {fn : FriendNumber} {fi : FriendInfo}
    {ext : Option CString} {tid : Tid} {tcb : TransactedCallback} {a : TransactedAssembly}
    {ds : List (List UInt8)} {packets : List FlatPacket} (hf : w.friends.lookup fn = some fi)
    (hc : w.tcallbacks.lookup tid = some tcb) (hfree : w.tassemblyIrsps.lookup tid = none)
    (hds : Pieces inviteDataUnit ds ds.flatten) (hne : ds ≠ []) (ha : NamedBy a ext)
    (hi : a.friendid = fi.userid) (ht : a.dataOff + ds.flatten.length = a.dataLen)
    (hp : Encodes ((ds.map (laterResponse ext tid)).map .inviteRsp) packets) :
    deliver fn { w with tassemblyIrsps := w.tassemblyIrsps.insert tid a } packets = some
      ({ w with tcallbacks := w.tcallbacks.erase tid },
        atLast packets.length
          [.inviteResponse tcb.callbackContext fi.userid a.bundle 0 none (a.data ++ ds.flatten)]) := by
  induction ds generalizing a packets with
  | nil => exact absurd rfl hne
  | cons d ds ih =>
    obtain ⟨packet, packets, hpk, hps, rfl⟩ := List.forall₂_cons_left_iff.mp hp
    rw [List.flatten_cons, List.length_append] at ht
    have hfit : ResponseFits a fi.userid (laterResponse ext tid d) :=
      ⟨ha, hi, hds.head.2, by change a.dataOff + d.length ≤ a.dataLen; omega⟩
    let w' := { w with tassemblyIrsps := w.tassemblyIrsps.insert tid a }
    have hstep : notifyFriendMessage w' fn packet =
        some (addResponseFragment w' fi.userid tcb (laterResponse ext tid d) false a) :=
      notify_laterResponse hf hc (AList.lookup_insert _) hpk
    cases ds with
    | nil =>
      cases hps
      have hd : a.dataOff + (responseData (laterResponse ext tid d)).length = a.dataLen := by
        simpa [laterResponse, responseData] using ht
      rw [addResponse_last hfit hd] at hstep
      refine (deliver_cons hstep rfl).trans ?_
      simp [w', laterResponse, responseData, responseReason, atLast, Table.erase_insert_of_free hfree]
    | cons d' ds =>
      have hpos : 0 < (d' :: ds).flatten.length := hds.tail.flatten_pos
      have hd : a.dataOff + (responseData (laterResponse ext tid d)).length ≠ a.dataLen := by
        change a.dataOff + d.length ≠ a.dataLen
        omega
      rw [addResponse_more hfit hd] at hstep
      have ht' : (a.append d).dataOff + (d' :: ds).flatten.length = (a.append d).dataLen := by
        rw [TransactedAssembly.dataOff_append, TransactedAssembly.append_dataLen]
        omega
      have ha' : NamedBy (a.append d) ext := ha
      have hi' : (a.append d).friendid = fi.userid := hi
      have hrest := ih hds.tail (List.cons_ne_nil _ _) ha' hi' ht' hps
      have hw : (w'.tassemblyIrsps.insert tid (a.append d)) = w.tassemblyIrsps.insert tid (a.append d) :=
        AList.insert_insert _
      have hdata : responseData (laterResponse ext tid d) = d := rfl
      have hlen : 0 < packets.length := by rw [← hps.length_eq]; simp
      rw [hdata] at hstep
      simp only [laterResponse, hw] at hstep
      refine (deliver_cons hstep hrest).trans ?_
      rw [List.length_cons, atLast_succ hlen, TransactedAssembly.append_data, List.append_assoc]
      rfl

theorem newResponseAssembly_fits {w : ElaCarrier} {friendid : UserId} {cp : ElaCPInviteRsp}
    (he : ∀ e, cp.ext = some e → e.strlen ≤ elaMaxExtensionNameLen) :
    newResponseAssembly w friendid cp = some
      { ext := cp.ext.getD .empty, friendid, tid := cp.tid, bundle := cp.bundle
        reason := responseReason cp, data := [], dataLen := cp.totalsz
        expireTime := w.now + tassemblyTimeout } := by
  have hl : (cp.ext.getD .empty).strlen < elaMaxExtensionNameLen + 1 := by
    cases hc : cp.ext with
    | none => decide
    | some e => exact Nat.lt_succ_of_le (he e hc)
  simp only [newResponseAssembly, CString.strcpy_fits hl, Option.bind_eq_bind, Option.bind_some]

/-- The first fragment of an acceptance, and the assembly it creates. -/
def firstAcceptance (ext : Option CString) (tid : Tid) (bundle : Option CString) (totalsz : Nat)
    (d : List UInt8) : ElaCPInviteRsp :=
  { ext, tid, bundle, totalsz, status := 0, reason := none, data := d }

def acceptanceAssembly (w : ElaCarrier) (friendid : UserId) (ext : Option CString) (tid : Tid)
    (bundle : Option CString) (totalsz : Nat) : TransactedAssembly :=
  { ext := ext.getD .empty, friendid, tid, bundle, reason := none, data := []
    dataLen := totalsz, expireTime := w.now + tassemblyTimeout }

theorem notify_firstAcceptance {w : ElaCarrier} {fn : FriendNumber} {fi : FriendInfo}
    {ext bundle : Option CString} {tid : Tid} {tcb : TransactedCallback} {totalsz : Nat}
    {d : List UInt8} {packet : FlatPacket} (hf : w.friends.lookup fn = some fi)
    (hc : w.tcallbacks.lookup tid = some tcb) (hfree : w.tassemblyIrsps.lookup tid = none)
    (hm : totalsz ≤ elaMaxInviteDataLen)
    (he : ∀ e, ext = some e → e.strlen ≤ elaMaxExtensionNameLen)
    (hp : elacpEncode (.inviteRsp (firstAcceptance ext tid bundle totalsz d)) = some packet) :
    notifyFriendMessage w fn packet =
      some (addResponseFragment w fi.userid tcb (firstAcceptance ext tid bundle totalsz d) true
        (acceptanceAssembly w fi.userid ext tid bundle totalsz)) := by
  have hsmall : totalsz < 2 ^ 32 := Nat.lt_of_le_of_lt hm (by decide)
  have hn : newResponseAssembly w fi.userid (firstAcceptance ext tid bundle totalsz d) =
      some (acceptanceAssembly w fi.userid ext tid bundle totalsz) := newResponseAssembly_fits he
  rw [notify_response hp hsmall (by simp [firstAcceptance]) (by simp [firstAcceptance])]
  have ht : ¬elaMaxInviteDataLen < (firstAcceptance ext tid bundle totalsz d).totalsz :=
    Nat.not_lt.mpr hm
  have hs : (firstAcceptance ext tid bundle totalsz d).status = 0 := rfl
  have hc' : w.tcallbacks.lookup (firstAcceptance ext tid bundle totalsz d).tid = some tcb := hc
  have hfree' : w.tassemblyIrsps.lookup (firstAcceptance ext tid bundle totalsz d).tid = none := hfree
  simp only [handleInviteResponse, hf, hc', hfree', hs, ne_eq, not_true_eq_false, false_and,
    if_false, ht, hn, Option.map_some]

/-- The fragments of an acceptance, handed to the inviter while it holds none of them. -/
theorem deliver_acceptance {w : ElaCarrier} {fn : FriendNumber} {fi : FriendInfo}
    {ext bundle : Option CString} {tid : Tid} {tcb : TransactedCallback} {data d : List UInt8}
    {ds : List (List UInt8)} {packets : List FlatPacket} (hf : w.friends.lookup fn = some fi)
    (hc : w.tcallbacks.lookup tid = some tcb) (hfree : w.tassemblyIrsps.lookup tid = none)
    (hds : Pieces inviteDataUnit (d :: ds) data) (hm : data.length ≤ elaMaxInviteDataLen)
    (he : ∀ e, ext = some e → e.strlen ≤ elaMaxExtensionNameLen)
    (hp : Encodes (({ ext, tid, bundle, totalsz := data.length, status := 0, reason := none
                      data := d } :: ds.map (laterResponse ext tid)).map .inviteRsp) packets) :
    deliver fn w packets = some
      ({ w with tcallbacks := w.tcallbacks.erase tid },
        atLast packets.length
          [.inviteResponse tcb.callbackContext fi.userid bundle 0 none data]) := by
  obtain ⟨packet, packets, hpk, hps, rfl⟩ := List.forall₂_cons_left_iff.mp hp
  have hlen := hds.length_eq
  have hd := hds.head
  let cp := firstAcceptance ext tid bundle data.length d
  let a := acceptanceAssembly w fi.userid ext tid bundle data.length
  have hfit : ResponseFits a fi.userid cp :=
    ⟨rfl, rfl, hd.2, by change 0 + d.length ≤ data.length; omega⟩
  have hstep : notifyFriendMessage w fn packet =
      some (addResponseFragment w fi.userid tcb cp true a) :=
    notify_firstAcceptance hf hc hfree hm he hpk
  cases ds with
  | nil =>
    cases hps
    have hdata : data = d := by simpa using hds.flatten.symm
    have hdone : a.dataOff + (responseData cp).length = a.dataLen := by
      change 0 + d.length = data.length
      rw [Nat.zero_add, hdata]
    rw [addResponse_last hfit hdone] at hstep
    refine (deliver_cons hstep rfl).trans ?_
    rw [hdata]
    rfl
  | cons d' ds =>
    have hpos : 0 < (d' :: ds).flatten.length := hds.tail.flatten_pos
    have hmore : a.dataOff + (responseData cp).length ≠ a.dataLen := by
      change 0 + d.length ≠ data.length
      omega
    rw [addResponse_more hfit hmore] at hstep
    have ha' : NamedBy (a.append d) ext := rfl
    have ht : (a.append d).dataOff + (d' :: ds).flatten.length = (a.append d).dataLen := by
      change ([] ++ d).length + _ = data.length
      rwa [List.nil_append]
    have hrest := deliver_laterResponses hf hc hfree hds.tail (List.cons_ne_nil _ _) ha' rfl ht hps
    refine (deliver_cons hstep hrest).trans ?_
    have hlen : 0 < packets.length := by rw [← hps.length_eq]; simp
    rw [List.length_cons, atLast_succ hlen, ← hds.flatten, List.flatten_cons]
    rfl

/-- A refusal, handed to the inviter while it holds nothing under the tid. -/
theorem deliver_refusal {w : ElaCarrier} {fn : FriendNumber} {fi : FriendInfo}
    {ext bundle : Option CString} {tid : Tid} {tcb : TransactedCallback} {status : Int32}
    {reason : CString} {packets : List FlatPacket} (hf : w.friends.lookup fn = some fi)
    (hc : w.tcallbacks.lookup tid = some tcb) (hfree : w.tassemblyIrsps.lookup tid = none)
    (hs : status ≠ 0) (he : ∀ e, ext = some e → e.strlen ≤ elaMaxExtensionNameLen)
    (hp : Encodes ([{ ext, tid, bundle, totalsz := 0, status, reason := some reason
                      data := [] }].map .inviteRsp) packets) :
    deliver fn w packets = some
      ({ w with tcallbacks := w.tcallbacks.erase tid },
        atLast packets.length
          [.inviteResponse tcb.callbackContext fi.userid bundle status (some reason) []]) := by
  obtain ⟨packet, packets, hpk, hps, rfl⟩ := List.forall₂_cons_left_iff.mp hp
  cases hps
  let cp : ElaCPInviteRsp :=
    { ext, tid, bundle, totalsz := 0, status, reason := some reason, data := [] }
  let a : TransactedAssembly :=
    { ext := ext.getD .empty, friendid := fi.userid, tid, bundle, reason := responseReason cp
      data := [], dataLen := 0, expireTime := w.now + tassemblyTimeout }
  have hdata : responseData cp = [] := if_pos hs
  have hreason : responseReason cp = some reason := if_pos hs
  have hfit : ResponseFits a fi.userid cp := 
    ⟨rfl, rfl, by rw [hdata]; exact Nat.zero_le _, by rw [hdata]; exact Nat.le_refl 0⟩
  have hn : newResponseAssembly w fi.userid cp = some a := newResponseAssembly_fits he
  have hstep : notifyFriendMessage w fn packet =
      some (addResponseFragment w fi.userid tcb cp true a) := by
    rw [notify_response hpk (by simp) (by simp) (fun h => absurd h hs)]
    simp only [handleInviteResponse, hf, hc, hfree, reduceCtorEq, and_false, if_false, Nat.not_lt_zero]
    rw [hn, Option.map_some]
  have hdone : a.dataOff + (responseData cp).length = a.dataLen := by
    rw [hdata]
    rfl
  rw [addResponse_last hfit hdone, hreason, hdata] at hstep
  exact deliver_cons hstep rfl

/-! The calls. -/

/-- What a node does with all the fragments of an invite that a friend sent it. -/
def InviteArrives (w : ElaCarrier) (fn : FriendNumber) (fi : FriendInfo) (tid : Tid)
    (ext bundle : Option CString) (data : List UInt8) (packets : List FlatPacket) : Prop :=
  deliver fn w packets = some
    ({ w with thistory := w.thistory.insert (inviteKey fi.userid ext) tid },
      atLast packets.length (inviteNotices w fi.userid ext bundle data))

/-- What an inviter does with all the fragments of a reply to a pending invite. -/
def ReplyArrives (w : ElaCarrier) (fn : FriendNumber) (fi : FriendInfo) (tid : Tid)
    (tcb : TransactedCallback) (bundle : Option CString) (status : Int32)
    (reason : Option CString) (data : List UInt8) (packets : List FlatPacket) : Prop :=
  deliver fn w packets = some
    ({ w with tcallbacks := w.tcallbacks.erase tid },
      atLast packets.length
        [.inviteResponse tcb.callbackContext fi.userid bundle status reason data])

private theorem invite_arrives {env : CallEnv} {w : ElaCarrier} {r : CallResult} {context : Nat}
    {addr : CString} {bundle ext : Option CString} {n : FriendNumber} {data : List UInt8}
    (hd : 0 < data.length) (hm : data.length ≤ elaMaxInviteDataLen)
    (hb : bundleInvalid bundle = false)
    (haddr : checkAddress env w (some addr) = .ok (addr, ext, n))
    (h : elaInviteFriend env w (some addr) bundle (some data) (some context) = some r)
    (hr : r.error = none) {v : ElaCarrier} {fn : FriendNumber} {fi : FriendInfo}
    (hf : v.friends.lookup fn = some fi) (hfree : v.tassemblyIreqs.lookup env.tid = none) :
    InviteArrives v fn fi env.tid ext bundle data r.sent := by
  have hbad : ¬(bundleInvalid bundle = true ∨ data.length = 0 ∨ elaMaxInviteDataLen < data.length) := by
    rw [hb]
    simp only [Bool.false_eq_true, false_or]
    omega
  simp only [elaInviteFriend, if_neg hbad, haddr] at h
  obtain ⟨d, ds, hds, hfr⟩ := inviteFragments_pieces hd (bundleLength_valid hb)
  rw [hfr] at h
  rcases sendInvite_cases (List.cons_ne_nil _ _) h with ⟨-, -, -, hs⟩ | ⟨he, -⟩ | ⟨he, -⟩
  · exact deliver_invite hf hfree hds hm (fun e he => ((checkAddress_ok haddr).2.2.1 e he).2) hs
  · exact absurd hr he
  · exact absurd hr he

private theorem reply_arrives {env : CallEnv} {w : ElaCarrier} {r : CallResult} {addr : CString}
    {bundle reason : Option CString} {status : Int32} {data : Option (List UInt8)}
    (h : elaReplyFriendInvite env w (some addr) bundle status reason data = some r)
    (hr : r.error = none) {tid : Tid} (htid : transactionHistoryGetInvite w addr = some tid)
    {v : ElaCarrier} {fn : FriendNumber} {fi : FriendInfo} {tcb : TransactedCallback}
    (hf : v.friends.lookup fn = some fi) (hc : v.tcallbacks.lookup tid = some tcb)
    (hfree : v.tassemblyIrsps.lookup tid = none) :
    ReplyArrives v fn fi tid tcb bundle status reason (data.getD []) r.sent := by
  rcases elaReplyFriendInvite_cases h with ⟨he, -⟩ | ⟨tid', k, hsend⟩
  · exact absurd hr he
  obtain rfl := Option.some.inj (htid.symm.trans hsend.history)
  have hb := hsend.validBundle
  have he := hsend.validExt
  have hs := hsend.sent
  rw [List.take_of_length_le (hsend.complete.mp hr)] at hs
  rcases replyInvalid_cases hsend.validReply with ⟨hst, hrs, d, rfl, hd, hm⟩ | ⟨hst, reason, rfl, rfl⟩
  · subst hst hrs
    obtain ⟨p, ps, hps, hfr⟩ := replyFragments_accept hd (bundleLength_valid hb)
    rw [Option.getD_some, hfr] at hs
    exact deliver_acceptance hf hc hfree hps hm he hs
  · rw [Option.getD_none, List.length_nil, Nat.zero_add, replyFragments_refuse hst] at hs
    exact deliver_refusal hf hc hfree hst he hs

/-- Reassembly undoes fragmentation. An invite of any admissible payload, bundle and extension
name goes out whole, and a friend that holds nothing under its tid hears of it once, with its
last fragment. The same holds for a reply that returned no error, as long as it is awaited. -/
theorem fragments_reassemble :
    (∀ (env : CallEnv) (w : ElaCarrier) (addr : CString) (bundle ext : Option CString)
      (n : FriendNumber) (data : List UInt8) (context : Nat),
      0 < data.length → data.length ≤ elaMaxInviteDataLen → bundleInvalid bundle = false →
      checkAddress env w (some addr) = .ok (addr, ext, n) → (∀ i, env.accepts i = true) →
      ∃ r, elaInviteFriend env w (some addr) bundle (some data) (some context) = some r ∧
        r.error = none ∧
        ∀ (v : ElaCarrier) (fn : FriendNumber) (fi : FriendInfo), v.friends.lookup fn = some fi →
          v.tassemblyIreqs.lookup env.tid = none →
          InviteArrives v fn fi env.tid ext bundle data r.sent) ∧
    ∀ (env : CallEnv) (w : ElaCarrier) (addr : CString) (bundle reason : Option CString)
      (status : Int32) (data : Option (List UInt8)) (r : CallResult) (tid : Tid),
      elaReplyFriendInvite env w (some addr) bundle status reason data = some r → r.error = none →
      transactionHistoryGetInvite w addr = some tid →
      ∀ (v : ElaCarrier) (fn : FriendNumber) (fi : FriendInfo) (tcb : TransactedCallback),
        v.friends.lookup fn = some fi → v.tcallbacks.lookup tid = some tcb →
        v.tassemblyIrsps.lookup tid = none →
        ReplyArrives v fn fi tid tcb bundle status reason (data.getD []) r.sent := by
  refine ⟨?_, fun env w addr bundle reason status data r tid h hr ht v fn fi tcb hf hc hfree =>
    reply_arrives h hr ht hf hc hfree⟩
  intro env w addr bundle ext n data context hd hm hb haddr hacc
  have hbad : ¬(bundleInvalid bundle = true ∨ data.length = 0 ∨ elaMaxInviteDataLen < data.length) := by
    rw [hb]
    simp only [Bool.false_eq_true, false_or]
    omega
  obtain ⟨p, ps, -, hfr⟩ : ∃ d ds, Pieces inviteDataUnit (d :: ds) data ∧
      inviteFragments ext env.tid bundle data.length 0 (bundleLength bundle) data = _ :=
    inviteFragments_pieces hd (bundleLength_valid hb)
  have hne : inviteFragments ext env.tid bundle data.length 0 (bundleLength bundle) data ≠ [] := by
    rw [hfr]
    exact List.cons_ne_nil _ _
  obtain ⟨r, hs, hr⟩ := sendInvite_accepted hacc hne
  have h : elaInviteFriend env w (some addr) bundle (some data) (some context) = some r := by
    simp only [elaInviteFriend, if_neg hbad, haddr]
    exact hs
  exact ⟨r, h, hr, fun v fn fi hf hfree => invite_arrives hd hm hb haddr h hr hf hfree⟩

/-- An invite in two fragments to friend zero, and a reply of one byte to friend one. -/
theorem fragments_reassemble_small :
    (∃ r, elaInviteFriend (.small 5 0) .twoFriends (some (UserId.small 0).text) (some colon)
        (some (List.replicate 1281 7)) (some 3) = some r ∧ r.error = none ∧
      InviteArrives .twoFriends 1 ⟨1, .small 1⟩ 5 none (some colon) (List.replicate 1281 7) r.sent) ∧
    ∃ r, elaReplyFriendInvite (.small 0 0)
        { ElaCarrier.twoFriends with thistory := AList.insert (inviteKey (.small 1) none) 5 ∅ }
        (some (UserId.small 1).text) none 0 none (some [9]) = some r ∧ r.error = none ∧
      ReplyArrives { ElaCarrier.twoFriends with
        tcallbacks := AList.insert 5 (inviteCallback (.small 5 0) none 3) ∅ } 0 ⟨0, .small 0⟩ 5
        (inviteCallback (.small 5 0) none 3) none 0 none [9] r.sent := by
  refine ⟨?_, ?_⟩
  · have hpos : 0 < (List.replicate 1281 (7 : UInt8)).length := by
      rw [List.length_replicate]
      decide
    have hmax : (List.replicate 1281 (7 : UInt8)).length ≤ elaMaxInviteDataLen := by
      rw [List.length_replicate]
      decide
    obtain ⟨r, h, hr, hv⟩ := fragments_reassemble.1 (.small 5 0) .twoFriends (UserId.small 0).text
      (some colon) none 0 (List.replicate 1281 7) 3 hpos hmax
      (by decide) rfl (fun _ => rfl)
    exact ⟨r, h, hr, hv .twoFriends 1 ⟨1, .small 1⟩ rfl rfl⟩
  · have hok : (elaReplyFriendInvite (.small 0 0)
        { ElaCarrier.twoFriends with thistory := AList.insert (inviteKey (.small 1) none) 5 ∅ }
        (some (UserId.small 1).text) none 0 none (some [9])).any (fun r => decide (r.error = none)) =
        true := by decide +kernel
    obtain ⟨r, h, hr⟩ := (Option.any_eq_true _ _).mp hok
    exact ⟨r, h, of_decide_eq_true hr, fragments_reassemble.2 _ _ _ none none 0 (some [9]) r 5 h
      (of_decide_eq_true hr) rfl _ 0 ⟨0, .small 0⟩ (inviteCallback (.small 5 0) none 3) rfl rfl rfl⟩

end CarrierSdk
