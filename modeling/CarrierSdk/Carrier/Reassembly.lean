import CarrierSdk.Carrier.Node

/-! The bounds of the two assembly tables. The first fragment fixes the size of an assembly, and
the fragments of any friend that come later bring sizes of their own. -/
namespace CarrierSdk

/-- A request assembly between two of its fragments. -/
def PartialRequest (a : TransactedAssembly) : Prop :=
  0 < a.dataOff ∧ a.dataOff < a.dataLen ∧ a.dataLen ≤ elaMaxInviteDataLen

/-- A response assembly between two of its fragments, which may have brought no data yet. -/
def PartialResponse (a : TransactedAssembly) : Prop :=
  a.dataOff < a.dataLen ∧ a.dataLen ≤ elaMaxInviteDataLen

structure AssembliesBounded (w : ElaCarrier) : Prop where
  requests : ∀ tid a, w.tassemblyIreqs.lookup tid = some a → PartialRequest a
  responses : ∀ tid a, w.tassemblyIrsps.lookup tid = some a → PartialResponse a

/-- The returns of handle_invite_request before its memcpy. -/
def dropsRequest (w : ElaCarrier) (fn : FriendNumber) (cp : ElaCPInviteReq) : Bool :=
  match w.friends.lookup fn with
  | none => true
  | some fi =>
    match w.tassemblyIreqs.lookup cp.tid with
    | some ireq => requestRejected ireq fi.userid cp
    | none =>
      decide (cp.totalsz = 0 ∨ elaMaxInviteDataLen < cp.totalsz) ||
        (newRequestAssembly w fi.userid cp).any fun ireq => requestRejected ireq fi.userid cp

/-- The returns of handle_invite_response before its memcpy. -/
def dropsResponse (w : ElaCarrier) (fn : FriendNumber) (cp : ElaCPInviteRsp) : Bool :=
  match w.friends.lookup fn, w.tcallbacks.lookup cp.tid with
  | some fi, some _ =>
    match w.tassemblyIrsps.lookup cp.tid with
    | some irsp => responseRejected irsp fi.userid cp
    | none =>
      decide (elaMaxInviteDataLen < cp.totalsz) ||
        (newResponseAssembly w fi.userid cp).any fun irsp => responseRejected irsp fi.userid cp
  | _, _ => true

/-- The data that a notice hands to the application. -/
def Notice.data : Notice → List UInt8
  | .friendMessage _ msg => msg
  | .friendInvite _ _ data => data
  | .sessionInvite _ _ data => data
  | .inviteResponse _ _ _ _ _ data => data

/-- A fragment is dropped and changes nothing, or its payload is copied into the data area of an
assembly. What is delivered then fills the area. -/
structure Reassembles (drops : Bool) (joins : TransactedAssembly → Prop) (payload : List UInt8)
    (w w' : ElaCarrier) (ns : List NodeOutput) : Prop where
  dropped : drops = true →
    w'.tassemblyIreqs = w.tassemblyIreqs ∧ w'.tassemblyIrsps = w.tassemblyIrsps ∧ ns = []
  copied : drops = false → ∃ a, joins a ∧ a.dataOff + payload.length ≤ a.dataLen ∧
    ∀ o ∈ ns, a.dataOff + payload.length = a.dataLen ∧
      ∃ n, o = .arrived n ∧ n.data = a.data ++ payload

/-- Whoever hears of an invite is handed the data of its assembly. -/
theorem notifyInvite_data {w : ElaCarrier} {friendid : UserId} {name : Option CString} {a : TransactedAssembly} :
    ∀ n ∈ notifyInvite w friendid name a, n.data = a.data := by
  intro n hn
  unfold notifyInvite at hn
  split at hn
  · split at hn
    · rw [List.mem_singleton.mp hn]
      rfl
    · cases hn
  · split at hn
    · rw [List.mem_singleton.mp hn]
      rfl
    · cases hn

section Requests
variable {w w' : ElaCarrier} {fn : FriendNumber} {cp : ElaCPInviteReq} {ns : List Notice}

/-- A fragment that joins an assembly is dropped exactly where it fails a check. -/
theorem dropsRequest_joins {fi : FriendInfo} {a : TransactedAssembly} (hfi : w.friends.lookup fn = some fi)
    (hjoins : JoinsRequest w fi.userid cp a) : dropsRequest w fn cp = requestRejected a fi.userid cp := by
  cases hjoins with
  | held ha => simp only [dropsRequest, hfi, ha]
  | fresh ha hz hmax hnew =>
    have hsize : ¬ (cp.totalsz = 0 ∨ elaMaxInviteDataLen < cp.totalsz) := by omega
    simp only [dropsRequest, hfi, ha, hnew, Option.any_some, decide_eq_false hsize, Bool.false_or]

/-- Where the handler is defined, a fragment that is not dropped has an assembly to join. -/
theorem joins_of_not_dropped (hdrop : dropsRequest w fn cp = false)
    (h : handleInviteRequest w fn cp = some (w', ns)) :
    ∃ fi a, w.friends.lookup fn = some fi ∧ JoinsRequest w fi.userid cp a := by
  unfold handleInviteRequest at h
  unfold dropsRequest at hdrop
  split at h
  · next hfi => simp [hfi] at hdrop
  · next fi hfi =>
    split at h
    · next a ha => exact ⟨fi, a, hfi, .held ha⟩
    · next ha =>
      simp only [hfi, ha, Bool.or_eq_false_iff, decide_eq_false_iff_not] at hdrop
      rw [if_neg hdrop.1] at h
      obtain ⟨a, hnew, -⟩ := Option.bind_eq_some_iff.mp h
      exact ⟨fi, a, hfi, .fresh ha (by omega) (by omega) hnew⟩

/-- The check of the sizes keeps the copy inside the area, and only a fragment with data passes it. -/
theorem requestRejected_bounds {a : TransactedAssembly} {friendid : UserId}
    (h : requestRejected a friendid cp = false) :
    0 < cp.data.length ∧ a.dataOff + cp.data.length ≤ a.dataLen := by
  simp only [requestRejected, Bool.or_eq_false_iff, decide_eq_false_iff_not] at h
  omega

/-- A fragment is only accepted from the friend that began the assembly. -/
theorem requestRejected_sender {a : TransactedAssembly} {friendid : UserId}
    (h : requestRejected a friendid cp = false) : a.friendid = friendid := by
  simp only [requestRejected, Bool.or_eq_false_iff, decide_eq_false_iff_not, ne_eq, not_not] at h
  exact h.1.1.1.2

/-- A name that an accepted fragment carries is the one that the assembly remembers. -/
theorem requestRejected_ext {a : TransactedAssembly} {friendid : UserId}
    (h : requestRejected a friendid cp = false) (ext : CString) (hext : cp.ext = some ext) : a.ext = ext := by
  simp only [requestRejected, extMismatch, hext, Option.any_some, Bool.or_eq_false_iff,
    decide_eq_false_iff_not, ne_eq, not_not] at h
  exact h.1.1.1.1

theorem JoinsRequest.dataLen_le {a : TransactedAssembly} {friendid : UserId} (h : JoinsRequest w friendid cp a)
    (hw : AssembliesBounded w) : a.dataLen ≤ elaMaxInviteDataLen := by
  cases h with
  | held ha => exact (hw.requests _ _ ha).2.2
  | fresh ha hz hmax hnew =>
    simp only [newRequestAssembly, Option.bind_eq_bind, Option.bind_eq_some_iff, Option.some.injEq] at hnew
    obtain ⟨ext, -, rfl⟩ := hnew
    exact hmax

theorem handleInviteRequest_reassembles (h : handleInviteRequest w fn cp = some (w', ns)) :
    Reassembles (dropsRequest w fn cp)
      (fun a => ∃ fi, w.friends.lookup fn = some fi ∧ JoinsRequest w fi.userid cp a) cp.data
      w w' (ns.map .arrived) := by
  cases handleInviteRequest_step h with
  | ignored hall =>
    refine ⟨fun _ => ⟨rfl, rfl, rfl⟩, fun hdrop => ?_⟩
    obtain ⟨fi, a, hfi, hjoins⟩ := joins_of_not_dropped hdrop h
    have hrejected := hall fi a hfi hjoins
    rw [← dropsRequest_joins hfi hjoins, hdrop] at hrejected
    cases hrejected
  | @stored fi a hfi hjoins hpass hmore =>
    have hkept : dropsRequest w fn cp = false := (dropsRequest_joins hfi hjoins).trans hpass
    refine ⟨fun hdrop => ?_, fun _ => ⟨a, ⟨fi, hfi, hjoins⟩, (requestRejected_bounds hpass).2, fun o ho => ?_⟩⟩
    · rw [hkept] at hdrop
      cases hdrop
    · cases ho
  | @delivered fi a key hfi hjoins hpass hfull hlen hkey =>
    have hkept : dropsRequest w fn cp = false := (dropsRequest_joins hfi hjoins).trans hpass
    refine ⟨fun hdrop => ?_, fun _ => ⟨a, ⟨fi, hfi, hjoins⟩, (requestRejected_bounds hpass).2, fun o ho => ?_⟩⟩
    · rw [hkept] at hdrop
      cases hdrop
    · obtain ⟨n, hn, rfl⟩ := List.mem_map.mp ho
      exact ⟨hfull, n, rfl, notifyInvite_data n hn⟩

/-- What an invite request fragment does keeps the tables in their bounds. -/
theorem AssembliesBounded.request (hw : AssembliesBounded w) (h : handleInviteRequest w fn cp = some (w', ns)) :
    AssembliesBounded w' := by
  cases handleInviteRequest_step h with
  | ignored => exact hw
  | @stored fi a hfi hjoins hpass hmore =>
    refine ⟨fun tid b hb => ?_, hw.responses⟩
    rw [Table.lookup_insert_eq] at hb
    split at hb
    · cases hb
      have hbounds := requestRejected_bounds hpass
      have hmax := hjoins.dataLen_le hw
      simp only [PartialRequest, TransactedAssembly.dataOff_append, TransactedAssembly.append_dataLen]
      omega
    · exact hw.requests tid b hb
  | delivered =>
    refine ⟨fun tid b hb => ?_, hw.responses⟩
    rw [Table.lookup_erase_eq] at hb
    split at hb
    · cases hb
    · exact hw.requests tid b hb

end Requests

section Responses
variable {w w' : ElaCarrier} {fn : FriendNumber} {cp : ElaCPInviteRsp} {ns : List Notice}

/-- A fragment of a pending invite that joins an assembly is dropped exactly where it fails a check. -/
theorem dropsResponse_joins {fi : FriendInfo} {tcb : TransactedCallback} {a : TransactedAssembly}
    (hfi : w.friends.lookup fn = some fi) (htcb : w.tcallbacks.lookup cp.tid = some tcb)
    (hjoins : JoinsResponse w fi.userid cp a) : dropsResponse w fn cp = responseRejected a fi.userid cp := by
  cases hjoins with
  | held ha => simp only [dropsResponse, hfi, htcb, ha]
  | fresh ha hmax hnew =>
    have hsize : ¬ elaMaxInviteDataLen < cp.totalsz := by omega
    simp only [dropsResponse, hfi, htcb, ha, hnew, Option.any_some, decide_eq_false hsize, Bool.false_or]

theorem responseRejected_bounds {a : TransactedAssembly} {friendid : UserId}
    (h : responseRejected a friendid cp = false) : a.dataOff + (responseData cp).length ≤ a.dataLen := by
  simp only [responseRejected, Bool.or_eq_false_iff, decide_eq_false_iff_not] at h
  omega

theorem JoinsResponse.dataLen_le {a : TransactedAssembly} {friendid : UserId} (h : JoinsResponse w friendid cp a)
    (hw : AssembliesBounded w) : a.dataLen ≤ elaMaxInviteDataLen := by
  cases h with
  | held ha => exact (hw.responses _ _ ha).2
  | fresh ha hmax hnew =>
    simp only [newResponseAssembly, Option.bind_eq_bind, Option.bind_eq_some_iff, Option.some.injEq] at hnew
    obtain ⟨ext, -, rfl⟩ := hnew
    exact hmax

/-- A fragment that is not dropped is copied, and delivered where it fills the area. -/
theorem addResponseFragment_reassembles {fi : FriendInfo} {tcb : TransactedCallback} {a : TransactedAssembly}
    {needAdd : Bool} (hfi : w.friends.lookup fn = some fi) (htcb : w.tcallbacks.lookup cp.tid = some tcb)
    (hjoins : JoinsResponse w fi.userid cp a) :
    Reassembles (dropsResponse w fn cp)
      (fun a => ∃ fi, w.friends.lookup fn = some fi ∧ JoinsResponse w fi.userid cp a) (responseData cp)
      w (addResponseFragment w fi.userid tcb cp needAdd a).1
      ((addResponseFragment w fi.userid tcb cp needAdd a).2.map .arrived) := by
  rw [dropsResponse_joins hfi htcb hjoins]
  unfold addResponseFragment
  split
  · next hrejected => exact ⟨fun _ => ⟨rfl, rfl, rfl⟩, fun hkept => by rw [hrejected] at hkept; cases hkept⟩
  · next hkept =>
    have hpass := Bool.not_eq_true _ ▸ hkept
    refine ⟨fun hdrop => absurd hdrop hkept, fun _ => ⟨a, ⟨fi, hfi, hjoins⟩, responseRejected_bounds hpass, ?_⟩⟩
    simp only [TransactedAssembly.dataOff_append, TransactedAssembly.append_dataLen]
    split
    · next hfull =>
      intro o ho
      rw [List.mem_singleton.mp ho]
      exact ⟨hfull, _, rfl, rfl⟩
    · intro o ho
      cases ho

theorem handleInviteResponse_reassembles (h : handleInviteResponse w fn cp = some (w', ns)) :
    Reassembles (dropsResponse w fn cp)
      (fun a => ∃ fi, w.friends.lookup fn = some fi ∧ JoinsResponse w fi.userid cp a) (responseData cp)
      w w' (ns.map .arrived) := by
  have hdropped : dropsResponse w fn cp = true → some (w, []) = some (w', ns) →
      Reassembles (dropsResponse w fn cp)
        (fun a => ∃ fi, w.friends.lookup fn = some fi ∧ JoinsResponse w fi.userid cp a) (responseData cp)
        w w' (ns.map .arrived) := by
    intro hdrop hsame
    cases hsame
    exact ⟨fun _ => ⟨rfl, rfl, rfl⟩, fun hkept => by rw [hdrop] at hkept; cases hkept⟩
  unfold handleInviteResponse at h
  split at h
  · next hfi => exact hdropped (by simp only [dropsResponse, hfi]) h
  · next fi hfi =>
    split at h
    · next htcb => exact hdropped (by simp only [dropsResponse, hfi, htcb]) h
    · next tcb htcb =>
      split at h
      · cases h
      · split at h
        · next a ha =>
          obtain ⟨rfl, rfl⟩ := Prod.mk.injEq .. ▸ Option.some.inj h
          exact addResponseFragment_reassembles hfi htcb (.held ha)
        · next ha =>
          split at h
          · next hmax => exact hdropped (by simp [dropsResponse, hfi, htcb, ha, hmax]) h
          · next hmax =>
            obtain ⟨a, hnew, he⟩ := Option.map_eq_some_iff.mp h
            obtain ⟨rfl, rfl⟩ := Prod.mk.injEq .. ▸ he
            exact addResponseFragment_reassembles hfi htcb (.fresh ha (Nat.le_of_not_lt hmax) hnew)

theorem handleInviteResponse_ireqs (h : handleInviteResponse w fn cp = some (w', ns)) :
    w'.tassemblyIreqs = w.tassemblyIreqs := by
  cases handleInviteResponse_step h with
  | ignored => rfl
  | stored => rfl
  | delivered => rfl

/-- What an invite response fragment does keeps the tables in their bounds. -/
theorem AssembliesBounded.response (hw : AssembliesBounded w) (h : handleInviteResponse w fn cp = some (w', ns)) :
    AssembliesBounded w' := by
  cases handleInviteResponse_step h with
  | ignored => exact hw
  | @stored fi tcb a hfi htcb hjoins hpass hmore =>
    refine ⟨hw.requests, fun tid b hb => ?_⟩
    rw [Table.lookup_insert_eq] at hb
    split at hb
    · cases hb
      have hbounds := responseRejected_bounds hpass
      have hmax := hjoins.dataLen_le hw
      simp only [PartialResponse, TransactedAssembly.dataOff_append, TransactedAssembly.append_dataLen]
      omega
    · exact hw.responses tid b hb
  | delivered =>
    refine ⟨hw.requests, fun tid b hb => ?_⟩
    rw [Table.lookup_erase_eq] at hb
    split at hb
    · cases hb
    · exact hw.responses tid b hb

end Responses

theorem AssembliesBounded.of_tables {w w' : ElaCarrier} (hw : AssembliesBounded w)
    (hreqs : ∀ tid a, w'.tassemblyIreqs.lookup tid = some a → w.tassemblyIreqs.lookup tid = some a)
    (hrsps : ∀ tid a, w'.tassemblyIrsps.lookup tid = some a → w.tassemblyIrsps.lookup tid = some a) :
    AssembliesBounded w' :=
  ⟨fun tid a ha => hw.requests tid a (hreqs tid a ha), fun tid a ha => hw.responses tid a (hrsps tid a ha)⟩

/-- What a step of a node does to the two tables. -/
inductive TableStep (s : NodeState) (i : NodeInput) (t : NodeState) (o : List NodeOutput) : Prop
  | request {fn : FriendNumber} {packet : FlatPacket} {cp : ElaCPInviteReq} {ns : List Notice} :
      i = .message fn packet → elacpDecode packet = some (.inviteReq cp) →
      handleInviteRequest s.carrier fn cp = some (t.carrier, ns) → o = ns.map .arrived → TableStep s i t o
  | response {fn : FriendNumber} {packet : FlatPacket} {cp : ElaCPInviteRsp} {ns : List Notice} :
      i = .message fn packet → elacpDecode packet = some (.inviteRsp cp) →
      handleInviteResponse s.carrier fn cp = some (t.carrier, ns) → o = ns.map .arrived → TableStep s i t o
  | fewer : (∀ fn packet cp, i = .message fn packet → elacpDecode packet ≠ some (.inviteReq cp)) →
      (∀ tid a, t.carrier.tassemblyIreqs.lookup tid = some a → s.carrier.tassemblyIreqs.lookup tid = some a) →
      (∀ tid a, t.carrier.tassemblyIrsps.lookup tid = some a → s.carrier.tassemblyIrsps.lookup tid = some a) →
      TableStep s i t o

/-- Fragments are all that puts an assembly into a table. A sweep only takes some out. -/
theorem nodeStep_tables {s t : NodeState} {i : NodeInput} {o : List NodeOutput}
    (hstep : nodeStep s i = some (t, o)) : TableStep s i t o := by
  cases i with
  | message fn packet =>
    obtain ⟨⟨w, ns⟩, hn, h⟩ := Option.map_eq_some_iff.mp hstep
    cases h
    unfold notifyFriendMessage at hn
    split at hn
    · next cp hcp =>
      cases hn
      refine .fewer (fun _ _ _ hi hreq => ?_) (fun _ _ h => h) (fun _ _ h => h)
      cases hi
      cases hcp.symm.trans hreq
    · next cp hcp => exact .request rfl hcp hn rfl
    · next cp hcp => exact .response rfl hcp hn rfl
    · next hreqs hrsps =>
      cases hn
      refine .fewer (fun _ _ _ hi hreq => ?_) (fun _ _ h => h) (fun _ _ h => h)
      cases hi
      exact hreqs _ hreq
  | invite env addr bundle data =>
    obtain ⟨r, hr, h⟩ := Option.map_eq_some_iff.mp hstep
    cases h
    have htables : r.carrier.tassemblyIreqs = s.carrier.tassemblyIreqs ∧
        r.carrier.tassemblyIrsps = s.carrier.tassemblyIrsps := by
      rcases elaInviteFriend_cases hr with ⟨-, hw⟩ | ⟨-, -, ⟨-, hw⟩ | ⟨-, hw⟩⟩ <;> rw [hw] <;> exact ⟨rfl, rfl⟩
    exact .fewer nofun (fun _ _ h => by rwa [← htables.1]) (fun _ _ h => by rwa [← htables.2])
  | reply env addr bundle status reason data =>
    obtain ⟨r, hr, h⟩ := Option.map_eq_some_iff.mp hstep
    cases h
    obtain ⟨th, hw⟩ := elaReplyFriendInvite_carrier hr
    exact .fewer nofun (fun _ _ h => by simpa only [NodeState.on, hw] using h)
      (fun _ _ h => by simpa only [NodeState.on, hw] using h)
  | assembliesExpire =>
    cases hstep
    exact .fewer nofun (fun _ _ ha => (Table.lookup_sweep_some.mp ha).1)
      (fun _ _ ha => (Table.lookup_sweep_some.mp ha).1)
  | callbacksCheck =>
    cases hstep
    exact .fewer nofun (fun _ _ h => h) (fun _ _ h => h)
  | tick d =>
    cases hstep
    exact .fewer nofun (fun _ _ h => h) (fun _ _ h => h)
  | ready b =>
    cases hstep
    exact .fewer nofun (fun _ _ h => h) (fun _ _ h => h)
  | friendPut fi key =>
    cases hstep
    exact .fewer nofun (fun _ _ h => h) (fun _ _ h => h)
  | friendRemove fn =>
    cases hstep
    exact .fewer nofun (fun _ _ h => h) (fun _ _ h => h)

theorem AssembliesBounded.step {s t : NodeState} {i : NodeInput} {o : List NodeOutput}
    (hs : AssembliesBounded s.carrier) (hstep : nodeStep s i = some (t, o)) : AssembliesBounded t.carrier := by
  cases nodeStep_tables hstep with
  | request _ _ h _ => exact hs.request h
  | response _ _ h _ => exact hs.response h
  | fewer _ hreqs hrsps => exact hs.of_tables hreqs hrsps

theorem AssembliesBounded.started {s : NodeState} (hs : NodeStarted s) : AssembliesBounded s.carrier :=
  ⟨fun tid a ha => by simp [hs.tassemblyIreqs] at ha, fun tid a ha => by simp [hs.tassemblyIrsps] at ha⟩

theorem AssembliesBounded.reached {s u : NodeState} {is : List NodeInput} {os : List NodeOutput}
    (hs : NodeStarted s) (hrun : Machine.Run nodeMachine Machine.Free s is os u) :
    AssembliesBounded u.carrier := by
  apply hrun.invariant _ (AssembliesBounded.started hs)
  exact fun h _ hstep => h.step hstep

/-- Two friends send under one tid. The first fragment is stored and the other friend's dropped. -/
def crossedFragments : List NodeInput :=
  [.message 0 ⟨34, some [(1, .scalar 5), (3, .scalar 3), (4, .ubytes [7])]⟩,
    .message 1 ⟨34, some [(1, .scalar 5), (3, .scalar 1), (4, .ubytes [9])]⟩, .assembliesExpire]

end CarrierSdk
