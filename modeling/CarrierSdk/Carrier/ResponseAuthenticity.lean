import CarrierSdk.Carrier.Node

/-! Whose responses an invite callback hears of. Pending callbacks and response assemblies
are found by transaction id alone, so this depends on who completes a response. -/
namespace CarrierSdk

/-- Fragments a friend sent for a transaction, in the order they came in. -/
structure SentBy (received : List (UserId × ElaCPInviteRsp)) (friendid : UserId) (tid : Tid)
    (cps : List ElaCPInviteRsp) : Prop where
  sublist : (cps.map fun cp => (friendid, cp)).Sublist received
  tids : ∀ cp ∈ cps, cp.tid = tid

theorem SentBy.mono {received received' : List (UserId × ElaCPInviteRsp)} {friendid : UserId}
    {tid : Tid} {cps : List ElaCPInviteRsp} (h : SentBy received friendid tid cps)
    (hl : received <+: received') : SentBy received' friendid tid cps :=
  ⟨h.sublist.trans hl.sublist, h.tids⟩

theorem SentBy.snoc {received : List (UserId × ElaCPInviteRsp)} {friendid : UserId}
    {cp : ElaCPInviteRsp} {cps : List ElaCPInviteRsp} (h : SentBy received friendid cp.tid cps) :
    SentBy (received ++ [(friendid, cp)]) friendid cp.tid (cps ++ [cp]) := by
  refine ⟨?_, ?_⟩
  · rw [List.map_append]
    exact h.sublist.append (List.Sublist.refl _)
  · intro c hc
    rcases List.mem_append.mp hc with hc | hc
    · exact h.tids c hc
    · rw [List.mem_singleton.mp hc]

/-- A response made up of fragments: the first brings the bundle, the last status and reason. -/
structure MadeOf (cps : List ElaCPInviteRsp) (last : ElaCPInviteRsp) (bundle : Option CString)
    (status : Int32) (reason : Option CString) (data : List UInt8) : Prop where
  bundle : (cps ++ [last]).head?.map ElaCPInviteRsp.bundle = some bundle
  status : last.status = status
  reason : responseReason last = reason
  data : (cps ++ [last]).flatMap responseData = data

/-- Every response that a callback heard of came, fragment by fragment, from the friend
that was invited. -/
def ResponsesAuthentic (issued : List Invited) (received : List (UserId × ElaCPInviteRsp))
    (os : List NodeOutput) : Prop :=
  ∀ context sender bundle status reason data,
    NodeOutput.arrived (.inviteResponse context sender bundle status reason data) ∈ os →
    ∃ inv ∈ issued, inv.context = context ∧ inv.userid = sender ∧
      ∃ cps last, SentBy received inv.userid inv.tid (cps ++ [last]) ∧
        MadeOf cps last bundle status reason data

/-- The assembly that a response fragment joins. -/
def responseAssembly (w : ElaCarrier) (friendid : UserId) (cp : ElaCPInviteRsp) :
    Option TransactedAssembly :=
  match w.tassemblyIrsps.lookup cp.tid with
  | some a => some a
  | none => if elaMaxInviteDataLen < cp.totalsz then none else newResponseAssembly w friendid cp

/-- Whether a response fragment fills up its assembly. -/
def completesResponse (w : ElaCarrier) (friendid : UserId) (cp : ElaCPInviteRsp) : Bool :=
  (responseAssembly w friendid cp).any fun a =>
    !responseRejected a friendid cp && decide (a.dataOff + (responseData cp).length = a.dataLen)

/-- A packet that completes the response to a pending invite comes from the invited friend. -/
def completedByInvited (s : NodeState) : NodeInput → Bool
  | .message fn packet =>
    match elacpDecode packet, s.carrier.friends.lookup fn with
    | some (.inviteRsp cp), some fi =>
      (s.carrier.tcallbacks.lookup cp.tid).all fun tcb =>
        !completesResponse s.carrier fi.userid cp ||
          s.issued.all fun inv =>
            decide (inv.context ≠ tcb.callbackContext) || decide (inv.userid = fi.userid)
    | _, _ => true
  | _ => true

theorem JoinsResponse.assembly {w : ElaCarrier} {friendid : UserId} {cp : ElaCPInviteRsp}
    {a : TransactedAssembly} (h : JoinsResponse w friendid cp a) :
    responseAssembly w friendid cp = some a := by
  cases h with
  | held h => simp only [responseAssembly, h]
  | fresh h ht hn => simp only [responseAssembly, h, Nat.not_lt.mpr ht, if_false, hn]

/-- A fragment is only accepted from the friend the assembly was created for. -/
theorem responseRejected_sender {a : TransactedAssembly} {friendid : UserId} {cp : ElaCPInviteRsp}
    (h : responseRejected a friendid cp = false) : a.friendid = friendid := by
  simp only [responseRejected, Bool.or_eq_false_iff, decide_eq_false_iff_not, ne_eq, not_not] at h
  exact h.1.1.2

/-- What the two tables hold, told by the record of the run. -/
structure AuthInv (s : NodeState) : Prop where
  pending : ∀ tid tcb, s.carrier.tcallbacks.lookup tid = some tcb →
    ∃ inv ∈ s.issued, inv.context = tcb.callbackContext ∧ inv.tid = tid
  partials : ∀ tid a, s.carrier.tassemblyIrsps.lookup tid = some a →
    ∃ cps, SentBy s.received a.friendid tid cps ∧
      cps.head?.map ElaCPInviteRsp.bundle = some a.bundle ∧ cps.flatMap responseData = a.data

abbrev AuthHistory (s : NodeState) (os : List NodeOutput) : Prop :=
  AuthInv s ∧ ResponsesAuthentic s.issued s.received os

/-- An accepted fragment extends the ones its assembly is made of. -/
private theorem joined_fragments {s : NodeState} {fi : FriendInfo} {cp : ElaCPInviteRsp}
    {a : TransactedAssembly} (hi : AuthInv s) (hj : JoinsResponse s.carrier fi.userid cp a)
    (hr : responseRejected a fi.userid cp = false) :
    ∃ cps, SentBy (s.received ++ [(fi.userid, cp)]) fi.userid cp.tid (cps ++ [cp]) ∧
      (cps ++ [cp]).head?.map ElaCPInviteRsp.bundle = some a.bundle ∧
      (cps ++ [cp]).flatMap responseData = a.data ++ responseData cp := by
  have hf := responseRejected_sender hr
  cases hj with
  | held h =>
    obtain ⟨cps, hs, hb, hd⟩ := hi.partials _ _ h
    rw [hf] at hs
    refine ⟨cps, hs.snoc, ?_, ?_⟩
    · cases cps with
      | nil => cases hb
      | cons c cs => exact hb
    · rw [List.flatMap_append, hd, List.flatMap_singleton]
  | fresh h ht hn =>
    simp only [newResponseAssembly, Option.bind_eq_bind, Option.bind_eq_some_iff] at hn
    obtain ⟨_, -, hn⟩ := hn
    simp only [Option.some.injEq] at hn
    subst hn
    have hnil : SentBy s.received fi.userid cp.tid [] := ⟨List.nil_sublist _, by simp⟩
    exact ⟨[], hnil.snoc, rfl, by simp⟩

private theorem completed {s : NodeState} {fn : FriendNumber} {packet : FlatPacket}
    {cp : ElaCPInviteRsp} {fi : FriendInfo} {tcb : TransactedCallback} {a : TransactedAssembly}
    (hg : completedByInvited s (.message fn packet) = true)
    (hd : elacpDecode packet = some (.inviteRsp cp)) (hf : s.carrier.friends.lookup fn = some fi)
    (hc : s.carrier.tcallbacks.lookup cp.tid = some tcb)
    (hj : JoinsResponse s.carrier fi.userid cp a) (hr : responseRejected a fi.userid cp = false)
    (hl : a.dataOff + (responseData cp).length = a.dataLen) {inv : Invited} (hm : inv ∈ s.issued)
    (hx : inv.context = tcb.callbackContext) : inv.userid = fi.userid := by
  have hdone : completesResponse s.carrier fi.userid cp = true := by
    simp only [completesResponse, hj.assembly, Option.any_some, hr, hl, Bool.not_false, decide_true,
      Bool.and_self]
  simp only [completedByInvited, hd, hf, hc, Option.all_some, hdone, Bool.not_true, Bool.false_or,
    List.all_eq_true, Bool.or_eq_true, decide_eq_true_eq] at hg
  rcases hg inv hm with hne | he
  · exact absurd hx hne
  · exact he

private theorem authInv_step {s t : NodeState} {i : NodeInput} {o os : List NodeOutput}
    (hi : AuthHistory s os) (hg : completedByInvited s i = true)
    (h : nodeStep s i = some (t, o)) : AuthHistory t (os ++ o) := by
  obtain ⟨hi, ho⟩ := hi
  -- The record only grows, so what was authentic stays so.
  have hkeep : (∀ inv ∈ s.issued, inv ∈ t.issued) → s.received <+: t.received →
      (∀ c p b st r d, NodeOutput.arrived (.inviteResponse c p b st r d) ∉ o) →
      ResponsesAuthentic t.issued t.received (os ++ o) := by
    intro hiss hrec hno c p b st r d hm
    rcases List.mem_append.mp hm with hm | hm
    · obtain ⟨inv, hinv, hc, hu, cps, last, hs, hmade⟩ := ho c p b st r d hm
      exact ⟨inv, hiss inv hinv, hc, hu, cps, last, hs.mono hrec, hmade⟩
    · exact absurd hm (hno c p b st r d)
  cases nodeStep_cases h with
  | quiet hc ha hiss hn hrec hq =>
    refine ⟨⟨fun tid tcb hl => ?_, fun tid a hl => ?_⟩, ?_⟩
    · rw [hiss]
      exact hi.pending tid tcb (hc ▸ hl)
    · obtain ⟨cps, hs, hb⟩ := hi.partials tid a (ha tid a hl)
      exact ⟨cps, hs.mono hrec, hb⟩
    · refine hkeep (fun inv hm => hiss ▸ hm) hrec ?_
      intro c p b st r d hm
      cases hq _ hm
  | @stored fn packet cp fi tcb a hd hf hc hj hr =>
    refine ⟨⟨hi.pending, fun tid b hl => ?_⟩,
      hkeep (fun _ hm => hm) (List.prefix_append _ _) (by simp)⟩
    rw [NodeState.afterResponse, Table.lookup_insert_eq] at hl
    split at hl
    · next ht =>
      obtain ⟨cps, hs, hb, hdata⟩ := joined_fragments hi hj hr
      simp only [Option.some.injEq] at hl
      subst ht hl
      exact ⟨cps ++ [cp], by rwa [TransactedAssembly.append_friendid, responseRejected_sender hr], hb, hdata⟩
    · obtain ⟨cps, hs, hb⟩ := hi.partials tid b hl
      exact ⟨cps, hs.mono (List.prefix_append _ _), hb⟩
  | @delivered fn packet cp fi tcb a hd hf hc hj hr hl =>
    refine ⟨⟨fun tid b hb => ?_, fun tid b hb => ?_⟩, ?_⟩
    · rw [NodeState.afterResponse, Table.lookup_erase_eq] at hb
      split at hb
      · cases hb
      · exact hi.pending tid b hb
    · rw [NodeState.afterResponse, Table.lookup_erase_eq] at hb
      split at hb
      · cases hb
      · obtain ⟨cps, hs, hx⟩ := hi.partials tid b hb
        exact ⟨cps, hs.mono (List.prefix_append _ _), hx⟩
    · intro c p b st r d hm
      rcases List.mem_append.mp hm with hm | hm
      · obtain ⟨inv, hinv, hx, hu, cps, last, hs, hmade⟩ := ho c p b st r d hm
        exact ⟨inv, hinv, hx, hu, cps, last, hs.mono (List.prefix_append _ _), hmade⟩
      · simp only [List.mem_singleton, NodeOutput.arrived.injEq, Notice.inviteResponse.injEq] at hm
        obtain ⟨rfl, rfl, rfl, rfl, rfl, rfl⟩ := hm
        obtain ⟨inv, hinv, hx, ht⟩ := hi.pending _ _ hc
        have hu := completed hg hd hf hc hj hr hl hinv hx
        obtain ⟨cps, hs, hb, hdata⟩ := joined_fragments hi hj hr
        exact ⟨inv, hinv, hx, hu, cps, cp, by rwa [hu, ht], ⟨hb, rfl, rfl, hdata⟩⟩
  | @registered env addr bundle data userid hreach hu =>
    refine ⟨⟨fun tid tcb hl => ?_, hi.partials⟩,
      hkeep (fun inv hm => List.mem_append_left _ hm) (List.prefix_refl _) (by simp)⟩
    rw [lookup_transactedCallbacksPut] at hl
    split at hl
    · next ht =>
      simp only [Option.some.injEq] at hl
      subst ht hl
      exact ⟨s.invited env bundle userid, by simp, rfl, rfl⟩
    · obtain ⟨inv, hm, hx⟩ := hi.pending tid tcb hl
      exact ⟨inv, List.mem_append_left _ hm, hx⟩
  | @withdrawn env addr bundle data e hreach =>
    refine ⟨⟨fun tid tcb hl => ?_, hi.partials⟩, hkeep (fun _ hm => hm) (List.prefix_refl _) (by simp)⟩
    rw [lookup_withdrawn] at hl
    split at hl
    · cases hl
    · exact hi.pending tid tcb hl
  | swept =>
    refine ⟨⟨fun tid tcb hl => ?_, hi.partials⟩, hkeep (fun _ hm => hm) (List.prefix_refl _) (by simp)⟩
    exact hi.pending tid tcb (Table.lookup_sweep_some.mp hl).1

/-- As long as only invited friends complete responses to pending invites, every response a
callback hears of came from the friend that was invited, all of its fragments included. -/
theorem responses_authentic {s u : NodeState} {is : List NodeInput} {os : List NodeOutput}
    (hs : NodeStarted s)
    (h : nodeMachine.Run (fun s i => completedByInvited s i = true) s is os u) :
    ResponsesAuthentic u.issued u.received os := by
  have hstart : AuthHistory s [] := by
    refine ⟨⟨?_, ?_⟩, ?_⟩
    · intro tid tcb hl
      rw [hs.tcallbacks] at hl
      cases hl
    · intro tid a hl
      rw [hs.tassemblyIrsps] at hl
      cases hl
    · intro c p b st r d hm
      cases hm
  have hend : AuthHistory u ([] ++ os) := h.history authInv_step hstart
  exact hend.2

/-- Friend zero is invited and the given friend sends a one-byte acceptance. -/
def inviteAnswered (fn : FriendNumber) : List NodeInput :=
  [.invite (.small 5 0) (some (UserId.small 0).text) none (some [7]),
    .message fn ⟨35, some [(1, .scalar 5), (3, .scalar 1), (4, .scalar 0), (6, .ubytes [9])]⟩]

/-- The friend that was invited answers. -/
theorem responses_authentic_answered :
    ∃ u : NodeState, ∃ inv ∈ u.issued, inv.userid = .small 0 ∧
      ResponsesAuthentic u.issued u.received
        [.returned none, .arrived (.inviteResponse 0 (.small 0) none 0 none [9])] := by
  obtain ⟨u, os, he, hp⟩ := nodeMachine.exec_any (.start .twoFriends) (inviteAnswered 0)
    (fun r => decide (r.2 = [.returned none,
      .arrived (.inviteResponse 0 (.small 0) none 0 none [9])]) &&
      r.1.issued.any fun inv => decide (inv.userid = .small 0)) (by decide +kernel)
  simp only [Bool.and_eq_true, decide_eq_true_eq, List.any_eq_true] at hp
  obtain ⟨rfl, inv, hm, hu⟩ := hp
  exact ⟨u, inv, hm, hu, responses_authentic .twoFriends
    (Machine.run_of_exec (fun _ _ h => h) he (by decide +kernel))⟩

/-- Another friend answers, and the callback hears of it. -/
theorem responses_authentic_fails :
    ¬ ∀ (s u : NodeState) (is : List NodeInput) (os : List NodeOutput), NodeStarted s →
      nodeMachine.Run Machine.Free s is os u → ResponsesAuthentic u.issued u.received os := by
  intro h
  obtain ⟨u, os, he, hp⟩ := nodeMachine.exec_any (.start .twoFriends) (inviteAnswered 1)
    (fun r => decide (.arrived (.inviteResponse 0 (.small 1) none 0 none [9]) ∈ r.2) &&
      r.1.issued.all fun inv => decide (inv.userid = .small 0)) (by decide +kernel)
  simp only [Bool.and_eq_true, decide_eq_true_eq, List.all_eq_true] at hp
  obtain ⟨inv, hm, -, hu, -⟩ :=
    h _ u _ os .twoFriends (Machine.free_run_of_exec he) _ _ _ _ _ _ hp.1
  rw [hp.2 inv hm] at hu
  exact absurd hu (by decide)

end CarrierSdk
