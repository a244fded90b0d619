import CarrierSdk.Carrier.Reassembly

/-! What one friend's invite requests can do to another friend's invites. Partial requests
are found by transaction id alone, so two friends can meet in one assembly. -/
namespace CarrierSdk

section TwoRuns
variable (friendid : UserId) (other : FriendNumber)

/-- The invite requests of the other friend are what two runs may differ in. -/
def sharedInput : NodeInput → Bool
  | .message fn packet =>
    match elacpDecode packet with
    | some (.inviteReq _) => decide (fn ≠ other)
    | _ => true
  | _ => true

/-- The invites of the observed friend that reach the application or the session extension. -/
def invitesFrom : NodeOutput → Bool
  | .arrived (.friendInvite sender _ _) => decide (sender = friendid)
  | .arrived (.sessionInvite sender _ _) => decide (sender = friendid)
  | _ => false

/-- The other friend is not the observed one. -/
def otherFriend (s : NodeState) : NodeInput → Bool
  | .message fn _ =>
    decide (fn ≠ other) || (s.carrier.friends.lookup fn).all fun fi => decide (fi.userid ≠ friendid)
  | _ => true

/-- A request of the observed friend finds no assembly that another friend holds. -/
def findsOwnAssembly (s : NodeState) : NodeInput → Bool
  | .message fn packet =>
    match elacpDecode packet, s.carrier.friends.lookup fn with
    | some (.inviteReq cp), some fi =>
      decide (fi.userid ≠ friendid) ||
        (s.carrier.tassemblyIreqs.lookup cp.tid).all fun a => decide (a.friendid = friendid)
    | _, _ => true
  | _ => true

/-- Two runs from one state that differ in the other friend's invite requests only. -/
def SameInvites (G : NodeState → NodeInput → Prop) : Prop :=
  ∀ (s u v : NodeState) (is js : List NodeInput) (os ps : List NodeOutput),
    nodeMachine.Run G s is os u → nodeMachine.Run G s js ps v →
    is.filter (sharedInput other) = js.filter (sharedInput other) →
    os.filter (invitesFrom friendid) = ps.filter (invitesFrom friendid)

/-- The observed friend's own assembly under a tid. -/
def ownAssembly (w : ElaCarrier) (tid : Tid) : Option TransactedAssembly :=
  (w.tassemblyIreqs.lookup tid).filter fun a => decide (a.friendid = friendid)

/-- The two nodes agree on everything that the observed friend's invites depend on. -/
structure Agree (v w : ElaCarrier) : Prop where
  friends : v.friends = w.friends
  now : v.now = w.now
  friendInvite : v.friendInvite = w.friendInvite
  session : v.session = w.session
  own : ∀ tid, ownAssembly friendid v tid = ownAssembly friendid w tid

end TwoRuns

variable {friendid : UserId} {other : FriendNumber}

theorem Agree.refl (w : ElaCarrier) : Agree friendid w w := ⟨rfl, rfl, rfl, rfl, fun _ => rfl⟩

theorem Agree.symm {v w : ElaCarrier} (h : Agree friendid v w) : Agree friendid w v :=
  ⟨h.friends.symm, h.now.symm, h.friendInvite.symm, h.session.symm, fun tid => (h.own tid).symm⟩

theorem Agree.trans {u v w : ElaCarrier} (h : Agree friendid u v) (h' : Agree friendid v w) :
    Agree friendid u w :=
  ⟨h.friends.trans h'.friends, h.now.trans h'.now, h.friendInvite.trans h'.friendInvite,
    h.session.trans h'.session, fun tid => (h.own tid).trans (h'.own tid)⟩

theorem ownAssembly_of_ne {w : ElaCarrier} {tid : Tid} {a : TransactedAssembly}
    (h : w.tassemblyIreqs.lookup tid = some a) (hn : a.friendid ≠ friendid) :
    ownAssembly friendid w tid = none := by
  rw [ownAssembly, h]
  simp [hn]

theorem ownAssembly_of_free {w : ElaCarrier} {tid : Tid} (h : w.tassemblyIreqs.lookup tid = none) :
    ownAssembly friendid w tid = none := by
  rw [ownAssembly, h]
  rfl

/-- Where no other friend holds the tid, the own assembly is the one in the table. -/
theorem lookup_own {w : ElaCarrier} {tid : Tid}
    (h : (w.tassemblyIreqs.lookup tid).all (fun a => decide (a.friendid = friendid)) = true) :
    w.tassemblyIreqs.lookup tid = ownAssembly friendid w tid := by
  rw [ownAssembly]
  cases hl : w.tassemblyIreqs.lookup tid with
  | none => rfl
  | some a =>
    rw [hl] at h
    have ha : decide (a.friendid = friendid) = true := h
    rw [Option.filter_some, if_pos ha]

/-- The assembly that another friend's fragment is accepted for is not the observed friend's. -/
private theorem joined_other {w : ElaCarrier} {sender : UserId} {cp : ElaCPInviteReq}
    {a : TransactedAssembly} (hn : sender ≠ friendid) (hj : JoinsRequest w sender cp a)
    (hr : requestRejected a sender cp = false) : ownAssembly friendid w cp.tid = none := by
  cases hj with
  | held h => exact ownAssembly_of_ne h (requestRejected_sender hr ▸ hn)
  | fresh h => exact ownAssembly_of_free h

private theorem notifyInvite_other {w : ElaCarrier} {sender : UserId} {name : Option CString}
    {a : TransactedAssembly} (hn : sender ≠ friendid) :
    ((notifyInvite w sender name a).map NodeOutput.arrived).filter (invitesFrom friendid) = [] := by
  unfold notifyInvite
  split
  · split <;> simp [invitesFrom, hn]
  · split <;> simp [invitesFrom, hn]

/-- A request of another friend changes nothing the observed friend's invites depend on. -/
private theorem request_other {w w' : ElaCarrier} {fn : FriendNumber} {cp : ElaCPInviteReq}
    {ns : List Notice} (hn : ∀ fi, w.friends.lookup fn = some fi → fi.userid ≠ friendid)
    (h : RequestStep w fn cp w' ns) :
    Agree friendid w' w ∧ (ns.map NodeOutput.arrived).filter (invitesFrom friendid) = [] := by
  cases h with
  | ignored => exact ⟨.refl w, rfl⟩
  | @stored fi a hf hj hr hd =>
    refine ⟨⟨rfl, rfl, rfl, rfl, fun tid => ?_⟩, rfl⟩
    by_cases ht : tid = cp.tid
    · subst ht
      rw [joined_other (hn fi hf) hj hr]
      refine ownAssembly_of_ne (AList.lookup_insert _) ?_
      rw [TransactedAssembly.append_friendid, requestRejected_sender hr]
      exact hn fi hf
    · rw [ownAssembly, ownAssembly, AList.lookup_insert_ne ht]
  | @delivered fi a key hf hj hr hd =>
    refine ⟨⟨rfl, rfl, rfl, rfl, fun tid => ?_⟩, notifyInvite_other (hn fi hf)⟩
    by_cases ht : tid = cp.tid
    · subst ht
      rw [joined_other (hn fi hf) hj hr]
      exact ownAssembly_of_free (AList.lookup_erase _ _)
    · rw [ownAssembly, ownAssembly, AList.lookup_erase_ne ht]

/-- Nodes that agree, and hold nothing foreign under the tid, offer a fragment of the
observed friend the same assembly. -/
private theorem joins_agree {v w : ElaCarrier} {cp : ElaCPInviteReq} {a : TransactedAssembly}
    (hag : Agree friendid v w)
    (hv : (v.tassemblyIreqs.lookup cp.tid).all (fun a => decide (a.friendid = friendid)) = true)
    (hw : (w.tassemblyIreqs.lookup cp.tid).all (fun a => decide (a.friendid = friendid)) = true)
    (hj : JoinsRequest v friendid cp a) : JoinsRequest w friendid cp a := by
  have hl : w.tassemblyIreqs.lookup cp.tid = v.tassemblyIreqs.lookup cp.tid := by
    rw [lookup_own hv, lookup_own hw, hag.own]
  cases hj with
  | held h => exact .held (hl.trans h)
  | fresh h hz hm hn =>
    refine .fresh (hl.trans h) hz hm ?_
    rw [newRequestAssembly, ← hag.now]
    exact hn

private theorem notifyInvite_agree {v w : ElaCarrier} (hag : Agree friendid v w) (sender : UserId)
    (name : Option CString) (a : TransactedAssembly) :
    notifyInvite v sender name a = notifyInvite w sender name a := by
  simp only [notifyInvite, hag.session, hag.friendInvite]

/-- A request of the observed friend does the same to nodes that agree. -/
private theorem request_own {v w v' w' : ElaCarrier} {fn : FriendNumber} {fi : FriendInfo}
    {cp : ElaCPInviteReq} {ns ms : List Notice} (hag : Agree friendid v w)
    (hf : v.friends.lookup fn = some fi) (hu : fi.userid = friendid)
    (hv : (v.tassemblyIreqs.lookup cp.tid).all (fun a => decide (a.friendid = friendid)) = true)
    (hw : (w.tassemblyIreqs.lookup cp.tid).all (fun a => decide (a.friendid = friendid)) = true)
    (h : RequestStep v fn cp v' ns) (h' : RequestStep w fn cp w' ms) :
    Agree friendid v' w' ∧ ns = ms := by
  subst hu
  have hf' : w.friends.lookup fn = some fi := hag.friends ▸ hf
  have hsame : ∀ {gi}, v.friends.lookup fn = some gi → gi = fi := fun hg =>
    Option.some.inj (hg.symm.trans hf)
  have hsame' : ∀ {gi}, w.friends.lookup fn = some gi → gi = fi := fun hg =>
    Option.some.inj (hg.symm.trans hf')
  cases h with
  | ignored hi =>
    cases h' with
    | ignored => exact ⟨hag, rfl⟩
    | @stored gi a hg hj hr =>
      obtain rfl := hsame' hg
      rw [hi gi a hf (joins_agree hag.symm hw hv hj)] at hr
      cases hr
    | @delivered gi a key hg hj hr =>
      obtain rfl := hsame' hg
      rw [hi gi a hf (joins_agree hag.symm hw hv hj)] at hr
      cases hr
  | @stored gi a hg hj hr hd =>
    obtain rfl := hsame hg
    have hj' := joins_agree hag hv hw hj
    cases h' with
    | ignored hi =>
      rw [hi gi a hf' hj'] at hr
      cases hr
    | @stored gi b hg' hb _ _ =>
      obtain rfl := hsame' hg'
      obtain rfl := hj'.unique hb
      refine ⟨⟨hag.friends, hag.now, hag.friendInvite, hag.session, fun tid => ?_⟩, rfl⟩
      by_cases ht : tid = cp.tid
      · subst ht
        rw [ownAssembly, ownAssembly, AList.lookup_insert, AList.lookup_insert]
      · have := hag.own tid
        rwa [ownAssembly, ownAssembly, AList.lookup_insert_ne ht, AList.lookup_insert_ne ht]
    | @delivered gi b key hg' hb _ hd' =>
      obtain rfl := hsame' hg'
      obtain rfl := hj'.unique hb
      exact absurd hd' hd
  | @delivered gi a key hg hj hr hd hlen hk =>
    obtain rfl := hsame hg
    have hj' := joins_agree hag hv hw hj
    cases h' with
    | ignored hi =>
      rw [hi gi a hf' hj'] at hr
      cases hr
    | @stored gi b hg' hb _ hd' =>
      obtain rfl := hsame' hg'
      obtain rfl := hj'.unique hb
      exact absurd hd hd'
    | @delivered gi b key' hg' hb _ _ _ hk' =>
      obtain rfl := hsame' hg'
      obtain rfl := hj'.unique hb
      refine ⟨⟨hag.friends, hag.now, hag.friendInvite, hag.session, fun tid => ?_⟩,
        notifyInvite_agree hag _ _ _⟩
      by_cases ht : tid = cp.tid
      · subst ht
        rw [ownAssembly_of_free (AList.lookup_erase _ _), ownAssembly_of_free (AList.lookup_erase _ _)]
      · have := hag.own tid
        rwa [ownAssembly, ownAssembly, AList.lookup_erase_ne ht, AList.lookup_erase_ne ht]

/-! Every other step. -/

theorem agree_of_fields {v w : ElaCarrier} (hf : v.friends = w.friends) (hn : v.now = w.now)
    (hi : v.friendInvite = w.friendInvite) (hs : v.session = w.session)
    (ht : v.tassemblyIreqs = w.tassemblyIreqs) : Agree friendid v w :=
  ⟨hf, hn, hi, hs, fun tid => by rw [ownAssembly, ownAssembly, ht]⟩

/-- The steps that touch nothing an invite request depends on. -/
def inert : NodeInput → Bool
  | .message _ packet =>
    match elacpDecode packet with
    | some (.inviteReq _) => false
    | _ => true
  | .invite .. => true
  | .reply .. => true
  | .callbacksCheck => true
  | .ready _ => true
  | _ => false

private theorem response_frame {w w' : ElaCarrier} {fn : FriendNumber} {cp : ElaCPInviteRsp}
    {ns : List Notice} (h : ResponseStep w fn cp w' ns) :
    Agree friendid w' w ∧ (ns.map NodeOutput.arrived).filter (invitesFrom friendid) = [] := by
  cases h with
  | ignored => exact ⟨.refl w, rfl⟩
  | stored => exact ⟨agree_of_fields rfl rfl rfl rfl rfl, rfl⟩
  | delivered => exact ⟨agree_of_fields rfl rfl rfl rfl rfl, rfl⟩

private theorem inert_frame {s t : NodeState} {i : NodeInput} {o : List NodeOutput}
    (hi : inert i = true) (h : nodeStep s i = some (t, o)) :
    Agree friendid t.carrier s.carrier ∧ o.filter (invitesFrom friendid) = [] := by
  cases i with
  | message fn packet =>
    obtain ⟨⟨w, ns⟩, hn, h⟩ := Option.map_eq_some_iff.mp h
    cases h
    unfold notifyFriendMessage at hn
    split at hn
    · simp only [Option.some.injEq, Prod.mk.injEq] at hn
      obtain ⟨rfl, rfl⟩ := hn
      refine ⟨.refl _, ?_⟩
      unfold handleFriendMessage
      split
      · rfl
      · split <;> rfl
    · next cp hd =>
      rw [inert, hd] at hi
      cases hi
    · exact response_frame (handleInviteResponse_step hn)
    · simp only [Option.some.injEq, Prod.mk.injEq] at hn
      obtain ⟨rfl, rfl⟩ := hn
      exact ⟨.refl _, rfl⟩
  | invite env addr bundle data =>
    obtain ⟨r, hr, h⟩ := Option.map_eq_some_iff.mp h
    cases h
    rcases elaInviteFriend_cases hr with ⟨-, hw⟩ | ⟨-, -, ⟨-, hw⟩ | ⟨-, hw⟩⟩
    · exact ⟨by rw [hw]; exact .refl _, rfl⟩
    · exact ⟨by rw [hw]; exact agree_of_fields rfl rfl rfl rfl rfl, rfl⟩
    · exact ⟨by rw [hw]; exact agree_of_fields rfl rfl rfl rfl rfl, rfl⟩
  | reply env addr bundle status reason data =>
    obtain ⟨r, hr, h⟩ := Option.map_eq_some_iff.mp h
    cases h
    obtain ⟨th, hw⟩ := elaReplyFriendInvite_carrier hr
    exact ⟨by rw [hw]; exact agree_of_fields rfl rfl rfl rfl rfl, rfl⟩
  | callbacksCheck =>
    cases h
    refine ⟨agree_of_fields rfl rfl rfl rfl rfl, ?_⟩
    rw [List.filter_eq_nil_iff]
    intro e he
    obtain ⟨n, -, rfl⟩ := List.mem_map.mp he
    simp [invitesFrom]
  | ready b =>
    cases h
    exact ⟨agree_of_fields rfl rfl rfl rfl rfl, rfl⟩
  | tick => cases hi
  | friendPut => cases hi
  | friendRemove => cases hi
  | assembliesExpire => cases hi

/-- What a message that decodes to an invite request does to the node. -/
private theorem request_step {s t : NodeState} {fn : FriendNumber} {packet : FlatPacket}
    {cp : ElaCPInviteReq} {o : List NodeOutput} (hd : elacpDecode packet = some (.inviteReq cp))
    (h : nodeStep s (.message fn packet) = some (t, o)) :
    ∃ ns, RequestStep s.carrier fn cp t.carrier ns ∧ o = ns.map .arrived := by
  obtain ⟨⟨w, ns⟩, hn, h⟩ := Option.map_eq_some_iff.mp h
  cases h
  rw [notifyFriendMessage, hd] at hn
  exact ⟨ns, handleInviteRequest_step hn, rfl⟩

private theorem sweep_own {v w : ElaCarrier} (hag : Agree friendid v w) (tid : Tid) :
    ((doTassembliesExpire v.now v.tassemblyIreqs).lookup tid).filter
        (fun a => decide (a.friendid = friendid)) =
      ((doTassembliesExpire w.now w.tassemblyIreqs).lookup tid).filter
        (fun a => decide (a.friendid = friendid)) := by
  have hcomm : ∀ (x : Option TransactedAssembly) (p q : TransactedAssembly → Bool),
      (x.filter p).filter q = (x.filter q).filter p := by
    intro x p q
    rw [Option.filter_filter, Option.filter_filter]
    congr 1
    funext a
    exact Bool.and_comm _ _
  have h : (v.tassemblyIreqs.lookup tid).filter (fun a => decide (a.friendid = friendid)) =
      (w.tassemblyIreqs.lookup tid).filter (fun a => decide (a.friendid = friendid)) := hag.own tid
  rw [doTassembliesExpire, doTassembliesExpire, Table.lookup_sweep, Table.lookup_sweep, hcomm, h, hcomm,
    hag.now]

/-- The guard of the two runs: the other friend is another one, and the observed friend's
requests find no foreign assembly. -/
def interferenceGuard (friendid : UserId) (other : FriendNumber) (s : NodeState) (i : NodeInput) : Bool :=
  otherFriend friendid other s i && findsOwnAssembly friendid s i

private theorem unwinding_hidden {s t : NodeState} {i : NodeInput} {o : List NodeOutput}
    (hlow : sharedInput other i = false) (hg : interferenceGuard friendid other s i = true)
    (h : nodeStep s i = some (t, o)) :
    Agree friendid t.carrier s.carrier ∧ o.filter (invitesFrom friendid) = [] := by
  cases i with
  | message fn packet =>
    simp only [sharedInput] at hlow
    split at hlow
    · next cp hd =>
      have hfn : fn = other := by simpa using hlow
      subst hfn
      obtain ⟨ns, hstep, rfl⟩ := request_step hd h
      refine request_other (fun fi hf => ?_) hstep
      simp only [interferenceGuard, otherFriend, hf, Bool.and_eq_true] at hg
      simpa using hg.1
    · cases hlow
  | _ => cases hlow

private theorem unwinding_visible {s t s' t' : NodeState} {i : NodeInput} {o p : List NodeOutput}
    (hag : Agree friendid s.carrier t.carrier) (hgs : interferenceGuard friendid other s i = true)
    (hgt : interferenceGuard friendid other t i = true) (hs : nodeStep s i = some (s', o))
    (ht : nodeStep t i = some (t', p)) :
    Agree friendid s'.carrier t'.carrier ∧
      o.filter (invitesFrom friendid) = p.filter (invitesFrom friendid) := by
  have hinert : inert i = true → Agree friendid s'.carrier t'.carrier ∧
      o.filter (invitesFrom friendid) = p.filter (invitesFrom friendid) := by
    intro hi
    have h : Agree friendid s'.carrier s.carrier ∧ o.filter (invitesFrom friendid) = [] :=
      inert_frame hi hs
    have h' : Agree friendid t'.carrier t.carrier ∧ p.filter (invitesFrom friendid) = [] :=
      inert_frame hi ht
    exact ⟨(h.1.trans hag).trans h'.1.symm, h.2.trans h'.2.symm⟩
  cases i with
  | message fn packet =>
    cases hd : elacpDecode packet with
    | none => exact hinert (by simp only [inert, hd])
    | some cp =>
      cases cp with
      | inviteReq cp =>
        obtain ⟨ns, hstep, rfl⟩ := request_step hd hs
        obtain ⟨ms, hstep', rfl⟩ := request_step hd ht
        have hown : ∀ fi, s.carrier.friends.lookup fn = some fi → fi.userid = friendid →
            Agree friendid s'.carrier t'.carrier ∧ ns = ms := by
          intro fi hf hu
          have hf' : t.carrier.friends.lookup fn = some fi := hag.friends ▸ hf
          simp only [interferenceGuard, findsOwnAssembly, hd, hf, hf', hu, ne_eq, not_true_eq_false,
            decide_false, Bool.false_or, Bool.and_eq_true] at hgs hgt
          exact request_own hag hf hu hgs.2 hgt.2 hstep hstep'
        have hother : (∀ fi, s.carrier.friends.lookup fn = some fi → fi.userid ≠ friendid) →
            Agree friendid s'.carrier t'.carrier ∧
              (ns.map NodeOutput.arrived).filter (invitesFrom friendid) =
                (ms.map NodeOutput.arrived).filter (invitesFrom friendid) := by
          intro hn
          have h := request_other hn hstep
          have h' := request_other (fun fi hf => hn fi (hag.friends ▸ hf)) hstep'
          exact ⟨(h.1.trans hag).trans h'.1.symm, h.2.trans h'.2.symm⟩
        cases hf : s.carrier.friends.lookup fn with
        | none => exact hother fun fi h => by rw [hf] at h; cases h
        | some fi =>
          by_cases hu : fi.userid = friendid
          · obtain ⟨ha, rfl⟩ := hown fi hf hu
            exact ⟨ha, rfl⟩
          · refine hother fun gi h => ?_
            rw [hf, Option.some.injEq] at h
            exact h ▸ hu
      | _ => exact hinert (by simp only [inert, hd])
  | tick d =>
    cases hs
    cases ht
    exact ⟨⟨hag.friends, congrArg (· + d) hag.now, hag.friendInvite, hag.session, hag.own⟩, rfl⟩
  | friendPut fi key =>
    cases hs
    cases ht
    have hf : s.carrier.friends.insert fi.friendNumber fi = t.carrier.friends.insert fi.friendNumber fi := by
      rw [hag.friends]
    exact ⟨⟨hf, hag.now, hag.friendInvite, hag.session, hag.own⟩, rfl⟩
  | friendRemove fn =>
    cases hs
    cases ht
    have hf : s.carrier.friends.erase fn = t.carrier.friends.erase fn := by rw [hag.friends]
    exact ⟨⟨hf, hag.now, hag.friendInvite, hag.session, hag.own⟩, rfl⟩
  | assembliesExpire =>
    cases hs
    cases ht
    exact ⟨⟨hag.friends, hag.now, hag.friendInvite, hag.session, sweep_own hag⟩, rfl⟩
  | ready => exact hinert rfl
  | invite => exact hinert rfl
  | reply => exact hinert rfl
  | callbacksCheck => exact hinert rfl

/-- As long as a friend's invite requests find no assembly that someone else holds under
their tid, the other friend's requests cannot change which of its invites arrive. -/
theorem same_invites (friendid : UserId) (other : FriendNumber) :
    SameInvites friendid other fun s i => interferenceGuard friendid other s i = true := by
  intro s u v is js os ps h h' hi
  have hu : Machine.Unwinding (sharedInput other) (invitesFrom friendid)
      (fun s t : NodeState => Agree friendid s.carrier t.carrier) nodeMachine
      (fun s i => interferenceGuard friendid other s i = true) :=
    { visible := fun hag _ hgs hgt hs ht => unwinding_visible hag hgs hgt hs ht
      hiddenLeft := fun hag hlow hg hs =>
        ⟨(unwinding_hidden hlow hg hs).1.trans hag, (unwinding_hidden hlow hg hs).2⟩
      hiddenRight := fun hag hlow hg ht =>
        ⟨hag.trans (unwinding_hidden hlow hg ht).1.symm, (unwinding_hidden hlow hg ht).2⟩ }
  exact hu.run (.refl _) hi h h'

/-- A fragment of an invite request that announces a total size and carries one byte. -/
def requestPacket (tid totalsz : Int) (byte : UInt8) : FlatPacket :=
  ⟨34, some [(1, .scalar tid), (3, .scalar totalsz), (4, .ubytes [byte])]⟩

/-- The other friend starts an invite under a tid, then the observed one sends one under five. -/
def interleaved (tid : Int) : List NodeInput :=
  [.message 1 (requestPacket tid 2 9), .message 0 (requestPacket 5 1 7)]

/-- A run with an invite of the other friend under a different tid, and a run without it. -/
theorem same_invites_apart :
    ∃ u v os ps, nodeMachine.exec (.start .twoFriends) (interleaved 6) = some (u, os) ∧
      nodeMachine.exec (.start .twoFriends) [.message 0 (requestPacket 5 1 7)] = some (v, ps) ∧
      os.filter (invitesFrom (.small 0)) = ps.filter (invitesFrom (.small 0)) := by
  obtain ⟨u, os, he, -⟩ := nodeMachine.exec_any (.start .twoFriends) (interleaved 6)
    (fun _ => true) (by decide +kernel)
  obtain ⟨v, ps, he', -⟩ := nodeMachine.exec_any (.start .twoFriends)
    [.message 0 (requestPacket 5 1 7)] (fun _ => true) (by decide +kernel)
  exact ⟨u, v, os, ps, he, he', same_invites (.small 0) 1 _ u v _ _ os ps
    (Machine.run_of_exec (fun _ _ h => h) he (by decide +kernel))
    (Machine.run_of_exec (fun _ _ h => h) he' (by decide +kernel)) rfl⟩

/-- Under the same tid the other friend's invite swallows the observed friend's. -/
theorem same_invites_fails :
    ¬ ∀ (friendid : UserId) (other : FriendNumber),
      SameInvites friendid other fun s i => otherFriend friendid other s i = true := by
  intro h
  obtain ⟨u, os, he, hp⟩ := nodeMachine.exec_any (.start .twoFriends) (interleaved 5)
    (fun r : NodeState × List NodeOutput => decide (r.2 = [])) (by decide +kernel)
  obtain ⟨v, ps, he', hp'⟩ := nodeMachine.exec_any (.start .twoFriends)
    [.message 0 (requestPacket 5 1 7)] (fun r : NodeState × List NodeOutput =>
      decide (r.2 = [.arrived (.friendInvite (.small 0) none [7])])) (by decide +kernel)
  have hf := h (.small 0) 1 _ u v _ _ os ps
    (Machine.run_of_exec (fun _ _ h => h) he (by decide +kernel))
    (Machine.run_of_exec (fun _ _ h => h) he' (by decide +kernel)) rfl
  simp only [decide_eq_true_eq] at hp hp'
  rw [hp, hp'] at hf
  exact absurd hf (by decide)

end CarrierSdk
