import CarrierSdk.Carrier.FriendInterference
import Mathlib.Data.List.TakeWhile

/-! Replies and the invites they answer. The history keeps one transaction under each sender
string, so a second invite under the same string takes the place of the first. -/
namespace CarrierSdk

/-- A node whose application answers every invite that it hears of, in order. The waiting
ones are the invites not answered yet, each with its sender string and its transaction. -/
structure Answering where
  node : NodeState
  waiting : List (CString × Tid)

inductive AnswerInput where
  | other (i : NodeInput)
  | reply (env : CallEnv) (bundle : Option CString) (status : Int32) (reason : Option CString)
      (data : Option (List UInt8))

inductive AnswerOutput where
  | node (o : NodeOutput)
  | delivered (tid : Tid)
  | replied (sent : List FlatPacket) (error : Option ElaError)
  deriving DecidableEq

/-- The invite that a step has told the application of. -/
def heardInvite (w : ElaCarrier) (i : NodeInput) (o : List NodeOutput) : List (CString × Tid) :=
  match i with
  | .message fn packet =>
    match elacpDecode packet, w.friends.lookup fn with
    | some (.inviteReq cp), some fi =>
      if o.isEmpty then [] else [(inviteFrom fi.userid cp.ext, cp.tid)]
    | _, _ => []
  | _ => []

/-- The application replies to nobody but the sender of the oldest invite that waits. A reply
that goes wrong for a reason of its own leaves the invite waiting. -/
def answerStep (s : Answering) : AnswerInput → Option (Answering × List AnswerOutput)
  | .other (.reply ..) => none
  | .other i =>
    (nodeStep s.node i).map fun r =>
      let heard := heardInvite s.node.carrier i r.2
      (⟨r.1, s.waiting ++ heard⟩, r.2.map .node ++ heard.map fun e => .delivered e.2)
  | .reply env bundle status reason data =>
    match s.waiting with
    | [] => none
    | (sender, _) :: rest =>
      (elaReplyFriendInvite env s.node.carrier (some sender) bundle status reason data).map fun r =>
        (⟨s.node.on r.carrier, if r.error = none then rest else s.waiting⟩, [.replied r.sent r.error])

def answerMachine : Machine Answering AnswerInput AnswerOutput := ⟨answerStep⟩

def deliveredTids (os : List AnswerOutput) : List Tid :=
  os.filterMap fun
    | .delivered tid => some tid
    | _ => none

/-- The packets of the replies that went out. -/
def sentReplies (os : List AnswerOutput) : List (List FlatPacket) :=
  os.filterMap fun
    | .replied sent none => some sent
    | _ => none

def CarriesTid (tid : Tid) (sent : List FlatPacket) : Prop :=
  sent ≠ [] ∧ ∀ packet ∈ sent, ∃ cp, elacpDecode packet = some (.inviteRsp cp) ∧ cp.tid = tid

/-- The k-th reply carries the transaction of the k-th invite, and no reply finds none. -/
structure RepliesReach (os : List AnswerOutput) : Prop where
  matched : ∀ sent, .replied sent (some .noMatchedRequest) ∉ os
  carries : ∀ (k : Nat) sent, (sentReplies os)[k]? = some sent →
    ∃ tid, (deliveredTids os)[k]? = some tid ∧ CarriesTid tid sent

/-- No invite is delivered under a sender string under which another one waits, or with
transaction 0. -/
def deliversApart (s : Answering) : AnswerInput → Bool
  | .reply .. => true
  | .other i =>
    match nodeStep s.node i with
    | none => true
    | some (_, o) => (heardInvite s.node.carrier i o).all fun e =>
        decide (e.1 ∉ s.waiting.map Prod.fst) && decide (e.2 ≠ 0)

/-! What steps do to the history. -/

theorem historyKey_inj {a b k : CString} (ha : historyKey a = some k) (hb : historyKey b = some k) :
    a = b := by
  obtain ⟨-, rfl⟩ := CString.strcpy_eq_some.mp ha
  obtain ⟨-, h⟩ := CString.strcpy_eq_some.mp hb
  exact CString.ext_bytes (List.append_cancel_left (congrArg CString.bytes h)).symm

/-- Sender strings tell friends and extensions apart. -/
theorem inviteFrom_inj {a b : UserId} {m n : Option CString} (h : inviteFrom a m = inviteFrom b n) :
    a = b ∧ m = n := by
  have hcut : ∀ (u : UserId) (x : Option CString), (inviteFrom u x).bytes.takeWhile (· ≠ 58) = u.text.bytes := by
    intro u x
    have hall : ∀ y ∈ u.text.bytes, (decide (y ≠ 58)) = true := by
      intro y hy
      rw [decide_eq_true_eq]
      rintro rfl
      exact u.noColon hy
    cases x with
    | none => exact List.takeWhile_eq_self_iff.mpr hall
    | some x =>
      change (u.text.bytes ++ [58] ++ x.bytes).takeWhile _ = _
      rw [List.append_assoc, List.takeWhile_append_of_pos hall]
      simp
  have hab : a = b := by
    apply UserId.ext_text
    apply CString.ext_bytes
    rw [← hcut a m, h, hcut b n]
  subst hab
  refine ⟨rfl, ?_⟩
  have hbytes := congrArg CString.bytes h
  cases m with
  | none =>
    cases n with
    | none => rfl
    | some n =>
      have hlen := congrArg List.length hbytes
      simp [inviteFrom, CString.strcat, colon] at hlen
  | some m =>
    cases n with
    | none =>
      have hlen := congrArg List.length hbytes
      simp [inviteFrom, CString.strcat, colon] at hlen
    | some n => exact congrArg some (CString.ext_bytes (List.append_cancel_left hbytes))

/-- Who hears of invites is settled when the node starts. -/
def hears (w : ElaCarrier) (name : Option CString) : Bool :=
  match name with
  | some name => decide (name = sessionName) && w.session
  | none => w.friendInvite

theorem notifyInvite_eq_nil {w : ElaCarrier} {friendid : UserId} {name : Option CString}
    {a : TransactedAssembly} : notifyInvite w friendid name a = [] ↔ hears w name = false := by
  unfold notifyInvite hears
  cases name with
  | none => cases w.friendInvite <;> simp
  | some name =>
    by_cases hn : name = sessionName
    · cases w.session <;> simp [hn]
    · simp [hn]

/-- The callbacks and the extension that invites go to. -/
structure SameEars (w v : ElaCarrier) : Prop where
  session : v.session = w.session
  friendInvite : v.friendInvite = w.friendInvite

theorem SameEars.hears {w v : ElaCarrier} (h : SameEars w v) (name : Option CString) :
    hears v name = hears w name := by
  cases name with
  | none => exact h.friendInvite
  | some name => simp only [CarrierSdk.hears, h.session]

/-- A step other than a reply leaves the history alone, or records one invite. -/
inductive HistoryStep (w v : ElaCarrier) (heard : List (CString × Tid)) : Prop
  | same (thistory : v.thistory = w.thistory) (silent : heard = [])
  | put (friendid : UserId) (name : Option CString) (tid : Tid) (key : CString)
      (fits : historyKey (inviteFrom friendid name) = some key)
      (thistory : v.thistory = w.thistory.insert key tid)
      (heard : heard = if hears w name then [(inviteFrom friendid name, tid)] else [])

theorem heardInvite_other {w : ElaCarrier} {fn : FriendNumber} {packet : FlatPacket}
    (o : List NodeOutput) (h : ∀ cp, elacpDecode packet ≠ some (.inviteReq cp)) :
    heardInvite w (.message fn packet) o = [] := by
  unfold heardInvite
  dsimp only
  split
  next cp fi hd _ => exact absurd hd (h cp)
  · rfl

theorem message_history {s : NodeState} {fn : FriendNumber} {packet : FlatPacket} {w : ElaCarrier}
    {ns : List Notice} (h : notifyFriendMessage s.carrier fn packet = some (w, ns)) :
    SameEars s.carrier w ∧
      HistoryStep s.carrier w (heardInvite s.carrier (.message fn packet) (ns.map .arrived)) := by
  unfold notifyFriendMessage at h
  split at h
  next cp hd =>
    cases h
    exact ⟨⟨rfl, rfl⟩, .same rfl (heardInvite_other _ fun cp h => by rw [hd] at h; cases h)⟩
  next cp hd =>
    cases handleInviteRequest_step h with
    | ignored =>
      refine ⟨⟨rfl, rfl⟩, .same rfl ?_⟩
      simp only [heardInvite, hd]
      split <;> rfl
    | stored =>
      refine ⟨⟨rfl, rfl⟩, .same rfl ?_⟩
      simp only [heardInvite, hd]
      split <;> rfl
    | @delivered fi a key hf hj hr hl hlen hk =>
      refine ⟨⟨rfl, rfl⟩, .put fi.userid cp.ext cp.tid key hk rfl ?_⟩
      simp only [heardInvite, hd, hf]
      cases hh : hears s.carrier cp.ext with
      | false =>
        rw [notifyInvite_eq_nil.mpr hh]
        rfl
      | true =>
        have hne : notifyInvite s.carrier fi.userid cp.ext (a.append cp.data) ≠ [] := by
          rw [Ne, notifyInvite_eq_nil, hh]
          decide
        simp [hne]
  next cp hd =>
    have hsilent : ∀ o, heardInvite s.carrier (.message fn packet) o = [] := fun o =>
      heardInvite_other o fun cp h => by rw [hd] at h; cases h
    cases handleInviteResponse_step h with
    | ignored => exact ⟨⟨rfl, rfl⟩, .same rfl (hsilent _)⟩
    | stored => exact ⟨⟨rfl, rfl⟩, .same rfl (hsilent _)⟩
    | delivered => exact ⟨⟨rfl, rfl⟩, .same rfl (hsilent _)⟩
  next hfm hreq hrsp =>
    cases h
    exact ⟨⟨rfl, rfl⟩, .same rfl (heardInvite_other _ hreq)⟩

theorem nodeStep_history {s t : NodeState} {i : NodeInput} {o : List NodeOutput}
    (hi : ∀ env addr bundle status reason data, i ≠ .reply env addr bundle status reason data)
    (h : nodeStep s i = some (t, o)) :
    SameEars s.carrier t.carrier ∧ HistoryStep s.carrier t.carrier (heardInvite s.carrier i o) := by
  cases i with
  | message fn packet =>
    obtain ⟨⟨w, ns⟩, hn, h⟩ := Option.map_eq_some_iff.mp h
    cases h
    exact message_history hn
  | invite env addr bundle data =>
    obtain ⟨r, hr, h⟩ := Option.map_eq_some_iff.mp h
    cases h
    rcases elaInviteFriend_cases hr with ⟨-, hw⟩ | ⟨-, -, ⟨-, hw⟩ | ⟨-, hw⟩⟩
    all_goals
      simp only [hw]
      exact ⟨⟨rfl, rfl⟩, .same rfl rfl⟩
  | reply env addr bundle status reason data => exact (hi _ _ _ _ _ _ rfl).elim
  | assembliesExpire =>
    cases h
    exact ⟨⟨rfl, rfl⟩, .same rfl rfl⟩
  | callbacksCheck =>
    cases h
    exact ⟨⟨rfl, rfl⟩, .same rfl rfl⟩
  | tick d =>
    cases h
    exact ⟨⟨rfl, rfl⟩, .same rfl rfl⟩
  | ready b =>
    cases h
    exact ⟨⟨rfl, rfl⟩, .same rfl rfl⟩
  | friendPut fi key =>
    cases h
    exact ⟨⟨rfl, rfl⟩, .same rfl rfl⟩
  | friendRemove fn =>
    cases h
    exact ⟨⟨rfl, rfl⟩, .same rfl rfl⟩

theorem checkAddress_matched {env : CallEnv} {w : ElaCarrier} {addr : Option CString} {e : ElaError}
    (h : checkAddress env w addr = .error e) : e ≠ .noMatchedRequest := by
  simp only [checkAddress] at h
  split at h
  · cases h
    decide
  split at h
  · cases h
    decide
  split at h
  · cases h
    decide
  split at h
  · cases h
    decide
  split at h
  · cases h
    decide
  split at h
  · cases h
    decide
  split at h
  · cases h
    decide
  · cases h

theorem sendReply_matched {env : CallEnv} {w : ElaCarrier} {index : Nat} {cps : List ElaCPInviteRsp}
    {q : CallResult} (h : sendReply env w index cps = some q) : q.error ≠ some .noMatchedRequest := by
  induction cps generalizing index q with
  | nil =>
    cases h
    simp
  | cons cp cps ih =>
    simp only [sendReply, Option.bind_eq_bind, Option.bind_eq_some_iff] at h
    obtain ⟨packet, -, h⟩ := h
    split at h
    · obtain ⟨q', hq', rfl⟩ := Option.map_eq_some_iff.mp h
      have hne := ih hq'
      exact hne
    · cases h
      simp [CallResult.failed]

/-- A call that finds a transaction under its address reports no unmatched request. -/
theorem reply_matched {env : CallEnv} {w : ElaCarrier} {addr : CString} {bundle reason : Option CString}
    {status : Int32} {data : Option (List UInt8)} {tid : Tid} {r : CallResult}
    (ht : transactionHistoryGetInvite w addr = some tid) (hz : tid ≠ 0)
    (h : elaReplyFriendInvite env w (some addr) bundle status reason data = some r) :
    r.error ≠ some .noMatchedRequest := by
  unfold elaReplyFriendInvite at h
  split at h
  · cases h
    simp [CallResult.failed]
  split at h
  next e he =>
    cases h
    simpa [CallResult.failed] using checkAddress_matched he
  next addr' ext n haddr =>
    obtain ⟨hsame, -⟩ := checkAddress_ok haddr
    cases hsame
    obtain ⟨tid', ht', h⟩ := Option.bind_eq_some_iff.mp h
    rw [ht] at ht'
    cases ht'
    rw [if_neg hz] at h
    obtain ⟨q, hq, h⟩ := Option.bind_eq_some_iff.mp h
    split at h
    next hqe =>
      obtain ⟨w', -, h⟩ := Option.bind_eq_some_iff.mp h
      cases h
      rw [hqe]
      simp
    · cases h
      exact sendReply_matched hq

theorem Encodes.mem {cps : List ElaCP} {packets : List FlatPacket} (h : Encodes cps packets)
    {packet : FlatPacket} (hp : packet ∈ packets) : ∃ cp ∈ cps, elacpEncode cp = some packet := by
  induction h with
  | nil => cases hp
  | @cons cp _ cps _ hc _ ih =>
    rcases List.mem_cons.mp hp with rfl | hp
    · exact ⟨cp, List.mem_cons_self, hc⟩
    · obtain ⟨x, hx, he⟩ := ih hp
      exact ⟨x, List.mem_cons_of_mem _ hx, he⟩

/-- What a reply that goes out carries. -/
theorem reply_carries {env : CallEnv} {w : ElaCarrier} {addr : CString} {bundle reason : Option CString}
    {status : Int32} {data : Option (List UInt8)} {tid : Tid} {r : CallResult} {k : Nat}
    (h : ReplySends env w addr bundle status reason data r tid k) (he : r.error = none) :
    CarriesTid tid r.sent := by
  obtain ⟨cps, hne, hcps, hsent⟩ : ∃ cps : List ElaCPInviteRsp, cps ≠ [] ∧ (∀ cp ∈ cps, cp.tid = tid ∧
      cp.totalsz < 2 ^ 32 ∧ (cp.status ≠ 0 → cp.reason.isSome ∧ cp.data = []) ∧
      (cp.status = 0 → cp.reason = none)) ∧ Encodes (cps.map .inviteRsp) r.sent := by
    have hsent := h.sent
    rw [List.take_of_length_le (h.complete.mp he)] at hsent
    refine ⟨_, ?_, ?_, hsent⟩
    all_goals rcases replyInvalid_cases h.validReply with ⟨rfl, rfl, d, rfl, hpos, hmax⟩ | ⟨hs, reason, rfl, rfl⟩
    · simp [replyFragments]
    · simp [replyFragments]
    · obtain ⟨x, xs, -, hfr⟩ : ∃ x xs, Pieces inviteDataUnit (x :: xs) d ∧ replyFragments (parseAddress addr).2
          tid bundle 0 none (d.length + 1) 0 (bundleLength bundle) d = _ :=
        replyFragments_accept hpos (bundleLength_valid h.validBundle)
      have hlen : d.length < 2 ^ 32 := by
        rw [elaMaxInviteDataLen] at hmax
        omega
      intro cp hcp
      simp only [Option.getD_some, hfr, List.mem_cons, List.mem_map] at hcp
      rcases hcp with rfl | ⟨y, -, rfl⟩
      · exact ⟨rfl, hlen, fun h => absurd rfl h, fun _ => rfl⟩
      · exact ⟨rfl, Nat.two_pow_pos 32, fun h => absurd rfl h, fun _ => rfl⟩
    · intro cp hcp
      simp only [Option.getD_none, List.length_nil, Nat.zero_add, replyFragments_refuse hs,
        List.mem_singleton] at hcp
      subst hcp
      exact ⟨rfl, Nat.two_pow_pos 32, fun _ => ⟨rfl, rfl⟩, fun h => absurd h hs⟩
  refine ⟨?_, fun packet hp => ?_⟩
  · intro hnil
    rw [hnil] at hsent
    exact hne (List.map_eq_nil_iff.mp (List.forall₂_nil_right_iff.mp hsent))
  · obtain ⟨cp, hcp, henc⟩ := Encodes.mem hsent hp
    obtain ⟨rsp, hrsp, rfl⟩ := List.mem_map.mp hcp
    obtain ⟨htid, hlen, hrefuse, haccept⟩ := hcps rsp hrsp
    have hround := decode_encode_inviteRsp rsp hlen hrefuse haccept
    rw [henc] at hround
    exact ⟨rsp, hround, htid⟩

/-- What waits is on record under its own key, and the replies so far went to what was
delivered before. -/
structure Awaits (s : Answering) (os : List AnswerOutput) : Prop where
  recorded : ∀ e ∈ s.waiting, ∃ key, historyKey e.1 = some key ∧
    s.node.carrier.thistory.lookup key = some e.2 ∧ e.2 ≠ 0
  distinct : (s.waiting.map Prod.fst).Nodup
  heard : ∀ e ∈ s.waiting, ∃ friendid name, e.1 = inviteFrom friendid name ∧
    hears s.node.carrier name = true
  matched : ∀ sent, .replied sent (some .noMatchedRequest) ∉ os
  order : ∃ done, deliveredTids os = done ++ s.waiting.map Prod.snd ∧
    List.Forall₂ CarriesTid done (sentReplies os)

variable {s t : Answering} {os o : List AnswerOutput}

theorem deliveredTids_append (os ps : List AnswerOutput) :
    deliveredTids (os ++ ps) = deliveredTids os ++ deliveredTids ps := List.filterMap_append

theorem sentReplies_append (os ps : List AnswerOutput) :
    sentReplies (os ++ ps) = sentReplies os ++ sentReplies ps := List.filterMap_append

theorem deliveredTids_other (ns : List NodeOutput) (heard : List (CString × Tid)) :
    deliveredTids (ns.map .node ++ heard.map fun e => .delivered e.2) = heard.map Prod.snd := by
  have hnode : deliveredTids (ns.map .node) = [] := by
    simp [deliveredTids, List.filterMap_map]
  rw [deliveredTids_append, hnode, List.nil_append, deliveredTids, List.filterMap_map]
  exact List.filterMap_eq_map ▸ rfl

theorem sentReplies_other (ns : List NodeOutput) (heard : List (CString × Tid)) :
    sentReplies (ns.map .node ++ heard.map fun e => .delivered e.2) = [] := by
  simp [sentReplies, List.filterMap_append, List.filterMap_map]

/-- A record leaves those alone that wait under other sender strings. -/
theorem Awaits.put (h : Awaits s os) {v : ElaCarrier} {sender key : CString} {tid : Tid}
    (hk : historyKey sender = some key) (hv : v.thistory = s.node.carrier.thistory.insert key tid)
    (hfree : sender ∉ s.waiting.map Prod.fst) : ∀ e ∈ s.waiting, ∃ key, historyKey e.1 = some key ∧
      v.thistory.lookup key = some e.2 ∧ e.2 ≠ 0 := by
  intro e he
  obtain ⟨key', hk', hl, hz⟩ := h.recorded e he
  refine ⟨key', hk', ?_, hz⟩
  have hne : key' ≠ key := by
    rintro rfl
    exact hfree (historyKey_inj hk hk' ▸ List.mem_map_of_mem he)
  rw [hv, Table.lookup_insert_eq, if_neg hne, hl]

theorem awaits_other {i : NodeInput} (h : Awaits s os) (hg : deliversApart s (.other i) = true)
    (hs : answerStep s (.other i) = some (t, o)) : Awaits t (os ++ o) := by
  have hnot : ∀ env addr bundle status reason data, i ≠ .reply env addr bundle status reason data := by
    rintro env addr bundle status reason data rfl
    cases hs
  have hstep : (nodeStep s.node i).map (fun r => (Answering.mk r.1 (s.waiting ++
      heardInvite s.node.carrier i r.2), r.2.map AnswerOutput.node ++
      (heardInvite s.node.carrier i r.2).map fun e => .delivered e.2)) = some (t, o) := by
    cases i with
    | reply env addr bundle status reason data => exact (hnot _ _ _ _ _ _ rfl).elim
    | _ => exact hs
  obtain ⟨⟨n, ns⟩, hn, hr⟩ := Option.map_eq_some_iff.mp hstep
  cases hr
  obtain ⟨hears', hist⟩ := nodeStep_history hnot hn
  simp only [deliversApart, hn, List.all_eq_true, Bool.and_eq_true, decide_eq_true_eq] at hg
  generalize heardInvite s.node.carrier i ns = heard at hist hg
  have hordered : ∃ done, deliveredTids (os ++ (ns.map .node ++ heard.map fun e => .delivered e.2)) =
      done ++ (s.waiting ++ heard).map Prod.snd ∧
      List.Forall₂ CarriesTid done (sentReplies (os ++ (ns.map .node ++ heard.map fun e => .delivered e.2))) := by
    obtain ⟨done, hd, ha⟩ := h.order
    refine ⟨done, ?_, ?_⟩
    · rw [deliveredTids_append, deliveredTids_other, hd, List.map_append, List.append_assoc]
    · rwa [sentReplies_append, sentReplies_other, List.append_nil]
  have hmatched : ∀ sent, .replied sent (some .noMatchedRequest) ∉
      os ++ (ns.map .node ++ heard.map fun e => .delivered e.2) := by
    intro sent hm
    rcases List.mem_append.mp hm with hm | hm
    · exact h.matched sent hm
    · simp at hm
  have hold : ∀ e ∈ s.waiting, ∃ friendid name, e.1 = inviteFrom friendid name ∧ hears n.carrier name = true := by
    intro e he
    obtain ⟨friendid, name, hf, hh⟩ := h.heard e he
    exact ⟨friendid, name, hf, (hears'.hears name).trans hh⟩
  cases hist with
  | same hth hnil =>
    subst hnil
    simp only [List.append_nil] at hordered ⊢
    refine ⟨fun e he => ?_, h.distinct, hold, ?_, ?_⟩
    · rw [hth]
      exact h.recorded e he
    · simpa using hmatched
    · simpa using hordered
  | put friendid name tid key hk hth hheard =>
    cases hh : hears s.node.carrier name with
    | false =>
      rw [hh, if_neg Bool.false_ne_true] at hheard
      subst hheard
      have hfree : inviteFrom friendid name ∉ s.waiting.map Prod.fst := by
        intro hm
        obtain ⟨e, he, heq⟩ := List.mem_map.mp hm
        obtain ⟨friendid', name', hf, hh'⟩ := h.heard e he
        obtain ⟨-, rfl⟩ := inviteFrom_inj (hf.symm.trans heq)
        exact absurd (hh'.symm.trans hh) (by decide)
      refine ⟨?_, ?_, ?_, hmatched, hordered⟩
      · simpa using h.put hk hth hfree
      · simpa using h.distinct
      · simpa using hold
    | true =>
      rw [hh, if_pos rfl] at hheard
      subst hheard
      obtain ⟨hfree, hz⟩ := hg _ List.mem_cons_self
      refine ⟨fun e he => ?_, ?_, fun e he => ?_, hmatched, hordered⟩
      · rcases List.mem_append.mp he with he | he
        · exact h.put hk hth hfree e he
        · rw [List.mem_singleton.mp he, hth]
          exact ⟨key, hk, AList.lookup_insert _, hz⟩
      · rw [List.map_append, List.map_singleton, List.nodup_append_comm]
        exact List.nodup_cons.mpr ⟨hfree, h.distinct⟩
      · rcases List.mem_append.mp he with he | he
        · exact hold e he
        · rw [List.mem_singleton.mp he]
          exact ⟨friendid, name, rfl, (hears'.hears name).trans hh⟩

theorem awaits_reply {env : CallEnv} {bundle reason : Option CString} {status : Int32}
    {data : Option (List UInt8)} (h : Awaits s os)
    (hs : answerStep s (.reply env bundle status reason data) = some (t, o)) : Awaits t (os ++ o) := by
  simp only [answerStep] at hs
  split at hs
  · cases hs
  next sender tid rest hw =>
    obtain ⟨r, hr, hst⟩ := Option.map_eq_some_iff.mp hs
    cases hst
    obtain ⟨key, hk, hl, hz⟩ := h.recorded (sender, tid) (by rw [hw]; exact List.mem_cons_self)
    have hget : transactionHistoryGetInvite s.node.carrier sender = some tid := by
      simp [transactionHistoryGetInvite, hk, hl]
    have hfound := reply_matched hget hz hr
    have hmatched : ∀ sent, .replied sent (some .noMatchedRequest) ∉ os ++ [.replied r.sent r.error] := by
      intro sent hm
      rcases List.mem_append.mp hm with hm | hm
      · exact h.matched sent hm
      · rw [List.mem_singleton, AnswerOutput.replied.injEq] at hm
        exact hfound hm.2.symm
    obtain ⟨done, hd, ha⟩ := h.order
    by_cases he : r.error = none
    · rw [if_pos he]
      rcases elaReplyFriendInvite_cases hr with ⟨hne, -⟩ | ⟨tid', k, hsends⟩
      · exact absurd he hne
      have htid : tid' = tid := Option.some.inj (hsends.history.symm.trans hget)
      subst htid
      obtain ⟨key', hk', hcarrier⟩ := Option.map_eq_some_iff.mp (hsends.removed he)
      have hkey : key' = key := Option.some.inj (hk'.symm.trans hk)
      subst hkey
      have hnodup : sender ∉ rest.map Prod.fst ∧ (rest.map Prod.fst).Nodup := by
        have hdistinct := h.distinct
        rw [hw] at hdistinct
        exact List.nodup_cons.mp hdistinct
      refine ⟨fun e hm => ?_, hnodup.2, fun e hm => ?_, hmatched, done ++ [tid'], ?_, ?_⟩
      · obtain ⟨keye, hke, hle, hze⟩ := h.recorded e (by rw [hw]; exact List.mem_cons_of_mem _ hm)
        refine ⟨keye, hke, ?_, hze⟩
        have hne : keye ≠ key' := by
          rintro rfl
          have hsame : sender = e.1 := historyKey_inj hk hke
          exact hnodup.1 (hsame ▸ List.mem_map_of_mem hm)
        simp only [NodeState.on, ← hcarrier, Table.lookup_erase_eq, if_neg hne]
        exact hle
      · obtain ⟨friendid, name, hf, hh⟩ := h.heard e (by rw [hw]; exact List.mem_cons_of_mem _ hm)
        refine ⟨friendid, name, hf, ?_⟩
        simp only [NodeState.on, ← hcarrier]
        exact hh
      · rw [deliveredTids_append, hd, hw]
        simp [deliveredTids]
      · rw [sentReplies_append, he]
        exact List.rel_append ha (.cons (reply_carries hsends he) .nil)
    · rw [if_neg he]
      have hcarrier : r.carrier = s.node.carrier := by
        rcases elaReplyFriendInvite_cases hr with ⟨-, -, hc⟩ | ⟨tid', k, hsends⟩
        · exact hc
        · exact hsends.kept he
      have hsent : sentReplies [.replied r.sent r.error] = [] := by
        cases hre : r.error with
        | none => exact absurd hre he
        | some e => rfl
      refine ⟨?_, h.distinct, ?_, hmatched, done, ?_, ?_⟩
      · simpa only [NodeState.on, hcarrier] using h.recorded
      · simpa only [NodeState.on, hcarrier] using h.heard
      · rw [deliveredTids_append, hd]
        exact List.append_nil _
      · rwa [sentReplies_append, hsent, List.append_nil]

theorem Awaits.reach (h : Awaits s os) : RepliesReach os := by
  refine ⟨h.matched, fun k sent hk => ?_⟩
  obtain ⟨done, hd, ha⟩ := h.order
  obtain ⟨hlt, rfl⟩ := List.getElem?_eq_some_iff.mp hk
  have hlen : k < done.length := ha.length_eq ▸ hlt
  refine ⟨done[k], ?_, ?_⟩
  · rw [hd, List.getElem?_append_left hlen, List.getElem?_eq_getElem hlen]
  · exact (List.forall₂_iff_get.mp ha).2 k hlen hlt

/-- In every run in which no invite is delivered under a sender string that another one waits
under, every reply carries the transaction of its invite. -/
theorem replies_reach {w : NodeState} {is : List AnswerInput} {u : Answering} {os : List AnswerOutput}
    (h : answerMachine.Run (fun s i => deliversApart s i = true) ⟨w, []⟩ is os u) : RepliesReach os := by
  have hstart : Awaits ⟨w, []⟩ [] :=
    ⟨fun _ h => (nomatch h), List.nodup_nil, fun _ h => (nomatch h), fun _ h => (nomatch h), [], rfl, .nil⟩
  have hend : Awaits u ([] ++ os) := by
    refine h.history (fun {s i t o os} hi hg hs => ?_) hstart
    cases i with
    | other i => exact awaits_other hi hg hs
    | reply env bundle status reason data => exact awaits_reply hi hs
  exact hend.reach

/-- Two invites of one friend, the first answered before the second arrives or after it. -/
def twoInvites (overlap : Bool) : List AnswerInput :=
  let invite := fun tid => AnswerInput.other (.message 0 (requestPacket tid 1 7))
  let reply := AnswerInput.reply (.small 0 0) none 0 none (some [9])
  if overlap then [invite 5, invite 6, reply, reply] else [invite 5, reply, invite 6, reply]

theorem replies_reach_apart : ∃ os : List AnswerOutput,
    deliveredTids os = [5, 6] ∧ (sentReplies os).length = 2 ∧ RepliesReach os := by
  obtain ⟨u, os, he, hp⟩ := answerMachine.exec_any ⟨.start .twoFriends, []⟩ (twoInvites false)
    (fun r => decide (deliveredTids r.2 = [5, 6] ∧ (sentReplies r.2).length = 2)) (by decide +kernel)
  obtain ⟨htids, hlen⟩ := of_decide_eq_true hp
  exact ⟨os, htids, hlen, replies_reach (Machine.run_of_exec (fun _ _ h => h) he (by decide +kernel))⟩

/-- Where two invites overlap, the second reply finds none to answer. -/
theorem replies_astray : ¬ ∀ (w : NodeState) (is : List AnswerInput) (u : Answering)
    (os : List AnswerOutput), answerMachine.Run Machine.Free ⟨w, []⟩ is os u → RepliesReach os := by
  intro h
  obtain ⟨u, os, he, hp⟩ := answerMachine.exec_any ⟨.start .twoFriends, []⟩ (twoInvites true)
    (fun r => decide (.replied [] (some .noMatchedRequest) ∈ r.2)) (by decide +kernel)
  exact (h _ _ u os (Machine.free_run_of_exec he)).matched [] (of_decide_eq_true hp)

end CarrierSdk
