import CarrierSdk.Carrier.State
import CarrierSdk.Library.Pieces

/-! The two calls that send an invite and its reply in fragments. The send loops build a
fragment, hand it to the DHT and go on while payload is left. -/
namespace CarrierSdk

inductive ElaError where
  | invalidArgs
  | notReady
  | notExist
  | noMatchedRequest
  | dht
  deriving DecidableEq

/-- What a call takes from its surroundings: the base58 decoder, the value generate_tid
returns, what the memory of a new callback held, and which fragments the DHT accepts. -/
structure CallEnv where
  base58Decode : CString → Option PublicKey
  tid : Tid
  memory : FriendNumber
  accepts : Nat → Bool

/-- The state after a call, the fragments the DHT accepted and the error that was set. -/
structure CallResult where
  carrier : ElaCarrier
  sent : List FlatPacket
  error : Option ElaError

def CallResult.failed (w : ElaCarrier) (e : ElaError) : CallResult := ⟨w, [], some e⟩

/-- The fragments of a call that its loop sends after an accepted one. -/
def CallResult.after (packet : FlatPacket) (r : CallResult) : CallResult :=
  { r with sent := packet :: r.sent }

/-- parse_address splits at the first colon. -/
def parseAddress (addr : CString) : CString × Option CString :=
  (⟨addr.bytes.takeWhile (· ≠ 58), fun h => addr.noNul ((List.takeWhile_prefix _).subset h)⟩,
    match h : addr.bytes.dropWhile (· ≠ 58) with
    | [] => none
    | _ :: ext => some ⟨ext, fun hm => addr.noNul
        ((List.dropWhile_sublist _).mem (h ▸ List.mem_cons_of_mem _ hm))⟩)

/-- get_friend_number. -/
def getFriendNumber (env : CallEnv) (w : ElaCarrier) (friendid : CString) : Option FriendNumber :=
  (env.base58Decode friendid).bind fun key =>
    (w.dht.entries.find? fun e => e.2 = key).map Sigma.fst

/-- The checks on the bundle that both calls make. -/
def bundleInvalid (bundle : Option CString) : Bool :=
  bundle.any fun b => decide (b.strlen = 0 ∨ elaMaxBundleLen < b.strlen)

def bundleLength (bundle : Option CString) : Nat := (bundle.map CString.strlen).getD 0

/-- The literal sizeof(':') is that of an int. -/
def maxAddressLen : Nat := elaMaxIdLen + 4 + elaMaxExtensionNameLen

/-- The checks on the address that both calls make, down to the friend's number. -/
def checkAddress (env : CallEnv) (w : ElaCarrier) (addr : Option CString) :
    Except ElaError (CString × Option CString × FriendNumber) :=
  match addr with
  | none => .error .invalidArgs
  | some addr =>
    if addr.strlen = 0 ∨ maxAddressLen < addr.strlen then .error .invalidArgs
    else
      let (userid, extName) := parseAddress addr
      if (env.base58Decode userid).isNone then .error .invalidArgs
      else if extName.any fun e => decide (e.strlen = 0 ∨ elaMaxExtensionNameLen < e.strlen) then
        .error .invalidArgs
      else if !w.isReady then .error .notReady
      else
        match getFriendNumber env w userid with
        | none => .error .notExist
        | some friendNumber =>
          if (w.friends.lookup friendNumber).isNone then .error .notExist
          else .ok (addr, extName, friendNumber)

/-- How many bytes a fragment of ela_invite_friend takes. -/
def inviteSendLen (bundle : Option CString) (bundleLen len : Nat) : Nat :=
  if bundle.isSome then
    if len + bundleLen ≤ inviteDataUnit then len else inviteDataUnit - bundleLen
  else if inviteDataUnit < len then inviteDataUnit else len

/-- The fragments the loop of ela_invite_friend builds, by its variables. The bundle's
length is reserved in the first fragment only. -/
def inviteFragments (ext : Option CString) (tid : Tid) (bundle : Option CString) :
    Nat → Nat → Nat → List UInt8 → List ElaCPInviteReq
  | 0, _, _, _ => []
  | fuel + 1, index, bundleLen, pos =>
    let sendLen := inviteSendLen bundle bundleLen pos.length
    { ext, tid
      bundle := if index = 0 then bundle else none
      totalsz := if index = 0 then pos.length else 0
      data := pos.take sendLen } ::
    if 0 < (pos.drop sendLen).length then
      inviteFragments ext tid bundle fuel (index + 1) (if index = 0 then 0 else bundleLen)
        (pos.drop sendLen)
    else []

/-- The sends of ela_invite_friend. The callback is put before the last fragment goes out
and removed if that one fails. -/
def sendInvite (env : CallEnv) (tcb : TransactedCallback) (w : ElaCarrier) :
    Nat → List ElaCPInviteReq → Option CallResult
  | _, [] => some ⟨w, [], none⟩
  | index, cp :: cps => do
    let packet ← elacpEncode (.inviteReq cp)
    let w' := if cps = [] then transactedCallbacksPut w tcb else w
    if env.accepts index then
      if cps = [] then some ⟨w', [packet], none⟩
      else (sendInvite env tcb w (index + 1) cps).map (.after packet)
    else some (.failed (if cps = [] then transactedCallbacksRemove w' tcb.tid else w') .dht)

/-- ela_invite_friend. The code sets neither the friend number of the callback entry nor,
before the put, its expiry time. -/
def elaInviteFriend (env : CallEnv) (w : ElaCarrier) (addr bundle : Option CString)
    (data : Option (List UInt8)) (callback : Option Nat) : Option CallResult :=
  match data, callback with
  | some data, some callbackContext =>
    if bundleInvalid bundle ∨ data.length = 0 ∨ elaMaxInviteDataLen < data.length then
      some (.failed w .invalidArgs)
    else
      match checkAddress env w addr with
      | .error e => some (.failed w e)
      | .ok (_, extName, _) =>
        let tcb : TransactedCallback :=
          { tid := env.tid, friendNumber := env.memory, callbackContext, expireTime := 0, bundle }
        sendInvite env tcb w 0
          (inviteFragments extName env.tid bundle data.length 0 (bundleLength bundle) data)
  | _, _ => some (.failed w .invalidArgs)

/-- How many bytes a fragment of ela_reply_friend_invite takes. -/
def replySendLen (bundleLen len : Nat) : Nat :=
  if bundleLen + len ≤ inviteDataUnit then len else inviteDataUnit - bundleLen

/-- The fragments the loop of ela_reply_friend_invite builds, by its variables. -/
def replyFragments (ext : Option CString) (tid : Tid) (bundle : Option CString) (status : Int32)
    (reason : Option CString) : Nat → Nat → Nat → List UInt8 → List ElaCPInviteRsp
  | 0, _, _, _ => []
  | fuel + 1, index, bundleLen, pos =>
    let carries := decide (status = 0 ∧ 0 < pos.length)
    let sendLen := if carries then replySendLen bundleLen pos.length else 0
    { ext, tid, status
      bundle := if index = 0 then bundle else none
      totalsz := if carries ∧ index = 0 then pos.length else 0
      reason := if index = 0 ∧ status ≠ 0 then reason else none
      data := pos.take sendLen } ::
    if 0 < (pos.drop sendLen).length then
      replyFragments ext tid bundle status reason fuel (index + 1)
        (if carries ∧ inviteDataUnit < bundleLen + pos.length then 0 else bundleLen)
        (pos.drop sendLen)
    else []

/-- The sends of ela_reply_friend_invite. -/
def sendReply (env : CallEnv) (w : ElaCarrier) : Nat → List ElaCPInviteRsp → Option CallResult
  | _, [] => some ⟨w, [], none⟩
  | index, cp :: cps => do
    let packet ← elacpEncode (.inviteRsp cp)
    if env.accepts index then (sendReply env w (index + 1) cps).map (.after packet)
    else some (.failed w .dht)

/-- The checks on status, reason and data: a refusal has a reason, an acceptance has data. -/
def replyInvalid (status : Int32) (reason : Option CString) (data : Option (List UInt8)) : Bool :=
  if status ≠ 0 then
    reason.all (fun r => decide (elaMaxInviteReplyReasonLen < r.strlen)) || data.isSome
  else reason.isSome ||
    data.all fun d => decide (d.length = 0 ∨ elaMaxInviteDataLen < d.length)

/-- ela_reply_friend_invite. -/
def elaReplyFriendInvite (env : CallEnv) (w : ElaCarrier) (addr bundle : Option CString)
    (status : Int32) (reason : Option CString) (data : Option (List UInt8)) : Option CallResult :=
  if bundleInvalid bundle ∨ replyInvalid status reason data then some (.failed w .invalidArgs)
  else
    match checkAddress env w addr with
    | .error e => some (.failed w e)
    | .ok (addr, extName, _) => do
      let tid ← transactionHistoryGetInvite w addr
      if tid = 0 then some (.failed w .noMatchedRequest)
      else
        let pos := data.getD []
        let r ← sendReply env w 0
          (replyFragments extName tid bundle status reason (pos.length + 1) 0
            (bundleLength bundle) pos)
        if r.error = none then
          let w' ← transactionHistoryRemoveInvite r.carrier addr
          some { r with carrier := w' }
        else some r

/-! What the loops build and send. -/

/-- An address that passes the checks is the one the call was given, names a friend, and has an
extension name of one to 31 characters or none. -/
theorem checkAddress_ok {env : CallEnv} {w : ElaCarrier} {addr : Option CString} {addr' : CString}
    {ext : Option CString} {n : FriendNumber} (h : checkAddress env w addr = .ok (addr', ext, n)) :
    addr = some addr' ∧ ext = (parseAddress addr').2 ∧
      (∀ e, ext = some e → 0 < e.strlen ∧ e.strlen ≤ elaMaxExtensionNameLen) ∧
      ∃ fi, w.friends.lookup n = some fi := by
  unfold checkAddress at h
  split at h
  · cases h
  · split at h
    · cases h
    · dsimp only at h
      split at h
      · cases h
      · split at h
        · cases h
        · next hx =>
          split at h
          · cases h
          · split at h
            · cases h
            · split at h
              · cases h
              · next hf =>
                simp only [Except.ok.injEq, Prod.mk.injEq] at h
                obtain ⟨rfl, rfl, rfl⟩ := h
                refine ⟨rfl, rfl, fun e he => ?_, ?_⟩
                · rw [he, Option.any_some, decide_eq_true_eq, not_or] at hx
                  omega
                · rw [Option.isNone_iff_eq_none] at hf
                  exact Option.ne_none_iff_exists'.mp hf

/-- A request fragment after the first one. -/
def laterRequest (ext : Option CString) (tid : Tid) (data : List UInt8) : ElaCPInviteReq :=
  { ext, tid, bundle := none, totalsz := 0, data }

/-- A response fragment after the first one. -/
def laterResponse (ext : Option CString) (tid : Tid) (data : List UInt8) : ElaCPInviteRsp :=
  { ext, tid, bundle := none, totalsz := 0, status := 0, reason := none, data }

theorem inviteSendLen_bounds (bundle : Option CString) {bundleLen len : Nat} (hl : 0 < len)
    (hb : bundleLen ≤ elaMaxBundleLen) :
    0 < inviteSendLen bundle bundleLen len ∧ inviteSendLen bundle bundleLen len ≤ len ∧
      inviteSendLen bundle bundleLen len ≤ inviteDataUnit := by
  simp only [inviteSendLen, elaMaxBundleLen, inviteDataUnit] at *
  grind

theorem replySendLen_bounds {bundleLen len : Nat} (hl : 0 < len)
    (hb : bundleLen ≤ elaMaxBundleLen) :
    0 < replySendLen bundleLen len ∧ replySendLen bundleLen len ≤ len ∧
      replySendLen bundleLen len ≤ inviteDataUnit := by
  simp only [replySendLen, elaMaxBundleLen, inviteDataUnit] at *
  grind

private theorem inviteFragments_later {ext bundle : Option CString} {tid : Tid} {fuel index : Nat}
    {pos : List UInt8} {bundleLen : Nat} (hi : index ≠ 0) (hp : 0 < pos.length)
    (hf : pos.length ≤ fuel) (hb : bundleLen ≤ elaMaxBundleLen) :
    ∃ ds, Pieces inviteDataUnit ds pos ∧
      inviteFragments ext tid bundle fuel index bundleLen pos = ds.map (laterRequest ext tid) := by
  induction fuel generalizing index pos with
  | zero => omega
  | succ fuel ih =>
    have hs := inviteSendLen_bounds bundle hp hb
    simp only [inviteFragments, if_neg hi]
    split
    · next hr =>
      rw [List.length_drop] at hr
      obtain ⟨ds, hds, he⟩ := ih (Nat.succ_ne_zero index)
        (by rwa [List.length_drop]) (by rw [List.length_drop]; omega)
      refine ⟨pos.take (inviteSendLen bundle bundleLen pos.length) :: ds, hds.cut hs, ?_⟩
      rw [he, List.map_cons]
      rfl
    · next hr => exact ⟨_, Pieces.cut_last hs hr, rfl⟩

/-- The fragments cut the payload into pieces; the first one announces size and bundle. -/
theorem inviteFragments_pieces {ext bundle : Option CString} {tid : Tid} {data : List UInt8}
    (hp : 0 < data.length) (hb : bundleLength bundle ≤ elaMaxBundleLen) :
    ∃ d ds, Pieces inviteDataUnit (d :: ds) data ∧
      inviteFragments ext tid bundle data.length 0 (bundleLength bundle) data =
        { ext, tid, bundle, totalsz := data.length, data := d } :: ds.map (laterRequest ext tid) := by
  have hs := inviteSendLen_bounds bundle hp hb
  obtain ⟨fuel, hfuel⟩ := Nat.exists_eq_succ_of_ne_zero (Nat.pos_iff_ne_zero.mp hp)
  generalize hk : data.length = k at hfuel
  subst hfuel
  simp only [inviteFragments, if_true]
  rw [← hk]
  generalize inviteSendLen bundle (bundleLength bundle) data.length = n at hs
  split
  · next hr =>
    obtain ⟨ds, hds, he⟩ : ∃ ds, Pieces inviteDataUnit ds (data.drop n) ∧
        inviteFragments ext tid bundle fuel (0 + 1) 0 (data.drop n) = ds.map (laterRequest ext tid) :=
      inviteFragments_later (by omega) hr (by rw [List.length_drop]; omega) (Nat.zero_le _)
    exact ⟨data.take n, ds, hds.cut hs, by rw [he]⟩
  · next hr => exact ⟨data.take n, [], Pieces.cut_last hs hr, rfl⟩

private theorem replyFragments_later {ext bundle reason : Option CString} {tid : Tid}
    {fuel index : Nat} {pos : List UInt8} {bundleLen : Nat} (hi : index ≠ 0) (hp : 0 < pos.length)
    (hf : pos.length ≤ fuel) (hb : bundleLen ≤ elaMaxBundleLen) :
    ∃ ds, Pieces inviteDataUnit ds pos ∧
      replyFragments ext tid bundle 0 reason fuel index bundleLen pos =
        ds.map (laterResponse ext tid) := by
  induction fuel generalizing index pos bundleLen with
  | zero => omega
  | succ fuel ih =>
    have hs : 0 < replySendLen bundleLen pos.length ∧ replySendLen bundleLen pos.length ≤ pos.length ∧
        replySendLen bundleLen pos.length ≤ inviteDataUnit := replySendLen_bounds hp hb
    simp only [replyFragments, hi, hp, if_false, and_self, and_false, decide_true, if_true, true_and,
      ne_eq, not_true_eq_false]
    have hb' : (if inviteDataUnit < bundleLen + pos.length then 0 else bundleLen) ≤ elaMaxBundleLen := by
      split
      · exact Nat.zero_le _
      · exact hb
    generalize (if inviteDataUnit < bundleLen + pos.length then 0 else bundleLen) = bundleLen' at hb'
    split
    · next hr =>
      rw [List.length_drop] at hr
      obtain ⟨ds, hds, he⟩ := ih (Nat.succ_ne_zero index)
        (by rwa [List.length_drop]) (by rw [List.length_drop]; omega) hb'
      refine ⟨pos.take (replySendLen bundleLen pos.length) :: ds, hds.cut hs, ?_⟩
      rw [he, List.map_cons]
      rfl
    · next hr => exact ⟨_, Pieces.cut_last hs hr, rfl⟩

/-- An acceptance cuts its data into pieces, as an invite does. -/
theorem replyFragments_accept {ext bundle : Option CString} {tid : Tid} {data : List UInt8}
    (hp : 0 < data.length) (hb : bundleLength bundle ≤ elaMaxBundleLen) :
    ∃ d ds, Pieces inviteDataUnit (d :: ds) data ∧
      replyFragments ext tid bundle 0 none (data.length + 1) 0 (bundleLength bundle) data =
        { ext, tid, bundle, totalsz := data.length, status := 0, reason := none, data := d } ::
          ds.map (laterResponse ext tid) := by
  have hs := replySendLen_bounds hp hb
  generalize hn : replySendLen (bundleLength bundle) data.length = n at hs
  simp only [replyFragments, hp, hn, and_self, decide_true, if_true, true_and, ne_eq,
    not_true_eq_false, and_false, if_false]
  have hb' : (if inviteDataUnit < bundleLength bundle + data.length then 0 else bundleLength bundle) ≤
      elaMaxBundleLen := by
    split
    · exact Nat.zero_le _
    · exact hb
  generalize (if inviteDataUnit < bundleLength bundle + data.length then 0
    else bundleLength bundle) = bundleLen' at hb'
  split
  · next hr =>
    obtain ⟨ds, hds, he⟩ : ∃ ds, Pieces inviteDataUnit ds (data.drop n) ∧
        replyFragments ext tid bundle 0 none data.length (0 + 1) bundleLen' (data.drop n) =
          ds.map (laterResponse ext tid) :=
      replyFragments_later (by omega) hr (by rw [List.length_drop]; omega) hb'
    exact ⟨data.take n, ds, hds.cut hs, by rw [he]⟩
  · next hr => exact ⟨data.take n, [], Pieces.cut_last hs hr, rfl⟩

/-- A refusal is one fragment. -/
theorem replyFragments_refuse {ext bundle reason : Option CString} {tid : Tid} {status : Int32}
    (hs : status ≠ 0) (bundleLen : Nat) :
    replyFragments ext tid bundle status reason 1 0 bundleLen [] =
      [{ ext, tid, bundle, totalsz := 0, status, reason, data := [] }] := by
  simp [replyFragments, hs]

/-- Packets that encode these protocol messages, one each. -/
abbrev Encodes (cps : List ElaCP) (packets : List FlatPacket) : Prop :=
  List.Forall₂ (fun cp packet => elacpEncode cp = some packet) cps packets

/-- The DHT accepts the first n fragments from an index on. -/
abbrev AcceptsFrom (env : CallEnv) (index n : Nat) : Prop :=
  ∀ j, j < n → env.accepts (index + j) = true

private theorem acceptsFrom_cons {env : CallEnv} {index n : Nat} (ha : env.accepts index = true)
    (h : AcceptsFrom env (index + 1) n) : AcceptsFrom env index (n + 1) := by
  intro j hj
  cases j with
  | zero => exact ha
  | succ j =>
    rw [Nat.add_left_comm, Nat.add_comm]
    simpa only [Nat.add_assoc, Nat.add_comm] using h j (Nat.lt_of_succ_lt_succ hj)

/-- An invite either goes out whole, with its callback put, or fails at some fragment; at the
last one that also removes what the table holds under the tid. -/
theorem sendInvite_cases {env : CallEnv} {tcb : TransactedCallback} {w : ElaCarrier}
    {r : CallResult} {index : Nat} {cps : List ElaCPInviteReq} (hc : cps ≠ [])
    (h : sendInvite env tcb w index cps = some r) :
    (r.error = none ∧ AcceptsFrom env index (cps.length - 1) ∧
        r.carrier = transactedCallbacksPut w tcb ∧ Encodes (cps.map .inviteReq) r.sent) ∨
      (r.error ≠ none ∧ r.carrier = w) ∨
      (r.error ≠ none ∧ AcceptsFrom env index (cps.length - 1) ∧
        r.carrier = transactedCallbacksRemove (transactedCallbacksPut w tcb) tcb.tid) := by
  induction cps generalizing index r with
  | nil => exact absurd rfl hc
  | cons cp cps ih =>
    simp only [sendInvite, Option.bind_eq_bind, Option.bind_eq_some_iff] at h
    obtain ⟨packet, hp, h⟩ := h
    by_cases hl : cps = []
    · subst hl
      have hz : AcceptsFrom env index 0 := fun j hj => absurd hj (Nat.not_lt_zero j)
      split at h
      · simp only [if_true, Option.some.injEq] at h
        subst h
        exact .inl ⟨rfl, hz, rfl, .cons hp .nil⟩
      · simp only [if_true, Option.some.injEq] at h
        subst h
        exact .inr (.inr ⟨by simp [CallResult.failed], hz, rfl⟩)
    · simp only [if_neg hl] at h
      have hlen : (cp :: cps).length - 1 = (cps.length - 1) + 1 := by
        have := List.length_pos_iff.mpr hl
        rw [List.length_cons]
        omega
      rw [hlen]
      split at h
      · next ha =>
        obtain ⟨q, hq, rfl⟩ := Option.map_eq_some_iff.mp h
        rcases ih hl hq with ⟨he, hj, hw, hs⟩ | ⟨he, hw⟩ | ⟨he, hj, hw⟩
        · exact .inl ⟨he, acceptsFrom_cons ha hj, hw, .cons hp hs⟩
        · exact .inr (.inl ⟨he, hw⟩)
        · exact .inr (.inr ⟨he, acceptsFrom_cons ha hj, hw⟩)
      · simp only [Option.some.injEq] at h
        subst h
        exact .inr (.inl ⟨by simp [CallResult.failed], by simp [CallResult.failed]⟩)

/-- Where the DHT accepts everything, the invite goes out whole. -/
theorem sendInvite_accepted {env : CallEnv} {tcb : TransactedCallback} {w : ElaCarrier}
    {index : Nat} {cps : List ElaCPInviteReq} (ha : ∀ i, env.accepts i = true) (hc : cps ≠ []) :
    ∃ r, sendInvite env tcb w index cps = some r ∧ r.error = none := by
  induction cps generalizing index with
  | nil => exact absurd rfl hc
  | cons cp cps ih =>
    obtain ⟨packet, hp⟩ : ∃ packet, elacpEncode (.inviteReq cp) = some packet := ⟨_, rfl⟩
    simp only [sendInvite, hp, ha, Option.bind_eq_bind, Option.bind_some, if_true]
    by_cases hl : cps = []
    · exact ⟨_, if_pos hl, rfl⟩
    · obtain ⟨q, hq, he⟩ : ∃ q, sendInvite env tcb w (index + 1) cps = some q ∧ q.error = none := ih hl
      exact ⟨q.after packet, by rw [if_neg hl, hq]; rfl, he⟩

/-- A reply sends the first of its fragments, and all of them where it returns no error. -/
theorem sendReply_cases {env : CallEnv} {w : ElaCarrier} {r : CallResult} {index : Nat}
    {cps : List ElaCPInviteRsp} (h : sendReply env w index cps = some r) :
    r.carrier = w ∧ ∃ k, k ≤ cps.length ∧ (r.error = none ↔ k = cps.length) ∧
      Encodes ((cps.take k).map .inviteRsp) r.sent := by
  induction cps generalizing index r with
  | nil =>
    simp only [sendReply, Option.some.injEq] at h
    subst h
    exact ⟨rfl, 0, Nat.le_refl _, by simp, .nil⟩
  | cons cp cps ih =>
    simp only [sendReply, Option.bind_eq_bind, Option.bind_eq_some_iff] at h
    obtain ⟨packet, hp, h⟩ := h
    split at h
    · obtain ⟨q, hq, rfl⟩ := Option.map_eq_some_iff.mp h
      obtain ⟨hw, k, hk, he, hs⟩ := ih hq
      refine ⟨hw, k + 1, by simpa using hk, ?_, .cons hp hs⟩
      simpa [CallResult.after] using he
    · simp only [Option.some.injEq] at h
      subst h
      exact ⟨rfl, 0, Nat.zero_le _, by simp [CallResult.failed], .nil⟩

theorem bundleLength_valid {bundle : Option CString} (h : bundleInvalid bundle = false) :
    bundleLength bundle ≤ elaMaxBundleLen := by
  cases bundle with
  | none => exact Nat.zero_le _
  | some b =>
    simp only [bundleInvalid, Option.any_some, decide_eq_false_iff_not, not_or] at h
    exact Nat.le_of_not_lt h.2

/-- What a call must be given: data and no reason to accept, a reason and no data to refuse. -/
theorem replyInvalid_cases {status : Int32} {reason : Option CString} {data : Option (List UInt8)}
    (h : replyInvalid status reason data = false) :
    (status = 0 ∧ reason = none ∧ ∃ d, data = some d ∧ 0 < d.length ∧ d.length ≤ elaMaxInviteDataLen) ∨
      (status ≠ 0 ∧ ∃ t, reason = some t ∧ data = none) := by
  by_cases hs : status = 0
  · simp only [replyInvalid, hs, ne_eq, not_true_eq_false, if_false, Bool.or_eq_false_iff] at h
    obtain ⟨hr, hd⟩ := h
    have hr' : reason = none := by simpa using hr
    cases data with
    | none => simp at hd
    | some d =>
      simp only [Option.all_some, decide_eq_false_iff_not, not_or] at hd
      exact .inl ⟨hs, hr', d, rfl, by omega, by omega⟩
  · simp only [replyInvalid, hs, ne_eq, not_false_eq_true, if_true, Bool.or_eq_false_iff] at h
    obtain ⟨hr, hd⟩ := h
    have hd' : data = none := by simpa using hd
    cases reason with
    | none => simp at hr
    | some t => exact .inr ⟨hs, t, rfl, hd'⟩

/-- What a reply call that passes its checks sends: its fragments up to a point, and all of
them just when it returns no error. -/
structure ReplySends (env : CallEnv) (w : ElaCarrier) (addr : CString) (bundle : Option CString)
    (status : Int32) (reason : Option CString) (data : Option (List UInt8)) (r : CallResult)
    (tid : Tid) (k : Nat) : Prop where
  validBundle : bundleInvalid bundle = false
  validReply : replyInvalid status reason data = false
  validExt : ∀ e, (parseAddress addr).2 = some e → e.strlen ≤ elaMaxExtensionNameLen
  history : transactionHistoryGetInvite w addr = some tid
  recorded : tid ≠ 0
  sent : Encodes (((replyFragments (parseAddress addr).2 tid bundle status reason
    ((data.getD []).length + 1) 0 (bundleLength bundle) (data.getD [])).take k).map .inviteRsp) r.sent
  complete : r.error = none ↔ (replyFragments (parseAddress addr).2 tid bundle status reason
    ((data.getD []).length + 1) 0 (bundleLength bundle) (data.getD [])).length ≤ k
  removed : r.error = none → transactionHistoryRemoveInvite w addr = some r.carrier
  kept : r.error ≠ none → r.carrier = w

/-- A reply call either fails its checks and sends nothing, or sends. -/
theorem elaReplyFriendInvite_cases {env : CallEnv} {w : ElaCarrier} {r : CallResult} {addr : CString}
    {bundle reason : Option CString} {status : Int32} {data : Option (List UInt8)}
    (h : elaReplyFriendInvite env w (some addr) bundle status reason data = some r) :
    (r.error ≠ none ∧ r.sent = [] ∧ r.carrier = w) ∨
      ∃ tid k, ReplySends env w addr bundle status reason data r tid k := by
  have hfail : ∀ {e : ElaError}, CallResult.failed w e = r → r.error ≠ none ∧ r.sent = [] ∧ r.carrier = w := by
    rintro e rfl
    exact ⟨by simp [CallResult.failed], rfl, rfl⟩
  unfold elaReplyFriendInvite at h
  split at h
  · exact .inl (hfail (Option.some.inj h))
  · next hbad =>
    simp only [not_or, Bool.not_eq_true] at hbad
    split at h
    · exact .inl (hfail (Option.some.inj h))
    · next addr' ext n haddr =>
      obtain ⟨hsame, rfl, hext, -⟩ := checkAddress_ok haddr
      obtain rfl := Option.some.inj hsame
      obtain ⟨tid, ht, h⟩ := Option.bind_eq_some_iff.mp h
      split at h
      · exact .inl (hfail (Option.some.inj h))
      · next hz =>
        obtain ⟨q, hq, h⟩ := Option.bind_eq_some_iff.mp h
        obtain ⟨hw, k, hk, he, hs⟩ := sendReply_cases hq
        refine .inr ⟨tid, k, ?_⟩
        split at h
        · next hqe =>
          obtain ⟨w', hw', h⟩ := Option.bind_eq_some_iff.mp h
          obtain rfl := Option.some.inj h
          rw [hw] at hw'
          exact ⟨hbad.1, hbad.2, fun e hx => (hext e hx).2, ht, hz, hs,
            ⟨fun _ => (he.mp hqe).ge, fun _ => hqe⟩, fun _ => hw', fun hne => absurd hqe hne⟩
        · next hqe =>
          obtain rfl := Option.some.inj h
          exact ⟨hbad.1, hbad.2, fun e hx => (hext e hx).2, ht, hz, hs,
            ⟨fun hn => absurd hn hqe, fun hle => he.mpr (Nat.le_antisymm hk hle)⟩,
            fun hn => absurd hn hqe, fun _ => hw⟩

/-- A reply changes nothing but the history. -/
theorem elaReplyFriendInvite_carrier {env : CallEnv} {w : ElaCarrier} {addr bundle : Option CString}
    {status : Int32} {reason : Option CString} {data : Option (List UInt8)} {r : CallResult}
    (h : elaReplyFriendInvite env w addr bundle status reason data = some r) :
    ∃ th, r.carrier = { w with thistory := th } := by
  cases addr with
  | none =>
    unfold elaReplyFriendInvite at h
    split at h
    · obtain rfl := Option.some.inj h
      exact ⟨w.thistory, rfl⟩
    · obtain rfl := Option.some.inj h
      exact ⟨w.thistory, rfl⟩
  | some addr =>
    rcases elaReplyFriendInvite_cases h with ⟨-, -, hw⟩ | ⟨tid, k, hs⟩
    · exact ⟨w.thistory, hw⟩
    · by_cases he : r.error = none
      · obtain ⟨key, -, hw⟩ := Option.map_eq_some_iff.mp (hs.removed he)
        exact ⟨w.thistory.erase key, hw.symm⟩
      · exact ⟨w.thistory, hs.kept he⟩

/-- Whether an invite call passes its checks and the DHT accepts all its fragments but the
last, which is when the callback is put. -/
def reachesLastFragment (env : CallEnv) (w : ElaCarrier) (addr bundle : Option CString)
    (data : Option (List UInt8)) : Bool :=
  match data, checkAddress env w addr with
  | some data, .ok (_, extName, _) =>
    !(bundleInvalid bundle || decide (data.length = 0 ∨ elaMaxInviteDataLen < data.length)) &&
      (List.range ((inviteFragments extName env.tid bundle data.length 0 (bundleLength bundle)
        data).length - 1)).all env.accepts
  | _, _ => false

/-- The entry that a call puts, before its expiry time is set. -/
def inviteCallback (env : CallEnv) (bundle : Option CString) (context : Nat) : TransactedCallback :=
  { tid := env.tid, friendNumber := env.memory, callbackContext := context, expireTime := 0, bundle }

/-- The entry a failing call withdraws is the one under its tid. -/
theorem lookup_withdrawn (w : ElaCarrier) (env : CallEnv) (bundle : Option CString) (context : Nat)
    (tid : Tid) :
    (transactedCallbacksRemove (transactedCallbacksPut w (inviteCallback env bundle context))
      env.tid).tcallbacks.lookup tid = if tid = env.tid then none else w.tcallbacks.lookup tid :=
  lookup_transactedCallbacks_put_remove w (inviteCallback env bundle context) tid

/-- The three effects of an invite call on the node. -/
theorem elaInviteFriend_cases {env : CallEnv} {w : ElaCarrier} {addr bundle : Option CString}
    {data : Option (List UInt8)} {context : Nat} {r : CallResult}
    (h : elaInviteFriend env w addr bundle data (some context) = some r) :
    (r.error ≠ none ∧ r.carrier = w) ∨
      (reachesLastFragment env w addr bundle data = true ∧
        (∃ a n, checkAddress env w addr = .ok (a, n)) ∧
        ((r.error = none ∧ r.carrier = transactedCallbacksPut w (inviteCallback env bundle context)) ∨
          (r.error ≠ none ∧ r.carrier = transactedCallbacksRemove
            (transactedCallbacksPut w (inviteCallback env bundle context)) env.tid))) := by
  cases data with
  | none =>
    simp only [elaInviteFriend, Option.some.injEq] at h
    subst h
    exact .inl ⟨by simp [CallResult.failed], rfl⟩
  | some data =>
    simp only [elaInviteFriend] at h
    split at h
    · simp only [Option.some.injEq] at h
      subst h
      exact .inl ⟨by simp [CallResult.failed], rfl⟩
    · next hbad =>
      rw [not_or, Bool.not_eq_true] at hbad
      split at h
      · simp only [Option.some.injEq] at h
        subst h
        exact .inl ⟨by simp [CallResult.failed], rfl⟩
      · next addr' ext n haddr =>
        have hlen : 0 < data.length := by omega
        obtain ⟨d, ds, -, hfr⟩ : ∃ d ds, Pieces inviteDataUnit (d :: ds) data ∧
            inviteFragments ext env.tid bundle data.length 0 (bundleLength bundle) data = _ :=
          inviteFragments_pieces hlen (bundleLength_valid hbad.1)
        have hne : inviteFragments ext env.tid bundle data.length 0 (bundleLength bundle) data ≠ [] := by
          rw [hfr]
          exact List.cons_ne_nil _ _
        have hreach : AcceptsFrom env 0 ((inviteFragments ext env.tid bundle data.length 0
            (bundleLength bundle) data).length - 1) →
            reachesLastFragment env w addr bundle (some data) = true := by
          intro ha
          simp only [reachesLastFragment, haddr, hbad.1, hbad.2, decide_false, Bool.or_self,
            Bool.not_false, Bool.true_and, List.all_eq_true, List.mem_range]
          intro j hj
          simpa using ha j hj
        rcases sendInvite_cases hne h with ⟨he, ha, hw, -⟩ | ⟨he, hw⟩ | ⟨he, ha, hw⟩
        · exact .inr ⟨hreach ha, ⟨_, _, haddr⟩, .inl ⟨he, hw⟩⟩
        · exact .inl ⟨he, hw⟩
        · exact .inr ⟨hreach ha, ⟨_, _, haddr⟩, .inr ⟨he, hw⟩⟩

/-! Surroundings for calls on fixed inputs. -/

instance UserId.neZero_nine : NeZero 9 := ⟨by decide⟩

/-- The base58 text of the key with 31 zero bytes and a last byte below nine. -/
def UserId.small (d : Fin 9) : UserId where
  text := ⟨List.replicate 31 49 ++ [49 + UInt8.ofNat d], by revert d; decide⟩
  short := by revert d; decide
  noColon := by revert d; decide

/-- Surroundings in which the small ids decode and the DHT accepts every fragment. -/
def CallEnv.small (tid : Tid) (memory : FriendNumber) : CallEnv where
  base58Decode := fun s =>
    ((List.finRange 9).find? fun d => decide ((UserId.small d).text = s)).map fun d =>
      BitVec.ofNat 256 d
  tid := tid
  memory := memory
  accepts := fun _ => true

/-- Friends number zero and one, with the small ids of the same number. -/
def ElaCarrier.twoFriends : ElaCarrier :=
  { ElaCarrier.empty with
    friends := (AList.insert 0 ⟨0, .small 0⟩ ∅).insert 1 ⟨1, .small 1⟩
    dht := (AList.insert 0 0 ∅).insert 1 1 }

end CarrierSdk
