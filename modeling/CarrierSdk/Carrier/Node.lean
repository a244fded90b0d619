import CarrierSdk.Carrier.InviteReceive
import CarrierSdk.Carrier.InviteSend
import CarrierSdk.Library.Machine

/-! One node over time: the clock, its friends, the packets they send, the calls of its
application, and the two sweeps of its main loop. -/
namespace CarrierSdk

/-- What the application knows of an invite call that returned no error. Its callback
carries the number of the call as context. -/
structure Invited where
  context : Nat
  userid : UserId
  tid : Tid
  bundle : Option CString
  expireTime : Nat
  deriving DecidableEq

/-- A node with a record of the invites it issued and of the responses it received, each
with the friend that sent it. The code keeps neither. -/
structure NodeState where
  carrier : ElaCarrier
  calls : Nat
  issued : List Invited
  received : List (UserId × ElaCPInviteRsp)

inductive NodeInput where
  | tick (d : Nat)
  | ready (b : Bool)
  | friendPut (fi : FriendInfo) (key : PublicKey)
  | friendRemove (fn : FriendNumber)
  | message (fn : FriendNumber) (packet : FlatPacket)
  | invite (env : CallEnv) (addr bundle : Option CString) (data : Option (List UInt8))
  | reply (env : CallEnv) (addr bundle : Option CString) (status : Int32) (reason : Option CString)
      (data : Option (List UInt8))
  | assembliesExpire
  | callbacksCheck

/-- A callback called on a packet, a callback called by a sweep, and the end of a call. -/
inductive NodeOutput where
  | arrived (n : Notice)
  | expired (n : Notice)
  | returned (e : Option ElaError)
  deriving DecidableEq

/-- Stores a changed carrier. -/
def NodeState.on (s : NodeState) (w : ElaCarrier) : NodeState := { s with carrier := w }

/-- The friend that the address of a call names. -/
def invitedFriend (env : CallEnv) (w : ElaCarrier) (addr : Option CString) : Option UserId :=
  match checkAddress env w addr with
  | .error _ => none
  | .ok (_, _, n) => (w.friends.lookup n).map FriendInfo.userid

/-- The record of an invite call. -/
def recordInvite (s : NodeState) (env : CallEnv) (addr bundle : Option CString) : List Invited :=
  match invitedFriend env s.carrier addr with
  | none => []
  | some userid =>
    [{ context := s.calls, userid, tid := env.tid, bundle
       expireTime := s.carrier.now + transactionExpireInterval }]

/-- The record of a response that a friend sent. -/
def recordResponse (w : ElaCarrier) (fn : FriendNumber) (packet : FlatPacket) :
    List (UserId × ElaCPInviteRsp) :=
  match elacpDecode packet, w.friends.lookup fn with
  | some (.inviteRsp cp), some fi => [(fi.userid, cp)]
  | _, _ => []

def nodeStep (s : NodeState) : NodeInput → Option (NodeState × List NodeOutput)
  | .tick d => some (s.on { s.carrier with now := s.carrier.now + d }, [])
  | .ready b => some (s.on { s.carrier with isReady := b }, [])
  | .friendPut fi key =>
      some (s.on { s.carrier with
        friends := s.carrier.friends.insert fi.friendNumber fi
        dht := s.carrier.dht.insert fi.friendNumber key }, [])
  | .friendRemove fn =>
      some (s.on { s.carrier with
        friends := s.carrier.friends.erase fn
        dht := s.carrier.dht.erase fn }, [])
  | .message fn packet =>
      (notifyFriendMessage s.carrier fn packet).map fun r =>
        ({ s with
            carrier := r.1
            received := s.received ++ recordResponse s.carrier fn packet },
          r.2.map .arrived)
  | .invite env addr bundle data =>
      (elaInviteFriend env s.carrier addr bundle data (some s.calls)).map fun r =>
        ({ s with
            carrier := r.carrier
            calls := s.calls + 1
            issued := if r.error = none then s.issued ++ recordInvite s env addr bundle else s.issued },
          [.returned r.error])
  | .reply env addr bundle status reason data =>
      (elaReplyFriendInvite env s.carrier addr bundle status reason data).map fun r =>
        (s.on r.carrier, [.returned r.error])
  | .assembliesExpire =>
      some (s.on { s.carrier with
        tassemblyIreqs := doTassembliesExpire s.carrier.now s.carrier.tassemblyIreqs
        tassemblyIrsps := doTassembliesExpire s.carrier.now s.carrier.tassemblyIrsps }, [])
  | .callbacksCheck =>
      let r := doTransactedCallbacksCheck s.carrier
      some (s.on r.1, r.2.map .expired)

def nodeMachine : Machine NodeState NodeInput NodeOutput := ⟨nodeStep⟩

/-- A node that has any friends, flags and clock but has neither sent nor received yet. -/
structure NodeStarted (s : NodeState) : Prop where
  tcallbacks : s.carrier.tcallbacks = ∅
  tassemblyIreqs : s.carrier.tassemblyIreqs = ∅
  tassemblyIrsps : s.carrier.tassemblyIrsps = ∅
  issued : s.issued = []
  received : s.received = []

/-- The node that starts with a given carrier. -/
def NodeState.start (w : ElaCarrier) : NodeState := ⟨w, 0, [], []⟩

/-- The context of the callback that a notice hands the result of an invite to. -/
def Notice.context : Notice → Option Nat
  | .inviteResponse context .. => some context
  | _ => none

def NodeOutput.context : NodeOutput → Option Nat
  | .arrived n => n.context
  | .expired n => n.context
  | .returned _ => none

/-- The contexts of all calls of invite callbacks, in order. -/
def invocations (os : List NodeOutput) : List Nat := os.filterMap NodeOutput.context

@[simp] theorem invocations_append (os ps : List NodeOutput) :
    invocations (os ++ ps) = invocations os ++ invocations ps := List.filterMap_append

theorem invocations_quiet {os : List NodeOutput} (h : ∀ e ∈ os, e.context = none) :
    invocations os = [] := List.filterMap_eq_nil_iff.mpr h

/-! What one step does to the pending callbacks and the response assemblies. -/

/-- The state after a response fragment was stored or handed over. -/
def NodeState.afterResponse (s : NodeState) (w : ElaCarrier) (fi : FriendInfo) (cp : ElaCPInviteRsp) :
    NodeState := { s with carrier := w, received := s.received ++ [(fi.userid, cp)] }

/-- The invite of a call that returned no error. -/
def NodeState.invited (s : NodeState) (env : CallEnv) (bundle : Option CString) (userid : UserId) :
    Invited :=
  { context := s.calls, userid, tid := env.tid, bundle
    expireTime := s.carrier.now + transactionExpireInterval }

/-- Every step of a node leaves the pending callbacks alone, or is one of five. -/
inductive NodeStep (s : NodeState) : NodeInput → NodeState → List NodeOutput → Prop
  | quiet {i : NodeInput} {t : NodeState} {o : List NodeOutput} :
      t.carrier.tcallbacks = s.carrier.tcallbacks →
      (∀ tid a, t.carrier.tassemblyIrsps.lookup tid = some a →
        s.carrier.tassemblyIrsps.lookup tid = some a) →
      t.issued = s.issued → s.calls ≤ t.calls → s.received <+: t.received →
      (∀ e ∈ o, e.context = none) → NodeStep s i t o
  | stored {fn : FriendNumber} {packet : FlatPacket} {cp : ElaCPInviteRsp} {fi : FriendInfo}
      {tcb : TransactedCallback} {a : TransactedAssembly} :
      elacpDecode packet = some (.inviteRsp cp) → s.carrier.friends.lookup fn = some fi →
      s.carrier.tcallbacks.lookup cp.tid = some tcb → JoinsResponse s.carrier fi.userid cp a →
      responseRejected a fi.userid cp = false →
      NodeStep s (.message fn packet)
        (s.afterResponse { s.carrier with
          tassemblyIrsps := s.carrier.tassemblyIrsps.insert cp.tid (a.append (responseData cp)) } fi cp)
        []
  | delivered {fn : FriendNumber} {packet : FlatPacket} {cp : ElaCPInviteRsp} {fi : FriendInfo}
      {tcb : TransactedCallback} {a : TransactedAssembly} :
      elacpDecode packet = some (.inviteRsp cp) → s.carrier.friends.lookup fn = some fi →
      s.carrier.tcallbacks.lookup cp.tid = some tcb → JoinsResponse s.carrier fi.userid cp a →
      responseRejected a fi.userid cp = false → a.dataOff + (responseData cp).length = a.dataLen →
      NodeStep s (.message fn packet)
        (s.afterResponse { s.carrier with
          tcallbacks := s.carrier.tcallbacks.erase cp.tid
          tassemblyIrsps := s.carrier.tassemblyIrsps.erase cp.tid } fi cp)
        [.arrived (.inviteResponse tcb.callbackContext fi.userid a.bundle cp.status
          (responseReason cp) (a.data ++ responseData cp))]
  | registered {env : CallEnv} {addr bundle : Option CString} {data : Option (List UInt8)}
      {userid : UserId} :
      reachesLastFragment env s.carrier addr bundle data = true →
      invitedFriend env s.carrier addr = some userid →
      NodeStep s (.invite env addr bundle data)
        { s with
          carrier := transactedCallbacksPut s.carrier (inviteCallback env bundle s.calls)
          calls := s.calls + 1
          issued := s.issued ++ [s.invited env bundle userid] }
        [.returned none]
  | withdrawn {env : CallEnv} {addr bundle : Option CString} {data : Option (List UInt8)}
      {e : ElaError} :
      reachesLastFragment env s.carrier addr bundle data = true →
      NodeStep s (.invite env addr bundle data)
        { s with
          carrier := transactedCallbacksRemove
            (transactedCallbacksPut s.carrier (inviteCallback env bundle s.calls)) env.tid
          calls := s.calls + 1 }
        [.returned (some e)]
  | swept : NodeStep s .callbacksCheck (s.on (doTransactedCallbacksCheck s.carrier).1)
      ((doTransactedCallbacksCheck s.carrier).2.map .expired)

theorem notifyInvite_context {w : ElaCarrier} {friendid : UserId} {name : Option CString}
    {a : TransactedAssembly} : ∀ n ∈ notifyInvite w friendid name a, n.context = none := by
  intro n hn
  unfold notifyInvite at hn
  split at hn
  · split at hn
    · rw [List.mem_singleton.mp hn]
      rfl
    · cases hn
  · split at hn
    · rw [List.mem_singleton.mp hn]
      rfl
    · cases hn

theorem handleFriendMessage_context {w : ElaCarrier} {fn : FriendNumber} {cp : ElaCPFriendMsg} :
    ∀ n ∈ handleFriendMessage w fn cp, n.context = none := by
  intro n hn
  unfold handleFriendMessage at hn
  split at hn
  · cases hn
  · split at hn
    · rw [List.mem_singleton.mp hn]
      rfl
    · cases hn

private theorem message_cases {s : NodeState} {fn : FriendNumber} {packet : FlatPacket}
    {w : ElaCarrier} {ns : List Notice} (h : notifyFriendMessage s.carrier fn packet = some (w, ns)) :
    NodeStep s (.message fn packet)
      { s with carrier := w, received := s.received ++ recordResponse s.carrier fn packet }
      (ns.map .arrived) := by
  have hq : ∀ {ns : List Notice}, (∀ n ∈ ns, n.context = none) →
      ∀ e ∈ ns.map NodeOutput.arrived, e.context = none := by
    intro ns hn e he
    obtain ⟨n, hm, rfl⟩ := List.mem_map.mp he
    exact hn n hm
  unfold notifyFriendMessage at h
  split at h
  · simp only [Option.some.injEq, Prod.mk.injEq] at h
    obtain ⟨rfl, rfl⟩ := h
    exact .quiet rfl (fun _ _ h => h) rfl (Nat.le_refl _) (List.prefix_append _ _)
      (hq handleFriendMessage_context)
  · cases handleInviteRequest_step h with
    | ignored =>
      exact .quiet rfl (fun _ _ h => h) rfl (Nat.le_refl _) (List.prefix_append _ _) (by simp)
    | stored =>
      exact .quiet rfl (fun _ _ h => h) rfl (Nat.le_refl _) (List.prefix_append _ _) (by simp)
    | delivered =>
      exact .quiet rfl (fun _ _ h => h) rfl (Nat.le_refl _) (List.prefix_append _ _)
        (hq notifyInvite_context)
  · next cp hd =>
    cases handleInviteResponse_step h with
    | ignored =>
      exact .quiet rfl (fun _ _ h => h) rfl (Nat.le_refl _) (List.prefix_append _ _) (by simp)
    | @stored fi tcb a hf hc hj hr hl =>
      have hrec : recordResponse s.carrier fn packet = [(fi.userid, cp)] := by
        simp only [recordResponse, hd, hf]
      rw [hrec]
      exact .stored hd hf hc hj hr
    | @delivered fi tcb a hf hc hj hr hl =>
      have hrec : recordResponse s.carrier fn packet = [(fi.userid, cp)] := by
        simp only [recordResponse, hd, hf]
      rw [hrec]
      exact .delivered hd hf hc hj hr hl
  · simp only [Option.some.injEq, Prod.mk.injEq] at h
    obtain ⟨rfl, rfl⟩ := h
    exact .quiet rfl (fun _ _ h => h) rfl (Nat.le_refl _) (List.prefix_append _ _) (by simp)

private theorem invite_cases {s : NodeState} {env : CallEnv} {addr bundle : Option CString}
    {data : Option (List UInt8)} {r : CallResult}
    (h : elaInviteFriend env s.carrier addr bundle data (some s.calls) = some r) :
    NodeStep s (.invite env addr bundle data)
      { s with
        carrier := r.carrier
        calls := s.calls + 1
        issued := if r.error = none then s.issued ++ recordInvite s env addr bundle else s.issued }
      [.returned r.error] := by
  have hquiet : ∀ e : Option ElaError, ∀ x ∈ [NodeOutput.returned e], x.context = none := by
    intro e x hx
    rw [List.mem_singleton.mp hx]
    rfl
  rcases elaInviteFriend_cases h with ⟨he, hw⟩ | ⟨hreach, ⟨a, n, haddr⟩, hput⟩
  · rw [if_neg he, hw]
    exact .quiet rfl (fun _ _ h => h) rfl (Nat.le_succ _) (List.prefix_refl _) (hquiet _)
  · rcases hput with ⟨he, hw⟩ | ⟨he, hw⟩
    · obtain ⟨fi, hf⟩ := (checkAddress_ok haddr).2.2.2
      have hi : invitedFriend env s.carrier addr = some fi.userid := by
        simp only [invitedFriend, haddr, hf, Option.map_some]
      rw [if_pos he, hw, he]
      simp only [recordInvite, hi]
      exact .registered hreach hi
    · obtain ⟨e, he'⟩ := Option.ne_none_iff_exists'.mp he
      rw [if_neg he, hw, he']
      exact .withdrawn hreach

/-- Whatever a node does is one of the six steps. -/
theorem nodeStep_cases {s t : NodeState} {i : NodeInput} {o : List NodeOutput}
    (h : nodeStep s i = some (t, o)) : NodeStep s i t o := by
  cases i with
  | message fn packet =>
    obtain ⟨⟨w, ns⟩, hn, h⟩ := Option.map_eq_some_iff.mp h
    cases h
    exact message_cases hn
  | invite env addr bundle data =>
    obtain ⟨r, hr, h⟩ := Option.map_eq_some_iff.mp h
    cases h
    exact invite_cases hr
  | reply env addr bundle status reason data =>
    obtain ⟨r, hr, h⟩ := Option.map_eq_some_iff.mp h
    cases h
    obtain ⟨th, hw⟩ := elaReplyFriendInvite_carrier hr
    rw [hw]
    refine .quiet rfl (fun _ _ h => h) rfl (Nat.le_refl _) (List.prefix_refl _) ?_
    intro e he
    rw [List.mem_singleton.mp he]
    rfl
  | assembliesExpire =>
    cases h
    refine .quiet rfl ?_ rfl (Nat.le_refl _) (List.prefix_refl _) (by simp)
    intro tid a ha
    exact (Table.lookup_sweep_some.mp ha).1
  | callbacksCheck =>
    cases h
    exact .swept
  | tick d =>
    cases h
    exact .quiet rfl (fun _ _ h => h) rfl (Nat.le_refl _) (List.prefix_refl _) (by simp)
  | ready b =>
    cases h
    exact .quiet rfl (fun _ _ h => h) rfl (Nat.le_refl _) (List.prefix_refl _) (by simp)
  | friendPut fi key =>
    cases h
    exact .quiet rfl (fun _ _ h => h) rfl (Nat.le_refl _) (List.prefix_refl _) (by simp)
  | friendRemove fn =>
    cases h
    exact .quiet rfl (fun _ _ h => h) rfl (Nat.le_refl _) (List.prefix_refl _) (by simp)

/-- A node with two friends, for runs on fixed inputs. -/
theorem NodeStarted.twoFriends : NodeStarted (.start .twoFriends) := ⟨rfl, rfl, rfl, rfl, rfl⟩

end CarrierSdk
