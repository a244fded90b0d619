import CarrierSdk.Carrier.Fragmentation
import CarrierSdk.Carrier.CallbackLifetime

/-! Replies that are tried again after an error. The fragments that a failed call got through
reach the inviter under the same transaction id as those of the next call. -/
namespace CarrierSdk

/-- The arguments of a reply call. -/
structure ReplyArgs where
  bundle : Option CString
  status : Int32
  reason : Option CString
  data : Option (List UInt8)
  deriving DecidableEq

/-- One reply call on the wire: the packets of it that have not arrived yet, whether the call
returned no error, and whether a packet of it has arrived. -/
structure Attempt where
  args : ReplyArgs
  complete : Bool
  started : Bool
  rest : List FlatPacket

/-- Two nodes and the wire from the invitee to the inviter, which keeps the order of packets.
The arguments of the first reply that returned no error are recorded. -/
structure ReplyState where
  inviter : ElaCarrier
  invitee : ElaCarrier
  wire : List Attempt
  accepted : Option ReplyArgs

inductive ReplyInput where
  | reply (env : CallEnv) (args : ReplyArgs)
  | deliver
  | traffic (fn : FriendNumber) (packet : FlatPacket)
  | tick (d : Nat)
  | assembliesExpire
  | callbacksCheck

/-- One invite: the address the invitee replies to, the invitee's number and entry at the
inviter, the transaction id and the context of the inviter's callback. -/
structure Exchange where
  addr : CString
  fn : FriendNumber
  fi : FriendInfo
  tid : Tid
  context : Nat

/-- Whether a packet is a response under a transaction id. -/
def respondsTo (tid : Tid) (packet : FlatPacket) : Bool :=
  match elacpDecode packet with
  | some (.inviteRsp cp) => decide (cp.tid = tid)
  | _ => false

/-- The wire after its first packet has arrived. -/
def advance (a : Attempt) (rest : List FlatPacket) (later : List Attempt) : List Attempt :=
  if rest = [] then later else { a with started := true, rest } :: later

/-- The inviter also receives any packets that are no responses to the invite. -/
def replyStep (x : Exchange) (s : ReplyState) : ReplyInput → Option (ReplyState × List NodeOutput)
  | .reply env args =>
    (elaReplyFriendInvite env s.invitee (some x.addr) args.bundle args.status args.reason
        args.data).map fun r =>
      ({ s with
          invitee := r.carrier
          wire := if r.sent = [] then s.wire
            else s.wire ++ [{ args, complete := r.error.isNone, started := false, rest := r.sent }]
          accepted := if r.error = none ∧ s.accepted = none then some args else s.accepted },
        [.returned r.error])
  | .deliver =>
    match s.wire with
    | [] => none
    | a :: later =>
      match a.rest with
      | [] => none
      | packet :: rest =>
        (notifyFriendMessage s.inviter x.fn packet).map fun r =>
          ({ s with inviter := r.1, wire := advance a rest later }, r.2.map .arrived)
  | .traffic fn packet =>
    if respondsTo x.tid packet then none
    else (notifyFriendMessage s.inviter fn packet).map fun r =>
      ({ s with inviter := r.1 }, r.2.map .arrived)
  | .tick d =>
    let w := { s.inviter with now := s.inviter.now + d }
    some ({ s with inviter := w }, [])
  | .assembliesExpire =>
    let w := { s.inviter with
      tassemblyIreqs := doTassembliesExpire s.inviter.now s.inviter.tassemblyIreqs
      tassemblyIrsps := doTassembliesExpire s.inviter.now s.inviter.tassemblyIrsps }
    some ({ s with inviter := w }, [])
  | .callbacksCheck =>
    let r := doTransactedCallbacksCheck s.inviter
    some ({ s with inviter := r.1 }, r.2.map .expired)

def replyMachine (x : Exchange) : Machine ReplyState ReplyInput NodeOutput := ⟨replyStep x⟩

/-- The invite is pending at the inviter and recorded at the invitee, and no reply was tried. -/
structure ReplyStarted (x : Exchange) (s : ReplyState) : Prop where
  friend : s.inviter.friends.lookup x.fn = some x.fi
  pending : ∃ tcb, s.inviter.tcallbacks.lookup x.tid = some tcb ∧ tcb.callbackContext = x.context
  alone : ∀ tid tcb, s.inviter.tcallbacks.lookup tid = some tcb → tcb.callbackContext = x.context →
    tid = x.tid
  recorded : transactionHistoryGetInvite s.invitee x.addr = some x.tid
  wire : s.wire = []
  accepted : s.accepted = none

/-- The first packet of a reply call that got through finds no assembly at the inviter, unless
the invite is no longer pending there. -/
def findsNoAssembly (x : Exchange) (s : ReplyState) : ReplyInput → Bool
  | .deliver =>
    match s.wire with
    | a :: _ => a.started || (s.inviter.tassemblyIrsps.lookup x.tid).isNone ||
        (s.inviter.tcallbacks.lookup x.tid).isNone
    | [] => true
  | _ => true

/-- The callback is called once at most, and a response it hears of is what the first reply
that returned no error was given. -/
def RepliesFaithful (x : Exchange) (accepted : Option ReplyArgs) (os : List NodeOutput) : Prop :=
  (invocations os).count x.context ≤ 1 ∧
    ∀ sender bundle status reason data,
      NodeOutput.arrived (.inviteResponse x.context sender bundle status reason data) ∈ os →
      ∃ args, accepted = some args ∧ bundle = args.bundle ∧ status = args.status ∧
        reason = args.reason ∧ data = args.data.getD []

/-! What is in flight. -/

/-- The extension name in the address, which every fragment carries. -/
def Exchange.ext (x : Exchange) : Option CString := (parseAddress x.addr).2

/-- The fragments still to come of an attempt, those that were never sent included. -/
def ToCome (a : Attempt) (cps : List ElaCPInviteRsp) : Prop :=
  ∃ k, Encodes ((cps.take k).map .inviteRsp) a.rest ∧ (a.complete = true ↔ cps.length ≤ k)

/-- An attempt of which nothing has arrived. -/
structure Fresh (x : Exchange) (a : Attempt) : Prop where
  validBundle : bundleInvalid a.args.bundle = false
  validReply : replyInvalid a.args.status a.args.reason a.args.data = false
  validExt : ∀ e, x.ext = some e → e.strlen ≤ elaMaxExtensionNameLen
  toCome : ToCome a (replyFragments x.ext x.tid a.args.bundle a.args.status a.args.reason
    ((a.args.data.getD []).length + 1) 0 (bundleLength a.args.bundle) (a.args.data.getD []))

/-- An assembly that the pieces still to come fill up with the data of a call. -/
structure Partial (x : Exchange) (args : ReplyArgs) (data rest : List UInt8)
    (b : TransactedAssembly) : Prop where
  named : NamedBy b x.ext
  sender : b.friendid = x.fi.userid
  bundle : b.bundle = args.bundle
  size : b.dataLen = data.length
  filled : b.data ++ rest = data

/-- An attempt of which the first fragment has arrived. As long as the invite is pending, an
assembly under its tid is the one this attempt started. -/
def Going (x : Exchange) (w : ElaCarrier) (a : Attempt) : Prop :=
  ∃ data ds, a.args.status = 0 ∧ a.args.reason = none ∧ a.args.data = some data ∧
    Pieces inviteDataUnit ds ds.flatten ∧ ToCome a (ds.map (laterResponse x.ext x.tid)) ∧
    ∀ tcb b, w.tcallbacks.lookup x.tid = some tcb → w.tassemblyIrsps.lookup x.tid = some b →
      Partial x a.args data ds.flatten b

/-- What the next packet of an attempt does at the inviter. -/
inductive Arrival (x : Exchange) (w : ElaCarrier) (a : Attempt) (rest : List FlatPacket) :
    ElaCarrier → List Notice → Prop
  | quiet {w' : ElaCarrier} : w'.tcallbacks = w.tcallbacks → w'.friends = w.friends →
      (rest ≠ [] → Going x w' { a with started := true, rest }) → Arrival x w a rest w' []
  | answered {w' : ElaCarrier} {tcb : TransactedCallback} : rest = [] → a.complete = true →
      w.tcallbacks.lookup x.tid = some tcb → w'.tcallbacks = w.tcallbacks.erase x.tid →
      w'.friends = w.friends →
      Arrival x w a rest w' [.inviteResponse tcb.callbackContext x.fi.userid a.args.bundle
        a.args.status a.args.reason (a.args.data.getD [])]

/-- The first packet of an attempt, and what is to come after it. -/
theorem ToCome.next {a : Attempt} {cps : List ElaCPInviteRsp} {packet : FlatPacket}
    {rest : List FlatPacket} (h : ToCome a cps) (hr : a.rest = packet :: rest) :
    ∃ cp cps', cps = cp :: cps' ∧ elacpEncode (.inviteRsp cp) = some packet ∧
      ToCome { a with started := true, rest } cps' := by
  obtain ⟨k, he, hc⟩ := h
  rw [hr] at he
  cases cps with
  | nil =>
    rw [List.take_nil] at he
    cases he
  | cons cp cps' =>
    cases k with
    | zero => cases he
    | succ k =>
      rw [List.take_succ_cons, List.map_cons] at he
      obtain ⟨hp, hps⟩ := List.forall₂_cons.mp he
      refine ⟨cp, cps', rfl, hp, k, hps, hc.trans ?_⟩
      rw [List.length_cons, Nat.succ_le_succ_iff]

theorem ToCome.done {a : Attempt} (h : ToCome a []) : a.rest = [] ∧ a.complete = true := by
  obtain ⟨k, he, hc⟩ := h
  rw [List.take_nil] at he
  exact ⟨List.forall₂_nil_left_iff.mp he, hc.mpr (Nat.zero_le k)⟩

/-- A response to an invite that is not pending is dropped. -/
theorem notify_unawaited {w : ElaCarrier} {fn : FriendNumber} {fi : FriendInfo}
    {cp : ElaCPInviteRsp} {packet : FlatPacket} (hf : w.friends.lookup fn = some fi)
    (hc : w.tcallbacks.lookup cp.tid = none) (hp : elacpEncode (.inviteRsp cp) = some packet)
    (ht : cp.totalsz < 2 ^ 32) (hr : cp.status ≠ 0 → cp.reason.isSome ∧ cp.data = [])
    (ha : cp.status = 0 → cp.reason = none) : notifyFriendMessage w fn packet = some (w, []) := by
  rw [notify_response hp ht hr ha]
  simp only [handleInviteResponse, hf, hc]

/-- A fragment that comes after its assembly is gone announces no size and is dropped. -/
theorem notify_lost {w : ElaCarrier} {fn : FriendNumber} {fi : FriendInfo} {ext : Option CString}
    {tid : Tid} {tcb : TransactedCallback} {d : List UInt8} {packet : FlatPacket}
    (hf : w.friends.lookup fn = some fi) (hc : w.tcallbacks.lookup tid = some tcb)
    (hfree : w.tassemblyIrsps.lookup tid = none)
    (he : ∀ e, ext = some e → e.strlen ≤ elaMaxExtensionNameLen) (hd : 0 < d.length)
    (hp : elacpEncode (.inviteRsp (laterResponse ext tid d)) = some packet) :
    notifyFriendMessage w fn packet = some (w, []) := by
  have h := notify_firstAcceptance hf hc hfree (Nat.zero_le _) he
    (hp : elacpEncode (.inviteRsp (firstAcceptance ext tid none 0 d)) = some packet)
  have hr : responseRejected (acceptanceAssembly w fi.userid ext tid none 0) fi.userid
      (firstAcceptance ext tid none 0 d) = true := by
    have hz : (acceptanceAssembly w fi.userid ext tid none 0).dataLen <
        (acceptanceAssembly w fi.userid ext tid none 0).dataOff +
          (responseData (firstAcceptance ext tid none 0 d)).length := by
      change 0 < 0 + d.length
      omega
    simp only [responseRejected, hz, decide_true, Bool.or_true]
  rw [h, addResponseFragment, if_pos hr]

theorem Arrival.answered_eq {x : Exchange} {w : ElaCarrier} {a : Attempt} {rest : List FlatPacket}
    {tcb : TransactedCallback} {bundle reason : Option CString} {status : Int32} {data : List UInt8}
    (hr : rest = []) (hd : a.complete = true) (hc : w.tcallbacks.lookup x.tid = some tcb)
    (hb : bundle = a.args.bundle) (hs : status = a.args.status) (he : reason = a.args.reason)
    (hx : data = a.args.data.getD []) (w' : ElaCarrier)
    (ht : w'.tcallbacks = w.tcallbacks.erase x.tid) (hf : w'.friends = w.friends) :
    Arrival x w a rest w'
      [.inviteResponse tcb.callbackContext x.fi.userid bundle status reason data] := by
  subst hb hs he hx
  exact .answered hr hd hc ht hf

private theorem arrival_later {x : Exchange} {w : ElaCarrier} {a : Attempt} {packet : FlatPacket}
    {rest : List FlatPacket} (hf : w.friends.lookup x.fn = some x.fi)
    (hext : ∀ e, x.ext = some e → e.strlen ≤ elaMaxExtensionNameLen) (hg : Going x w a)
    (hr : a.rest = packet :: rest) :
    ∃ w' ns, notifyFriendMessage w x.fn packet = some (w', ns) ∧ Arrival x w a rest w' ns := by
  obtain ⟨data, ds, hs, hre, hda, hds, hto, hb⟩ := hg
  obtain ⟨cp, cps, hcps, hp, hto'⟩ := hto.next hr
  cases ds with
  | nil => cases hcps
  | cons d ds =>
    rw [List.map_cons, List.cons.injEq] at hcps
    obtain ⟨rfl, rfl⟩ := hcps
    -- What is left to come once the piece has been dropped, with the node as it was.
    have hdrop : (∀ tcb b, w.tcallbacks.lookup x.tid = some tcb →
        w.tassemblyIrsps.lookup x.tid = some b → False) →
        Going x w { a with started := true, rest } := fun hno =>
      ⟨data, ds, hs, hre, hda, hds.tail, hto', fun tcb b hc hl => absurd (hno tcb b hc hl) id⟩
    cases hc : w.tcallbacks.lookup x.tid with
    | none =>
      refine ⟨w, [], notify_unawaited hf hc hp (by simp [laterResponse]) (by simp [laterResponse])
        (by simp [laterResponse]), .quiet rfl rfl fun _ => hdrop fun tcb b hl => ?_⟩
      rw [hc] at hl
      cases hl
    | some tcb =>
      cases hl : w.tassemblyIrsps.lookup x.tid with
      | none =>
        refine ⟨w, [], notify_lost hf hc hl hext hds.head.1 hp,
          .quiet rfl rfl fun _ => hdrop fun tcb b _ hl' => ?_⟩
        rw [hl] at hl'
        cases hl'
      | some b =>
        have hpart := hb tcb b hc hl
        have hlen : b.dataOff + (d.length + ds.flatten.length) = b.dataLen := by
          rw [hpart.size, ← hpart.filled, List.length_append, List.flatten_cons, List.length_append]
          rfl
        have hfit : ResponseFits b x.fi.userid (laterResponse x.ext x.tid d) :=
          ⟨hpart.named, hpart.sender, hds.head.2, by change b.dataOff + d.length ≤ b.dataLen; omega⟩
        have hn := notify_laterResponse hf hc hl hp
        cases ds with
        | nil =>
          have hdone : b.dataOff + (responseData (laterResponse x.ext x.tid d)).length = b.dataLen := by
            change b.dataOff + d.length = b.dataLen
            simpa using hlen
          rw [addResponse_last hfit hdone] at hn
          have hend : rest = [] ∧ a.complete = true := hto'.done
          have hfull : b.data ++ d = data := by simpa using hpart.filled
          have hx : b.data ++ d = a.args.data.getD [] := by rw [hda, Option.getD_some, hfull]
          exact ⟨_, _, hn, Arrival.answered_eq hend.1 hend.2 hc hpart.bundle hs.symm hre.symm hx _ rfl rfl⟩
        | cons d' ds =>
          have hpos := hds.tail.flatten_pos
          have hmore : b.dataOff + (responseData (laterResponse x.ext x.tid d)).length ≠ b.dataLen := by
            change b.dataOff + d.length ≠ b.dataLen
            omega
          rw [addResponse_more hfit hmore] at hn
          refine ⟨_, _, hn, .quiet rfl rfl fun _ => ⟨data, d' :: ds, hs, hre, hda, hds.tail, hto', ?_⟩⟩
          intro tcb' b' _ hl'
          have hb' : b.append d = b' :=
            Option.some.inj ((AList.lookup_insert _).symm.trans hl')
          subst hb'
          refine ⟨hpart.named, hpart.sender, hpart.bundle, hpart.size, ?_⟩
          rw [TransactedAssembly.append_data, List.append_assoc, ← hpart.filled]
          rfl

private theorem arrival_acceptance {x : Exchange} {w : ElaCarrier} {a : Attempt} {packet : FlatPacket}
    {rest : List FlatPacket} {data d : List UInt8} {ds : List (List UInt8)}
    (hf : w.friends.lookup x.fn = some x.fi) (hg : Fresh x a)
    (hfree : ∀ tcb, w.tcallbacks.lookup x.tid = some tcb → w.tassemblyIrsps.lookup x.tid = none)
    (hs : a.args.status = 0) (hre : a.args.reason = none) (hda : a.args.data = some data)
    (hm : data.length ≤ elaMaxInviteDataLen) (hds : Pieces inviteDataUnit (d :: ds) data)
    (hp : elacpEncode (.inviteRsp (firstAcceptance x.ext x.tid a.args.bundle data.length d)) =
      some packet)
    (hto : ToCome { a with started := true, rest } (ds.map (laterResponse x.ext x.tid))) :
    ∃ w' ns, notifyFriendMessage w x.fn packet = some (w', ns) ∧ Arrival x w a rest w' ns := by
  have hlen := hds.length_eq
  cases hc : w.tcallbacks.lookup x.tid with
  | none =>
    have hsmall : data.length < 2 ^ 32 := Nat.lt_of_le_of_lt hm (by decide)
    refine ⟨w, [], notify_unawaited hf hc hp hsmall (by simp [firstAcceptance])
      (by simp [firstAcceptance]), .quiet rfl rfl fun _ =>
        ⟨data, ds, hs, hre, hda, hds.tail, hto, fun tcb b hl => ?_⟩⟩
    rw [hc] at hl
    cases hl
  | some tcb =>
    have hn := notify_firstAcceptance hf hc (hfree tcb hc) hm hg.validExt hp
    have hfit : ResponseFits (acceptanceAssembly w x.fi.userid x.ext x.tid a.args.bundle data.length)
        x.fi.userid (firstAcceptance x.ext x.tid a.args.bundle data.length d) :=
      ⟨rfl, rfl, hds.head.2, by change 0 + d.length ≤ data.length; omega⟩
    cases ds with
    | nil =>
      have hdata : data = d := by simpa using hds.flatten.symm
      rw [addResponse_last hfit (by change 0 + d.length = data.length; rw [hdata, Nat.zero_add])] at hn
      have hend : rest = [] ∧ a.complete = true := hto.done
      have hx : d = a.args.data.getD [] := by rw [hda, Option.getD_some, hdata]
      exact ⟨_, _, hn, Arrival.answered_eq hend.1 hend.2 hc rfl hs.symm hre.symm hx _ rfl rfl⟩
    | cons d' ds =>
      have hrest := hds.tail.flatten_pos
      rw [addResponse_more hfit (by change 0 + d.length ≠ data.length; omega)] at hn
      refine ⟨_, _, hn, .quiet rfl rfl fun _ => ⟨data, d' :: ds, hs, hre, hda, hds.tail, hto, ?_⟩⟩
      intro tcb' b' _ hl'
      obtain rfl := Option.some.inj ((AList.lookup_insert _).symm.trans hl')
      exact ⟨rfl, rfl, rfl, rfl, hds.flatten⟩

private theorem arrival_refusal {x : Exchange} {w : ElaCarrier} {a : Attempt} {packet : FlatPacket}
    {rest : List FlatPacket} {reason : CString} (hf : w.friends.lookup x.fn = some x.fi)
    (hg : Fresh x a)
    (hfree : ∀ tcb, w.tcallbacks.lookup x.tid = some tcb → w.tassemblyIrsps.lookup x.tid = none)
    (hs : a.args.status ≠ 0) (hre : a.args.reason = some reason) (hda : a.args.data = none)
    (hp : elacpEncode (.inviteRsp
      { ext := x.ext, tid := x.tid, bundle := a.args.bundle, totalsz := 0, status := a.args.status
        reason := some reason, data := [] }) = some packet)
    (hend : rest = [] ∧ a.complete = true) :
    ∃ w' ns, notifyFriendMessage w x.fn packet = some (w', ns) ∧ Arrival x w a rest w' ns := by
  cases hc : w.tcallbacks.lookup x.tid with
  | none =>
    exact ⟨w, [], notify_unawaited hf hc hp (by simp) (by simp) (fun h => absurd h hs),
      .quiet rfl rfl fun hne => absurd hend.1 hne⟩
  | some tcb =>
    have hd := deliver_refusal hf hc (hfree tcb hc) hs hg.validExt
      (.cons hp .nil : Encodes _ [packet])
    simp only [deliver, Option.bind_eq_some_iff, Option.map_some, Option.some.injEq] at hd
    obtain ⟨⟨w', ns⟩, hn, hd⟩ := hd
    simp only [Prod.mk.injEq] at hd
    obtain ⟨hw, hns⟩ := hd
    have hx : [] = a.args.data.getD [] := by rw [hda, Option.getD_none]
    obtain ⟨rfl, -⟩ := List.cons.inj hns
    exact ⟨w', _, hn, Arrival.answered_eq hend.1 hend.2 hc rfl rfl hre.symm hx w' (by rw [hw])
      (by rw [hw])⟩

private theorem arrival_first {x : Exchange} {w : ElaCarrier} {a : Attempt} {packet : FlatPacket}
    {rest : List FlatPacket} (hf : w.friends.lookup x.fn = some x.fi) (hg : Fresh x a)
    (hfree : ∀ tcb, w.tcallbacks.lookup x.tid = some tcb → w.tassemblyIrsps.lookup x.tid = none)
    (hr : a.rest = packet :: rest) :
    ∃ w' ns, notifyFriendMessage w x.fn packet = some (w', ns) ∧ Arrival x w a rest w' ns := by
  have hto := hg.toCome
  rcases replyInvalid_cases hg.validReply with ⟨hs, hre, data, hda, hpos, hm⟩ | ⟨hs, reason, hre, hda⟩
  · rw [hs, hre, hda, Option.getD_some] at hto
    obtain ⟨d, ds, hds, hfr⟩ : ∃ d ds, Pieces inviteDataUnit (d :: ds) data ∧
        replyFragments x.ext x.tid a.args.bundle 0 none (data.length + 1) 0
          (bundleLength a.args.bundle) data = _ :=
      replyFragments_accept hpos (bundleLength_valid hg.validBundle)
    rw [hfr] at hto
    obtain ⟨cp, cps, hcps, hp, hto'⟩ := hto.next hr
    obtain ⟨rfl, rfl⟩ := List.cons.inj hcps
    exact arrival_acceptance hf hg hfree hs hre hda hm hds hp hto'
  · rw [hda, Option.getD_none, List.length_nil, Nat.zero_add, replyFragments_refuse hs] at hto
    obtain ⟨cp, cps, hcps, hp, hto'⟩ := hto.next hr
    obtain ⟨rfl, rfl⟩ := List.cons.inj hcps
    rw [hre] at hp
    exact arrival_refusal hf hg hfree hs hre hda hp hto'.done

/-! The invariant. -/

structure ReplyInv (x : Exchange) (s : ReplyState) (os : List NodeOutput) : Prop where
  friend : s.inviter.friends.lookup x.fn = some x.fi
  alone : ∀ tid tcb, s.inviter.tcallbacks.lookup tid = some tcb →
    (tcb.callbackContext = x.context ↔ tid = x.tid)
  rests : ∀ a ∈ s.wire, a.rest ≠ []
  fresh : ∀ a ∈ s.wire, a.started = false → Fresh x a
  going : ∀ a ∈ s.wire, a.started = true →
    Going x s.inviter a ∧ ∀ e, x.ext = some e → e.strlen ≤ elaMaxExtensionNameLen
  order : ∀ a ∈ s.wire.tail, a.started = false
  complete : ∀ a ∈ s.wire, a.complete = true → s.accepted = some a.args
  history : ∃ tid, transactionHistoryGetInvite s.invitee x.addr = some tid ∧
    (tid ≠ 0 → tid = x.tid ∧ s.accepted = none)
  unused : ∀ tcb, s.inviter.tcallbacks.lookup x.tid = some tcb → x.context ∉ invocations os
  faithful : RepliesFaithful x s.accepted os

theorem Going.mono {x : Exchange} {w w' : ElaCarrier} {a : Attempt} (h : Going x w a)
    (hc : ∀ tcb, w'.tcallbacks.lookup x.tid = some tcb → w.tcallbacks.lookup x.tid = some tcb)
    (hl : ∀ b, w'.tassemblyIrsps.lookup x.tid = some b → w.tassemblyIrsps.lookup x.tid = some b) :
    Going x w' a := by
  obtain ⟨data, ds, hs, hr, hd, hp, ht, hb⟩ := h
  exact ⟨data, ds, hs, hr, hd, hp, ht, fun tcb b htcb hlb => hb tcb b (hc tcb htcb) (hl b hlb)⟩

/-- A change at the inviter that adds nothing the invite depends on, and calls its callback
only where the entry goes, and not with a response. -/
private theorem replyInv_inviter {x : Exchange} {s : ReplyState} {os o : List NodeOutput}
    {w : ElaCarrier} (hi : ReplyInv x s os) (hf : w.friends = s.inviter.friends)
    (hc : ∀ tid tcb, w.tcallbacks.lookup tid = some tcb → s.inviter.tcallbacks.lookup tid = some tcb)
    (hl : ∀ b, w.tassemblyIrsps.lookup x.tid = some b →
      s.inviter.tassemblyIrsps.lookup x.tid = some b)
    (hcount : (invocations o).count x.context ≤ 1)
    (hgone : x.context ∈ invocations o → w.tcallbacks.lookup x.tid = none ∧
      ∃ tcb, s.inviter.tcallbacks.lookup x.tid = some tcb)
    (hno : ∀ p b st r d, NodeOutput.arrived (.inviteResponse x.context p b st r d) ∉ o) :
    ReplyInv x { s with inviter := w } (os ++ o) where
  friend := hf ▸ hi.friend
  alone := fun tid tcb h => hi.alone tid tcb (hc tid tcb h)
  rests := hi.rests
  fresh := hi.fresh
  going := fun a ha hs => ⟨(hi.going a ha hs).1.mono (hc x.tid) hl, (hi.going a ha hs).2⟩
  order := hi.order
  complete := hi.complete
  history := hi.history
  unused := by
    intro tcb h hm
    rw [invocations_append, List.mem_append] at hm
    rcases hm with hm | hm
    · exact hi.unused tcb (hc x.tid tcb h) hm
    · have hnone := (hgone hm).1
      rw [h] at hnone
      cases hnone
  faithful := by
    refine ⟨?_, fun p b st r d hm => ?_⟩
    · rw [invocations_append, List.count_append]
      by_cases hm : x.context ∈ invocations o
      · obtain ⟨tcb, h⟩ := (hgone hm).2
        have hz : (invocations os).count x.context = 0 := List.count_eq_zero.mpr (hi.unused tcb h)
        omega
      · have hz : (invocations o).count x.context = 0 := List.count_eq_zero.mpr hm
        have := hi.faithful.1
        omega
    · rcases List.mem_append.mp hm with hm | hm
      · exact hi.faithful.2 p b st r d hm
      · exact absurd hm (hno p b st r d)

private theorem replyInv_traffic {x : Exchange} {s : ReplyState} {os : List NodeOutput}
    {fn : FriendNumber} {packet : FlatPacket} {w : ElaCarrier} {ns : List Notice}
    (hi : ReplyInv x s os) (hp : respondsTo x.tid packet = false)
    (h : notifyFriendMessage s.inviter fn packet = some (w, ns)) :
    ReplyInv x { s with inviter := w } (os ++ ns.map .arrived) := by
  have hquiet : (∀ n ∈ ns, n.context ≠ some x.context) →
      x.context ∉ invocations (ns.map NodeOutput.arrived) ∧
        ∀ p b st r d, NodeOutput.arrived (.inviteResponse x.context p b st r d) ∉
          ns.map NodeOutput.arrived := by
    intro hn
    refine ⟨fun hm => ?_, fun p b st r d hm => ?_⟩
    · obtain ⟨e, he, hx⟩ := List.mem_filterMap.mp hm
      obtain ⟨n, hmem, rfl⟩ := List.mem_map.mp he
      exact hn n hmem hx
    · obtain ⟨n, hmem, he⟩ := List.mem_map.mp hm
      simp only [NodeOutput.arrived.injEq] at he
      exact hn n hmem (he ▸ rfl)
  have hkeep : (∀ n ∈ ns, n.context ≠ some x.context) → w.friends = s.inviter.friends →
      (∀ tid tcb, w.tcallbacks.lookup tid = some tcb → s.inviter.tcallbacks.lookup tid = some tcb) →
      (∀ b, w.tassemblyIrsps.lookup x.tid = some b →
        s.inviter.tassemblyIrsps.lookup x.tid = some b) →
      ReplyInv x { s with inviter := w } (os ++ ns.map .arrived) := by
    intro hn hf hc hl
    obtain ⟨hmem, hno⟩ := hquiet hn
    exact replyInv_inviter hi hf hc hl (by rw [List.count_eq_zero.mpr hmem]; exact Nat.zero_le _)
      (fun hm => absurd hm hmem) hno
  have hnone : (∀ n ∈ ns, n.context = none) → ∀ n ∈ ns, n.context ≠ some x.context := by
    intro hn n hm hc
    rw [hn n hm] at hc
    cases hc
  unfold notifyFriendMessage at h
  split at h
  · simp only [Option.some.injEq, Prod.mk.injEq] at h
    obtain ⟨rfl, rfl⟩ := h
    exact hkeep (hnone handleFriendMessage_context) rfl (fun _ _ h => h) fun _ h => h
  · cases handleInviteRequest_step h with
    | ignored => exact hkeep (by simp) rfl (fun _ _ h => h) fun _ h => h
    | stored => exact hkeep (by simp) rfl (fun _ _ h => h) fun _ h => h
    | delivered => exact hkeep (hnone notifyInvite_context) rfl (fun _ _ h => h) fun _ h => h
  · next cp hd =>
    have htid : x.tid ≠ cp.tid := by
      intro he
      rw [respondsTo, hd] at hp
      exact of_decide_eq_false hp he.symm
    cases handleInviteResponse_step h with
    | ignored => exact hkeep (by simp) rfl (fun _ _ h => h) fun _ h => h
    | stored =>
      refine hkeep (by simp) rfl (fun _ _ h => h) fun b hb => ?_
      rwa [AList.lookup_insert_ne htid] at hb
    | @delivered fi tcb a hf hc hj hr hl =>
      refine hkeep ?_ rfl (fun tid tcb' h => ?_) fun b hb => ?_
      · intro n hn hx
        rw [List.mem_singleton.mp hn] at hx
        exact htid ((hi.alone _ _ hc).mp (Option.some.inj hx)).symm
      · rw [Table.lookup_erase_eq] at h
        split at h
        · cases h
        · exact h
      · rwa [AList.lookup_erase_ne htid] at hb
  · simp only [Option.some.injEq, Prod.mk.injEq] at h
    obtain ⟨rfl, rfl⟩ := h
    exact hkeep (by simp) rfl (fun _ _ h => h) fun _ h => h

private theorem replyInv_sweep {x : Exchange} {s : ReplyState} {os : List NodeOutput}
    (hi : ReplyInv x s os) :
    ReplyInv x { s with inviter := (doTransactedCallbacksCheck s.inviter).1 }
      (os ++ (doTransactedCallbacksCheck s.inviter).2.map .expired) := by
  have hsub := invocations_expire s.inviter
    (s.inviter.tcallbacks.selected fun _ tcb => decide (tcb.expireTime < s.inviter.now))
  refine replyInv_inviter hi rfl (fun tid tcb h => (Table.lookup_sweep_some.mp h).1) (fun _ h => h)
    ?_ ?_ ?_
  · exact Nat.le_trans (hsub.count_le _)
      (Table.count_selected_le_one fun tid tcb hl hx => (hi.alone tid tcb hl).mp hx)
  · intro hm
    obtain ⟨tcb, hsel, hx⟩ := List.mem_map.mp (hsub.subset hm)
    obtain ⟨tid, hl, hexp⟩ := Table.mem_selected.mp hsel
    obtain rfl := (hi.alone tid tcb hl).mp hx
    refine ⟨?_, tcb, hl⟩
    simp only [doTransactedCallbacksCheck]
    rw [Table.lookup_sweep, hl, Option.filter_some, if_neg]
    simpa using hexp
  · intro p b st r d hm
    obtain ⟨n, -, he⟩ := List.mem_map.mp hm
    cases he

/-- The attempts in flight after a call that may have sent something. -/
private theorem mem_attempts {wire : List Attempt} {a b : Attempt}
    (h : b ∈ if a.rest = [] then wire else wire ++ [a]) : b ∈ wire ∨ (a.rest ≠ [] ∧ b = a) := by
  split at h
  · exact .inl h
  · next hne =>
    rcases List.mem_append.mp h with h | h
    · exact .inl h
    · exact .inr ⟨hne, List.mem_singleton.mp h⟩

private theorem attempts_order {wire : List Attempt} {a : Attempt} (ha : a.started = false)
    (h : ∀ b ∈ wire.tail, b.started = false) :
    ∀ b ∈ (if a.rest = [] then wire else wire ++ [a]).tail, b.started = false := by
  intro b hb
  split at hb
  · exact h b hb
  · cases wire with
    | nil => cases hb
    | cons c wire =>
      rw [List.cons_append, List.tail_cons] at hb
      rcases List.mem_append.mp hb with hb | hb
      · exact h b hb
      · rwa [List.mem_singleton.mp hb]

private theorem replyInv_reply {x : Exchange} {s : ReplyState} {os : List NodeOutput} {env : CallEnv}
    {args : ReplyArgs} {r : CallResult} (hi : ReplyInv x s os)
    (h : elaReplyFriendInvite env s.invitee (some x.addr) args.bundle args.status args.reason
      args.data = some r) :
    ReplyInv x
      { s with
        invitee := r.carrier
        wire := if r.sent = [] then s.wire
          else s.wire ++ [{ args, complete := r.error.isNone, started := false, rest := r.sent }]
        accepted := if r.error = none ∧ s.accepted = none then some args else s.accepted }
      (os ++ [.returned r.error]) := by
  have hinv : invocations (os ++ [.returned r.error]) = invocations os := by
    rw [invocations_append]
    exact List.append_nil _
  have harr : ∀ {p b st re d}, NodeOutput.arrived (.inviteResponse x.context p b st re d) ∈
      os ++ [.returned r.error] → NodeOutput.arrived (.inviteResponse x.context p b st re d) ∈ os := by
    intro p b st re d hm
    rcases List.mem_append.mp hm with hm | hm
    · exact hm
    · cases List.mem_singleton.mp hm
  rcases elaReplyFriendInvite_cases h with ⟨he, hs, hw⟩ | ⟨tid, k, hs⟩
  · rw [if_pos hs, if_neg fun hx => he hx.1, hw]
    exact ⟨hi.friend, hi.alone, hi.rests, hi.fresh, hi.going, hi.order, hi.complete, hi.history,
      by rw [hinv]; exact hi.unused, by rw [hinv]; exact hi.faithful.1,
      fun p b st re d hm => hi.faithful.2 p b st re d (harr hm)⟩
  · -- The invite is still recorded, so no reply has been accepted yet.
    obtain ⟨tid', hget, hopen⟩ := hi.history
    obtain rfl := Option.some.inj (hs.history.symm.trans hget)
    obtain ⟨rfl, hnone⟩ := hopen hs.recorded
    have hnot : ∀ {p b st re d}, NodeOutput.arrived (.inviteResponse x.context p b st re d) ∉ os := by
      intro p b st re d hm
      obtain ⟨args, ha, -⟩ := hi.faithful.2 p b st re d hm
      rw [hnone] at ha
      cases ha
    have hold : ∀ a ∈ s.wire, a.complete = false := by
      intro a ha
      by_contra hc
      have := hi.complete a ha (by simpa using hc)
      rw [hnone] at this
      cases this
    let new : Attempt := { args, complete := r.error.isNone, started := false, rest := r.sent }
    have hnew : Fresh x new := by
      refine ⟨hs.validBundle, hs.validReply, hs.validExt, k, hs.sent, ?_⟩
      rw [Option.isNone_iff_eq_none]
      exact hs.complete
    refine ⟨hi.friend, hi.alone, ?_, ?_, ?_, ?_, ?_, ?_, by rw [hinv]; exact hi.unused,
      by rw [hinv]; exact hi.faithful.1, fun p b st re d hm => absurd (harr hm) hnot⟩
    · intro a ha
      rcases mem_attempts (a := new) ha with ha | ⟨hne, rfl⟩
      · exact hi.rests a ha
      · exact hne
    · intro a ha hst
      rcases mem_attempts (a := new) ha with ha | ⟨-, rfl⟩
      · exact hi.fresh a ha hst
      · exact hnew
    · intro a ha hst
      rcases mem_attempts (a := new) ha with ha | ⟨-, rfl⟩
      · exact hi.going a ha hst
      · cases hst
    · exact attempts_order (a := new) rfl hi.order
    · intro a ha hc
      rcases mem_attempts (a := new) ha with ha | ⟨-, rfl⟩
      · rw [hold a ha] at hc
        cases hc
      · exact if_pos ⟨Option.isNone_iff_eq_none.mp hc, hnone⟩
    · by_cases he : r.error = none
      · obtain ⟨key, hk, hw⟩ := Option.map_eq_some_iff.mp (hs.removed he)
        refine ⟨0, ?_, fun hz => absurd rfl hz⟩
        rw [transactionHistoryGetInvite, hk, ← hw, Option.map_some, AList.lookup_erase]
        rfl
      · have hacc : (if r.error = none ∧ s.accepted = none then some args else s.accepted) = none :=
          (if_neg fun hx => he hx.1).trans hnone
        exact ⟨x.tid, by rw [hs.kept he]; exact hget, fun _ => ⟨rfl, hacc⟩⟩

private theorem mem_advance {a b : Attempt} {rest : List FlatPacket} {later : List Attempt}
    (h : b ∈ advance a rest later) :
    b ∈ later ∨ (rest ≠ [] ∧ b = { a with started := true, rest }) := by
  unfold advance at h
  split at h
  · exact .inl h
  · next hne =>
    rcases List.mem_cons.mp h with rfl | h
    · exact .inr ⟨hne, rfl⟩
    · exact .inl h

/-- The next packet of the attempt in front arrives. -/
private theorem arrival_next {x : Exchange} {s : ReplyState} {os : List NodeOutput}
    {a : Attempt} {packet : FlatPacket} {rest : List FlatPacket} {later : List Attempt}
    {w : ElaCarrier} {ns : List Notice} (hi : ReplyInv x s os) (hw : s.wire = a :: later)
    (hr : a.rest = packet :: rest) (hg : findsNoAssembly x s .deliver = true)
    (h : notifyFriendMessage s.inviter x.fn packet = some (w, ns)) :
    (∀ e, x.ext = some e → e.strlen ≤ elaMaxExtensionNameLen) ∧ Arrival x s.inviter a rest w ns := by
  have ha : a ∈ s.wire := hw ▸ List.mem_cons_self
  cases hst : a.started with
  | true =>
    obtain ⟨hgo, hext⟩ := hi.going a ha hst
    obtain ⟨w', ns', hn, harr⟩ := arrival_later hi.friend hext hgo hr
    obtain ⟨rfl, rfl⟩ := Prod.mk.inj (Option.some.inj (hn.symm.trans h))
    exact ⟨hext, harr⟩
  | false =>
    have hfree : ∀ tcb, s.inviter.tcallbacks.lookup x.tid = some tcb →
        s.inviter.tassemblyIrsps.lookup x.tid = none := by
      intro tcb hc
      simpa [findsNoAssembly, hw, hst, hc] using hg
    have hf := hi.fresh a ha hst
    obtain ⟨w', ns', hn, harr⟩ := arrival_first hi.friend hf hfree hr
    obtain ⟨rfl, rfl⟩ := Prod.mk.inj (Option.some.inj (hn.symm.trans h))
    exact ⟨hf.validExt, harr⟩

private theorem replyInv_deliver {x : Exchange} {s : ReplyState} {os : List NodeOutput}
    {a : Attempt} {packet : FlatPacket} {rest : List FlatPacket} {later : List Attempt}
    {w : ElaCarrier} {ns : List Notice} (hi : ReplyInv x s os) (hw : s.wire = a :: later)
    (hr : a.rest = packet :: rest)
    (hg : findsNoAssembly x s .deliver = true)
    (h : notifyFriendMessage s.inviter x.fn packet = some (w, ns)) :
    ReplyInv x { s with inviter := w, wire := advance a rest later } (os ++ ns.map .arrived) := by
  have ha : a ∈ s.wire := hw ▸ List.mem_cons_self
  have hlater : ∀ b ∈ later, b ∈ s.wire := fun b hb => by rw [hw]; exact List.mem_cons_of_mem _ hb
  have hidle : ∀ b ∈ later, b.started = false := fun b hb => hi.order b (by rw [hw]; exact hb)
  obtain ⟨hext, harrival⟩ := arrival_next hi hw hr hg h
  have hrests : ∀ b ∈ advance a rest later, b.rest ≠ [] := by
    intro b hb
    rcases mem_advance hb with hb | ⟨hne, rfl⟩
    · exact hi.rests b (hlater b hb)
    · exact hne
  have hfresh : ∀ b ∈ advance a rest later, b.started = false → Fresh x b := by
    intro b hb hst
    rcases mem_advance hb with hb | ⟨-, rfl⟩
    · exact hi.fresh b (hlater b hb) hst
    · cases hst
  have horder : ∀ b ∈ (advance a rest later).tail, b.started = false := by
    intro b hb
    unfold advance at hb
    split at hb
    · exact hidle b (List.mem_of_mem_tail hb)
    · exact hidle b hb
  have hcomplete : ∀ b ∈ advance a rest later, b.complete = true → s.accepted = some b.args := by
    intro b hb hc
    rcases mem_advance hb with hb | ⟨-, rfl⟩
    · exact hi.complete b (hlater b hb) hc
    · exact hi.complete a ha hc
  cases harrival with
  | quiet hc hf hgo =>
    rw [List.map_nil, List.append_nil]
    refine ⟨hf ▸ hi.friend, hc ▸ hi.alone, hrests, hfresh, ?_, horder, hcomplete, hi.history,
      hc ▸ hi.unused, hi.faithful⟩
    intro b hb hst
    rcases mem_advance hb with hb | ⟨hne, rfl⟩
    · rw [hidle b hb] at hst
      cases hst
    · exact ⟨hgo hne, hext⟩
  | @answered tcb hrest hdone hc ht hf =>
    have hx : tcb.callbackContext = x.context := (hi.alone _ _ hc).mpr rfl
    refine ⟨hf ▸ hi.friend, fun tid tcb' hl => ?_, hrests, hfresh, ?_, horder, hcomplete, hi.history,
      fun tcb' hl => ?_, ?_, fun p b st r d hm => ?_⟩
    · rw [ht, Table.lookup_erase_eq] at hl
      split at hl
      · cases hl
      · exact hi.alone tid tcb' hl
    · intro b hb hst
      rcases mem_advance hb with hb | ⟨hne, -⟩
      · rw [hidle b hb] at hst
        cases hst
      · exact absurd hrest hne
    · rw [ht, AList.lookup_erase] at hl
      cases hl
    · have hz : (invocations os).count x.context = 0 := List.count_eq_zero.mpr (hi.unused tcb hc)
      rw [invocations_append, List.count_append, hz, Nat.zero_add]
      exact List.count_le_length
    · rcases List.mem_append.mp hm with hm | hm
      · exact hi.faithful.2 p b st r d hm
      · simp only [List.map_cons, List.map_nil, List.mem_singleton, NodeOutput.arrived.injEq,
          Notice.inviteResponse.injEq] at hm
        obtain ⟨-, -, rfl, rfl, rfl, rfl⟩ := hm
        exact ⟨a.args, hi.complete a ha hdone, rfl, rfl, rfl, rfl⟩

private theorem replyInv_step {x : Exchange} {s t : ReplyState} {i : ReplyInput}
    {o os : List NodeOutput} (hi : ReplyInv x s os) (hg : findsNoAssembly x s i = true)
    (h : replyStep x s i = some (t, o)) : ReplyInv x t (os ++ o) := by
  cases i with
  | reply env args =>
    obtain ⟨r, hr, h⟩ := Option.map_eq_some_iff.mp h
    cases h
    exact replyInv_reply hi hr
  | deliver =>
    simp only [replyStep] at h
    split at h
    · cases h
    · next a later hw =>
      split at h
      · cases h
      · next packet rest hr =>
        obtain ⟨⟨w, ns⟩, hn, h⟩ := Option.map_eq_some_iff.mp h
        cases h
        exact replyInv_deliver hi hw hr hg hn
  | traffic fn packet =>
    simp only [replyStep] at h
    split at h
    · cases h
    · next hp =>
      obtain ⟨⟨w, ns⟩, hn, h⟩ := Option.map_eq_some_iff.mp h
      cases h
      exact replyInv_traffic hi (Bool.not_eq_true _ ▸ hp) hn
  | tick d =>
    cases h
    exact replyInv_inviter hi rfl (fun _ _ h => h) (fun _ h => h) (Nat.zero_le _)
      (fun hm => by cases hm) (by simp)
  | assembliesExpire =>
    cases h
    exact replyInv_inviter hi rfl (fun _ _ h => h) (fun _ h => (Table.lookup_sweep_some.mp h).1)
      (Nat.zero_le _) (fun hm => by cases hm) (by simp)
  | callbacksCheck =>
    cases h
    exact replyInv_sweep hi

/-- An invite under five with callback three. Its sender is friend one of the invitee, which is
friend zero of the sender. -/
def Exchange.small : Exchange := ⟨(UserId.small 1).text, 0, ⟨0, .small 0⟩, 5, 3⟩

def ReplyState.small : ReplyState where
  inviter := { ElaCarrier.twoFriends with
    tcallbacks := AList.insert 5 (inviteCallback (.small 5 0) none 3) ∅ }
  invitee := { ElaCarrier.twoFriends with
    thistory := AList.insert (inviteKey (.small 1) none) 5 ∅ }
  wire := []
  accepted := none

theorem ReplyStarted.small : ReplyStarted .small .small where
  friend := rfl
  pending := ⟨_, rfl, rfl⟩
  alone := by
    intro tid tcb h _
    by_contra hne
    have hl : (AList.insert 5 (inviteCallback (.small 5 0) none 3) (∅ : Table Tid TransactedCallback)).lookup
        tid = some tcb := h
    have hne' : tid ≠ 5 := hne
    rw [AList.lookup_insert_ne hne', AList.lookup_empty] at hl
    cases hl
  recorded := rfl
  wire := rfl
  accepted := rfl

/-- A reply in two fragments, the first of ones and the second of twos. -/
def twoFragments : List UInt8 := List.replicate 1280 1 ++ List.replicate 1280 2

/-- The DHT fails on the second fragment, and the call is repeated. -/
def retried : List ReplyInput :=
  let args : ReplyArgs := ⟨none, 0, none, some twoFragments⟩
  [.reply { CallEnv.small 0 0 with accepts := fun i => decide (i = 0) } args, .deliver,
    .reply (.small 0 0) args, .deliver]

end CarrierSdk
