import CarrierSdk.Carrier.Fragmentation
import CarrierSdk.Carrier.Reassembly
import CarrierSdk.Friends.Calls
import CarrierSdk.Friends.Loading

/-! The texts that peers send and the arrays they are copied to. Copies of user ids, and copies
to memory that was allocated for the text at hand, fit by construction. -/
namespace CarrierSdk.Friends

/-- What the callback friend_request is called with. -/
structure FriendRequest where
  userid : UserId
  userInfo : ElaUserInfo
  hello : CString
  deriving DecidableEq

/-- The key of a friend request belongs to a friend already. -/
def knownFriend (w : ElaCarrier) (publicKey : PublicKey) : Bool :=
  (dhtGetFriendNumber w publicKey).any fun n => decide (n.toNat ≠ 2 ^ 32 - 1)

/-- notify_friend_request_cb. An empty text is not copied, and the array is zero then. -/
def notifyFriendRequestCb (codec : KeyCodec) (flatcc : List UInt8 → Option FlatPacket) (w : ElaCarrier)
    (friendRequest : Bool) (publicKey : PublicKey) (gretting : List UInt8) : Option (List FriendRequest) :=
  if knownFriend w publicKey then some []
  else
    match (flatcc gretting).bind elacpDecode with
    | some (.friendReq cp) => do
      let userid := codec.encode publicKey
      let name ← CharArray.strcpy (orEmpty cp.name)
      let description ← CharArray.strcpy (orEmpty cp.descr)
      let ui := { ElaUserInfo.ofUserid userid with name, description }
      some (if friendRequest then [⟨userid, ui, orEmpty cp.hello⟩] else [])
    | _ => some []

def fitsFriendReq (cp : ElaCPFriendReq) : Bool :=
  decide ((orEmpty cp.name).strlen ≤ elaMaxUserNameLen ∧ (orEmpty cp.descr).strlen ≤ elaMaxUserDescriptionLen)

def fitsExt (name : Option CString) : Bool := decide ((orEmpty name).strlen ≤ elaMaxExtensionNameLen)

/-- A fragment that begins a request assembly brings a name that fits. -/
def fitsInviteReq (w : CarrierSdk.ElaCarrier) (fn : FriendNumber) (cp : ElaCPInviteReq) : Bool :=
  match w.friends.lookup fn, w.tassemblyIreqs.lookup cp.tid with
  | some _, none => decide (cp.totalsz = 0 ∨ elaMaxInviteDataLen < cp.totalsz) || fitsExt cp.ext
  | _, _ => true

/-- A fragment for a pending invite brings a reason with a refusal, and where it begins an
assembly a name that fits. -/
def fitsInviteRsp (w : CarrierSdk.ElaCarrier) (fn : FriendNumber) (cp : ElaCPInviteRsp) : Bool :=
  match w.friends.lookup fn, w.tcallbacks.lookup cp.tid with
  | some _, some _ =>
    (decide (cp.status = 0) || cp.reason.isSome) &&
      ((w.tassemblyIrsps.lookup cp.tid).isSome || decide (elaMaxInviteDataLen < cp.totalsz) || fitsExt cp.ext)
  | _, _ => true

theorem notifyFriendRequestCb_isSome {codec : KeyCodec} {flatcc : List UInt8 → Option FlatPacket}
    {gretting : List UInt8} {cp : ElaCPFriendReq}
    (hcp : (flatcc gretting).bind elacpDecode = some (.friendReq cp)) (w : ElaCarrier) (friendRequest : Bool)
    (publicKey : PublicKey) : (notifyFriendRequestCb codec flatcc w friendRequest publicKey gretting).isSome ↔
      knownFriend w publicKey = true ∨ fitsFriendReq cp = true := by
  unfold notifyFriendRequestCb
  split
  · next hknown => simp [hknown]
  · next hknown =>
    simp only [hcp, hknown, Bool.false_eq_true, false_or]
    constructor
    · intro h
      obtain ⟨r, hr⟩ := Option.isSome_iff_exists.mp h
      simp only [Option.bind_eq_bind, Option.bind_eq_some_iff] at hr
      obtain ⟨name, hname, descr, hdescr, -⟩ := hr
      exact decide_eq_true ⟨CharArray.strcpy_isSome.mp (by rw [hname]; rfl),
        CharArray.strcpy_isSome.mp (by rw [hdescr]; rfl)⟩
    · intro h
      obtain ⟨hname, hdescr⟩ := of_decide_eq_true h
      rw [CharArray.strcpy_of_le hname, CharArray.strcpy_of_le hdescr]
      rfl

section Invites
variable {w : CarrierSdk.ElaCarrier} {fn : FriendNumber}

/-- The names of the assemblies that are held, which strcpy has put there. -/
def HeldNamesFit (w : CarrierSdk.ElaCarrier) : Prop :=
  ∀ tid a, w.tassemblyIreqs.lookup tid = some a → a.ext.strlen ≤ elaMaxExtensionNameLen

theorem newRequestAssembly_isSome {friendid : UserId} {cp : ElaCPInviteReq} :
    (newRequestAssembly w friendid cp).isSome ↔ fitsExt cp.ext = true := by
  rw [fitsExt, decide_eq_true_eq, ← Nat.lt_succ_iff]
  unfold newRequestAssembly CString.strcpy
  split
  · next h => exact iff_of_true rfl h
  · next h => exact iff_of_false Bool.false_ne_true h

theorem newResponseAssembly_isSome {friendid : UserId} {cp : ElaCPInviteRsp} :
    (newResponseAssembly w friendid cp).isSome ↔ fitsExt cp.ext = true := by
  rw [fitsExt, decide_eq_true_eq, ← Nat.lt_succ_iff]
  unfold newResponseAssembly CString.strcpy
  split
  · next h => exact iff_of_true rfl h
  · next h => exact iff_of_false Bool.false_ne_true h

theorem JoinsRequest.ext_le {friendid : UserId} {cp : ElaCPInviteReq} {a : TransactedAssembly}
    (h : JoinsRequest w friendid cp a) (hw : HeldNamesFit w) : a.ext.strlen ≤ elaMaxExtensionNameLen := by
  cases h with
  | held ha => exact hw _ _ ha
  | fresh _ _ _ hnew =>
    have hfits := newRequestAssembly_isSome.mp (by rw [hnew]; rfl)
    simp only [newRequestAssembly, Option.bind_eq_bind, Option.bind_eq_some_iff, CString.strcpy_eq_some,
      Option.some.injEq] at hnew
    obtain ⟨ext, ⟨-, rfl⟩, rfl⟩ := hnew
    exact of_decide_eq_true hfits

/-- A fragment that joins an assembly whose name fits overruns neither the sender string nor the
key of the history. -/
theorem addRequestFragment_isSome {friendid : UserId} {cp : ElaCPInviteReq} {needAdd : Bool}
    {a : TransactedAssembly} (ha : a.ext.strlen ≤ elaMaxExtensionNameLen) :
    (addRequestFragment w friendid cp needAdd a).isSome := by
  unfold addRequestFragment
  split
  · rfl
  · next hkept =>
    dsimp only
    split
    · have hpass : requestRejected a friendid cp = false := by simpa using hkept
      have hsender : (inviteFrom friendid cp.ext).strlen ≤ 76 :=
        inviteFrom_fits fun ext hext => requestRejected_ext hpass ext hext ▸ ha
      have hsize : (inviteFrom friendid cp.ext).strlen < historyKeySize := Nat.lt_of_le_of_lt hsender (by decide)
      simp only [CString.strcpy_fits hsize, Option.bind_eq_bind, Option.bind_some, transactionHistoryPutInvite,
        historyKey_fits hsender, Option.map_some, Option.isSome_some]
    · rfl

theorem handleInviteRequest_isSome (hw : HeldNamesFit w) (cp : ElaCPInviteReq) :
    (handleInviteRequest w fn cp).isSome ↔ fitsInviteReq w fn cp = true := by
  unfold handleInviteRequest fitsInviteReq
  cases hfi : w.friends.lookup fn with
  | none => exact iff_of_true rfl rfl
  | some fi =>
    cases ha : w.tassemblyIreqs.lookup cp.tid with
    | some a => exact iff_of_true (addRequestFragment_isSome (hw _ _ ha)) rfl
    | none =>
      dsimp only
      split
      · next hsize => exact iff_of_true rfl (by simp [hsize])
      · next hsize =>
        rw [decide_eq_false hsize, Bool.false_or]
        have hnewSome : (newRequestAssembly w fi.userid cp).isSome ↔ fitsExt cp.ext = true := newRequestAssembly_isSome
        rw [← hnewSome]
        cases hnew : newRequestAssembly w fi.userid cp with
        | none => exact iff_of_false Bool.false_ne_true Bool.false_ne_true
        | some a =>
          have hjoins : JoinsRequest w fi.userid cp a := .fresh ha (by omega) (by omega) hnew
          exact iff_of_true (addRequestFragment_isSome (JoinsRequest.ext_le hjoins hw)) rfl

theorem handleInviteResponse_isSome {cp : ElaCPInviteRsp} :
    (handleInviteResponse w fn cp).isSome ↔ fitsInviteRsp w fn cp = true := by
  unfold handleInviteResponse fitsInviteRsp
  cases hfi : w.friends.lookup fn with
  | none => exact iff_of_true rfl rfl
  | some fi =>
    cases htcb : w.tcallbacks.lookup cp.tid with
    | none => exact iff_of_true rfl rfl
    | some tcb =>
      dsimp only
      split
      · next hreason => exact iff_of_false Bool.false_ne_true (by simp [hreason])
      · next hreason =>
        have hfirst : (decide (cp.status = 0) || cp.reason.isSome) = true := by
          rw [not_and_or, not_not] at hreason
          rcases hreason with hstatus | hreason
          · simp [hstatus]
          · simp [Option.isSome_iff_ne_none.mpr hreason]
        rw [hfirst, Bool.true_and]
        cases ha : w.tassemblyIrsps.lookup cp.tid with
        | some a => exact iff_of_true rfl rfl
        | none =>
          dsimp only
          split
          · next hsize => exact iff_of_true rfl (by simp [hsize])
          · next hsize =>
            rw [decide_eq_false hsize, Option.isSome_map]
            exact newResponseAssembly_isSome

theorem HeldNamesFit.request {w' : CarrierSdk.ElaCarrier} {cp : ElaCPInviteReq} {ns : List Notice}
    (hw : HeldNamesFit w) (h : handleInviteRequest w fn cp = some (w', ns)) : HeldNamesFit w' := by
  intro tid b hb
  cases handleInviteRequest_step h with
  | ignored => exact hw tid b hb
  | @stored fi a hfi hjoins hpass hmore =>
    rw [Table.lookup_insert_eq] at hb
    split at hb
    · cases hb
      rw [TransactedAssembly.append_ext]
      exact JoinsRequest.ext_le hjoins hw
    · exact hw tid b hb
  | delivered =>
    rw [Table.lookup_erase_eq] at hb
    split at hb
    · cases hb
    · exact hw tid b hb

theorem HeldNamesFit.step {s t : NodeState} {i : NodeInput} {o : List NodeOutput}
    (hs : HeldNamesFit s.carrier) (hstep : nodeStep s i = some (t, o)) : HeldNamesFit t.carrier := by
  cases nodeStep_tables hstep with
  | request _ _ h _ => exact hs.request h
  | response _ _ h _ =>
    intro tid a ha
    rw [handleInviteResponse_ireqs h] at ha
    exact hs tid a ha
  | fewer _ hreqs _ => exact fun tid a ha => hs tid a (hreqs tid a ha)

theorem HeldNamesFit.reached {s u : NodeState} {is : List NodeInput} {os : List NodeOutput}
    (hs : NodeStarted s) (hrun : Machine.Run nodeMachine Machine.Free s is os u) : HeldNamesFit u.carrier := by
  have hstart : HeldNamesFit s.carrier := fun tid a ha => by simp [hs.tassemblyIreqs] at ha
  apply hrun.invariant _ hstart
  exact fun h _ hstep => h.step hstep

end Invites

/-- Each of the four handlers copies all texts of a packet within their arrays and reads through
no absent one, if and only if the packet passes the check for its kind. -/
theorem peer_strings_fit_iff (codec : KeyCodec) (flatcc : List UInt8 → Option FlatPacket) :
    (∀ desc info cp, (flatcc desc).bind elacpDecode = some (.userInfo cp) →
      ((unpackUserDesc flatcc desc info).isSome ↔ fitsArrays cp = true)) ∧
    (∀ w friendRequest publicKey gretting cp, (flatcc gretting).bind elacpDecode = some (.friendReq cp) →
      ((notifyFriendRequestCb codec flatcc w friendRequest publicKey gretting).isSome ↔
        knownFriend w publicKey = true ∨ fitsFriendReq cp = true)) ∧
    ∀ s is os u, NodeStarted s → Machine.Run nodeMachine Machine.Free s is os u → ∀ fn,
      (∀ cp, (handleInviteRequest u.carrier fn cp).isSome ↔ fitsInviteReq u.carrier fn cp = true) ∧
      ∀ cp, (handleInviteResponse u.carrier fn cp).isSome ↔ fitsInviteRsp u.carrier fn cp = true := by
  refine ⟨fun desc info cp hcp => unpackUserDesc_isSome hcp info,
    fun w friendRequest publicKey gretting cp hcp => notifyFriendRequestCb_isSome hcp w friendRequest publicKey,
    fun s is os u hs hrun fn => ⟨fun cp => handleInviteRequest_isSome (HeldNamesFit.reached hs hrun) cp,
      fun cp => handleInviteResponse_isSome⟩⟩

/-- A text of the given length. -/
def textOf (n : Nat) : CString := ⟨List.replicate n 97, fun h => by cases (List.mem_replicate.mp h).2⟩

theorem peer_strings_fit_named : ∃ w : CarrierSdk.ElaCarrier, ∃ cp : ElaCPInviteReq,
    cp.ext = some sessionName ∧ (handleInviteRequest w 0 cp).isSome := by
  have hiff := (peer_strings_fit_iff .base58 (fun _ => none)).2.2 (.start .twoFriends) [] [] _
    NodeStarted.twoFriends (.nil _) 0
  exact ⟨_, ⟨some sessionName, 5, none, 2, [7]⟩, rfl, (hiff.1 _).mpr (by decide +kernel)⟩

/-- The four texts: a user name, the name of who asks to be a friend and the name of an
extension, each one character too long, and the absent reason of a refusal. -/
theorem peer_strings_overrun :
    (¬ ∀ (flatcc : List UInt8 → Option FlatPacket) desc info cp,
      (flatcc desc).bind elacpDecode = some (.userInfo cp) → (unpackUserDesc flatcc desc info).isSome) ∧
    (¬ ∀ (flatcc : List UInt8 → Option FlatPacket) w friendRequest publicKey gretting cp,
      (flatcc gretting).bind elacpDecode = some (.friendReq cp) →
      (notifyFriendRequestCb .base58 flatcc w friendRequest publicKey gretting).isSome) ∧
    (¬ ∀ s is os u, NodeStarted s → Machine.Run nodeMachine Machine.Free s is os u →
      ∀ fn cp, (handleInviteRequest u.carrier fn cp).isSome) ∧
    ¬ ∀ s is os u, NodeStarted s → Machine.Run nodeMachine Machine.Free s is os u →
      ∀ fn cp, (handleInviteResponse u.carrier fn cp).isSome := by
  refine ⟨fun h => ?_, fun h => ?_, fun h => ?_, fun h => ?_⟩
  · let named : List UInt8 → Option FlatPacket := fun _ => some ⟨3, some [(1, .string (textOf 64))]⟩
    have hfits := (unpackUserDesc_isSome rfl _).mp (h named [] (.ofUserid (.small 0)) _ rfl)
    exact absurd hfits (by decide +kernel)
  · let named : List UInt8 → Option FlatPacket := fun _ => some ⟨6, some [(0, .string (textOf 64))]⟩
    have hfits := (notifyFriendRequestCb_isSome rfl _ _ _).mp (h named .empty true 1 [] _ rfl)
    exact absurd hfits (by decide +kernel)
  · have hdefined := h (.start .twoFriends) [] [] _ NodeStarted.twoFriends (.nil _) 0
      ⟨some (textOf 32), 5, none, 2, [7]⟩
    have hfits := (handleInviteRequest_isSome (HeldNamesFit.reached NodeStarted.twoFriends (.nil _)) _).mp hdefined
    exact absurd hfits (by decide +kernel)
  · obtain ⟨u, os, hexec, hmisfit⟩ := nodeMachine.exec_any (.start .twoFriends)
      [.invite (.small 5 0) (some (UserId.small 0).text) none (some [7])]
      (fun r => !fitsInviteRsp r.1.carrier 0 ⟨none, 5, none, 0, 1, none, []⟩) (by decide +kernel)
    have hdefined := h _ _ _ _ NodeStarted.twoFriends (Machine.free_run_of_exec hexec) 0
      ⟨none, 5, none, 0, 1, none, []⟩
    rw [handleInviteResponse_isSome.mp hdefined] at hmisfit
    cases hmisfit

end CarrierSdk.Friends
