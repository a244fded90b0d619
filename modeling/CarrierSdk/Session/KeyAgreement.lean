import CarrierSdk.Session.Session
import CarrierSdk.Library.Base58
import Mathlib.Data.BitVec

/-! The key that a start computes. It is computed before the remote session description
is applied, so from the public key that an earlier start has left in the session. -/
namespace CarrierSdk
variable {Text : Type} {lib : SdpLibrary Text} {dh : DiffieHellman}

/-- The public key that a session description carries. -/
def SdpLibrary.publicKeyOf (lib : SdpLibrary Text) (text : Text) : Option PublicKey :=
  (lib.parse text).bind fun sdp => lib.base58Decode sdp.originUser

/-- The description that the library prints of a session, and the exchange of sums. -/
def SdpLibrary.plain : SdpLibrary SdpSession where
  parse := some
  print := some
  base58Encode pk := some (Base58.encode 32 pk.toNat)
  base58Decode t := (Base58.decode t).map (BitVec.ofNat 256)
  nonceToStr n := Base58.encode 24 n.toNat
  nonceFromStr n t := ((Base58.decode t).map (BitVec.ofNat 192)).getD n

def sumExchange : DiffieHellman := .additive (BitVec 256)

/-! What the calls leave alone. -/

@[simp] theorem adoptNonce_peerPubkey (ws : ElaSession) (sdp : SdpSession) :
    (ws.adoptNonce lib sdp).peerPubkey = ws.peerPubkey := by
  unfold ElaSession.adoptNonce
  split
  · split <;> rfl
  · rfl

@[simp] theorem adoptNonce_crypto (ws : ElaSession) (sdp : SdpSession) :
    (ws.adoptNonce lib sdp).crypto = ws.crypto := by
  unfold ElaSession.adoptNonce
  split
  · split <;> rfl
  · rfl

@[simp] theorem adoptNonce_secretKey (ws : ElaSession) (sdp : SdpSession) :
    (ws.adoptNonce lib sdp).secretKey = ws.secretKey := by
  unfold ElaSession.adoptNonce
  split
  · split <;> rfl
  · rfl

@[simp] theorem adoptNonce_streams (ws : ElaSession) (sdp : SdpSession) :
    (ws.adoptNonce lib sdp).streams = ws.streams := by
  unfold ElaSession.adoptNonce
  split
  · split <;> rfl
  · rfl

/-- A description is either turned down as a whole, or its key is stored and its nonce
adopted, whatever becomes of its media. -/
theorem applyRemoteSdp_cases (lib : SdpLibrary Text) (pool : Bool) (ws : ElaSession) (text : Text) :
    (∃ e, iceSessionApplyRemoteSdp lib pool ws text = (ws, .error e)) ∨
      ∃ sdp pk streams status, lib.parse text = some sdp ∧ lib.base58Decode sdp.originUser = some pk ∧
        iceSessionApplyRemoteSdp lib pool ws text =
          ({ ({ ws with peerPubkey := pk }).adoptNonce lib sdp with streams }, status) := by
  unfold iceSessionApplyRemoteSdp
  split
  · exact .inl ⟨_, rfl⟩
  split
  · exact .inl ⟨_, rfl⟩
  next sdp hparse =>
    split
    · exact .inl ⟨_, rfl⟩
    split
    · exact .inl ⟨_, rfl⟩
    next pk hdec => exact .inr ⟨sdp, pk, _, _, hparse, hdec, rfl⟩

theorem applyRemoteSdp_frame (lib : SdpLibrary Text) (pool : Bool) (ws : ElaSession) (text : Text) :
    (iceSessionApplyRemoteSdp lib pool ws text).1.crypto = ws.crypto ∧
      (iceSessionApplyRemoteSdp lib pool ws text).1.secretKey = ws.secretKey := by
  rcases applyRemoteSdp_cases lib pool ws text with ⟨e, h⟩ | ⟨sdp, pk, streams, status, -, -, h⟩
  · rw [h]
    exact ⟨rfl, rfl⟩
  · rw [h]
    exact ⟨adoptNonce_crypto _ _, adoptNonce_secretKey _ _⟩

/-- An accepted description leaves its public key in the session. -/
theorem applyRemoteSdp_ok {pool : Bool} {ws : ElaSession} {text : Text}
    (h : (iceSessionApplyRemoteSdp lib pool ws text).2 = .ok ()) :
    lib.publicKeyOf text = some (iceSessionApplyRemoteSdp lib pool ws text).1.peerPubkey := by
  rcases applyRemoteSdp_cases lib pool ws text with ⟨e, he⟩ | ⟨sdp, pk, streams, status, hp, hd, he⟩
  · rw [he] at h
    cases h
  · rw [he, SdpLibrary.publicKeyOf, hp, Option.bind_some, hd]
    exact congrArg some (adoptNonce_peerPubkey { ws with peerPubkey := pk } sdp).symm

/-- A start that returns 0 computed its key from the public key of the session before it,
and leaves the one of the description. -/
theorem elaSessionStart_ok {pool : Bool} {ws : ElaSession} {text : Text}
    (h : (elaSessionStart lib dh pool ws (some text)).2 = .ok ()) :
    (elaSessionStart lib dh pool ws (some text)).1.crypto = (ws.computeKey dh).crypto ∧
      (elaSessionStart lib dh pool ws (some text)).1.secretKey = ws.secretKey ∧
      lib.publicKeyOf text = some (elaSessionStart lib dh pool ws (some text)).1.peerPubkey := by
  have hsk : (ws.computeKey dh).secretKey = ws.secretKey := by
    unfold ElaSession.computeKey
    split <;> rfl
  simp only [elaSessionStart] at h ⊢
  split at h
  · cases h
  next hlen =>
    split at h
    next hready =>
      rw [if_neg hlen, if_pos hready]
      have hf := applyRemoteSdp_frame lib pool (ws.computeKey dh) text
      exact ⟨hf.1, hf.2.trans hsk, applyRemoteSdp_ok h⟩
    · cases h

/-- Whether the media are accepted depends on the options of the streams alone. -/
theorem applyMedia_status (sdp : SdpSession) (index ops : Nat) {streams streams' : List ElaStream}
    (h : streams.map ElaStream.options = streams'.map ElaStream.options) :
    (applyMedia sdp index ops streams).2 = (applyMedia sdp index ops streams').2 := by
  induction streams generalizing streams' index ops with
  | nil => rw [List.map_eq_nil_iff.mp h.symm]
  | cons s rest ih =>
    cases streams' with
    | nil => cases h
    | cons s' rest' =>
      obtain ⟨hs, hrest⟩ := List.cons.inj h
      rw [applyMedia, applyMedia, hs]
      split
      · exact ih _ _ hrest
      · simp only
        split
        · exact ih _ _ hrest
        · split
          · rfl
          · exact ih _ _ hrest

theorem applyRemoteSdp_status (pool : Bool) {ws ws' : ElaSession} (text : Text)
    (h : ws.streams.map ElaStream.options = ws'.streams.map ElaStream.options) :
    (iceSessionApplyRemoteSdp lib pool ws text).2 = (iceSessionApplyRemoteSdp lib pool ws' text).2 := by
  unfold iceSessionApplyRemoteSdp
  split
  · rfl
  split
  · rfl
  split
  · rfl
  split
  · rfl
  · simp only [adoptNonce_streams]
    exact applyMedia_status _ 0 0 h

@[simp] theorem computeKey_streams (ws : ElaSession) : (ws.computeKey dh).streams = ws.streams := by
  unfold ElaSession.computeKey
  split <;> rfl

/-- The return value of a start says nothing of the key exchange. -/
theorem elaSessionStart_status (dh dh' : DiffieHellman) (pool : Bool) (ws : ElaSession) (text : Text) :
    (elaSessionStart lib dh pool ws (some text)).2 =
      (elaSessionStart lib dh' pool ws (some text)).2 := by
  have hs : (ws.computeKey dh).streams = (ws.computeKey dh').streams := by
    rw [computeKey_streams, computeKey_streams]
  simp only [elaSessionStart, hs]
  split
  · rfl
  · split
    · exact applyRemoteSdp_status pool text (congrArg _ hs)
    · rfl

/-- With encryption on, the key comes from the public key stored before the start. -/
theorem elaSessionStart_key {pool : Bool} {ws : ElaSession} {text : Text}
    (he : ws.crypto.enabled = true)
    (h : (elaSessionStart lib dh pool ws (some text)).2 = .ok ()) :
    (elaSessionStart lib dh pool ws (some text)).1.crypto.key =
      dh.shared ws.peerPubkey ws.secretKey := by
  rw [(elaSessionStart_ok h).1, ElaSession.computeKey, if_pos he]

/-- Only a start stores a public key. -/
theorem sessionCall_peerPubkey (ws : ElaSession) {call : SessionCall Text}
    (hc : ∀ pool sdp, call ≠ .start pool sdp) :
    (sessionCall lib dh ws call).1.peerPubkey = ws.peerPubkey := by
  cases call with
  | addStream type options env =>
    simp only [sessionCall, elaSessionAddStream]
    split
    · rfl
    split
    · rfl
    split
    · rfl
    split
    · rfl
    split
    · split <;> rfl
    split
    · split <;> rfl
    · show (ite _ _ _ : ElaSession).peerPubkey = _
      split <;> rfl
  | removeStream id =>
    simp only [sessionCall, elaSessionRemoveStream]
    split
    · rfl
    split <;> rfl
  | stateChanged id state => rfl
  | request bundle callback d env =>
    simp only [sessionCall, elaSessionRequest]
    split
    · rfl
    split
    · rfl
    · exact (sendOffer_frame lib _ _).1
  | reply bundle status reason d env =>
    simp only [sessionCall, elaSessionReplyRequest]
    split
    · rfl
    split
    · rfl
    split
    · rfl
    · exact (sendOffer_frame lib _ _).1
  | start pool sdp => exact absurd rfl (hc pool sdp)

/-- The peer's public key is still the one of zeroed memory. -/
def ElaSession.NoPeerKey (ws : ElaSession) : Prop := ws.peerPubkey = 0

theorem noPeerKey_before_start {ws : ElaSession} {calls : List (SessionCall Text)} {os : List Text}
    {ufrag pwd : IceText}
    (h : (sessionMachine lib dh).Run (fun _ c => ∀ pool sdp, c ≠ .start pool sdp)
      (.new ufrag pwd) calls os ws) : ws.NoPeerKey := by
  have hstart : (ElaSession.new ufrag pwd).NoPeerKey := rfl
  refine h.invariant (fun {s c t o} hs hc hm => ?_) hstart
  cases hm
  exact (sessionCall_peerPubkey s hc).trans hs

/-- So the first start of a session computes a key that no remote key has a part in. -/
theorem first_start_key {ws : ElaSession} {calls : List (SessionCall Text)} {os : List Text}
    {ufrag pwd : IceText} {pool : Bool} {text : Text}
    (h : (sessionMachine lib dh).Run (fun _ c => ∀ pool sdp, c ≠ .start pool sdp)
      (.new ufrag pwd) calls os ws)
    (he : ws.crypto.enabled = true) (hret : (elaSessionStart lib dh pool ws (some text)).2 = .ok ()) :
    (elaSessionStart lib dh pool ws (some text)).1.crypto.key = dh.shared 0 ws.secretKey := by
  rw [elaSessionStart_key he hret, noPeerKey_before_start h]

/-! Both ends of an exchange. -/

/-- Both ends start, each with the description of the other one's current key pair. -/
structure Completed (lib : SdpLibrary Text) (dh : DiffieHellman) (a b : ElaSession) (ta tb : Text) :
    Prop where
  enabledLeft : a.crypto.enabled = true
  enabledRight : b.crypto.enabled = true
  sentLeft : lib.publicKeyOf ta = some (dh.pub a.secretKey)
  sentRight : lib.publicKeyOf tb = some (dh.pub b.secretKey)
  startedLeft : (elaSessionStart lib dh true a (some tb)).2 = .ok ()
  startedRight : (elaSessionStart lib dh true b (some ta)).2 = .ok ()

variable {a b : ElaSession} {ta tb : Text}

def Completed.leftKey (_ : Completed lib dh a b ta tb) : SymmetricKey :=
  (elaSessionStart lib dh true a (some tb)).1.crypto.key

def Completed.rightKey (_ : Completed lib dh a b ta tb) : SymmetricKey :=
  (elaSessionStart lib dh true b (some ta)).1.crypto.key

/-- For all histories of a session, a start that returns 0 leaves the key shared with the
owner of the description. -/
def StartKeysMatch : Prop :=
  ∀ (Text : Type) (lib : SdpLibrary Text) (dh : DiffieHellman) (ufrag pwd : IceText)
    (calls : List (SessionCall Text)) (os : List Text) (ws : ElaSession) (pool : Bool) (text : Text)
    (pk : PublicKey),
    (sessionMachine lib dh).Run Machine.Free (.new ufrag pwd) calls os ws →
    ws.crypto.enabled = true → lib.publicKeyOf text = some pk →
    (elaSessionStart lib dh pool ws (some text)).2 = .ok () →
    (elaSessionStart lib dh pool ws (some text)).1.crypto.key =
      dh.shared pk (elaSessionStart lib dh pool ws (some text)).1.secretKey

/-- A start that returns 0 leaves the key shared with the owner of the description, over
every key exchange, exactly where an earlier start has already stored that owner's public
key. Two ends that both have the other's key stored agree on a key of both key pairs. -/
theorem start_key_iff_stored (lib : SdpLibrary Text) :
    (∀ (dh₀ : DiffieHellman) (pool : Bool) (ws : ElaSession) (text : Text) (pk : PublicKey),
      ws.crypto.enabled = true → lib.publicKeyOf text = some pk →
      (elaSessionStart lib dh₀ pool ws (some text)).2 = .ok () →
      ((∀ dh : DiffieHellman, (elaSessionStart lib dh pool ws (some text)).1.crypto.key =
          dh.shared pk (elaSessionStart lib dh pool ws (some text)).1.secretKey) ↔
        ws.peerPubkey = pk)) ∧
    ∀ (dh : DiffieHellman) (a b : ElaSession) (ta tb : Text) (h : Completed lib dh a b ta tb),
      a.peerPubkey = dh.pub b.secretKey → b.peerPubkey = dh.pub a.secretKey →
      h.leftKey = h.rightKey ∧ h.leftKey = dh.shared (dh.pub b.secretKey) a.secretKey := by
  refine ⟨fun dh₀ pool ws text pk he hpk hret => ?_, fun dh a b ta tb h ha hb => ?_⟩
  · have hall : ∀ dh : DiffieHellman, (elaSessionStart lib dh pool ws (some text)).2 = .ok () :=
      fun dh => (elaSessionStart_status dh dh₀ pool ws text).trans hret
    have hkey : (∀ dh : DiffieHellman, (elaSessionStart lib dh pool ws (some text)).1.crypto.key =
        dh.shared pk (elaSessionStart lib dh pool ws (some text)).1.secretKey) ↔
        ∀ dh : DiffieHellman, dh.shared ws.peerPubkey ws.secretKey = dh.shared pk ws.secretKey := by
      refine forall_congr' fun dh => ?_
      rw [elaSessionStart_key he (hall dh), (elaSessionStart_ok (hall dh)).2.1]
    rw [hkey]
    exact KeyExchange.shared_eq_iff
  · have hl : h.leftKey = dh.shared a.peerPubkey a.secretKey :=
      elaSessionStart_key h.enabledLeft h.startedLeft
    have hr : h.rightKey = dh.shared b.peerPubkey b.secretKey :=
      elaSessionStart_key h.enabledRight h.startedRight
    rw [hl, hr]
    exact ⟨dh.agree ha hb, by rw [ha]⟩

def hostCandidate : List Char := "Hc0 1 UDP 2130706431 10.0.0.2 5000 typ host".toList

/-- A session with one encrypted stream up to its start: the request or the reply it makes
draws the given secret key, and a nonce of the same number. -/
def negotiated (offer : Draw → OfferEnv → SessionCall SdpSession) (secretKey : SecretKey) :
    List (SessionCall SdpSession) :=
  [.addStream .application 0 ⟨some 1, true, true, true, true⟩, .stateChanged 1 .initialized,
    offer ⟨secretKey, secretKey.setWidth 192, 12⟩
      ⟨fun _ => true, true, true, fun _ => some ⟨1, [], 9, [hostCandidate]⟩, true⟩,
    .stateChanged 1 .transportReady]

/-- The description that such a session sends. -/
def description (pk : PublicKey) : SdpSession :=
  ⟨Base58.encode 32 pk.toNat, sdpSessionName,
    [⟨ufragName, []⟩, ⟨pwdName, []⟩, ⟨nonceName, Base58.encode 24 pk.toNat⟩],
    [⟨9, [], ['0'], [⟨candidateName, hostCandidate⟩]⟩]⟩

def startDescribed (ws : ElaSession) (pk : PublicKey) : ElaSession × Except SessionError Unit :=
  elaSessionStart .plain sumExchange true ws (some (description pk))

/-- The session draws one key, holds the other, and is ready to start with it. -/
def keyStored (own other : BitVec 256) (ws : ElaSession) : Bool :=
  decide (ws.crypto.enabled = true ∧ ws.secretKey = own ∧ ws.peerPubkey = other ∧
    SdpLibrary.plain.publicKeyOf (description other) = some other ∧
    (startDescribed ws other).2.toBool = true)

private theorem ok_of_toBool {ε : Type} {r : Except ε Unit} (h : r.toBool = true) : r = .ok () := by
  cases r with
  | error e => cases h
  | ok u => rfl

/-- Both ends have started once already, with the same description. -/
theorem second_start_keys :
    (∃ ws : ElaSession, ∀ dh : DiffieHellman,
      (elaSessionStart .plain dh true ws (some (description 5))).1.crypto.key =
        dh.shared 5 (elaSessionStart .plain dh true ws (some (description 5))).1.secretKey) ∧
    ∃ (a b : ElaSession) (h : Completed .plain sumExchange a b (description 3) (description 5)),
      h.leftKey = h.rightKey := by
  obtain ⟨a, os, -, ha⟩ := (sessionMachine .plain sumExchange).exec_any (.new .empty .empty)
    (negotiated (.request none true) 3 ++ [.start true (some (description 5))]) (fun r => keyStored 3 5 r.1)
    (by decide +kernel)
  obtain ⟨b, ps, -, hb⟩ := (sessionMachine .plain sumExchange).exec_any (.new .empty .empty)
    (negotiated (.reply none 0 none) 5 ++ [.start true (some (description 3))]) (fun r => keyStored 5 3 r.1)
    (by decide +kernel)
  obtain ⟨hea, hsa, hpa, hka, hra⟩ := of_decide_eq_true ha
  obtain ⟨heb, hsb, hpb, hkb, hrb⟩ := of_decide_eq_true hb
  have h : Completed .plain sumExchange a b (description 3) (description 5) :=
    ⟨hea, heb, by rw [hsa]; exact hkb, by rw [hsb]; exact hka, ok_of_toBool hra, ok_of_toBool hrb⟩
  have hall := start_key_iff_stored SdpLibrary.plain
  exact ⟨⟨a, (hall.1 sumExchange true a _ 5 hea hka (ok_of_toBool hra)).mpr hpa⟩, a, b, h,
    (hall.2 sumExchange a b _ _ h (hpa.trans hsb.symm) (hpb.trans hsa.symm)).1⟩

/-- The first start of a session computes its key from the zeroed public key. -/
theorem start_keys_mismatch : ¬ StartKeysMatch := by
  intro h
  obtain ⟨ws, os, he, hp⟩ := (sessionMachine .plain sumExchange).exec_any (.new .empty .empty)
    (negotiated (.request none true) 3) (fun r => decide (r.1.crypto.enabled = true ∧
      SdpLibrary.plain.publicKeyOf (description 5) = some 5 ∧
      (startDescribed r.1 5).2.toBool = true ∧ (startDescribed r.1 5).1.crypto.key ≠
        sumExchange.shared 5 (startDescribed r.1 5).1.secretKey)) (by decide +kernel)
  obtain ⟨hen, hpk, hret, hne⟩ := of_decide_eq_true hp
  exact hne (h SdpSession .plain sumExchange .empty .empty _ os ws true (description 5) 5
    (Machine.free_run_of_exec he) hen hpk (ok_of_toBool hret))

end CarrierSdk
