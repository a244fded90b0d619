import CarrierSdk.Session.KeyAgreement
import CarrierSdk.Session.CryptoHandler
import CarrierSdk.Library.Peers

/-! Which nonces two peers of a session encrypt with. A nonce belongs to a negotiation:
requests and replies draw it, a start may adopt the offered one, and no write changes it. -/
namespace CarrierSdk

/-- Both ends of a session, the descriptions that each has sent, and a record of all draws. -/
structure SessionPair (Text : Type) where
  sessions : Peer → ElaSession
  sent : Peer → List Text
  draws : List Nonce

def SessionPair.new {Text : Type} (ufrag pwd : Peer → IceText) : SessionPair Text :=
  ⟨fun p => .new (ufrag p) (pwd p), fun _ => [], []⟩

/-- Calls of the application and of the transport, and writes that reach the encryption
handler of a stream from the handlers above it. -/
inductive PairInput (Text : Type)
  | call (p : Peer) (c : SessionCall Text)
  | write (p : Peer) (stream : Nat) (buf : FlexBuffer) (encrypt : EncryptCall → Option (List UInt8))
      (next : FlexBuffer → FlexBuffer × Int)

inductive PairOutput
  | drew (p : Peer) (nonce : Nonce)
  | encrypted (p : Peer) (stream : Nat) (call : EncryptCall)
  deriving DecidableEq

/-- The nonce that a call draws, where it gets to the drawing. -/
def drawnBy {Text : Type} (ws : ElaSession) : SessionCall Text → Option Nonce
  | .request bundle callback d _ =>
    if !callback || bundleInvalid bundle then none
    else if ws.streams.length = 0 then none
    else some d.nonce
  | .reply bundle status reason d _ =>
    if (status ≠ 0 && reason.isNone) || bundleInvalid bundle then none else some d.nonce
  | _ => none

/-- A start is only made with a description that the other peer has sent. -/
def delivered {Text : Type} [DecidableEq Text] (s : SessionPair Text) (p : Peer) :
    SessionCall Text → Bool
  | .start _ (some text) => decide (text ∈ s.sent p.other)
  | _ => true

/-- The stream has an encryption handler. -/
def ElaSession.encrypts (ws : ElaSession) (stream : Nat) : Bool :=
  ws.streams.any fun s => decide (s.id = stream) && !s.unencrypt

instance (b : FlexBuffer) (bytes : Nat) : Decidable (b.Fits bytes) :=
  decidable_of_iff (bytes ≤ b.offset ∧ b.offset + b.size ≤ b.capacity ∧ b.buffer.length = b.capacity)
    ⟨fun h => ⟨h.1, h.2.1, h.2.2⟩, fun h => ⟨h.header, h.inside, h.length⟩⟩

section Machine
variable {Text : Type} [DecidableEq Text] (lib : SdpLibrary Text) (dh : DiffieHellman)

def pairStep (s : SessionPair Text) : PairInput Text → Option (SessionPair Text × List PairOutput)
  | .call p c =>
    if delivered s p c then
      let r := sessionCall lib dh (s.sessions p) c
      let drawn := (drawnBy (s.sessions p) c).toList
      some (⟨Function.update s.sessions p r.1,
          Function.update s.sent p (s.sent p ++ r.2.toList), s.draws ++ drawn⟩,
        drawn.map (.drew p))
    else none
  | .write p stream buf encrypt next =>
    if (s.sessions p).encrypts stream ∧ buf.Fits zeroBytes then
      some (s, [.encrypted p stream (cryptoHandlerWrite encrypt next (s.sessions p) buf).1])
    else none

def pairMachine : Machine (SessionPair Text) (PairInput Text) PairOutput := ⟨pairStep lib dh⟩

/-- crypto_random_nonce repeats no value, and never yields the zeros of a new session. -/
def freshDraw (s : SessionPair Text) : PairInput Text → Bool
  | .call p c => (drawnBy (s.sessions p) c).all fun n => decide (n ≠ 0 ∧ n ∉ s.draws)
  | .write .. => true

/-- The inputs by which a peer negotiates. -/
def negotiates (p : Peer) : PairInput Text → Bool
  | .call q (.request ..) => decide (q = p)
  | .call q (.reply ..) => decide (q = p)
  | .call q (.start ..) => decide (q = p)
  | _ => false

/-- What the library documents: session attributes and nonces survive being written and read. -/
structure SdpLibrary.RoundTrips (lib : SdpLibrary Text) : Prop where
  attrs : ∀ {ws : ElaSession} {pk : PublicKey} {user : List Char} {media : List SdpMedia}
    {text : Text} {sdp : SdpSession}, lib.base58Encode pk = some user →
    lib.print ⟨user, sdpSessionName, sessionAttrs lib ws, media⟩ = some text →
    lib.parse text = some sdp → sdp.attrs = sessionAttrs lib ws
  nonce : ∀ old n, lib.nonceFromStr old (lib.nonceToStr n) = n

end Machine

variable {Text : Type} {lib : SdpLibrary Text} {dh : DiffieHellman}

/-! The nonce of one session over one call. -/

/-- Apart from starts, a call leaves the nonce that it drew, or else the one before it. -/
theorem sessionCall_nonce (ws : ElaSession) {call : SessionCall Text}
    (hc : ∀ pool sdp, call ≠ .start pool sdp) :
    (sessionCall lib dh ws call).1.nonce = (drawnBy ws call).getD ws.nonce := by
  cases call with
  | addStream type options env => exact (addStream_pair ws type options env).2
  | removeStream id => exact (removeStream_pair ws id).2
  | stateChanged id state => rfl
  | request bundle callback d env =>
    simp only [sessionCall, elaSessionRequest, drawnBy]
    split
    · rfl
    split
    · rfl
    · exact (sendOffer_frame lib _ _).2.1
  | reply bundle status reason d env =>
    simp only [sessionCall, elaSessionReplyRequest, drawnBy]
    split
    · rfl
    split
    · rfl
    split
    · rfl
    · exact (sendOffer_frame lib _ _).2.1
  | start pool sdp => exact absurd rfl (hc pool sdp)

/-- A start leaves the nonce of the session, or the one that its description offers. -/
theorem start_nonce (lib : SdpLibrary Text) (dh : DiffieHellman) (pool : Bool) (ws : ElaSession)
    (sdp : Option Text) :
    (elaSessionStart lib dh pool ws sdp).1.nonce = ws.nonce ∨
      ∃ text desc t, sdp = some text ∧ lib.parse text = some desc ∧ desc.attr nonceName = some t ∧
        (elaSessionStart lib dh pool ws sdp).1.nonce = lib.nonceFromStr ws.nonce t := by
  have hn : (ws.computeKey dh).nonce = ws.nonce := by
    unfold ElaSession.computeKey
    split <;> rfl
  unfold elaSessionStart
  split
  · exact .inl rfl
  next text =>
    split
    · exact .inl rfl
    simp only
    split
    · rcases applyRemoteSdp_cases lib pool (ws.computeKey dh) text with
        ⟨e, h⟩ | ⟨desc, pk, streams, status, hp, -, h⟩
      · exact .inl (by rw [h, hn])
      · rw [h]
        simp only [ElaSession.adoptNonce]
        split
        next t ht =>
          split
          · exact .inr ⟨text, desc, t, rfl, hp, ht, by rw [← hn]⟩
          · exact .inl hn
        · exact .inl hn
    · exact .inl hn

/-- A description goes out with the nonce that its sender holds from then on. -/
theorem sessionCall_sent {ws : ElaSession} {call : SessionCall Text} {text : Text}
    (h : (sessionCall lib dh ws call).2 = some text) :
    ∃ user media, lib.base58Encode (sessionCall lib dh ws call).1.publicKey = some user ∧
      lib.print ⟨user, sdpSessionName, sessionAttrs lib (sessionCall lib dh ws call).1, media⟩ =
        some text := by
  cases call with
  | addStream | removeStream | stateChanged | start => cases h
  | request bundle callback d env =>
    simp only [sessionCall, elaSessionRequest] at h ⊢
    split at h
    · cases h
    next hargs =>
      split at h
      · cases h
      next hlen =>
        rw [if_neg hargs, if_neg hlen]
        exact encodeLocalSdp_ok lib ((sendOffer_frame lib _ _).2.2 text h)
  | reply bundle status reason d env =>
    simp only [sessionCall, elaSessionReplyRequest] at h ⊢
    split at h
    · cases h
    next hargs =>
      split at h
      · split at h <;> cases h
      next hstatus =>
        split at h
        · cases h
        next hlen =>
          rw [if_neg hargs, if_neg hstatus, if_neg hlen]
          exact encodeLocalSdp_ok lib ((sendOffer_frame lib _ _).2.2 text h)

/-- The nonce of a description that a session printed is the session's. -/
theorem attr_sessionAttrs {ws : ElaSession} {sdp : SdpSession} {t : List Char}
    (hs : sdp.attrs = sessionAttrs lib ws) (ht : sdp.attr nonceName = some t) :
    t = lib.nonceToStr ws.nonce := by
  have hu : ¬ ufragName = nonceName := by decide
  have hp : ¬ pwdName = nonceName := by decide
  rw [SdpSession.attr, hs, sessionAttrs] at ht
  split at ht
  · simpa using ht.symm
  · simp [hu, hp] at ht

/-! Two peers. -/

def PairOutput.drawn : PairOutput → Option Nonce
  | .drew _ n => some n
  | .encrypted .. => none

/-- How often a value was drawn. -/
def drawsOf (n : Nonce) (os : List PairOutput) : Nat := (os.filterMap PairOutput.drawn).count n

/-- Where nonces come from: whatever a session holds, offers or has encrypted with was
drawn before by one of the two peers, unless it is still the nonce of a new session. -/
structure NonceInv (lib : SdpLibrary Text) (s : SessionPair Text) (os : List PairOutput) : Prop where
  record : os.filterMap PairOutput.drawn = s.draws
  nodup : s.draws.Nodup
  held : ∀ p, (s.sessions p).nonce ∈ 0 :: s.draws
  offered : ∀ p text sdp t old, text ∈ s.sent p → lib.parse text = some sdp →
    sdp.attr nonceName = some t → lib.nonceFromStr old t ∈ 0 :: s.draws
  used : ∀ p i c, .encrypted p i c ∈ os → c.nonce ∈ 0 :: s.draws

/-- The calls that are no negotiation leave the pair alone. -/
private theorem call_pair (lib : SdpLibrary Text) (dh : DiffieHellman) (ws : ElaSession) {p : Peer}
    {c : SessionCall Text} (hc : negotiates p (.call p c) = false) :
    (sessionCall lib dh ws c).1.crypto.key = ws.crypto.key ∧
      (sessionCall lib dh ws c).1.nonce = ws.nonce := by
  cases c with
  | addStream type options env => exact addStream_pair ws type options env
  | removeStream id => exact removeStream_pair ws id
  | stateChanged id state => exact ⟨rfl, rfl⟩
  | request => simp [negotiates] at hc
  | reply => simp [negotiates] at hc
  | start => simp [negotiates] at hc

section Invariant
variable [DecidableEq Text] {s t : SessionPair Text} {os o : List PairOutput}

private theorem filterMap_drew (p : Peer) (l : List Nonce) :
    (l.map (PairOutput.drew p)).filterMap PairOutput.drawn = l := by
  rw [List.filterMap_map]
  exact List.filterMap_some

private theorem mem_draws {n : Nonce} {l more : List Nonce} (h : n ∈ 0 :: l) : n ∈ 0 :: (l ++ more) := by
  rw [← List.cons_append]
  exact List.mem_append_left _ h

/-- The nonce that a call leaves with its peer. -/
private theorem call_held (dh : DiffieHellman) (hi : NonceInv lib s os) {p : Peer} {c : SessionCall Text}
    (hd : delivered s p c = true) :
    (sessionCall lib dh (s.sessions p) c).1.nonce ∈
      0 :: (s.draws ++ (drawnBy (s.sessions p) c).toList) := by
  by_cases hc : ∀ pool sdp, c ≠ .start pool sdp
  · rw [sessionCall_nonce _ hc]
    cases hn : drawnBy (s.sessions p) c with
    | none => simpa using hi.held p
    | some n => simp
  · simp only [not_forall, not_not] at hc
    obtain ⟨pool, sdp, rfl⟩ := hc
    apply mem_draws
    rcases start_nonce lib dh pool (s.sessions p) sdp with h | ⟨text, desc, t, rfl, hp, ht, h⟩
    · exact h ▸ hi.held p
    · rw [sessionCall, h]
      exact hi.offered _ _ _ _ _ (of_decide_eq_true hd) hp ht

private theorem nonceInv_call (hlib : lib.RoundTrips) (hi : NonceInv lib s os) {p : Peer}
    {c : SessionCall Text} (hf : freshDraw s (.call p c) = true)
    (h : pairStep lib dh s (.call p c) = some (t, o)) : NonceInv lib t (os ++ o) := by
  simp only [pairStep] at h
  split at h
  next hd =>
    cases h
    have hheld := call_held dh hi hd
    have hmono : ∀ {n}, n ∈ 0 :: s.draws → n ∈ 0 :: (s.draws ++ (drawnBy (s.sessions p) c).toList) :=
      mem_draws
    constructor
    case record => rw [List.filterMap_append, hi.record, filterMap_drew]
    case nodup =>
      refine List.Nodup.append hi.nodup ?_ ?_
      · cases drawnBy (s.sessions p) c <;> simp
      · cases hn : drawnBy (s.sessions p) c with
        | none => simp
        | some n =>
          rw [freshDraw, hn] at hf
          have := (of_decide_eq_true hf).2
          simpa [List.disjoint_singleton] using this
    case held =>
      intro q
      by_cases hq : q = p
      · subst hq
        simpa using hheld
      · simpa [Function.update_of_ne hq] using hmono (hi.held q)
    case offered =>
      intro q text sdp u old hm hp hu
      by_cases hq : q = p
      · subst hq
        simp only [Function.update_self, List.mem_append, Option.mem_toList] at hm
        rcases hm with hm | hm
        · exact hmono (hi.offered q text sdp u old hm hp hu)
        · obtain ⟨user, media, hb, hprint⟩ := sessionCall_sent hm
          rw [attr_sessionAttrs (hlib.attrs hb hprint hp) hu, hlib.nonce]
          exact hheld
      · simp only [Function.update_of_ne hq] at hm
        exact hmono (hi.offered q text sdp u old hm hp hu)
    case used =>
      intro q i e hm
      rcases List.mem_append.mp hm with hm | hm
      · exact hmono (hi.used q i e hm)
      · obtain ⟨n, -, hn⟩ := List.mem_map.mp hm
        cases hn
  · cases h

private theorem nonceInv_step (hlib : lib.RoundTrips) (hi : NonceInv lib s os) {i : PairInput Text}
    (hf : freshDraw s i = true) (h : (pairMachine lib dh).step s i = some (t, o)) :
    NonceInv lib t (os ++ o) := by
  cases i with
  | call p c => exact nonceInv_call hlib hi hf h
  | write p stream buf encrypt next =>
    replace h : pairStep lib dh s (.write p stream buf encrypt next) = some (t, o) := h
    simp only [pairStep] at h
    split at h
    · cases h
      refine ⟨?_, hi.nodup, hi.held, hi.offered, fun q j e hm => ?_⟩
      · rw [List.filterMap_append, hi.record]
        exact List.append_nil _
      · rcases List.mem_append.mp hm with hm | hm
        · exact hi.used q j e hm
        · cases List.mem_singleton.mp hm
          exact hi.held p
    · cases h

/-- A peer that does not negotiate keeps its pair of key and nonce, and encrypts with it. -/
structure Keeps (p : Peer) (k : SymmetricKey) (n : Nonce) (s : SessionPair Text)
    (os : List PairOutput) : Prop where
  key : (s.sessions p).crypto.key = k
  nonce : (s.sessions p).nonce = n
  calls : ∀ i c, .encrypted p i c ∈ os → c.key = k ∧ c.nonce = n

private theorem keeps_step {p : Peer} {k : SymmetricKey} {n : Nonce} {i : PairInput Text}
    (hk : Keeps p k n s os) (hn : negotiates p i = false)
    (h : (pairMachine lib dh).step s i = some (t, o)) : Keeps p k n t (os ++ o) := by
  replace h : pairStep lib dh s i = some (t, o) := h
  cases i with
  | call q c =>
    simp only [pairStep] at h
    split at h
    · cases h
      have hcalls : ∀ j e, .encrypted p j e ∈ os ++ ((drawnBy (s.sessions q) c).toList.map (.drew q)) →
          e.key = k ∧ e.nonce = n := by
        intro j e hm
        rcases List.mem_append.mp hm with hm | hm
        · exact hk.calls j e hm
        · obtain ⟨m, -, he⟩ := List.mem_map.mp hm
          cases he
      by_cases hq : p = q
      · subst hq
        have hp := call_pair lib dh (s.sessions p) hn
        refine ⟨?_, ?_, hcalls⟩
        · simpa using hp.1.trans hk.key
        · simpa using hp.2.trans hk.nonce
      · refine ⟨?_, ?_, hcalls⟩
        · simpa [Function.update_of_ne hq] using hk.key
        · simpa [Function.update_of_ne hq] using hk.nonce
    · cases h
  | write q stream buf encrypt next =>
    simp only [pairStep] at h
    split at h
    · cases h
      refine ⟨hk.key, hk.nonce, fun j e hm => ?_⟩
      rcases List.mem_append.mp hm with hm | hm
      · exact hk.calls j e hm
      · cases List.mem_singleton.mp hm
        exact ⟨hk.key, hk.nonce⟩
    · cases h

end Invariant

/-- No two calls of the encryption primitive use one pair of key and nonce for different
plaintexts, in any run of two peers from new sessions. -/
def NonceUnique : Prop :=
  ∀ (Text : Type) [DecidableEq Text] (lib : SdpLibrary Text) (dh : DiffieHellman)
    (ufrag pwd : Peer → IceText) (is : List (PairInput Text)) (os : List PairOutput)
    (u : SessionPair Text), lib.RoundTrips →
    (pairMachine lib dh).Run (fun s i => freshDraw s i = true) (.new ufrag pwd) is os u →
    ∀ p q i j c d, .encrypted p i c ∈ os → .encrypted q j d ∈ os →
      c.key = d.key → c.nonce = d.nonce → c.plain = d.plain

/-- The library of sums, lists and base58 texts does what is asked of it. -/
theorem SdpLibrary.plain_roundTrips : SdpLibrary.plain.RoundTrips where
  attrs := by
    intro ws pk user media text sdp _ hp hs
    cases hp
    cases hs
    rfl
  nonce := by
    intro old n
    simp [SdpLibrary.plain, Base58.decode_encode]

def SessionPair.start : SessionPair SdpSession := .new (fun _ => .empty) fun _ => .empty

/-- One peer requests, the other replies, both start, and the streams connect. -/
def negotiation : List (PairInput SdpSession) :=
  (negotiated (.request none true) 3).map (.call .left) ++
    (negotiated (.reply none 0 none) 5).map (.call .right) ++
    [.call .right (.start true (some (description 3))), .call .right (.stateChanged 1 .connected),
      .call .left (.start true (some (description 5))), .call .left (.stateChanged 1 .connected)]

/-- A buffer of one byte behind its padding. -/
def FlexBuffer.byte (b : UInt8) : FlexBuffer :=
  ⟨flexPaddingLen + 1, flexPaddingLen, 1, List.replicate flexPaddingLen 0 ++ [b]⟩

/-- A write of a byte to the one stream of a peer. -/
def writeByte (p : Peer) (b : UInt8) : PairInput SdpSession :=
  .write p 1 (.byte b) (fun call => some (call.plain.drop macBytes)) fun buf => (buf, buf.size)

def pairOfSums : Machine (SessionPair SdpSession) (PairInput SdpSession) PairOutput :=
  pairMachine .plain sumExchange

def quietAndFresh (s : SessionPair SdpSession) (i : PairInput SdpSession) : Bool :=
  freshDraw s i && !negotiates .left i

/-- The outputs show the byte encrypted with the pair that the left peer holds. -/
def encryptedByte (s : SessionPair SdpSession) (b : UInt8) (os : List PairOutput) : Bool :=
  decide (.encrypted .left 1 (encryptCall (s.sessions .left) (.byte b)) ∈ os)

end CarrierSdk
