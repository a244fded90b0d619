import CarrierSdk.Carrier.InviteSend
import CarrierSdk.Library.KeyExchange
import CarrierSdk.Library.Machine
import CarrierSdk.Session.Sdp

/-! A session of one peer: the keys and the nonce that requests and replies draw, and what
a start takes over from the remote session description. -/
namespace CarrierSdk

abbrev SecretKey := BitVec 256
abbrev SymmetricKey := BitVec 256
abbrev Nonce := BitVec 192

inductive SessionError
  | invalidArgs
  | notImplemented
  | outOfMemory
  | wrongState
  | invalidCredential
  | invalidSdp
  | sdpTooLong
  | notExist
  | encrypt
  | ice
  | invite
  deriving DecidableEq

inductive StreamType | audio | video | text | application | message
  deriving DecidableEq

inductive StreamState
  | raw | initialized | transportReady | connecting | connected | deactivated | closed | failed
  deriving DecidableEq

/-- struct ElaStream with the ICE handler at the end of its pipeline. The flag hasIce is
whether the transport of the handler has an ICE session. -/
structure ElaStream where
  id : Nat
  type : StreamType
  state : StreamState
  unencrypt : Bool
  reliable : Bool
  multiplexing : Bool
  portforwarding : Bool
  deactivate : Bool
  hasIce : Bool
  remote : Remote
  deriving DecidableEq

def elaStreamPlain : Nat := 0x02
def elaStreamReliable : Nat := 0x04
def elaStreamMultiplexing : Nat := 0x08
def elaStreamPortForwarding : Nat := 0x10

def ElaStream.options (s : ElaStream) : Nat :=
  (if s.unencrypt then elaStreamPlain else 0) |||
  (if s.multiplexing then elaStreamMultiplexing else 0) |||
  (if s.reliable then elaStreamReliable else 0) |||
  (if s.portforwarding then elaStreamPortForwarding else 0)

inductive IceRole | unknown | controlling | controlled
  deriving DecidableEq

structure SessionCrypto where
  enabled : Bool
  key : SymmetricKey
  deriving DecidableEq

/-- A text of pj_create_random_string. -/
structure IceText where
  text : List Char
  alnum : text.all Char.isAlphanum = true
  deriving DecidableEq

def IceText.empty : IceText := ⟨[], rfl⟩

/-- struct IceSession with its base ElaSession. -/
structure ElaSession where
  offerer : Bool
  role : IceRole
  ufrag : IceText
  pwd : IceText
  publicKey : PublicKey
  secretKey : SecretKey
  peerPubkey : PublicKey
  nonce : Nonce
  credential : Nonce
  crypto : SessionCrypto
  streams : List ElaStream
  deriving DecidableEq

/-- ela_session_new: zeroed memory, and the two random texts of ice_session_init. -/
def ElaSession.new (ufrag pwd : IceText) : ElaSession :=
  ⟨false, .unknown, ufrag, pwd, 0, 0, 0, 0, 0, ⟨false, 0⟩, []⟩

/-- The library calls on texts and on the session description. A decoding that fails
leaves its buffer as it was. -/
structure SdpLibrary (Text : Type) where
  parse : Text → Option SdpSession
  print : SdpSession → Option Text
  base58Encode : PublicKey → Option (List Char)
  base58Decode : List Char → Option PublicKey
  nonceToStr : Nonce → List Char
  nonceFromStr : Nonce → List Char → Nonce

abbrev DiffieHellman := KeyExchange SecretKey PublicKey SymmetricKey

/-! Streams. -/

/-- What ela_session_add_stream gets from the calls it makes. -/
structure AddStreamEnv where
  streamId : Option Nat
  muxCreated : Bool
  reliableCreated : Bool
  cryptoCreated : Bool
  inited : Bool
  deriving DecidableEq

def hasOption (options flag : Nat) : Bool := (options &&& flag) != 0

def newStream (id : Nat) (type : StreamType) (options : Nat) : ElaStream :=
  let portforwarding := hasOption options elaStreamPortForwarding
  { id, type, state := .raw
    unencrypt := hasOption options elaStreamPlain
    reliable := hasOption options elaStreamReliable
    multiplexing := hasOption options elaStreamMultiplexing || portforwarding
    portforwarding, deactivate := false, hasIce := false, remote := .zero }

def ElaSession.enableCrypto (ws : ElaSession) : ElaSession :=
  { ws with crypto := { ws.crypto with enabled := true } }

/-- ela_session_add_stream. The encryption flag of the session is set before the handler
is created, and stays when a later call fails. -/
def elaSessionAddStream (ws : ElaSession) (type : StreamType) (options : Nat) (env : AddStreamEnv) :
    ElaSession × Except SessionError Nat :=
  if type = .audio ∨ type = .video then (ws, .error .notImplemented) else
  match env.streamId with
  | none => (ws, .error .outOfMemory)
  | some id =>
    let s := newStream id type options
    if s.multiplexing && !env.muxCreated then (ws, .error .outOfMemory)
    else if s.reliable && !env.reliableCreated then (ws, .error .outOfMemory)
    else
      let ws := if s.unencrypt then ws else ws.enableCrypto
      if !s.unencrypt && !env.cryptoCreated then (ws, .error .outOfMemory)
      else if !env.inited then (ws, .error .ice)
      else ({ ws with streams := ws.streams ++ [s] }, .ok id)

def elaSessionRemoveStream (ws : ElaSession) (id : Nat) : ElaSession × Except SessionError Unit :=
  if id = 0 then (ws, .error .invalidArgs)
  else if ws.streams.any (fun s => decide (s.id = id)) then
    ({ ws with streams := ws.streams.eraseP fun s => decide (s.id = id) }, .ok ())
  else (ws, .error .notExist)

/-- stream_base_on_state_chagned, which the transport notifies. -/
def ElaSession.stateChanged (ws : ElaSession) (id : Nat) (state : StreamState) : ElaSession :=
  { ws with streams := ws.streams.map fun s => if s.id = id then { s with state } else s }

/-! The local session description. -/

/-- What the transport reports of one stream. -/
structure IceLocal where
  compCount : Nat
  connAddr : List Char
  port : Nat
  candidates : List (List Char)
  deriving DecidableEq

/-- What a request or a reply gets from the calls it makes: the ICE initialisation of each
stream, the report of each transport, and the invite call at the end. -/
structure OfferEnv where
  iceInit : Nat → Bool
  pool : Bool
  hostIp : Bool
  iceLocal : Nat → Option IceLocal
  sent : Bool

/-- ice_handler_prepare. The new state of the stream comes by a notification later. -/
def iceHandlerPrepare (env : OfferEnv) (s : ElaStream) : ElaStream × Except SessionError Unit :=
  if s.hasIce then (s, .ok ())
  else if s.state ≠ .initialized then (s, .error .wrongState)
  else if env.iceInit s.id then ({ s with hasIce := true }, .ok ())
  else (s, .error .ice)

def prepareStreams (env : OfferEnv) : List ElaStream → List ElaStream × Except SessionError Unit
  | [] => ([], .ok ())
  | s :: rest =>
    match iceHandlerPrepare env s with
    | (s, .error e) => (s :: rest, .error e)
    | (s, .ok ()) => (s :: (prepareStreams env rest).1, (prepareStreams env rest).2)

/-- The media of the streams. The options are collected over the streams, not per stream. -/
def encodeMedia (env : OfferEnv) : Nat → List ElaStream → Except SessionError (List SdpMedia)
  | _, [] => .ok []
  | ops, s :: rest =>
    if !s.hasIce then .error .wrongState
    else match env.iceLocal s.id with
      | none => .error .ice
      | some l =>
        if l.compCount = 0 then .error .wrongState
        else
          let ops := ops ||| s.options
          let media : SdpMedia :=
            ⟨l.port, l.connAddr, Nat.toDigits 10 ops, l.candidates.map fun c => ⟨candidateName, c⟩⟩
          (encodeMedia env ops rest).map fun ms => media :: ms

section Library
variable {Text : Type} (lib : SdpLibrary Text) (dh : DiffieHellman)

/-- The session attributes. The nonce goes along where some stream is encrypted. -/
def sessionAttrs (ws : ElaSession) : List SdpAttr :=
  [⟨ufragName, ws.ufrag.text⟩, ⟨pwdName, ws.pwd.text⟩] ++
    if ws.crypto.enabled then [⟨nonceName, lib.nonceToStr ws.nonce⟩] else []

def iceSessionEncodeLocalSdp (env : OfferEnv) (ws : ElaSession) : Except SessionError Text :=
  if !env.pool then .error .outOfMemory
  else if !env.hostIp then .error .ice
  else match lib.base58Encode ws.publicKey with
    | none => .error .invalidCredential
    | some pk =>
      match encodeMedia env 0 ws.streams with
      | .error e => .error e
      | .ok media =>
        match lib.print ⟨pk, sdpSessionName, sessionAttrs lib ws, media⟩ with
        | none => .error .sdpTooLong
        | some sdp => .ok sdp

/-! Requests and replies. -/

/-- What one request or reply draws. -/
structure Draw where
  secretKey : SecretKey
  nonce : Nonce
  credential : Nonce
  deriving DecidableEq

/-- ice_session_set_offer, with the flag of the session. -/
def ElaSession.setOffer (ws : ElaSession) (offerer : Bool) : ElaSession :=
  { ws with offerer, role := if offerer then .controlling else .controlled }

/-- crypto_create_keypair and the two calls of crypto_random_nonce. -/
def ElaSession.redraw (ws : ElaSession) (d : Draw) : ElaSession :=
  { ws with publicKey := dh.pub d.secretKey, secretKey := d.secretKey, nonce := d.nonce
            credential := d.credential }

/-- The preparation of every stream and the encoding behind it. -/
def prepareAndEncode (env : OfferEnv) (ws : ElaSession) : ElaSession × Except SessionError Text :=
  match prepareStreams env ws.streams with
  | (streams, .error e) => ({ ws with streams }, .error e)
  | (streams, .ok ()) => ({ ws with streams }, iceSessionEncodeLocalSdp lib env { ws with streams })

/-- The end of requests and replies, with the call that sends the invite or its reply. -/
def sendOffer (env : OfferEnv) (ws : ElaSession) : ElaSession × Except SessionError (Option Text) :=
  match prepareAndEncode lib env ws with
  | (ws, .error e) => (ws, .error e)
  | (ws, .ok sdp) => (ws, if env.sent then .ok (some sdp) else .error .invite)

/-- ela_session_request. The result is the description that the invite carries. -/
def elaSessionRequest (ws : ElaSession) (bundle : Option CString) (callback : Bool) (d : Draw)
    (env : OfferEnv) : ElaSession × Except SessionError (Option Text) :=
  if !callback || bundleInvalid bundle then (ws, .error .invalidArgs)
  else if ws.streams.length = 0 then (ws, .error .wrongState)
  else
    sendOffer lib env ((ws.setOffer true).redraw dh d)

/-- ela_session_reply_request. A refusal draws keys as well, and carries no description. -/
def elaSessionReplyRequest (ws : ElaSession) (bundle : Option CString) (status : Int32)
    (reason : Option CString) (d : Draw) (env : OfferEnv) :
    ElaSession × Except SessionError (Option Text) :=
  if (status ≠ 0 && reason.isNone) || bundleInvalid bundle then (ws, .error .invalidArgs)
  else
    let ws := (ws.setOffer false).redraw dh d
    if status ≠ 0 then (ws, if env.sent then .ok none else .error .invite)
    else if ws.streams.length = 0 then (ws, .error .wrongState)
    else sendOffer lib env ws

/-! The remote session description. -/

/-- The loop over the streams. Streams without a media of their options are deactivated,
a bad candidate ends the loop. -/
def applyMedia (sdp : SdpSession) : Nat → Nat → List ElaStream →
    List ElaStream × Except SessionError Unit
  | _, _, [] => ([], .ok ())
  | index, ops, s :: rest =>
    match sdp.media[index]? with
    | none =>
      let r := applyMedia sdp index ops rest
      ({ s with deactivate := true } :: r.1, r.2)
    | some media =>
      let ops := ops ||| s.options
      let remote : Remote :=
        { Remote.zero with
          ufrag := (sdp.attr ufragName).getD [], pwd := (sdp.attr pwdName).getD []
          defAddr := (media.connAddr, media.port) }
      if (ops : Int) ≠ atoi media.fmt then
        let r := applyMedia sdp (index + 1) ops rest
        ({ s with deactivate := true, remote } :: r.1, r.2)
      else match remoteCandidates media.attrs remote with
        | none => ({ s with remote := .zero } :: rest, .error .invalidSdp)
        | some remote =>
          let r := applyMedia sdp (index + 1) ops rest
          ({ s with remote } :: r.1, r.2)

/-- The offered nonce is taken over unless this side controls. -/
def ElaSession.adoptNonce (ws : ElaSession) (sdp : SdpSession) : ElaSession :=
  match sdp.attr nonceName with
  | some nonce =>
    if ws.role ≠ .controlling then { ws with nonce := lib.nonceFromStr ws.nonce nonce } else ws
  | none => ws

/-- ice_session_apply_remote_sdp. The key and the nonce are stored before the candidates
are looked at. -/
def iceSessionApplyRemoteSdp (pool : Bool) (ws : ElaSession) (text : Text) :
    ElaSession × Except SessionError Unit :=
  if !pool then (ws, .error .outOfMemory)
  else match lib.parse text with
    | none => (ws, .error .ice)
    | some sdp =>
      if sdp.name ≠ sdpSessionName then (ws, .error .invalidSdp)
      else match lib.base58Decode sdp.originUser with
        | none => (ws, .error .invalidSdp)
        | some pk =>
          let ws := ({ ws with peerPubkey := pk }).adoptNonce lib sdp
          let r := applyMedia sdp 0 0 ws.streams
          ({ ws with streams := r.1 }, r.2)

def ElaSession.computeKey (ws : ElaSession) : ElaSession :=
  if ws.crypto.enabled then
    { ws with crypto := { ws.crypto with key := dh.shared ws.peerPubkey ws.secretKey } }
  else ws

/-- ela_session_start. What the started pipelines return is not looked at; their state
changes come as notifications later. -/
def elaSessionStart (pool : Bool) (ws : ElaSession) (sdp : Option Text) :
    ElaSession × Except SessionError Unit :=
  match sdp with
  | none => (ws, .error .invalidArgs)
  | some text =>
    if ws.streams.length = 0 then (ws, .error .wrongState)
    else
      let ws := ws.computeKey dh
      if ws.streams.all (fun s => decide (s.state = .transportReady)) then
        iceSessionApplyRemoteSdp lib pool ws text
      else (ws, .error .wrongState)

/-! The calls on a session and what the transport notifies. -/

inductive SessionCall (Text : Type)
  | addStream (type : StreamType) (options : Nat) (env : AddStreamEnv)
  | removeStream (id : Nat)
  | stateChanged (id : Nat) (state : StreamState)
  | request (bundle : Option CString) (callback : Bool) (d : Draw) (env : OfferEnv)
  | reply (bundle : Option CString) (status : Int32) (reason : Option CString) (d : Draw)
      (env : OfferEnv)
  | start (pool : Bool) (sdp : Option Text)

/-- The session after a call, and the description that it sent. -/
def sessionCall (ws : ElaSession) : SessionCall Text → ElaSession × Option Text
  | .addStream type options env => ((elaSessionAddStream ws type options env).1, none)
  | .removeStream id => ((elaSessionRemoveStream ws id).1, none)
  | .stateChanged id state => (ws.stateChanged id state, none)
  | .request bundle callback d env =>
    let r := elaSessionRequest lib dh ws bundle callback d env
    (r.1, r.2.toOption.join)
  | .reply bundle status reason d env =>
    let r := elaSessionReplyRequest lib dh ws bundle status reason d env
    (r.1, r.2.toOption.join)
  | .start pool sdp => ((elaSessionStart lib dh pool ws sdp).1, none)

/-- The runs of one session. -/
def sessionMachine : Machine ElaSession (SessionCall Text) Text where
  step ws call := some ((sessionCall lib dh ws call).1, (sessionCall lib dh ws call).2.toList)

/-! The pair of key and nonce is left alone by calls that concern single streams. -/

theorem addStream_pair (ws : ElaSession) (type : StreamType) (options : Nat) (env : AddStreamEnv) :
    (elaSessionAddStream ws type options env).1.crypto.key = ws.crypto.key ∧
      (elaSessionAddStream ws type options env).1.nonce = ws.nonce := by
  have hset : ∀ b : Bool, (if b then ws else ws.enableCrypto).crypto.key = ws.crypto.key ∧
      (if b then ws else ws.enableCrypto).nonce = ws.nonce := by
    intro b
    cases b <;> exact ⟨rfl, rfl⟩
  unfold elaSessionAddStream
  split
  · exact ⟨rfl, rfl⟩
  split
  · exact ⟨rfl, rfl⟩
  simp only
  split
  · exact ⟨rfl, rfl⟩
  split
  · exact ⟨rfl, rfl⟩
  split
  · exact hset _
  split <;> exact hset _

theorem removeStream_pair (ws : ElaSession) (id : Nat) :
    (elaSessionRemoveStream ws id).1.crypto.key = ws.crypto.key ∧
      (elaSessionRemoveStream ws id).1.nonce = ws.nonce := by
  unfold elaSessionRemoveStream
  split
  · exact ⟨rfl, rfl⟩
  split <;> exact ⟨rfl, rfl⟩

/-- What is encoded carries the attributes of the session. -/
theorem encodeLocalSdp_ok {env : OfferEnv} {ws : ElaSession} {sdp : Text}
    (h : iceSessionEncodeLocalSdp lib env ws = .ok sdp) :
    ∃ user media, lib.base58Encode ws.publicKey = some user ∧
      lib.print ⟨user, sdpSessionName, sessionAttrs lib ws, media⟩ = some sdp := by
  unfold iceSessionEncodeLocalSdp at h
  split at h
  · cases h
  split at h
  · cases h
  split at h
  · cases h
  next user hu =>
    split at h
    · cases h
    next media hm =>
      split at h
      · cases h
      next text hp =>
        cases h
        exact ⟨user, media, hu, hp⟩

/-- What is sent is the encoding of the session that is left behind, and nothing but the
streams has changed in it. -/
theorem sendOffer_frame (env : OfferEnv) (ws : ElaSession) :
    (sendOffer lib env ws).1.peerPubkey = ws.peerPubkey ∧
      (sendOffer lib env ws).1.nonce = ws.nonce ∧
      ∀ sdp, (sendOffer lib env ws).2.toOption.join = some sdp →
        iceSessionEncodeLocalSdp lib env (sendOffer lib env ws).1 = .ok sdp := by
  unfold sendOffer prepareAndEncode
  split
  next ws' e h =>
    split at h
    · cases h
      exact ⟨rfl, rfl, fun sdp h => nomatch h⟩
    · obtain ⟨rfl, -⟩ := Prod.mk.inj h
      exact ⟨rfl, rfl, fun sdp h => nomatch h⟩
  next ws' sdp h =>
    split at h
    · cases h
    · obtain ⟨rfl, he⟩ := Prod.mk.inj h
      refine ⟨rfl, rfl, fun text ht => ?_⟩
      cases hs : env.sent with
      | false =>
        rw [hs] at ht
        cases ht
      | true =>
        rw [hs] at ht
        cases ht
        exact he

end Library
end CarrierSdk
