import CarrierSdk.Session.KeyAgreement

/-! What a start that failed leaves behind. Everything that a start does to a session follows from
the description it is given and from the options of the streams, so a second start undoes as much
of the first as it writes itself. -/
namespace CarrierSdk
variable {Text : Type} {lib : SdpLibrary Text} {dh : DiffieHellman}

/-- What the loop of ice_session_apply_remote_sdp does to one stream. -/
structure Visit where
  deactivates : Bool
  remote : Option Remote

def Visit.none : Visit := ⟨false, .none⟩

def Visit.apply (v : Visit) (s : ElaStream) : ElaStream :=
  { s with deactivate := v.deactivates || s.deactivate, remote := v.remote.getD s.remote }

/-- The visits of the streams with these options. Behind a bad candidate no stream is visited. -/
def visits (sdp : SdpSession) : Nat → Nat → List Nat → List Visit
  | _, _, [] => []
  | index, ops, o :: rest =>
    match sdp.media[index]? with
    | none => ⟨true, .none⟩ :: visits sdp index ops rest
    | some media =>
      let ops := ops ||| o
      let remote : Remote :=
        { Remote.zero with
          ufrag := (sdp.attr ufragName).getD [], pwd := (sdp.attr pwdName).getD []
          defAddr := (media.connAddr, media.port) }
      if (ops : Int) ≠ atoi media.fmt then ⟨true, some remote⟩ :: visits sdp (index + 1) ops rest
      else match remoteCandidates media.attrs remote with
        | none => ⟨false, some .zero⟩ :: rest.map fun _ => .none
        | some remote => ⟨false, some remote⟩ :: visits sdp (index + 1) ops rest

@[simp] theorem length_visits (sdp : SdpSession) (index ops : Nat) (options : List Nat) :
    (visits sdp index ops options).length = options.length := by
  induction options generalizing index ops with
  | nil => rfl
  | cons o rest ih =>
    rw [visits]
    split
    · rw [List.length_cons, ih, List.length_cons]
    · simp only
      split
      · rw [List.length_cons, ih, List.length_cons]
      · split
        · rw [List.length_cons, List.length_map, List.length_cons]
        · rw [List.length_cons, ih, List.length_cons]

theorem zipWith_visit_none (streams : List ElaStream) :
    List.zipWith Visit.apply ((streams.map ElaStream.options).map fun _ => Visit.none) streams = streams := by
  induction streams with
  | nil => rfl
  | cons s rest ih => exact congrArg (s :: ·) ih

/-- The loop visits each stream in turn. -/
theorem applyMedia_visits (sdp : SdpSession) (index ops : Nat) (streams : List ElaStream) :
    (applyMedia sdp index ops streams).1 =
      List.zipWith Visit.apply (visits sdp index ops (streams.map ElaStream.options)) streams := by
  induction streams generalizing index ops with
  | nil => rfl
  | cons s rest ih =>
    rw [applyMedia, List.map_cons, visits]
    cases sdp.media[index]? with
    | none => exact congrArg ({ s with deactivate := true } :: ·) (ih index ops)
    | some media =>
      simp only
      split
      · exact congrArg (_ :: ·) (ih _ _)
      · cases remoteCandidates media.attrs _ with
        | none => exact congrArg ({ s with remote := .zero } :: ·) (zipWith_visit_none rest).symm
        | some remote => exact congrArg ({ s with remote } :: ·) (ih _ _)

/-! The session after a description. -/

/-- A description that gets as far as its media, and the public key in it. -/
def takenUp (lib : SdpLibrary Text) (pool : Bool) (text : Text) : Option (PublicKey × SdpSession) :=
  if !pool then none
  else (lib.parse text).bind fun sdp =>
    if sdp.name ≠ sdpSessionName then none else (lib.base58Decode sdp.originUser).map fun pk => (pk, sdp)

/-- The nonce of a description that the session reads. -/
def adoptedNonce (role : IceRole) (taken : Option (PublicKey × SdpSession)) : Option (List Char) :=
  taken.bind fun t => if role ≠ .controlling then t.2.attr nonceName else none

def nonceAfter (lib : SdpLibrary Text) (nonce : Nonce) (adopted : Option (List Char)) : Nonce :=
  match adopted with
  | some text => lib.nonceFromStr nonce text
  | none => nonce

def visitsOf (taken : Option (PublicKey × SdpSession)) (options : List Nat) : List Visit :=
  match taken with
  | some t => visits t.2 0 0 options
  | none => options.map fun _ => .none

def ElaSession.takeUp (lib : SdpLibrary Text) (ws : ElaSession) (taken : Option (PublicKey × SdpSession)) :
    ElaSession :=
  { ws with
    peerPubkey := (taken.map Prod.fst).getD ws.peerPubkey
    nonce := nonceAfter lib ws.nonce (adoptedNonce ws.role taken)
    streams := List.zipWith Visit.apply (visitsOf taken (ws.streams.map ElaStream.options)) ws.streams }

theorem adoptNonce_eq (ws : ElaSession) (pk : PublicKey) (sdp : SdpSession) :
    ws.adoptNonce lib sdp = { ws with nonce := nonceAfter lib ws.nonce (adoptedNonce ws.role (some (pk, sdp))) } := by
  rw [ElaSession.adoptNonce, adoptedNonce, Option.bind_some]
  cases sdp.attr nonceName <;> by_cases hrole : ws.role ≠ .controlling <;> simp [nonceAfter, hrole]

theorem takeUp_none (ws : ElaSession) : ws.takeUp lib none = ws := by
  rw [ElaSession.takeUp, visitsOf, zipWith_visit_none]
  rfl

theorem applyRemoteSdp_takeUp (pool : Bool) (ws : ElaSession) (text : Text) :
    (iceSessionApplyRemoteSdp lib pool ws text).1 = ws.takeUp lib (takenUp lib pool text) := by
  unfold iceSessionApplyRemoteSdp takenUp
  split
  · exact (takeUp_none ws).symm
  cases lib.parse text with
  | none => exact (takeUp_none ws).symm
  | some sdp =>
    simp only [Option.bind_some]
    split
    · exact (takeUp_none ws).symm
    cases lib.base58Decode sdp.originUser with
    | none => exact (takeUp_none ws).symm
    | some pk =>
      rw [Option.map_some]
      simp only [adoptNonce_eq _ pk, applyMedia_visits]
      rfl

/-! Two descriptions one after the other. -/

/-- What the first visit did is there already, or the second does it too. -/
structure Visit.CoveredBy (v w : Visit) (s : ElaStream) : Prop where
  deactivate : v.deactivates = true → s.deactivate = true ∨ w.deactivates = true
  remote : ∀ r, v.remote = some r → r = s.remote ∨ w.remote.isSome

theorem Visit.apply_apply (v w : Visit) (s : ElaStream) : w.apply (v.apply s) = w.apply s ↔ v.CoveredBy w s := by
  have hfields : w.apply (v.apply s) = w.apply s ↔
      (w.deactivates || (v.deactivates || s.deactivate)) = (w.deactivates || s.deactivate) ∧
        w.remote.getD (v.remote.getD s.remote) = w.remote.getD s.remote := by
    simp only [Visit.apply, ElaStream.mk.injEq, true_and]
  refine hfields.trans ⟨fun ⟨hd, hr⟩ => ⟨fun hv => ?_, fun r hv => ?_⟩, fun h => ⟨?_, ?_⟩⟩
  · rw [hv, Bool.true_or, Bool.or_true] at hd
    exact (Bool.or_eq_true _ _ ▸ hd.symm).symm
  · rw [hv] at hr
    cases hw : w.remote with
    | none => rw [hw] at hr; exact .inl hr
    | some q => exact .inr rfl
  · cases hv : v.deactivates with
    | false => rw [Bool.false_or]
    | true => rcases h.deactivate hv with hs | hw <;> simp [*]
  · cases hv : v.remote with
    | none => rfl
    | some r =>
      rcases h.remote r hv with rfl | hw
      · rfl
      · obtain ⟨q, hq⟩ := Option.isSome_iff_exists.mp hw
        rw [hq, Option.getD_some, Option.getD_some]

theorem zipWith_visits_twice (xs ys : List Visit) (streams : List ElaStream) (hx : xs.length = streams.length)
    (hy : ys.length = streams.length) :
    List.zipWith Visit.apply ys (List.zipWith Visit.apply xs streams) = List.zipWith Visit.apply ys streams ↔
      ∀ v w s, ((v, w), s) ∈ (xs.zip ys).zip streams → v.CoveredBy w s := by
  induction streams generalizing xs ys with
  | nil => simp
  | cons s rest ih =>
    obtain ⟨v, xs, rfl⟩ := List.exists_cons_of_length_eq_add_one hx
    obtain ⟨w, ys, rfl⟩ := List.exists_cons_of_length_eq_add_one hy
    simp only [List.zipWith_cons_cons, List.zip_cons_cons, List.cons.injEq, Visit.apply_apply, List.mem_cons,
      ih xs ys (Nat.succ.inj hx) (Nat.succ.inj hy)]
    constructor
    · rintro ⟨hs, hrest⟩ v' w' s' (heq | hmem)
      · cases heq
        exact hs
      · exact hrest v' w' s' hmem
    · exact fun h => ⟨h v w s (.inl rfl), fun v' w' s' hmem => h v' w' s' (.inr hmem)⟩

/-- What one description puts into the session is there already, or the next one puts something in
its place. The symmetric key is computed from the peer's key before the description is looked at. -/
structure CoveredBy (lib : SdpLibrary Text) (dh : DiffieHellman) (ws : ElaSession)
    (left next : Option (PublicKey × SdpSession)) : Prop where
  key : ∀ t, left = some t → ws.crypto.enabled = true →
    dh.shared t.1 ws.secretKey = dh.shared ws.peerPubkey ws.secretKey
  peer : ∀ t, left = some t → t.1 = ws.peerPubkey ∨ next.isSome
  nonce : ∀ text, adoptedNonce ws.role left = some text →
    nonceAfter lib (lib.nonceFromStr ws.nonce text) (adoptedNonce ws.role next) =
      nonceAfter lib ws.nonce (adoptedNonce ws.role next)
  streams : ∀ v w s, ((v, w), s) ∈ ((visitsOf left (ws.streams.map ElaStream.options)).zip
    (visitsOf next (ws.streams.map ElaStream.options))).zip ws.streams → v.CoveredBy w s

theorem computeKey_eq (ws : ElaSession) :
    ws.computeKey dh = { ws with
      crypto.key := if ws.crypto.enabled then dh.shared ws.peerPubkey ws.secretKey else ws.crypto.key } := by
  unfold ElaSession.computeKey
  split <;> rfl

@[simp] theorem length_visitsOf (taken : Option (PublicKey × SdpSession)) (options : List Nat) :
    (visitsOf taken options).length = options.length := by
  cases taken with
  | none => exact List.length_map _
  | some t => exact length_visits _ _ _ _

/-- A visit leaves the options of a stream, and its state. -/
theorem visited_map {β : Type} (f : ElaStream → β) (hf : ∀ v s, f (Visit.apply v s) = f s) {visits : List Visit}
    {streams : List ElaStream} (h : visits.length = streams.length) :
    (List.zipWith Visit.apply visits streams).map f = streams.map f := by
  induction streams generalizing visits with
  | nil => rw [List.zipWith_nil_right]
  | cons s rest ih =>
    obtain ⟨v, visits, rfl⟩ := List.exists_cons_of_length_eq_add_one h
    rw [List.zipWith_cons_cons, List.map_cons, List.map_cons, hf, ih (Nat.succ.inj h)]

theorem takeUp_map {β : Type} (lib : SdpLibrary Text) (f : ElaStream → β)
    (hf : ∀ v s, f (Visit.apply v s) = f s) (ws : ElaSession)
    (taken : Option (PublicKey × SdpSession)) : (ws.takeUp lib taken).streams.map f = ws.streams.map f :=
  visited_map f hf (by rw [length_visitsOf, List.length_map])

/-- A description that is turned down as a whole puts nothing into the session. -/
theorem coveredBy_none (lib : SdpLibrary Text) (dh : DiffieHellman) (ws : ElaSession)
    (next : Option (PublicKey × SdpSession)) : CoveredBy lib dh ws none next where
  key := nofun
  peer := nofun
  nonce := nofun
  streams v w s hmem := by
    have hv := List.of_mem_zip (List.of_mem_zip hmem).1
    obtain ⟨o, -, rfl⟩ := List.mem_map.mp hv.1
    exact ⟨nofun, nofun⟩

/-- Taking up one description after another is like taking up the other alone exactly where the
first is covered. -/
theorem takeUp_twice (ws : ElaSession) (left next : Option (PublicKey × SdpSession)) :
    ((((ws.computeKey dh).takeUp lib left).computeKey dh).takeUp lib next = (ws.computeKey dh).takeUp lib next) ↔
      CoveredBy lib dh ws left next := by
  have hoptions : (List.zipWith Visit.apply (visitsOf left (ws.streams.map ElaStream.options)) ws.streams).map
      ElaStream.options = ws.streams.map ElaStream.options :=
    visited_map ElaStream.options (fun _ _ => rfl) (by rw [length_visitsOf, List.length_map])
  have hstreams := zipWith_visits_twice (visitsOf left (ws.streams.map ElaStream.options))
    (visitsOf next (ws.streams.map ElaStream.options)) ws.streams (by rw [length_visitsOf, List.length_map])
    (by rw [length_visitsOf, List.length_map])
  have hfields : ((((ws.computeKey dh).takeUp lib left).computeKey dh).takeUp lib next =
        (ws.computeKey dh).takeUp lib next) ↔
      (next.map Prod.fst).getD ((left.map Prod.fst).getD ws.peerPubkey) = (next.map Prod.fst).getD ws.peerPubkey ∧
      nonceAfter lib (nonceAfter lib ws.nonce (adoptedNonce ws.role left)) (adoptedNonce ws.role next) =
        nonceAfter lib ws.nonce (adoptedNonce ws.role next) ∧
      (ws.crypto.enabled = true → dh.shared ((left.map Prod.fst).getD ws.peerPubkey) ws.secretKey =
        dh.shared ws.peerPubkey ws.secretKey) ∧
      ∀ v w s, ((v, w), s) ∈ ((visitsOf left (ws.streams.map ElaStream.options)).zip
        (visitsOf next (ws.streams.map ElaStream.options))).zip ws.streams → v.CoveredBy w s := by
    rw [← hstreams]
    cases henabled : ws.crypto.enabled <;>
      simp only [computeKey_eq, ElaSession.takeUp, ElaSession.mk.injEq, SessionCrypto.mk.injEq, henabled, hoptions,
        true_and, if_true, Bool.false_eq_true, if_false, false_implies, true_implies]
  refine hfields.trans ⟨fun ⟨hpeer, hnonce, hkey, hall⟩ => ⟨?_, ?_, ?_, hall⟩, fun h => ⟨?_, ?_, ?_, h.streams⟩⟩
  · rintro t rfl
    exact hkey
  · rintro t rfl
    cases next with
    | none => exact .inl hpeer
    | some t' => exact .inr rfl
  · intro text htext
    rw [htext] at hnonce
    exact hnonce
  · cases left with
    | none => rfl
    | some t =>
      cases next with
      | none => exact (h.peer t rfl).resolve_right Bool.false_ne_true
      | some t' => rfl
  · cases htext : adoptedNonce ws.role left with
    | none => rfl
    | some text => exact h.nonce text htext
  · cases left with
    | none => exact fun _ => rfl
    | some t => exact h.key t rfl

/-- A start on streams that are all ready. -/
theorem elaSessionStart_ready (pool : Bool) (ws : ElaSession) (text : Text) (hne : ws.streams ≠ [])
    (hready : ws.streams.all fun s => decide (s.state = .transportReady)) :
    elaSessionStart lib dh pool ws (some text) =
      ((ws.computeKey dh).takeUp lib (takenUp lib pool text),
        (iceSessionApplyRemoteSdp lib pool ws text).2) := by
  have hlen : ws.streams.length ≠ 0 := fun h => hne (List.length_eq_zero_iff.mp h)
  simp only [elaSessionStart, if_neg hlen, computeKey_streams, hready, if_true]
  exact Prod.ext (applyRemoteSdp_takeUp pool _ text) (applyRemoteSdp_status pool text (by rw [computeKey_streams]))

/-- A description whose only candidate is cut off. -/
def badDescription (pk : PublicKey) : SdpSession :=
  { description pk with media := [⟨9, [], ['0'], [⟨candidateName, "Hc0 1 UDP".toList⟩]⟩] }

/-- A description of something else. -/
def foreignDescription (pk : PublicKey) : SdpSession := { description pk with name := [] }

/-- Whether a start with a foreign description fails on this session. -/
def foreignFails (ws : ElaSession) : Bool :=
  decide ((elaSessionStart .plain sumExchange true ws (some (foreignDescription 7))).2 = .error .invalidSdp)

end CarrierSdk
