import CarrierSdk.Session.KeyAgreement

/-! The arrays that session descriptions are encoded from and applied to. What the parser hands
over decides how much is written, and nothing where a write outside an array or a read through
NULL is reached. -/
namespace CarrierSdk

/-- The array sizes of the ICE library: PJMEDIA_MAX_SDP_MEDIA, PJMEDIA_MAX_SDP_ATTR and
PJ_ICE_ST_MAX_CAND. -/
structure SdpLimits where
  maxMedia : Nat
  maxAttr : Nat
  maxCand : Nat

/-! The encoder. -/

/-- The loop of ice_session_encode_local_sdp, which writes the media of a stream at its index. -/
def encodeMediaInto (limits : SdpLimits) (env : OfferEnv) : Nat → Nat → List ElaStream →
    Option (Except SessionError (List SdpMedia))
  | _, _, [] => some (.ok [])
  | index, ops, s :: rest =>
    if !s.hasIce then some (.error .wrongState)
    else match env.iceLocal s.id with
      | none => some (.error .ice)
      | some l =>
        if l.compCount = 0 then some (.error .wrongState)
        else if limits.maxAttr < l.candidates.length then some (.error .ice)
        else if limits.maxMedia ≤ index then none
        else
          let ops := ops ||| s.options
          let media : SdpMedia :=
            ⟨l.port, l.connAddr, Nat.toDigits 10 ops, l.candidates.map fun c => ⟨candidateName, c⟩⟩
          (encodeMediaInto limits env (index + 1) ops rest).map fun r => r.map fun ms => media :: ms

/-- A stream of which a media is written. -/
def encodes (limits : SdpLimits) (env : OfferEnv) (s : ElaStream) : Bool :=
  s.hasIce && (env.iceLocal s.id).any fun l =>
    decide (l.compCount ≠ 0) && decide (l.candidates.length ≤ limits.maxAttr)

/-- Where no transport has more candidates than a media has attributes, the encoder leaves out
nothing. -/
theorem encodeMediaInto_eq {limits : SdpLimits} {env : OfferEnv} {index ops : Nat} {streams : List ElaStream}
    (hattr : ∀ id l, env.iceLocal id = some l → l.candidates.length ≤ limits.maxAttr)
    {r : Except SessionError (List SdpMedia)} (h : encodeMediaInto limits env index ops streams = some r) :
    r = encodeMedia env ops streams := by
  induction streams generalizing index ops r with
  | nil => exact (Option.some.inj h).symm
  | cons s rest ih =>
    rw [encodeMediaInto] at h
    rw [encodeMedia]
    split at h
    · next hice => rw [if_pos hice]; exact (Option.some.inj h).symm
    · next hice =>
      rw [if_neg hice]
      cases hl : env.iceLocal s.id with
      | none =>
        rw [hl] at h
        exact (Option.some.inj h).symm
      | some l =>
        simp only [hl] at h ⊢
        split at h
        · next hcomp => rw [if_pos hcomp]; exact (Option.some.inj h).symm
        · next hcomp =>
          rw [if_neg (Nat.not_lt.mpr (hattr _ _ hl))] at h
          split at h
          · cases h
          · obtain ⟨q, hq, rfl⟩ := Option.map_eq_some_iff.mp h
            rw [if_neg hcomp, ih hq]

/-- The entries are written inside the array where no more streams than it holds come before the
first that fails. -/
theorem encodeMediaInto_isSome (limits : SdpLimits) (env : OfferEnv) (index ops : Nat)
    (streams : List ElaStream) : (encodeMediaInto limits env index ops streams).isSome ↔
      (streams.takeWhile (encodes limits env)).length = 0 ∨
        index + (streams.takeWhile (encodes limits env)).length ≤ limits.maxMedia := by
  induction streams generalizing index ops with
  | nil => exact iff_of_true rfl (.inl rfl)
  | cons s rest ih =>
    have hstops : encodes limits env s = false →
        ((s :: rest).takeWhile (encodes limits env)).length = 0 := fun hs => by
      rw [List.takeWhile_cons, hs]
      rfl
    rw [encodeMediaInto]
    split
    · next hice =>
      have hice' : s.hasIce = false := by simpa using hice
      exact iff_of_true rfl (.inl (hstops (by rw [encodes, hice', Bool.false_and])))
    · next hice =>
      have hice' : s.hasIce = true := by simpa using hice
      cases hl : env.iceLocal s.id with
      | none => exact iff_of_true rfl (.inl (hstops (by simp [encodes, hl])))
      | some l =>
        simp only
        split
        · next hcomp => exact iff_of_true rfl (.inl (hstops (by simp [encodes, hl, hcomp])))
        · next hcomp =>
          split
          · next hattr => exact iff_of_true rfl (.inl (hstops (by simp [encodes, hl, hattr])))
          · next hattr =>
            have hs : encodes limits env s = true := by
              simp [encodes, hice', hl, hcomp, Nat.le_of_not_lt hattr]
            rw [List.takeWhile_cons, hs, if_pos rfl, List.length_cons]
            split
            · next hfull => exact iff_of_false Bool.false_ne_true (by omega)
            · next hroom =>
              rw [Option.isSome_map, ih]
              omega

/-- ice_session_encode_local_sdp up to the printing, with the entries that it writes. -/
def encodeLocalSdpInto {Text : Type} (lib : SdpLibrary Text) (limits : SdpLimits) (env : OfferEnv)
    (ws : ElaSession) : Option (Except SessionError (List SdpMedia)) :=
  if !env.pool then some (.error .outOfMemory)
  else if !env.hostIp then some (.error .ice)
  else match lib.base58Encode ws.publicKey with
    | none => some (.error .invalidCredential)
    | some _ => encodeMediaInto limits env 0 0 ws.streams

/-! The side that applies. -/

/-- pjmedia_sdp_attr as the parser leaves it: the value points into the text, which goes on behind
it, or is NULL. -/
structure ParsedAttr where
  name : List Char
  value : Option (List Char)
  behind : List Char

/-- pjmedia_sdp_media as the parser leaves it. The connection may be missing and the formats too. A
format ends at white space, where atoi stops as well. -/
structure ParsedMedia where
  port : Nat
  connAddr : Option (List Char)
  fmt : List (List Char)
  attrs : List ParsedAttr

/-- pjmedia_sdp_session as the parser leaves it. -/
structure ParsedSdp where
  originUser : List Char
  name : List Char
  attrs : List ParsedAttr
  media : List ParsedMedia

/-- The loop over the attributes of the session. -/
def ParsedSdp.attr (sdp : ParsedSdp) (name : List Char) : Option (List Char) :=
  (sdp.attrs.reverse.find? fun a => decide (a.name = name)).bind ParsedAttr.value

/-- A candidate is scanned to the end of the text. -/
def ParsedAttr.plain (a : ParsedAttr) : SdpAttr := ⟨a.name, a.value.getD [] ++ a.behind⟩

def ParsedMedia.plain (m : ParsedMedia) : SdpMedia :=
  ⟨m.port, m.connAddr.getD [], m.fmt.headD [], m.attrs.map ParsedAttr.plain⟩

/-- The description without what the code does not look at. -/
def ParsedSdp.plain (sdp : ParsedSdp) : SdpSession where
  originUser := sdp.originUser
  name := sdp.name
  attrs := [ufragName, pwdName, nonceName].filterMap fun n => (sdp.attr n).map fun v => ⟨n, v⟩
  media := sdp.media.map ParsedMedia.plain

/-- The array behind each conversion of the candidate format, where there is one. Each is as long
as the width of its conversion. -/
def candidateBuffers : List Nat := [32, 0, 12, 0, 80, 0, 32, 80, 0]

/-- Every word that is converted leaves room for its terminator. -/
def fieldsFit (text : List Char) : Bool :=
  ((sscanf candidateFormat text).zip candidateBuffers).all fun
    | (.word w, size) => decide (w.length < size)
    | (.int _, _) => true

/-- The loop over the attributes of a media, with the array that the candidates are put into. -/
def remoteCandidatesInto (limits : SdpLimits) : List ParsedAttr → Remote → Option (Option Remote)
  | [], remote => some (some remote)
  | a :: rest, remote =>
    if a.name = candidateName then
      match a.value with
      | none => none
      | some value =>
        if !fieldsFit (value ++ a.behind) then none
        else match scanCandidate (value ++ a.behind) with
          | none => some none
          | some (compId, cand) =>
            if limits.maxCand ≤ remote.cand.length then none
            else remoteCandidatesInto limits rest
              { remote with compCnt := max remote.compCnt compId, cand := remote.cand ++ [cand] }
    else remoteCandidatesInto limits rest remote

/-- The longest ufrag and pwd that leave a terminator in their arrays. -/
def maxCredential : Nat := 79

def credentialsFit (sdp : ParsedSdp) : Bool :=
  [ufragName, pwdName].all fun n => (sdp.attr n).all fun v => decide (v.length ≤ maxCredential)

/-- The loop of ice_session_apply_remote_sdp over the streams. -/
def applyMediaInto (limits : SdpLimits) (sdp : ParsedSdp) : Nat → Nat → List ElaStream →
    Option (List ElaStream × Except SessionError Unit)
  | _, _, [] => some ([], .ok ())
  | index, ops, s :: rest =>
    match sdp.media[index]? with
    | none =>
      (applyMediaInto limits sdp index ops rest).map fun r => ({ s with deactivate := true } :: r.1, r.2)
    | some media =>
      if !credentialsFit sdp then none
      else match media.connAddr, media.fmt with
        | some connAddr, fmt :: _ =>
          let ops := ops ||| s.options
          let remote : Remote :=
            { Remote.zero with
              ufrag := (sdp.attr ufragName).getD [], pwd := (sdp.attr pwdName).getD []
              defAddr := (connAddr, media.port) }
          if (ops : Int) ≠ atoi fmt then
            (applyMediaInto limits sdp (index + 1) ops rest).map fun r =>
              ({ s with deactivate := true, remote } :: r.1, r.2)
          else
            (remoteCandidatesInto limits media.attrs remote).bind fun
              | none => some ({ s with remote := .zero } :: rest, .error .invalidSdp)
              | some remote =>
                (applyMediaInto limits sdp (index + 1) ops rest).map fun r => ({ s with remote } :: r.1, r.2)
        | _, _ => none

/-- ice_session_apply_remote_sdp on what the parser returned. -/
def applyRemoteSdpInto {Text : Type} (lib : SdpLibrary Text) (limits : SdpLimits) (pool : Bool)
    (ws : ElaSession) (parsed : Option ParsedSdp) : Option (ElaSession × Except SessionError Unit) :=
  if !pool then some (ws, .error .outOfMemory)
  else match parsed with
    | none => some (ws, .error .ice)
    | some sdp =>
      if sdp.name ≠ sdpSessionName then some (ws, .error .invalidSdp)
      else match lib.base58Decode sdp.originUser with
        | none => some (ws, .error .invalidSdp)
        | some pk =>
          let ws := ({ ws with peerPubkey := pk }).adoptNonce lib sdp.plain
          (applyMediaInto limits sdp 0 0 ws.streams).map fun r => ({ ws with streams := r.1 }, r.2)

/-! What is applied inside the arrays is what the session applies. -/

theorem plain_attr (sdp : ParsedSdp) {n : List Char} (hn : n ∈ [ufragName, pwdName, nonceName]) :
    sdp.plain.attr n = sdp.attr n := by
  have hnames : ufragName ≠ pwdName ∧ ufragName ≠ nonceName ∧ pwdName ≠ nonceName := by decide
  simp only [List.mem_cons, List.not_mem_nil, or_false] at hn
  rcases hn with rfl | rfl | rfl <;>
    cases hu : sdp.attr ufragName <;> cases hp : sdp.attr pwdName <;> cases hc : sdp.attr nonceName <;>
      simp [SdpSession.attr, ParsedSdp.plain, hu, hp, hc, hnames, hnames.1.symm, hnames.2.1.symm, hnames.2.2.symm]

theorem remoteCandidatesInto_eq {limits : SdpLimits} {attrs : List ParsedAttr} {remote : Remote}
    {r : Option Remote} (h : remoteCandidatesInto limits attrs remote = some r) :
    r = remoteCandidates (attrs.map ParsedAttr.plain) remote := by
  induction attrs generalizing remote with
  | nil => exact (Option.some.inj h).symm
  | cons a rest ih =>
    rw [remoteCandidatesInto] at h
    rw [List.map_cons, remoteCandidates]
    split at h
    · next hname =>
      rw [if_pos (show a.plain.name = candidateName from hname)]
      split at h
      · cases h
      · next value hvalue =>
        have hplain : a.plain.value = value ++ a.behind := by rw [ParsedAttr.plain, hvalue, Option.getD_some]
        rw [hplain]
        split at h
        · cases h
        · cases hscan : scanCandidate (value ++ a.behind) with
          | none =>
            rw [hscan] at h
            exact (Option.some.inj h).symm
          | some found =>
            obtain ⟨compId, cand⟩ := found
            simp only [hscan] at h
            split at h
            · cases h
            · exact ih h
    · next hname =>
      rw [if_neg (show a.plain.name ≠ candidateName from hname)]
      exact ih h

theorem applyMediaInto_eq {limits : SdpLimits} {sdp : ParsedSdp} {index ops : Nat} {streams : List ElaStream}
    {r : List ElaStream × Except SessionError Unit} (h : applyMediaInto limits sdp index ops streams = some r) :
    r = applyMedia sdp.plain index ops streams := by
  induction streams generalizing index ops r with
  | nil => exact (Option.some.inj h).symm
  | cons s rest ih =>
    have hmedia : sdp.plain.media[index]? = sdp.media[index]?.map ParsedMedia.plain := List.getElem?_map
    rw [applyMediaInto] at h
    rw [applyMedia, hmedia, plain_attr sdp (by simp), plain_attr sdp (by simp)]
    cases hm : sdp.media[index]? with
    | none =>
      simp only [hm] at h
      obtain ⟨q, hq, rfl⟩ := Option.map_eq_some_iff.mp h
      rw [ih hq]
      rfl
    | some media =>
      simp only [hm] at h
      split at h
      · cases h
      · split at h
        · next connAddr fmt formats hconn hfmt =>
          have hplain : media.plain = ⟨media.port, connAddr, fmt, media.attrs.map ParsedAttr.plain⟩ := by
            rw [ParsedMedia.plain, hconn, hfmt, Option.getD_some, List.headD_cons]
          simp only [Option.map_some, hplain]
          split at h
          · next hops =>
            obtain ⟨q, hq, rfl⟩ := Option.map_eq_some_iff.mp h
            rw [if_pos hops, ih hq]
          · next hops =>
            rw [if_neg hops]
            obtain ⟨remote, hremote, h⟩ := Option.bind_eq_some_iff.mp h
            rw [← remoteCandidatesInto_eq hremote]
            cases remote with
            | none => exact (Option.some.inj h).symm
            | some remote =>
              obtain ⟨q, hq, rfl⟩ := Option.map_eq_some_iff.mp h
              rw [ih hq]
        · cases h

/-- Where no write leaves its array, the session is the one of ice_session_apply_remote_sdp. -/
theorem applyRemoteSdpInto_eq {Text : Type} {lib : SdpLibrary Text} {limits : SdpLimits} {pool : Bool}
    {ws : ElaSession} {parsed : Option ParsedSdp} {text : Text} (hparse : lib.parse text = parsed.map ParsedSdp.plain)
    {r : ElaSession × Except SessionError Unit} (h : applyRemoteSdpInto lib limits pool ws parsed = some r) :
    r = iceSessionApplyRemoteSdp lib pool ws text := by
  unfold applyRemoteSdpInto at h
  unfold iceSessionApplyRemoteSdp
  rw [hparse]
  split at h
  · next hpool => rw [if_pos hpool]; exact (Option.some.inj h).symm
  · next hpool =>
    rw [if_neg hpool]
    cases parsed with
    | none => exact (Option.some.inj h).symm
    | some sdp =>
      simp only [Option.map_some] at h ⊢
      change (if sdp.name ≠ sdpSessionName then _ else _) = _ at h
      change r = if sdp.name ≠ sdpSessionName then _ else _
      split at h
      · next hname => rw [if_pos hname]; exact (Option.some.inj h).symm
      · next hname =>
        rw [if_neg hname]
        change (match lib.base58Decode sdp.originUser with | none => _ | some pk => _) = _ at h
        change r = match lib.base58Decode sdp.originUser with | none => _ | some pk => _
        split at h
        · exact (Option.some.inj h).symm
        · obtain ⟨q, hq, rfl⟩ := Option.map_eq_some_iff.mp h
          rw [applyMediaInto_eq hq]

/-! When all writes stay inside. -/

def candidateAttrs (attrs : List ParsedAttr) : List ParsedAttr :=
  attrs.filter fun a => decide (a.name = candidateName)

/-- A candidate that the scan accepts. -/
def ParsedAttr.good (a : ParsedAttr) : Bool := a.value.any fun value => (scanCandidate (value ++ a.behind)).isSome

/-- A candidate has a value, and its fields fit the local arrays. -/
def ParsedAttr.fits (a : ParsedAttr) : Bool := a.value.any fun value => fieldsFit (value ++ a.behind)

/-- Up to the first bad candidate and with it, all candidates fit, and there are no more good ones
before it than the array holds. -/
def candidatesFit (limits : SdpLimits) (candidates : List ParsedAttr) : Bool :=
  decide ((candidates.takeWhile ParsedAttr.good).length ≤ limits.maxCand) &&
    (candidates.take ((candidates.takeWhile ParsedAttr.good).length + 1)).all ParsedAttr.fits

/-- The media of the streams, up to the first bad candidate. Each has a connection and a format,
and where the format is that of the stream the candidates fit. -/
def appliesInside (limits : SdpLimits) (sdp : ParsedSdp) : Nat → Nat → List ElaStream → Bool
  | _, _, [] => true
  | index, ops, s :: rest =>
    match sdp.media[index]? with
    | none => true
    | some media =>
      let ops := ops ||| s.options
      credentialsFit sdp && media.connAddr.isSome && match media.fmt with
        | [] => false
        | fmt :: _ =>
          if (ops : Int) ≠ atoi fmt then appliesInside limits sdp (index + 1) ops rest
          else candidatesFit limits (candidateAttrs media.attrs) &&
            (!(candidateAttrs media.attrs).all ParsedAttr.good || appliesInside limits sdp (index + 1) ops rest)

/-- The candidates behind some that were good and are in the array already. -/
theorem remoteCandidatesInto_isSome (limits : SdpLimits) (attrs : List ParsedAttr) (remote : Remote)
    (hcand : remote.cand.length ≤ limits.maxCand) :
    ((remoteCandidatesInto limits attrs remote).isSome ↔
      remote.cand.length + ((candidateAttrs attrs).takeWhile ParsedAttr.good).length ≤ limits.maxCand ∧
        ((candidateAttrs attrs).take (((candidateAttrs attrs).takeWhile ParsedAttr.good).length + 1)).all
          ParsedAttr.fits = true) ∧
    ∀ r, remoteCandidatesInto limits attrs remote = some r → r.isSome = (candidateAttrs attrs).all ParsedAttr.good := by
  induction attrs generalizing remote with
  | nil => exact ⟨iff_of_true rfl ⟨hcand, rfl⟩, fun r hr => by cases hr; rfl⟩
  | cons a rest ih =>
    by_cases hname : a.name = candidateName
    · have hcons : candidateAttrs (a :: rest) = a :: candidateAttrs rest :=
        List.filter_cons_of_pos (decide_eq_true hname)
      rw [hcons, remoteCandidatesInto, if_pos hname]
      -- A candidate that does not fit is the last one looked at.
      have hmisfit : a.fits = false → ∀ l : List ParsedAttr, ∀ n : Nat,
          ¬ (remote.cand.length + n ≤ limits.maxCand ∧ ((a :: l).take (n + 1)).all ParsedAttr.fits = true) := by
        intro hfits l n h
        rw [List.take_succ_cons, List.all_cons, hfits, Bool.false_and] at h
        exact Bool.false_ne_true h.2
      cases hvalue : a.value with
      | none => exact ⟨iff_of_false Bool.false_ne_true (hmisfit (by rw [ParsedAttr.fits, hvalue]; rfl) _ _), nofun⟩
      | some value =>
        have hfits : a.fits = fieldsFit (value ++ a.behind) := by rw [ParsedAttr.fits, hvalue]; rfl
        have hgood : a.good = (scanCandidate (value ++ a.behind)).isSome := by rw [ParsedAttr.good, hvalue]; rfl
        simp only [List.takeWhile_cons, hgood, List.all_cons]
        cases hf : fieldsFit (value ++ a.behind) with
        | false => exact ⟨iff_of_false Bool.false_ne_true (hmisfit (hfits.trans hf) _ _), nofun⟩
        | true =>
          rw [hf] at hfits
          cases hscan : scanCandidate (value ++ a.behind) with
          | none =>
            refine ⟨iff_of_true rfl ⟨hcand, ?_⟩, fun r hr => by cases hr; rfl⟩
            simp [hfits]
          | some found =>
            simp only [Bool.not_true, Bool.false_eq_true, if_false, Option.isSome_some, if_true, List.length_cons,
              List.take_succ_cons, List.all_cons, hfits, Bool.true_and]
            split
            · next hfull => exact ⟨iff_of_false Bool.false_ne_true (by omega), nofun⟩
            · next hroom =>
              obtain ⟨hiff, hall⟩ := ih { remote with
                compCnt := max remote.compCnt found.1, cand := remote.cand ++ [found.2] }
                (by rw [List.length_append, List.length_singleton]; omega)
              refine ⟨hiff.trans ?_, hall⟩
              rw [List.length_append, List.length_singleton, Nat.add_assoc, Nat.add_comm 1]
    · have hcons : candidateAttrs (a :: rest) = candidateAttrs rest :=
        List.filter_cons_of_neg (by simpa using hname)
      rw [hcons, remoteCandidatesInto, if_neg hname]
      exact ih remote hcand

/-- What follows on the candidates stays inside where they fit and, if all of them are good, where
the rest of the streams does. -/
theorem candidatesInto_bind_isSome {β : Type} (limits : SdpLimits) (attrs : List ParsedAttr) (remote : Remote)
    (hcand : remote.cand = []) (next : Option Remote → Option β) (inside : Bool) (hbad : (next none).isSome)
    (hgood : ∀ r, (next (some r)).isSome ↔ inside = true) :
    ((remoteCandidatesInto limits attrs remote).bind next).isSome ↔
      (candidatesFit limits (candidateAttrs attrs) &&
        (!(candidateAttrs attrs).all ParsedAttr.good || inside)) = true := by
  obtain ⟨hiff, hall⟩ := remoteCandidatesInto_isSome limits attrs remote (hcand ▸ Nat.zero_le _)
  have hfits : (remoteCandidatesInto limits attrs remote).isSome ↔
      candidatesFit limits (candidateAttrs attrs) = true := by
    rw [hiff, hcand, List.length_nil, Nat.zero_add, candidatesFit, Bool.and_eq_true, decide_eq_true_iff]
  cases hremote : remoteCandidatesInto limits attrs remote with
  | none =>
    rw [hremote] at hfits
    rw [Bool.eq_false_iff.mpr fun h => Bool.false_ne_true (hfits.mpr h)]
    exact iff_of_false Bool.false_ne_true Bool.false_ne_true
  | some r =>
    rw [hremote] at hfits
    rw [hfits.mp rfl, ← hall r hremote, Option.bind_some, Bool.true_and]
    cases r with
    | none => exact iff_of_true hbad rfl
    | some r => exact hgood r

/-- Streams that have no media are not looked at. -/
theorem appliesInside_none {limits : SdpLimits} {sdp : ParsedSdp} {index ops : Nat} {streams : List ElaStream}
    (h : sdp.media[index]? = none) : appliesInside limits sdp index ops streams = true := by
  cases streams with
  | nil => rfl
  | cons s rest => rw [appliesInside, h]

theorem applyMediaInto_isSome (limits : SdpLimits) (sdp : ParsedSdp) (index ops : Nat) (streams : List ElaStream) :
    (applyMediaInto limits sdp index ops streams).isSome ↔ appliesInside limits sdp index ops streams = true := by
  induction streams generalizing index ops with
  | nil => exact iff_of_true rfl rfl
  | cons s rest ih =>
    rw [applyMediaInto, appliesInside]
    cases hm : sdp.media[index]? with
    | none =>
      rw [Option.isSome_map]
      exact iff_of_true ((ih index ops).mpr (appliesInside_none hm)) rfl
    | some media =>
      simp only
      cases hcred : credentialsFit sdp with
      | false => exact iff_of_false Bool.false_ne_true (by simp)
      | true =>
        cases hconn : media.connAddr with
        | none => exact iff_of_false Bool.false_ne_true (by simp)
        | some connAddr =>
          cases hfmt : media.fmt with
          | nil => exact iff_of_false Bool.false_ne_true (by simp)
          | cons fmt formats =>
            simp only [Bool.not_true, Bool.false_eq_true, if_false, Option.isSome_some, Bool.and_self, Bool.true_and]
            split
            · next hops => rw [Option.isSome_map, ih]
            · next hops =>
              refine candidatesInto_bind_isSome limits media.attrs _ rfl _ _ rfl fun remote => ?_
              rw [Option.isSome_map, ih]

/-- Both sides stay inside their arrays exactly where no more streams are encoded than the media
array holds, and where the media of the description fit. -/
theorem sdp_bounds_iff {Text : Type} (lib : SdpLibrary Text) (limits : SdpLimits) (ws : ElaSession) :
    (∀ env, (encodeLocalSdpInto lib limits env ws).isSome ↔
      (env.pool = true → env.hostIp = true → (lib.base58Encode ws.publicKey).isSome →
        (ws.streams.takeWhile (encodes limits env)).length ≤ limits.maxMedia)) ∧
    ∀ pool parsed, (applyRemoteSdpInto lib limits pool ws parsed).isSome ↔
      ∀ sdp, pool = true → parsed = some sdp → sdp.name = sdpSessionName →
        (lib.base58Decode sdp.originUser).isSome → appliesInside limits sdp 0 0 ws.streams = true := by
  constructor
  · intro env
    unfold encodeLocalSdpInto
    cases env.pool with
    | false => exact iff_of_true rfl nofun
    | true =>
      cases env.hostIp with
      | false => exact iff_of_true rfl fun _ => nofun
      | true =>
        cases lib.base58Encode ws.publicKey with
        | none => exact iff_of_true rfl fun _ _ => nofun
        | some pk =>
          refine (encodeMediaInto_isSome limits env 0 0 ws.streams).trans ⟨fun h _ _ _ => by omega, fun h => ?_⟩
          have hlen := h rfl rfl rfl
          omega
  · intro pool parsed
    unfold applyRemoteSdpInto
    cases pool with
    | false => exact iff_of_true rfl fun _ => nofun
    | true =>
      cases parsed with
      | none => exact iff_of_true rfl fun _ _ => nofun
      | some sdp =>
        simp only [Bool.not_true, Bool.false_eq_true, if_false]
        split
        · next hname =>
          exact iff_of_true rfl fun _ _ hsdp hname' => absurd (Option.some.inj hsdp ▸ hname') hname
        · next hname =>
          have hname : sdp.name = sdpSessionName := not_not.mp hname
          cases hpk : lib.base58Decode sdp.originUser with
          | none =>
            refine iff_of_true rfl fun _ _ hsdp _ hpk' => ?_
            cases hsdp
            rw [hpk] at hpk'
            cases hpk'
          | some pk =>
            simp only [Option.isSome_map, adoptNonce_streams]
            refine (applyMediaInto_isSome limits sdp 0 0 ws.streams).trans ⟨fun h _ _ hsdp _ _ => ?_, fun h => ?_⟩
            · cases hsdp
              exact h
            · exact h sdp trivial rfl hname (by rw [hpk]; rfl)

/-- The sizes that the ICE library comes with. -/
def usualLimits : SdpLimits := ⟨16, 68, 8⟩

/-- Streams that have an ICE session each. -/
def iceSession (count : Nat) : ElaSession :=
  { ElaSession.new .empty .empty with
    streams := (List.range count).map fun i => { newStream (i + 1) .application 0 with hasIce := true } }

def oneCandidate : OfferEnv := ⟨fun _ => true, true, true, fun _ => some ⟨1, [], 9, [hostCandidate]⟩, true⟩

/-- What the parser returns of a description with one media. -/
def parsedOne (ufrag candidate : List Char) : ParsedSdp :=
  ⟨Base58.encode 32 5, sdpSessionName, [⟨ufragName, some ufrag, []⟩],
    [⟨9, some "10.0.0.2".toList, [['0']], [⟨candidateName, some candidate, []⟩]⟩]⟩

/-- One stream more than the media array holds, a foundation as long as its array and a ufrag that is
longer than its own. -/
theorem sdp_overrun :
    (encodeLocalSdpInto .plain usualLimits oneCandidate (iceSession 16)).isSome ∧
    encodeLocalSdpInto .plain usualLimits oneCandidate (iceSession 17) = none ∧
    (applyRemoteSdpInto .plain usualLimits true (iceSession 1) (some (parsedOne [] hostCandidate))).isSome ∧
    applyRemoteSdpInto .plain usualLimits true (iceSession 1)
      (some (parsedOne [] (List.replicate 29 'f' ++ hostCandidate))) = none ∧
    applyRemoteSdpInto .plain usualLimits true (iceSession 1)
      (some (parsedOne (List.replicate 81 'u') hostCandidate)) = none := by
  simp only [← Option.isNone_iff_eq_none]
  decide +kernel

end CarrierSdk
