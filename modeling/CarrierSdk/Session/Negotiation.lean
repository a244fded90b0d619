import CarrierSdk.Session.Candidates
import CarrierSdk.Session.KeyAgreement

/-! Which streams stay active when a session applies the description of its peer. Both sides
collect the options over their streams. -/
namespace CarrierSdk

inductive StreamOption | plain | multiplexing | reliable | portForwarding
  deriving DecidableEq

def ElaStream.has (s : ElaStream) : StreamOption → Bool
  | .plain => s.unencrypt
  | .multiplexing => s.multiplexing
  | .reliable => s.reliable
  | .portForwarding => s.portforwarding

/-- The options that some stream before the i-th has. -/
def earlier (streams : List ElaStream) (i : Nat) (o : StreamOption) : Bool :=
  (streams.take i).any fun s => s.has o

/-- The i-th stream is there and active. -/
def ActiveAt (streams : List ElaStream) (i : Nat) : Prop :=
  ∃ s : ElaStream, streams[i]? = some s ∧ s.deactivate = false

/-- The streams that are left active are those whose own options the peer's stream of the same
index has. -/
def MatchedStreams (streams peer after : List ElaStream) : Prop :=
  ∀ i, ActiveAt after i ↔ ∃ s t : ElaStream, streams[i]? = some s ∧ peer[i]? = some t ∧ s.has = t.has

/-- The two sides leave the same streams active. -/
def SameActive (after after' : List ElaStream) : Prop :=
  ∀ i, ActiveAt after i ↔ ActiveAt after' i

/-- Where streams of the same index have the same options, they have each option that the
earlier streams of only one side have. Where they differ, some option is in this stream or in
earlier ones of one side, and in none of these on the other. -/
def Separated (streams peer : List ElaStream) : Prop :=
  ∀ i s t, streams[i]? = some s → peer[i]? = some t →
    (s.has = t.has → ∀ o, s.has o = false → earlier streams i o = earlier peer i o) ∧
    (s.has ≠ t.has → ∃ o, (earlier streams i o || s.has o) ≠ (earlier peer i o || t.has o))

/-- What the libraries document: descriptions and keys survive being written and read. -/
structure SdpLibrary.Faithful {Text : Type} (lib : SdpLibrary Text) : Prop where
  parse : ∀ {sdp text}, lib.print sdp = some text → lib.parse text = some sdp
  key : ∀ {pk user}, lib.base58Encode pk = some user → lib.base58Decode user = some pk

/-- The candidates of the transport are encoded as the source prints them. -/
def OfferEnv.PrintsCandidates (env : OfferEnv) : Prop :=
  ∀ {id l}, env.iceLocal id = some l → ∀ t ∈ l.candidates, ∃ c : LocalCandidate, t = c.line

/-! Sets of options as numbers. -/

section Options

abbrev Options := StreamOption → Bool

def Options.union (f g : Options) : Options := fun o => f o || g o

def optionBits (plain multiplexing reliable portForwarding : Bool) : Nat :=
  (if plain then elaStreamPlain else 0) ||| (if multiplexing then elaStreamMultiplexing else 0) |||
  (if reliable then elaStreamReliable else 0) ||| (if portForwarding then elaStreamPortForwarding else 0)

theorem optionBits_or (a b c d a' b' c' d' : Bool) :
    optionBits (a || a') (b || b') (c || c') (d || d') = optionBits a b c d ||| optionBits a' b' c' d' := by
  revert a b c d a' b' c' d'
  decide

theorem optionBits_injective {a b c d a' b' c' d' : Bool}
    (h : optionBits a b c d = optionBits a' b' c' d') : a = a' ∧ b = b' ∧ c = c' ∧ d = d' := by
  revert a b c d a' b' c' d'
  decide

/-- The number that the encoder prints. -/
def Options.ops (f : Options) : Nat :=
  optionBits (f .plain) (f .multiplexing) (f .reliable) (f .portForwarding)

theorem options_eq (s : ElaStream) : s.options = Options.ops s.has := rfl

theorem Options.ops_union (f g : Options) : (f.union g).ops = f.ops ||| g.ops := optionBits_or ..

theorem Options.ops_injective {f g : Options} (h : f.ops = g.ops) : f = g := by
  obtain ⟨hp, hm, hr, hf⟩ := optionBits_injective h
  funext o
  cases o with
  | plain => exact hp
  | multiplexing => exact hm
  | reliable => exact hr
  | portForwarding => exact hf

end Options

/-! The two loops. -/

/-- Whether the collected options agree, stream by stream. -/
def agreements (f g : Options) : List ElaStream → List ElaStream → List Bool
  | [], _ => []
  | _ :: ss, [] => false :: agreements f g ss []
  | s :: ss, t :: ts =>
    decide ((f.union s.has).ops = (g.union t.has).ops) :: agreements (f.union s.has) (g.union t.has) ss ts

theorem encodeMedia_cons {env : OfferEnv} {g : Options} {t : ElaStream} {ts : List ElaStream}
    {media : List SdpMedia} (h : encodeMedia env g.ops (t :: ts) = .ok media) :
    ∃ l rest, env.iceLocal t.id = some l ∧ encodeMedia env (g.union t.has).ops ts = .ok rest ∧
      media = ⟨l.port, l.connAddr, printUnsigned (g.union t.has).ops,
        l.candidates.map fun c => ⟨candidateName, c⟩⟩ :: rest := by
  rw [encodeMedia] at h
  split at h
  · cases h
  · split at h
    · cases h
    · next l hl =>
      split at h
      · cases h
      · rw [options_eq, ← Options.ops_union] at h
        dsimp only at h
        cases hrest : encodeMedia env (g.union t.has).ops ts with
        | error e =>
          rw [hrest] at h
          cases h
        | ok rest =>
          rw [hrest] at h
          cases h
          exact ⟨l, rest, hl, rfl, rfl⟩

theorem remoteCandidates_ok {lines : List (List Char)} (h : ∀ t ∈ lines, ∃ c : LocalCandidate, t = c.line)
    (remote : Remote) :
    ∃ r, remoteCandidates (lines.map fun c => ⟨candidateName, c⟩) remote = some r := by
  induction lines generalizing remote with
  | nil => exact ⟨remote, rfl⟩
  | cons t lines ih =>
    obtain ⟨c, rfl⟩ := h t List.mem_cons_self
    obtain ⟨⟨compId, cand⟩, hscan⟩ := Option.isSome_iff_exists.mp (scanCandidate_line c)
    rw [List.map_cons, remoteCandidates, if_pos rfl, hscan]
    exact ih (fun t ht => h t (List.mem_cons_of_mem _ ht)) _

theorem applyMedia_agreements {env : OfferEnv} (henv : env.PrintsCandidates) (sdp : SdpSession)
    {ss ts : List ElaStream} {f g : Options} (index : Nat)
    (hencode : encodeMedia env g.ops ts = .ok (sdp.media.drop index))
    (hfresh : ∀ s ∈ ss, s.deactivate = false) :
    (applyMedia sdp index f.ops ss).2 = .ok () ∧
      (applyMedia sdp index f.ops ss).1.map (fun s => !s.deactivate) = agreements f g ss ts := by
  induction ss generalizing ts f g index with
  | nil => exact ⟨rfl, rfl⟩
  | cons s ss ih =>
    have hrest : ∀ s ∈ ss, s.deactivate = false := fun s hs => hfresh s (List.mem_cons_of_mem _ hs)
    cases ts with
    | nil =>
      obtain ⟨hok, hmap⟩ := ih (f := f) index hencode hrest
      have hnone : sdp.media[index]? = none := by
        rw [encodeMedia, Except.ok.injEq] at hencode
        exact List.getElem?_eq_none (List.drop_eq_nil_iff.mp hencode.symm)
      rw [applyMedia, hnone]
      exact ⟨hok, congrArg (false :: ·) hmap⟩
    | cons t ts =>
      obtain ⟨l, rest, hl, htail, hdrop⟩ := encodeMedia_cons hencode
      have hmedia : sdp.media[index]? = some ⟨l.port, l.connAddr, printUnsigned (g.union t.has).ops,
          l.candidates.map fun c => ⟨candidateName, c⟩⟩ := by
        rw [← List.head?_drop, hdrop, List.head?_cons]
      have hnext : rest = sdp.media.drop (index + 1) := by
        rw [← List.tail_drop, hdrop, List.tail_cons]
      obtain ⟨hok, hmap⟩ := ih (f := f.union s.has) (index + 1) (hnext ▸ htail) hrest
      rw [applyMedia, hmedia]
      simp only [atoi_printUnsigned, options_eq, ← Options.ops_union, ne_eq, Nat.cast_inj]
      by_cases hops : (f.union s.has).ops = (g.union t.has).ops
      · obtain ⟨r, hr⟩ := remoteCandidates_ok (henv hl) _
        rw [if_neg (not_not_intro hops), hr]
        refine ⟨hok, ?_⟩
        rw [List.map_cons, hmap, agreements, decide_eq_true hops, hfresh s List.mem_cons_self]
        rfl
      · rw [if_pos hops]
        refine ⟨hok, ?_⟩
        rw [List.map_cons, hmap, agreements, decide_eq_false hops]
        rfl

/-! The streams by their indices. -/

theorem earlier_succ (s : ElaStream) (ss : List ElaStream) (i : Nat) (o : StreamOption) :
    earlier (s :: ss) (i + 1) o = (s.has o || earlier ss i o) := rfl

theorem agreements_getElem? (f g : Options) (ss ts : List ElaStream) (i : Nat) :
    (agreements f g ss ts)[i]? = some true ↔ ∃ s t, ss[i]? = some s ∧ ts[i]? = some t ∧
      ∀ o, (f o || (earlier ss i o || s.has o)) = (g o || (earlier ts i o || t.has o)) := by
  induction ss generalizing f g ts i with
  | nil => simp [agreements]
  | cons s ss ih =>
    cases ts with
    | nil =>
      cases i with
      | zero => simp [agreements]
      | succ i =>
        rw [agreements, List.getElem?_cons_succ, ih]
        simp
    | cons t ts =>
      cases i with
      | zero =>
        simp only [agreements, List.getElem?_cons_zero, Option.some.injEq, decide_eq_true_eq, earlier,
          List.take_zero, List.any_nil, Bool.false_or, exists_and_left, exists_eq_left']
        constructor
        · intro hops
          exact congrFun (Options.ops_injective hops)
        · intro hall
          rw [show f.union s.has = g.union t.has from funext hall]
      | succ i =>
        simp only [agreements, List.getElem?_cons_succ, ih, earlier_succ, Options.union, Bool.or_assoc]

theorem activeAt_iff (streams : List ElaStream) (i : Nat) :
    ActiveAt streams i ↔ (streams.map fun s => !s.deactivate)[i]? = some true := by
  rw [List.getElem?_map, Option.map_eq_some_iff]
  simp [ActiveAt]

theorem matchedStreams_iff {ss ts after : List ElaStream}
    (h : after.map (fun s => !s.deactivate) = agreements (fun _ => false) (fun _ => false) ss ts) :
    MatchedStreams ss ts after ↔ Separated ss ts := by
  have hactive : ∀ i, ActiveAt after i ↔ ∃ s t, ss[i]? = some s ∧ ts[i]? = some t ∧
      ∀ o, (earlier ss i o || s.has o) = (earlier ts i o || t.has o) := by
    intro i
    rw [activeAt_iff, h, agreements_getElem?]
    simp only [Bool.false_or]
  constructor
  · intro hmatched i s t hs ht
    have hi := (hactive i).symm.trans (hmatched i)
    simp only [hs, ht, Option.some.injEq, exists_and_left, exists_eq_left'] at hi
    constructor
    · intro heq o ho
      have hall := hi.mpr heq o
      rwa [← heq, ho, Bool.or_false, Bool.or_false] at hall
    · intro hne
      by_contra hnone
      exact hne (hi.mp fun o => by_contra fun ho => hnone ⟨o, ho⟩)
  · intro hsep i
    rw [hactive]
    constructor
    · rintro ⟨s, t, hs, ht, hall⟩
      refine ⟨s, t, hs, ht, by_contra fun hne => ?_⟩
      obtain ⟨o, ho⟩ := (hsep i s t hs ht).2 hne
      exact ho (hall o)
    · rintro ⟨s, t, hs, ht, heq⟩
      refine ⟨s, t, hs, ht, fun o => ?_⟩
      rw [← heq]
      cases ho : s.has o with
      | true => rw [Bool.or_true, Bool.or_true]
      | false => rw [(hsep i s t hs ht).1 heq o ho]

theorem Separated.symm {ss ts : List ElaStream} (h : Separated ss ts) : Separated ts ss := by
  intro i t s ht hs
  obtain ⟨hsame, hdiffer⟩ := h i s t hs ht
  constructor
  · intro heq o ho
    exact (hsame heq.symm o (by rwa [← heq])).symm
  · intro hne
    obtain ⟨o, ho⟩ := hdiffer (Ne.symm hne)
    exact ⟨o, ho.symm⟩

theorem sameActive_of_agreements {ss ts after after' : List ElaStream}
    (h : after.map (fun s => !s.deactivate) = agreements (fun _ => false) (fun _ => false) ss ts)
    (h' : after'.map (fun s => !s.deactivate) = agreements (fun _ => false) (fun _ => false) ts ss) :
    SameActive after after' := by
  intro i
  rw [activeAt_iff, activeAt_iff, h, h', agreements_getElem?, agreements_getElem?]
  constructor
  · rintro ⟨s, t, hs, ht, hall⟩
    exact ⟨t, s, ht, hs, fun o => (hall o).symm⟩
  · rintro ⟨t, s, ht, hs, hall⟩
    exact ⟨s, t, hs, ht, fun o => (hall o).symm⟩

section Sessions
variable {Text : Type} {lib : SdpLibrary Text}

theorem encodeLocalSdp_media {env : OfferEnv} {ws : ElaSession} {text : Text}
    (h : iceSessionEncodeLocalSdp lib env ws = .ok text) :
    ∃ user media, lib.base58Encode ws.publicKey = some user ∧ encodeMedia env 0 ws.streams = .ok media ∧
      lib.print ⟨user, sdpSessionName, sessionAttrs lib ws, media⟩ = some text := by
  unfold iceSessionEncodeLocalSdp at h
  split at h
  · cases h
  split at h
  · cases h
  split at h
  · cases h
  next user huser =>
    split at h
    · cases h
    next media hmedia =>
      split at h
      · cases h
      next sdp hprint =>
        cases h
        exact ⟨user, media, huser, hmedia, hprint⟩

theorem applyRemoteSdp_encoded (hlib : lib.Faithful) {env : OfferEnv} (henv : env.PrintsCandidates)
    {ws peer : ElaSession} {text : Text} (h : iceSessionEncodeLocalSdp lib env peer = .ok text)
    (hfresh : ∀ s ∈ ws.streams, s.deactivate = false) :
    (iceSessionApplyRemoteSdp lib true ws text).2 = .ok () ∧
      (iceSessionApplyRemoteSdp lib true ws text).1.streams.map (fun s => !s.deactivate) =
        agreements (fun _ => false) (fun _ => false) ws.streams peer.streams := by
  obtain ⟨user, media, huser, hmedia, hprint⟩ := encodeLocalSdp_media h
  have hloop := applyMedia_agreements (f := fun _ => false) (g := fun _ => false) henv
    ⟨user, sdpSessionName, sessionAttrs lib peer, media⟩ 0 hmedia hfresh
  rw [iceSessionApplyRemoteSdp, hlib.parse hprint]
  simp only [Bool.not_true, Bool.false_eq_true, if_false, ne_eq, not_true_eq_false, hlib.key huser,
    adoptNonce_streams]
  exact hloop

end Sessions

/-- A session with a stream of each of some options. -/
def sessionWith (options : List Nat) : ElaSession :=
  { ElaSession.new .empty .empty with
    streams := (options.mapIdx fun i o => { newStream (i + 1) .application o with hasIce := true }) }

def localHost : LocalCandidate where
  foundation := ⟨"Hc0".toList, by decide, by decide, by decide⟩
  compId := 1
  prio := 2130706431
  addr := ⟨"10.0.0.2".toList, by decide, by decide, by decide⟩
  port := 5000
  kind := .host

/-- Each transport has one host candidate. -/
def oneHost : OfferEnv := ⟨fun _ => true, true, true, fun _ => some ⟨1, [], 9, [localHost.line]⟩, true⟩

theorem oneHost_printsCandidates : oneHost.PrintsCandidates := by
  intro id l hl t ht
  cases hl
  exact ⟨localHost, List.mem_singleton.mp ht⟩

theorem SdpLibrary.plain_faithful : SdpLibrary.plain.Faithful where
  parse h := by
    cases h
    rfl
  key {pk user} h := by
    cases h
    simp only [SdpLibrary.plain, Base58.decode_encode, Option.map_some, BitVec.ofNat_toNat, BitVec.setWidth_eq]

theorem sessionWith_fresh (options : List Nat) : ∀ s ∈ (sessionWith options).streams, s.deactivate = false := by
  intro s hs
  obtain ⟨i, hi, rfl⟩ := List.mem_mapIdx.mp hs
  rfl

private theorem exists_ok {α ε : Type} {r : Except ε α} (h : r.toBool = true) : ∃ a, r = .ok a := by
  cases r with
  | error e => cases h
  | ok a => exact ⟨a, rfl⟩

end CarrierSdk
