import CarrierSdk.Mux.Phases

/-! Channels pair up once nothing is in flight, as long as every side says goodbye, every
request gets its answer, and no id is put into use that is still named. -/
namespace CarrierSdk.Mux

/-- What a peer must not do for the other to keep a channel without its counterpart: close
before the confirmation, lose a close or a confirmation on the way out, run out of ids or
memory on a request, or end a channel from the data callback. -/
def answersProperly (s : Link) : LinkInput → Bool
  | .close p c sent =>
    match (s.channels p).lookup c with
    | none => true
    | some ch => decide (ch.status ≠ .opening) && sent
  | .deliver p env =>
    match s.wire p.other with
    | [] => true
    | pb :: _ =>
      match pb.type, (s.channels p).lookup pb.localChannelId with
      | .channelOpen, _ =>
        match env.alloc with
        | .id _ => env.sent
        | _ => false
      | .channelData, some ch => decide (ch.status = .opening) || env.keep
      | _, _ => true
  | _ => true

def pairsSafely (s : Link) (i : LinkInput) : Bool := reusesSafely s i && answersProperly s i

variable {s : Link} {p : Peer} {k : Nat}

section Deliver
variable {pb : Packet} {rest : List Packet} {env : NotifyEnv}

theorem answers_open (hw : s.wire p.other = pb :: rest) (ht : pb.type = .channelOpen)
    (hg : answersProperly s (.deliver p env) = true) : ∃ c, env.alloc = .id c ∧ env.sent = true := by
  simp only [answersProperly, hw, ht] at hg
  split at hg
  next c hc => exact ⟨c, hc, hg⟩
  · cases hg

theorem answers_data {e : Channel Nat} (hw : s.wire p.other = pb :: rest)
    (hl : (s.channels p).lookup pb.localChannelId = some e) (hst : e.status ≠ .opening)
    (hg : answersProperly s (.deliver p env) = true) : pb.type = .channelData → env.keep = true := by
  intro ht
  simpa [answersProperly, hw, ht, hl, hst] using hg

/-- An arrival moves its incarnation to the next phase. -/
theorem phase_deliver (hb : Bound s) (hph : Phase (s.view pb.tag)) (hw : s.wire p.other = pb :: rest)
    (hf : allocFree (s.channels p) env.alloc = true) (hg : answersProperly s (.deliver p env) = true) :
    Phase ((s.after p (s.wire.taken p.other) s.next (notifyPacket (s.channels p) pb env)).view pb.tag) := by
  have hm : pb ∈ s.wire p.other := by
    rw [hw]
    exact List.mem_cons_self
  have hwire := view_arrived (notifyPacket (s.channels p) pb env) s.next hw
  have hown : (s.wire.taken p.other) p = s.wire p := Wires.taken_of_ne _ p.ne_other
  by_cases ht : pb.type = .channelOpen
  · obtain ⟨ch, hr⟩ := hph.requested hwire ht
    obtain ⟨c, ha, hs⟩ := answers_open hw ht hg
    rw [ha] at hf
    simp only [allocFree, Bool.and_eq_true, Option.isNone_iff_eq_none] at hf
    refine Phase.answered pb.tag hr.own hr.peer hr.status hr.answer hr.request ?_
    rcases notify_opened ht hr.option ha hf.2 hs with ⟨-, hc, hsent⟩ | ⟨-, hc, hsent⟩
    · refine .inl (hsent ▸ seen_after (hb.setAt_zero hc) (fun _ h => by cases h) hown ?_)
      simp [hsent, sendPacket]
    · refine .inr ⟨c, hsent ▸ seen_after hc ?_ hown ?_⟩
      · intro ch hch
        rw [← Option.some.inj hch]
      · simp [hsent, sendPacket]
  rcases hph.chan_cases p with hno | ⟨x, e, hch⟩
  · obtain ⟨hc, hs⟩ := notify_unknown env (deliver_nobody hb hno hm) ht
    refine hph.ignored hno (hs ▸ seen_after (hb.setAt_zero hc) (fun _ h => by cases h) hown ?_) hwire ht
    simp [hs]
  · have hmeet := hph.meets hch hwire
    obtain ⟨hlocal, -⟩ := hmeet.addressed
    obtain ⟨hl, htag⟩ : (s.channels p).lookup x = some e ∧ e.tag = pb.tag :=
      view_chan.mp (by rw [hch, sole_self])
    rw [← hlocal] at hl
    have hzero : (s.view pb.tag).chan p.other 0 = none := by
      simp [Link.view, hb.zero p.other]
    have hnot := notify_known env hl (hb.zero p) ht
    have hseen : ∀ {o}, SetAt (s.channels p) (notifyChannel (s.channels p) e pb env).channels
        pb.localChannelId o → (notifyChannel (s.channels p) e pb env).sent = [] →
        (∀ ch, o = some ch → ch.tag = pb.tag) → Seen (s.view pb.tag)
          ((s.after p (s.wire.taken p.other) s.next (notifyPacket (s.channels p) pb env)).view pb.tag)
          p x o [] := by
      intro o hset hs ho
      rw [hnot, ← hlocal, ← hs]
      exact seen_after hset ho hown (by simp [hs])
    refine hmeet.phase hch hwire hzero ?_ ?_ ?_
    · intro hty hst hr
      obtain ⟨hset, hs⟩ := notify_confirmed (s.channels p) env hty hst hr
      refine hseen hset hs fun ch h => ?_
      rw [← Option.some.inj h]
      exact htag
    · rintro (⟨hty, hst, hr⟩ | hty)
      · obtain ⟨hset, hs⟩ := notify_refused (s.channels p) env hty hst hr
        exact hseen hset hs fun _ h => by cases h
      · obtain ⟨hset, hs⟩ := notify_closed (s.channels p) e env hty
        exact hseen hset hs fun _ h => by cases h
    · intro htr hst
      obtain ⟨e', hset, hst', hr, htg, hs⟩ := notify_traffic htr hl hst (answers_data hw hl hst hg)
      refine ⟨e', hst', hr, hseen hset hs fun ch h => ?_⟩
      rw [← Option.some.inj h, htg, htag]

end Deliver

/-- Every incarnation is in some phase, and the numbers of the coming ones are fresh. -/
structure Sound (s : Link) : Prop where
  bound : Bound s
  start : streamTag < s.next
  channelTag : ∀ p c ch, (s.channels p).lookup c = some ch → ch.tag ≠ streamTag ∧ ch.tag < s.next
  packetTag : ∀ p, ∀ y ∈ s.wire p, y.tag < s.next
  phase : ∀ k, Phase (s.view k)

theorem Sound.vacant (h : Sound s) (hk : s.next ≤ k ∨ k = streamTag) (p : Peer) :
    (s.view k).chan p = nobody := by
  funext c
  cases hl : (s.view k).chan p c with
  | none => rfl
  | some ch =>
    obtain ⟨hc, rfl⟩ := view_chan.mp hl
    have ht := h.channelTag p c ch hc
    rcases hk with hk | hk
    · exact absurd ht.2 (Nat.not_lt.mpr hk)
    · exact absurd hk ht.1

theorem Sound.silent (h : Sound s) (p : Peer) : (s.view s.next).wire p = [] := by
  rw [List.eq_nil_iff_forall_not_mem]
  intro y hy
  obtain ⟨hm, ht⟩ := mem_view_wire.mp hy
  exact absurd (h.packetTag p y hm) (by rw [ht]; exact Nat.lt_irrefl _)

/-- A step inside the incarnation k, which the phase of k has to survive. -/
theorem Sound.update (h : Sound s) {c : ChannelId} {o : Option (Channel Nat)} {r : MuxResult Nat}
    {w : Wires Packet} {next : Nat} (k : Nat) (hb : Bound (s.after p w next r))
    (hr : SetAt (s.channels p) r.channels c o) (ho : ∀ ch, o = some ch → ch.tag = k ∧ k ≠ streamTag)
    (hold : ∀ ch, (s.channels p).lookup c = some ch → ch.tag = k)
    (hw : ∀ q, ∀ y ∈ w q, y ∈ s.wire q)
    (hwk : ∀ j, j ≠ k → (w.only fun pb => decide (pb.tag = j)) = s.wire.only fun pb => decide (pb.tag = j))
    (hs : ∀ y ∈ r.sent, y.tag = k) (hn : s.next ≤ next) (hk : k < next)
    (hph : Phase ((s.after p w next r).view k)) : Sound (s.after p w next r) := by
  refine ⟨hb, Nat.lt_of_lt_of_le h.start hn, fun q x ch hx => ?_, fun q y hy => ?_, fun j => ?_⟩
  · have hbefore : (s.channels q).lookup x = some ch → ch.tag ≠ streamTag ∧ ch.tag < next := fun hl =>
      ⟨(h.channelTag q x ch hl).1, Nat.lt_of_lt_of_le (h.channelTag q x ch hl).2 hn⟩
    simp only [Link.after] at hx
    rcases p.eq_or_other q with rfl | rfl
    · rw [Function.update_self, hr x] at hx
      split at hx
      · obtain ⟨rfl, hpos⟩ := ho ch hx
        exact ⟨hpos, hk⟩
      · exact hbefore hx
    · rw [Function.update_of_ne p.other_ne] at hx
      exact hbefore hx
  · rcases Wires.mem_send.mp hy with hy | ⟨-, hy⟩
    · exact Nat.lt_of_lt_of_le (h.packetTag q y (hw q y hy)) hn
    · rw [hs y hy]
      exact hk
  · by_cases hj : j = k
    · rw [hj]
      exact hph
    · have hne : ∀ {n : Nat}, n = k → n ≠ j := fun hnk hnj => hj (hnj.symm.trans hnk)
      rw [view_frame hr (fun ch hch => hne (ho ch hch).1) (fun ch hch => hne (hold ch hch)) (hwk j hj)
        fun y hy => hne (hs y hy)]
      exact h.phase j

/-- A call that changes nothing and sends nothing. -/
theorem Sound.quiet (h : Sound s) {r : MuxResult Nat} {next : Nat} (hb : Bound (s.after p s.wire next r))
    (hr : r.channels = s.channels p) (hs : r.sent = []) (hn : s.next ≤ next) :
    Sound (s.after p s.wire next r) := by
  have hset : SetAt (s.channels p) r.channels 0 none := h.bound.setAt_zero hr
  have hfree : ∀ ch, (s.channels p).lookup 0 = some ch → False := by
    intro ch hch
    rw [h.bound.zero p] at hch
    cases hch
  refine h.update streamTag hb hset (fun _ hch => nomatch hch) (fun ch hch => (hfree ch hch).elim)
    (fun _ _ hy => hy) (fun _ _ => rfl) (by simp [hs]) hn (Nat.lt_of_lt_of_le h.start hn) ?_
  rw [view_frame hset (fun _ hch => nomatch hch) (fun ch hch => (hfree ch hch).elim) rfl (by simp [hs])]
  exact h.phase streamTag

theorem Standing.remote_ne {v : View} {c : ChannelId} {ch : Channel Nat} (h : Standing v p c ch)
    (hz : v.chan p.other 0 = none) : ch.remoteId ≠ 0 := by
  have hne : ∀ {x e}, v.chan p.other = sole x e → x ≠ 0 := by
    rintro x e hx rfl
    rw [hx, sole_self] at hz
    cases hz
  cases h with
  | acceptor x e o l own remote peer => exact remote ▸ hne peer
  | pair d e hp => exact hp.bound.2 ▸ hne hp.peer
  | survivor y l own remote => exact remote

/-- A packet on an open channel. -/
theorem Sound.onChannel (h : Sound s) {r : MuxResult Nat} {type : PacketType} {c : ChannelId}
    {ch : Channel Nat} {payload : List UInt8} (hb : Bound (s.after p s.wire s.next r))
    (hr : r.channels = s.channels p) (hl : (s.channels p).lookup c = some ch) (hst : ch.status ≠ .opening)
    (ht : type ≠ .channelOpen ∧ type ≠ .channelOpenConfirmation ∧ type ≠ .channelClose)
    (hs : r.sent = [sendPacket type .user c ch.remoteId payload ch.tag]) :
    Sound (s.after p s.wire s.next r) := by
  have hset : SetAt (s.channels p) r.channels c (some ch) := by
    rw [hr]
    exact setAt_same hl
  have htag : ∀ e, some ch = some e → e.tag = ch.tag := fun e he => by rw [Option.some.inj he]
  have hsent : ∀ y ∈ r.sent, y.tag = ch.tag := by simp [hs, sendPacket]
  have hseen : Seen (s.view ch.tag) ((s.after p s.wire s.next r).view ch.tag) p c (some ch) r.sent :=
    seen_after hset htag rfl hsent
  rw [hs] at hseen
  refine h.update ch.tag hb hset (fun e he => ⟨htag e he, (h.channelTag p c ch hl).1⟩)
    (fun e he => htag e (hl.symm.trans he)) (fun _ _ hy => hy) (fun _ _ => rfl) hsent le_rfl
    (h.channelTag p c ch hl).2 ?_
  refine (h.phase ch.tag).send (view_chan.mpr ⟨hl, rfl⟩) hst hseen ?_ ⟨rfl, ht.1, ht.2.1, ht.2.2⟩
  simp [Link.view, Link.after, Wires.only_send]

/-- A request starts the next incarnation. -/
theorem Sound.opens (h : Sound s) {r : MuxResult Nat} {c : ChannelId} {cookie : List UInt8}
    (hb : Bound (s.after p s.wire (s.next + 1) r)) (hl : (s.channels p).lookup c = none)
    (hr : SetAt (s.channels p) r.channels c (some ⟨0, .opening, s.next⟩))
    (hs : r.sent = [sendPacket .channelOpen .user c 0 cookie s.next]) :
    Sound (s.after p s.wire (s.next + 1) r) := by
  have htag : ∀ e, some (⟨0, .opening, s.next⟩ : Channel Nat) = some e → e.tag = s.next :=
    fun e he => by rw [← Option.some.inj he]
  have hsent : ∀ y ∈ r.sent, y.tag = s.next := by simp [hs, sendPacket]
  have hseen : Seen (s.view s.next) ((s.after p s.wire (s.next + 1) r).view s.next) p c
      (some ⟨0, .opening, s.next⟩) r.sent := seen_after hr htag rfl hsent
  refine h.update s.next hb hr (fun e he => ⟨htag e he, Nat.ne_of_gt h.start⟩)
    (fun e he => by rw [hl] at he; cases he) (fun _ _ hy => hy) (fun _ _ => rfl) hsent (Nat.le_succ _)
    (Nat.lt_succ_self _) ?_
  refine .opening p c ⟨0, .opening, s.next⟩ (sendPacket .channelOpen .user c 0 cookie s.next) ?_ rfl
    ?_ ?_ ⟨rfl, rfl, rfl⟩ ?_
  · rw [hseen.own, h.vacant (.inl le_rfl)]
    rfl
  · rw [hseen.peer, h.vacant (.inl le_rfl)]
  · rw [hseen.request, h.silent, hs, List.nil_append]
  · rw [← h.silent p.other]
    simp [Link.view, Link.after, Wires.only_send]

/-- An open channel goes with a word to the peer. -/
theorem Sound.closes (h : Sound s) {r : MuxResult Nat} {c : ChannelId} {ch : Channel Nat}
    (hb : Bound (s.after p s.wire s.next r)) (hl : (s.channels p).lookup c = some ch)
    (hst : ch.status ≠ .opening) (hr : SetAt (s.channels p) r.channels c none)
    (hs : r.sent = if ch.remoteId ≠ 0 ∧ true then [sendPacket .channelClose .user c ch.remoteId [] ch.tag]
      else []) : Sound (s.after p s.wire s.next r) := by
  have hlv : (s.view ch.tag).chan p c = some ch := view_chan.mpr ⟨hl, rfl⟩
  have hremote : ch.remoteId ≠ 0 :=
    ((h.phase ch.tag).standing hlv hst).remote_ne (by simp [Link.view, h.bound.zero p.other])
  have hc : c ≠ 0 := by
    rintro rfl
    rw [h.bound.zero] at hl
    cases hl
  rw [if_pos ⟨hremote, rfl⟩] at hs
  have hsent : ∀ y ∈ r.sent, y.tag = ch.tag := by simp [hs, sendPacket]
  have hseen : Seen (s.view ch.tag) ((s.after p s.wire s.next r).view ch.tag) p c none r.sent :=
    seen_after hr (fun _ h => by cases h) rfl hsent
  rw [hs] at hseen
  refine h.update ch.tag hb hr (fun _ he => by cases he)
    (fun e he => by rw [Option.some.inj (hl.symm.trans he)]) (fun _ _ hy => hy) (fun _ _ => rfl) hsent
    le_rfl (h.channelTag p c ch hl).2 ?_
  refine (h.phase ch.tag).close hlv hst hc hseen ?_ ⟨rfl, rfl⟩
  simp [Link.view, Link.after, Wires.only_send]

/-- Data of the stream itself. -/
theorem Sound.onStream (h : Sound s) {r : MuxResult Nat} {payload : List UInt8}
    (hb : Bound (s.after p s.wire s.next r)) (hr : r.channels = s.channels p)
    (hs : r.sent = [sendPacket .channelData .user 0 0 payload streamTag]) :
    Sound (s.after p s.wire s.next r) := by
  have hset : SetAt (s.channels p) r.channels 0 none := h.bound.setAt_zero hr
  have hsent : ∀ y ∈ r.sent, y.tag = streamTag := by simp [hs, sendPacket]
  have hseen : Seen (s.view streamTag) ((s.after p s.wire s.next r).view streamTag) p 0 none r.sent :=
    seen_after hset (fun _ h => by cases h) rfl hsent
  have hvacant : ∀ q, (s.view streamTag).chan q = nobody := h.vacant (.inr rfl)
  refine h.update streamTag hb hset (fun _ he => by cases he)
    (fun e he => by rw [h.bound.zero] at he; cases he) (fun _ _ hy => hy) (fun _ _ => rfl) hsent le_rfl
    h.start ?_
  refine .closed (fun q => ?_) fun q y hy => ?_
  · rcases p.eq_or_other q with rfl | rfl
    · rw [hseen.own, hvacant]
      exact Function.update_eq_self 0 nobody
    · rw [hseen.peer, hvacant]
  · rcases Wires.mem_send.mp (mem_view_wire.mp hy).1 with hm | ⟨-, hm⟩
    · exact (h.phase streamTag).vacant hvacant q y (mem_view_wire.mpr ⟨hm, (mem_view_wire.mp hy).2⟩)
    · rw [hs, List.mem_singleton] at hm
      simp [hm, sendPacket]

theorem Sound.deliver (h : Sound s) {pb : Packet} {rest : List Packet} {env : NotifyEnv}
    (hw : s.wire p.other = pb :: rest) (hf : allocFree (s.channels p) env.alloc = true)
    (hb : Bound (s.after p (s.wire.taken p.other) s.next (notifyPacket (s.channels p) pb env)))
    (hg : answersProperly s (.deliver p env) = true) :
    Sound (s.after p (s.wire.taken p.other) s.next (notifyPacket (s.channels p) pb env)) := by
  have hm : pb ∈ s.wire p.other := by
    rw [hw]
    exact List.mem_cons_self
  have hph := phase_deliver h.bound (h.phase pb.tag) hw hf hg
  have hback : ∀ q, ∀ y ∈ s.wire.taken p.other q, y ∈ s.wire q := fun _ _ => Wires.mem_of_taken
  have hothers : ∀ j, j ≠ pb.tag → ((s.wire.taken p.other).only fun y => decide (y.tag = j)) =
      s.wire.only fun y => decide (y.tag = j) := by
    intro j hj
    exact Wires.only_taken_drop hw (decide_eq_false (Ne.symm hj))
  have hk := h.packetTag _ pb hm
  have hn : Notified (s.channels p) pb env _ := notifyPacket_notified hf
  cases hn with
  | idle hr hs =>
    refine h.update pb.tag hb (h.bound.setAt_zero hr) (fun _ he => by cases he)
      (fun e he => by rw [h.bound.zero] at he; cases he) hback hothers (fun y hy => (hs y hy).2.2.1)
      le_rfl hk hph
  | born c ht ho he hr hs =>
    rw [he.1] at hf
    simp only [allocFree, Bool.and_eq_true, Option.isNone_iff_eq_none] at hf
    have hpos : pb.tag ≠ streamTag := by
      intro h0
      obtain ⟨ch, hreq⟩ := (h.phase pb.tag).requested
        (view_arrived (notifyPacket (s.channels p) pb env) s.next hw) ht
      have hsome : (s.view pb.tag).chan p.other pb.remoteChannelId = some ch := by
        rw [hreq.peer, sole_self]
      rw [h.vacant (.inr h0)] at hsome
      cases hsome
    refine h.update pb.tag hb hr (fun e he => ?_) (fun e he => by rw [hf.2] at he; cases he) hback
      hothers (fun y hy => ?_) le_rfl hk hph
    · rw [← Option.some.inj he]
      exact ⟨rfl, hpos⟩
    · rw [hs, List.mem_singleton] at hy
      rw [hy]
      rfl
  | changed ch o ht hl hr hkept hs =>
    have htag : ch.tag = pb.tag := h.bound.arriving p pb ch hm hl
    refine h.update pb.tag hb hr (fun e he => ?_) (fun e he => ?_) hback hothers (fun y hy => ?_)
      le_rfl hk hph
    · exact ⟨(hkept e he).1.trans htag, htag ▸ (h.channelTag p _ ch hl).1⟩
    · rw [← Option.some.inj (hl.symm.trans he)]
      exact htag
    · rw [hs] at hy
      cases hy

theorem sound_step {t : Link} {i : LinkInput} {o : List LinkOutput} (h : Sound s)
    (hg : pairsSafely s i = true) (hstep : linkStep s i = some (t, o)) : Sound t := by
  obtain ⟨hreuse, hans⟩ := Bool.and_eq_true_iff.mp hg
  have hb := bound_step h.bound hreuse hstep
  cases i with
  | «open» p alloc cookie sent =>
    simp only [linkStep] at hstep
    split at hstep
    next hf =>
      cases hstep
      rcases openChannel_cases cookie sent s.next hf with ⟨hr, hs⟩ | ⟨c, -, -, -, hl, hr, hs⟩
      · exact h.quiet hb hr hs (Nat.le_succ _)
      · exact h.opens hb hl hr hs
    · cases hstep
  | close p c sent =>
    cases hstep
    rcases closeChannel_cases (s.channels p) c sent with ⟨hr, hs⟩ | ⟨ch, hl, hr, hs⟩
    · exact h.quiet hb hr hs le_rfl
    · simp only [answersProperly, hl, Bool.and_eq_true, decide_eq_true_eq] at hans
      obtain ⟨hst, rfl⟩ := hans
      exact h.closes hb hl hst hr hs
  | write p c payload sent =>
    cases hstep
    obtain ⟨hr, hs | hs | ⟨ch, hl, hst, -, hs⟩⟩ :=
      writeChannel_cases (s.channels p) c payload sent streamTag
    · exact h.quiet hb hr hs le_rfl
    · exact h.onStream hb hr hs
    · exact h.onChannel hb hr hl hst ⟨by decide, by decide, by decide⟩ hs
  | pend p c sent =>
    cases hstep
    obtain ⟨hr, hs | ⟨ch, hl, hst, -, hs⟩⟩ := sendOnChannel_cases .channelPending (s.channels p) c [] sent
    · exact h.quiet hb hr hs le_rfl
    · exact h.onChannel hb hr hl hst ⟨by decide, by decide, by decide⟩ hs
  | resume p c sent =>
    cases hstep
    obtain ⟨hr, hs | ⟨ch, hl, hst, -, hs⟩⟩ := sendOnChannel_cases .channelResume (s.channels p) c [] sent
    · exact h.quiet hb hr hs le_rfl
    · exact h.onChannel hb hr hl hst ⟨by decide, by decide, by decide⟩ hs
  | deliver p env =>
    simp only [linkStep] at hstep
    split at hstep
    · cases hstep
    next pb rest hw =>
      split at hstep
      next hf =>
        cases hstep
        exact h.deliver hw hf hb hans
      · cases hstep

theorem sound_new : Sound .new where
  bound := bound_new
  start := Nat.lt_succ_self _
  channelTag _ _ _ h := nomatch h
  packetTag _ _ h := nomatch h
  phase _ := .closed (fun _ => rfl) fun _ _ h => nomatch h

/-- No channel waits for a confirmation, and channels name each other. -/
structure Paired (s : Link) : Prop where
  opened : ∀ p c ch, (s.channels p).lookup c = some ch → ch.status ≠ .opening
  counterpart : ∀ p c d, (∃ ch, (s.channels p).lookup c = some ch ∧ ch.remoteId = d) ↔
    ∃ e, (s.channels p.other).lookup d = some e ∧ e.remoteId = c

/-- With nothing in flight, every channel has its counterpart. -/
theorem Sound.paired (h : Sound s) (hw : ∀ p, s.wire p = []) : Paired s := by
  have hsilent : ∀ k p, (s.view k).wire p = [] := by
    intro k p
    rw [List.eq_nil_iff_forall_not_mem]
    intro y hy
    rw [mem_view_wire, hw p] at hy
    cases hy.1
  have hpair : ∀ p c ch, (s.channels p).lookup c = some ch → ch.status ≠ .opening ∧
      ∃ e, (s.channels p.other).lookup ch.remoteId = some e ∧ e.remoteId = c := by
    intro p c ch hl
    have hv : (s.view ch.tag).chan p c = some ch := view_chan.mpr ⟨hl, rfl⟩
    rcases (h.phase ch.tag).settled (hsilent ch.tag) p with hno | ⟨x, d, f, e, hp⟩
    · rw [hno] at hv
      cases hv
    · rw [hp.own] at hv
      obtain ⟨rfl, rfl⟩ := sole_eq_some hv
      have he : (s.view f.tag).chan p.other d = some e := by rw [hp.peer, sole_self]
      exact ⟨hp.bound.1, e, hp.bound.2 ▸ (view_chan.mp he).1, hp.peerBound.2⟩
  refine ⟨fun p c ch hl => (hpair p c ch hl).1, fun p c d => ⟨?_, ?_⟩⟩
  · rintro ⟨ch, hl, rfl⟩
    exact (hpair p c ch hl).2
  · rintro ⟨e, hl, rfl⟩
    have hback := (hpair p.other d e hl).2
    rwa [Peer.other_other] at hback

/-- In every run whose steps answer properly and put no id into use that is still named, the
channels are paired whenever nothing is in flight. -/
theorem channels_paired {is : List LinkInput} {os : List LinkOutput} {u : Link}
    (h : linkMachine.Run (fun s i => pairsSafely s i = true) .new is os u)
    (hw : ∀ p, u.wire p = []) : Paired u :=
  (h.invariant (fun hs hg hstep => sound_step hs hg hstep) sound_new).paired hw

theorem channels_paired_small : ∃ u : Link, (u.channels .left).lookup 1 = some ⟨3, .open, 1⟩ ∧
    (u.channels .right).lookup 3 = some ⟨1, .open, 1⟩ ∧ Paired u := by
  obtain ⟨u, os, he, hp⟩ := linkMachine.exec_any .new
    [.open .left (.id 1) [] true, .deliver .right (Alloc.granted 3), .deliver .left (Alloc.granted 2)]
    (fun r => decide ((r.1.channels .left).lookup 1 = some ⟨3, .open, 1⟩ ∧
      (r.1.channels .right).lookup 3 = some ⟨1, .open, 1⟩ ∧
      r.1.wire .left = [] ∧ r.1.wire .right = [])) (by decide +kernel)
  obtain ⟨hleft, hright, hw1, hw2⟩ := of_decide_eq_true hp
  refine ⟨u, hleft, hright, channels_paired (Machine.run_of_exec (fun _ _ h => h) he (by decide +kernel)) ?_⟩
  rintro (_ | _)
  · exact hw1
  · exact hw2

/-- A channel that is closed before its confirmation leaves the other end behind for good. -/
theorem channels_unpaired : ¬ ∀ (is : List LinkInput) (os : List LinkOutput) (u : Link),
    linkMachine.Run Machine.Free .new is os u → (∀ p, u.wire p = []) → Paired u := by
  intro h
  obtain ⟨u, os, he, hp⟩ := linkMachine.exec_any .new
    [.open .left (.id 1) [] true, .close .left 1 true, .deliver .right (Alloc.granted 3),
      .deliver .left (Alloc.granted 2)]
    (fun r => decide ((r.1.channels .left).lookup 1 = none ∧
      (r.1.channels .right).lookup 3 = some ⟨1, .open, 1⟩ ∧
      r.1.wire .left = [] ∧ r.1.wire .right = [])) (by decide +kernel)
  obtain ⟨hleft, hright, hw1, hw2⟩ := of_decide_eq_true hp
  have hpaired := h _ os u (Machine.free_run_of_exec he) fun p => by cases p <;> assumption
  obtain ⟨e, hl, -⟩ := (hpaired.counterpart .right 3 1).mp ⟨_, hright, rfl⟩
  rw [Peer.other, hleft] at hl
  cases hl

end CarrierSdk.Mux
