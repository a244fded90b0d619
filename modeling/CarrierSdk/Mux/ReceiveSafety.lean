import CarrierSdk.Mux.Handler

/-! What the receive path relies on, for packets and chunks that the peer makes up. -/
namespace CarrierSdk.Mux

/-- All that the handler relies on holds. -/
def passed (os : List HandlerOutput) : Bool :=
  os.all fun
    | .check c => c.passes
    | _ => true

@[simp] theorem passed_append (os ps : List HandlerOutput) : passed (os ++ ps) = (passed os && passed ps) :=
  List.all_append

@[simp] theorem passed_check (c : Check) (os : List HandlerOutput) :
    passed (.check c :: os) = (c.passes && passed os) := rfl

@[simp] theorem passed_nil : passed [] = true := rfl

/-! The loop over a chunk. -/

/-- The incomplete packet is shorter than it says. -/
def Unfinished (b : FlexBuffer) : Prop := b.size < protocolHeadLen ∨ b.size < payloadLen b + protocolHeadLen

theorem empty_unfinished {b : FlexBuffer} (h : b.size = 0) : Unfinished b := .inl (h ▸ by decide)

section Turns
variable {b buf u rest : FlexBuffer} {n : Nat}

theorem passed_fillCheck (hbuf : buf.Fits 0) (hn : n ≤ b.size + buf.size) : passed (fillCheck n b buf) = true := by
  have hinside := hbuf.inside
  unfold fillCheck
  split
  · next hless =>
    have hroom : buf.offset + (n - b.size) ≤ buf.capacity := by omega
    simp [Check.passes, hroom]
  · rfl

/-- Keeping what is left of a chunk does not change the length that the head says. -/
theorem keepRest_unfinished (h : Receiving b) (hbuf : buf.Fits 0) (hn : protocolHeadLen ≤ b.size)
    (hless : b.size + buf.size < payloadLen b + protocolHeadLen) : Unfinished (keepRest b buf).1 := by
  obtain ⟨hreceiving, hsize, hdata⟩ := h.append2_copied hbuf (Nat.le_refl buf.size)
  have hcopied := FlexBuffer.copied_le b buf.size
  have hlen : b.data.length = b.size := h.fits.length_data
  have hdrop : ((b.data).drop 6).length = b.size - 6 := by rw [List.length_drop, hlen]
  change Unfinished (b.append2 buf buf.size)
  have hkept : payloadLen (b.append2 buf buf.size) = payloadLen b := by
    rw [protocolHeadLen] at hn
    rw [payloadLen_eq (by rw [protocolHeadLen]; omega), payloadLen_eq hn, hdata,
      List.drop_append_of_le_length (by omega), List.take_append_of_le_length (by omega)]
  refine .inr ?_
  rw [hkept, hsize]
  omega

theorem notifiedPackets_fillTo (n : Nat) (b buf : FlexBuffer) : notifiedPackets (fillTo n b buf).2.2 = [] := by
  unfold fillTo
  split <;> rfl

/-- A turn is what the loop does before it goes on. -/
theorem notifyData_turn {turns : Nat} {os : List FramingOutput} (hsize : buf.size ≠ 0)
    (hrun : multiplexHandlerNotifyData (turns + 1) b buf = some (u, os)) :
    ((turn b buf).1 = .kept u ∧ notifiedPackets os = []) ∨
      ∃ p rest os', (turn b buf).1 = .packet p rest ∧
        multiplexHandlerNotifyData turns (p.reset flexPaddingLen) rest = some (u, os') ∧
        notifiedPackets os = p.data :: notifiedPackets os' := by
  rw [multiplexHandlerNotifyData, if_neg hsize] at hrun
  unfold turn
  split at hrun
  · next hfew =>
    cases hrun
    rw [if_pos hfew]
    exact .inl ⟨rfl, rfl⟩
  next hmany =>
  rw [if_neg hmany]
  dsimp only at hrun ⊢
  split at hrun
  · next hlong =>
    cases hrun
    rw [if_pos hlong]
    refine .inl ⟨rfl, ?_⟩
    rw [notifiedPackets_append, notifiedPackets_fillTo]
    rfl
  next hshort =>
  rw [if_neg hshort]
  obtain ⟨⟨v, os'⟩, hrest, hsome⟩ := Option.map_eq_some_iff.mp hrun
  cases hsome
  refine .inr ⟨_, _, os', rfl, hrest, ?_⟩
  rw [notifiedPackets_append, notifiedPackets_append, notifiedPackets_fillTo, notifiedPackets_fillTo]
  rfl

/-- A turn that does not reach the end of a packet. -/
theorem turn_kept (h : Receiving b) (hbuf : buf.Fits 0) (hturn : (turn b buf).1 = .kept u) :
    Receiving u ∧ Unfinished u := by
  unfold turn at hturn
  split at hturn
  · next hfew =>
    cases hturn
    obtain ⟨hreceiving, hsize, -⟩ := h.append2_copied hbuf (Nat.le_refl buf.size)
    have hcopied := FlexBuffer.copied_le b buf.size
    refine ⟨hreceiving, .inl ?_⟩
    change (b.append2 buf buf.size).size < _
    omega
  · next hmany =>
    obtain ⟨h₁, hbuf₁, hsize₁, -⟩ := fillTo_spec h hbuf (Nat.le_of_not_lt hmany) (by decide)
    dsimp only at hturn
    split at hturn
    · next hless =>
      cases hturn
      obtain ⟨hreceiving, -⟩ := h₁.append2_copied hbuf₁ (Nat.le_refl _)
      exact ⟨hreceiving, keepRest_unfinished h₁ hbuf₁ (by omega) hless⟩
    · cases hturn

/-- A turn that reaches the end of a packet takes bytes from the chunk. -/
theorem turn_packet (h : Receiving b) (hunfinished : Unfinished b) (hbuf : buf.Fits 0)
    (hturn : (turn b buf).1 = .packet u rest) :
    Receiving u ∧ protocolHeadLen ≤ u.size ∧ rest.Fits 0 ∧ rest.size < buf.size := by
  unfold turn at hturn
  split at hturn
  · cases hturn
  · next hmany =>
    have hn := Nat.le_of_not_lt hmany
    obtain ⟨h₁, hbuf₁, hsize₁, -⟩ := fillTo_spec h hbuf hn (by decide)
    obtain ⟨-, -, -, hrest₁⟩ := fillTo_receiving h hbuf hn
    dsimp only at hturn
    split at hturn
    · cases hturn
    · next hlen =>
      obtain ⟨h₂, hbuf₂, hsize₂, hrest₂⟩ := fillTo_receiving h₁ hbuf₁ (Nat.le_of_not_lt hlen)
      cases hturn
      refine ⟨h₂, by omega, hbuf₂, ?_⟩
      rcases Nat.lt_or_ge b.size protocolHeadLen with hhead | hhead
      · omega
      · -- The head was there before, and the packet lacks bytes of its payload.
        have hsame : fillTo protocolHeadLen b buf = (b, buf, []) := if_neg (Nat.not_lt.mpr hhead)
        have hlacks : b.size < payloadLen b + protocolHeadLen := hunfinished.resolve_left (Nat.not_lt.mpr hhead)
        rw [hsame] at hrest₂ hlen ⊢
        dsimp only at hrest₂ hlen ⊢
        omega

theorem passed_turn (h : Receiving b) (hbuf : buf.Fits 0) : passed (turn b buf).2 = true := by
  unfold turn
  split
  · rfl
  · next hmany =>
    have hn := Nat.le_of_not_lt hmany
    obtain ⟨h₁, hbuf₁, -⟩ := fillTo_receiving h hbuf hn
    dsimp only
    split
    · exact passed_fillCheck hbuf hn
    · next hlen =>
      rw [passed_append, passed_fillCheck hbuf hn, passed_fillCheck hbuf₁ (Nat.le_of_not_lt hlen)]
      rfl

/-- A filled packet holds the front of what there is, as far as there is room. -/
theorem fillTo_data (h : Receiving b) (hbuf : buf.Fits 0) (hb : b.size ≤ n) (hn : n ≤ b.size + buf.size) :
    (fillTo n b buf).1.data = ((b.data ++ buf.data).take n).take (flexBufferMaxLen - flexPaddingLen) := by
  have hlen : b.data.length = b.size := h.fits.length_data
  have hroom := h.size_le
  rw [List.take_take]
  unfold fillTo
  split
  · obtain ⟨-, -, hdata⟩ := h.append2_copied hbuf (show n - b.size ≤ buf.size by omega)
    have hcopied : b.copied (n - b.size) = min (flexBufferMaxLen - flexPaddingLen) n - b.size := by
      unfold FlexBuffer.copied
      rw [h.available]
      split <;> omega
    have hfront : b.data.take (min (flexBufferMaxLen - flexPaddingLen) n) = b.data :=
      List.take_of_length_le (by omega)
    rw [hdata, List.take_append, hfront, hlen, hcopied]
  · next hfull =>
    have hsame : n = b.size := by omega
    rw [hsame, Nat.min_eq_right hroom, List.take_append_of_le_length (by omega), List.take_of_length_le (by omega)]

/-- The packet that a stream of bytes begins with, by the length in its head. -/
def nextPacket (bytes : List UInt8) : Option (List UInt8) :=
  let len := Bytes.number ((bytes.drop 6).take 2) + protocolHeadLen
  if protocolHeadLen ≤ bytes.length ∧ len ≤ bytes.length then some (bytes.take len) else none

/-- The packet that a turn hands over. -/
def Turn.notified : Turn → Option (List UInt8)
  | .kept _ => none
  | .packet whole _ => some whole.data

/-- A turn takes the packet that the bytes kept and the chunk begin with, cut off where the buffer ends. -/
theorem turn_nextPacket (h : Receiving b) (hunfinished : Unfinished b) (hbuf : buf.Fits 0) :
    (turn b buf).1.notified =
      (nextPacket (b.data ++ buf.data)).map (List.take (flexBufferMaxLen - flexPaddingLen)) := by
  have hlen : (b.data ++ buf.data).length = b.size + buf.size := by
    rw [List.length_append, h.fits.length_data, hbuf.length_data]
  unfold turn nextPacket
  dsimp only
  rw [hlen]
  by_cases hfew : b.size + buf.size < protocolHeadLen
  · rw [if_pos hfew, if_neg fun hcond => Nat.not_lt.mpr hcond.1 hfew]
    rfl
  · rw [if_neg hfew]
    have hn := Nat.le_of_not_lt hfew
    obtain ⟨h₁, hbuf₁, hsize₁, hdata₁, -⟩ := fillTo_spec h hbuf hn (by decide)
    obtain ⟨-, -, -, hrest₁⟩ := fillTo_receiving h hbuf hn
    have hhead : payloadLen (fillTo protocolHeadLen b buf).1 =
        Bytes.number (((b.data ++ buf.data).drop 6).take 2) := by
      have hlen₁ : (fillTo protocolHeadLen b buf).1.data.length = (fillTo protocolHeadLen b buf).1.size :=
        h₁.fits.length_data
      have h8 : 8 ≤ (fillTo protocolHeadLen b buf).1.size := by rw [hsize₁]; exact Nat.le_max_left _ _
      rw [payloadLen_eq (by rw [hsize₁]; exact Nat.le_max_left _ _), ← hdata₁,
        List.drop_append_of_le_length (by omega), List.take_append_of_le_length (by rw [List.length_drop]; omega)]
    rw [hhead]
    split
    · next hless =>
      rw [if_neg (by omega)]
      rfl
    · next hlong =>
      rw [if_pos ⟨hn, by omega⟩]
      have hatLeast : (fillTo protocolHeadLen b buf).1.size ≤
          Bytes.number (((b.data ++ buf.data).drop 6).take 2) + protocolHeadLen := by
        rcases hunfinished with hshort | hshort
        · omega
        · rcases Nat.lt_or_ge b.size protocolHeadLen with hb | hb
          · omega
          · have hsame : fillTo protocolHeadLen b buf = (b, buf, []) := if_neg (Nat.not_lt.mpr hb)
            rw [hsame] at hhead ⊢
            dsimp only at hhead ⊢
            omega
      rw [Turn.notified, fillTo_data h₁ hbuf₁ hatLeast (Nat.le_of_not_lt hlong), hdata₁]
      rfl

/-- A packet that has been cut off is ignored. -/
theorem readPacket_cut {bytes q : List UInt8} (hnext : nextPacket bytes = some q) (hlen : n < q.length)
    (hn : protocolHeadLen ≤ n) : readPacket (q.take n) = none := by
  by_contra hsome
  obtain ⟨pb, hread⟩ := Option.ne_none_iff_exists'.mp hsome
  have hnumber := readPacket_number hread
  unfold nextPacket at hnext
  dsimp only at hnext
  split at hnext
  · next hcond =>
    cases hnext
    rw [protocolHeadLen] at hn
    have hcut : ∀ k, 8 ≤ k → ((bytes.take k).drop 6).take 2 = (bytes.drop 6).take 2 := by
      intro k hk
      rw [List.drop_take, List.take_take, Nat.min_eq_left (by omega)]
    rw [List.length_take] at hlen hnumber
    rw [List.take_take, hcut _ (by rw [protocolHeadLen] at *; omega)] at hnumber
    rw [List.length_take] at hnumber
    omega
  · cases hnext

end Turns

/-! The channels of TCP port forwarding. -/

/-- A TCP channel belongs to a stream with port forwarding. -/
def Incarnation.Allowed (worker : Bool) (tag : Incarnation) : Prop := tag.type = .tcpPortForwarding → worker = true

def HandlerInput.isChunk : HandlerInput → Bool
  | .chunk _ => true
  | _ => false

def HandlerInput.isTurn : HandlerInput → Bool
  | .turn _ _ => true
  | _ => false

namespace MultiplexHandler

/-- All channels of the handler are allowed, those that callbacks work on included. -/
structure Tagged (h : MultiplexHandler) : Prop where
  table : ∀ c ch, h.channels.lookup c = some ch → ch.tag.Allowed h.worker
  stack : ∀ f ∈ h.stack, ∀ r, f.channel = some r → r.2.tag.Allowed h.worker

/-- What everything but the arrival of bytes leaves alone, and the channels after it. -/
structure Steady (h t : MultiplexHandler) : Prop where
  worker : t.worker = h.worker
  incompleteBuf : t.incompleteBuf = h.incompleteBuf
  chunk : t.chunk = h.chunk
  tagged : Tagged t

section Channels
variable {h t u : MultiplexHandler} {c : ChannelId} {ch : HandlerChannel} {f : Frame} {below : List Frame}

theorem Steady.trans (ht : Steady h t) (hu : Steady t u) : Steady h u :=
  ⟨hu.worker.trans ht.worker, hu.incompleteBuf.trans ht.incompleteBuf, hu.chunk.trans ht.chunk, hu.tagged⟩

theorem Tagged.refl (h' : Tagged h) : Steady h h := ⟨rfl, rfl, rfl, h'⟩

theorem Tagged.push (h' : Tagged h) (hf : ∀ r, f.channel = some r → r.2.tag.Allowed h.worker) :
    Steady h { h with stack := f :: h.stack } := by
  refine ⟨rfl, rfl, rfl, h'.table, fun g hg => ?_⟩
  rcases List.mem_cons.mp hg with rfl | hg
  · exact hf
  · exact h'.stack g hg

theorem Tagged.pop (h' : Tagged h) (hstack : h.stack = f :: below) : Steady h { h with stack := below } :=
  ⟨rfl, rfl, rfl, h'.table, fun g hg => h'.stack g (by rw [hstack]; exact List.mem_cons_of_mem _ hg)⟩

theorem Tagged.top (h' : Tagged h) (hstack : h.stack = f :: below) {r : ChannelId × HandlerChannel}
    (hf : f.channel = some r) : r.2.tag.Allowed h.worker :=
  h'.stack f (by rw [hstack]; exact List.mem_cons_self) r hf

theorem Tagged.remove (h' : Tagged h) (c : ChannelId) : Steady h (h.remove c) := by
  have htable : ∀ x ch, (h.remove c).channels.lookup x = some ch → ch.tag.Allowed h.worker := by
    intro x ch hx
    rw [lookup_remove] at hx
    split at hx
    · cases hx
    · exact h'.table x ch hx
  unfold MultiplexHandler.remove at htable ⊢
  split
  · next hsome =>
    rw [if_pos hsome] at htable
    exact ⟨rfl, rfl, rfl, htable, h'.stack⟩
  · exact h'.refl

theorem Tagged.setChannel (h' : Tagged h) {f : HandlerChannel → HandlerChannel} (hf : ∀ ch, (f ch).tag = ch.tag) :
    Steady h (h.setChannel c f) := by
  unfold MultiplexHandler.setChannel
  split
  · exact h'.refl
  next ch hl =>
    refine ⟨rfl, rfl, rfl, fun x ch' hx => ?_, h'.stack⟩
    dsimp only at hx
    rw [Table.lookup_insert_eq] at hx
    split at hx
    · cases hx
      rw [hf]
      exact h'.table c ch hl
    · exact h'.table x ch' hx

theorem Tagged.put (h' : Tagged h) (c : ChannelId) (ch : HandlerChannel) (hch : ch.tag.Allowed h.worker) (n : Nat) :
    Steady h { h.put c ch with next := n } := by
  refine ⟨rfl, rfl, rfl, fun x ch' hx => ?_, h'.stack⟩
  change (h.channels.insert c ch).lookup x = some ch' at hx
  rw [Table.lookup_insert_eq] at hx
  split at hx
  · cases hx
    exact hch
  · exact h'.table x ch' hx

theorem Tagged.tell (h' : Tagged h) (hch : ch.tag.Allowed h.worker) (e : MuxEvent) :
    Steady h (h.tell c ch e).1 := by
  unfold MultiplexHandler.tell
  split
  · exact h'.push fun r hr => by cases hr; exact hch
  · exact h'.refl

theorem Tagged.closeAndRemove (h' : Tagged h) (hch : ch.tag.Allowed h.worker) (reason : CloseReason) :
    Steady h (h.closeAndRemove c ch reason).1 := by
  unfold MultiplexHandler.closeAndRemove
  split
  · exact h'.push fun r hr => by cases hr; exact hch
  · exact h'.remove c

theorem Tagged.answerOpen (h' : Tagged h) (hch : ch.tag.Allowed h.worker) (ok sent : Bool) :
    Steady h (h.answerOpen c ch ok sent).1 := by
  cases sent with
  | true =>
    cases ok with
    | true =>
      have hset : Steady h (h.setChannel c ({ · with status := .open })) := h'.setChannel fun _ => rfl
      exact hset.trans (hset.tagged.tell (by rwa [hset.worker]) _)
    | false => exact h'.remove c
  | false =>
    cases ok with
    | true => exact h'.closeAndRemove hch _
    | false => exact h'.remove c

theorem allowed_of_supports {type : ChannelType} (hsupports : h.supports type = true) (n : Nat) :
    Incarnation.Allowed h.worker ⟨type, n⟩ := by
  intro htype
  obtain rfl : type = .tcpPortForwarding := htype
  exact (Bool.and_eq_true_iff.mp hsupports).1

theorem Tagged.notifyOpen (h' : Tagged h) {type : ChannelType} (hsupports : h.supports type = true)
    (pb : ReadPacket) (alloc : Alloc) (sent : Bool) : Steady h (h.notifyOpen type pb alloc sent).1 := by
  have hallowed := allowed_of_supports hsupports h.next
  unfold MultiplexHandler.notifyOpen
  split
  · exact h'.refl
  · exact h'.refl
  next x =>
    have hput := h'.put x ⟨pb.remoteChannelId, .opening, ⟨type, h.next⟩⟩ hallowed (h.next + 1)
    dsimp only
    split
    · exact hput.trans (hput.tagged.push fun r hr => by cases hr; rw [hput.worker]; exact hallowed)
    · exact hput.trans (hput.tagged.answerOpen (by rw [hput.worker]; exact hallowed) _ _)

theorem Tagged.notifyChannel (h' : Tagged h) (hch : ch.tag.Allowed h.worker) (buf : FlexBuffer) (pb : ReadPacket) :
    Steady h (h.notifyChannel ch buf pb).1 := by
  have hset : ∀ (g : HandlerChannel → HandlerChannel) (e : MuxEvent), (∀ ch, (g ch).tag = ch.tag) →
      Steady h ((h.setChannel pb.localChannelId g).tell pb.localChannelId ch e).1 := by
    intro g e hg
    have hs := h'.setChannel (c := pb.localChannelId) hg
    exact hs.trans (hs.tagged.tell (by rwa [hs.worker]) e)
  unfold MultiplexHandler.notifyChannel
  split
  · exact h'.refl
  · exact h'.refl
  · split
    · exact h'.refl
    split
    · exact hset _ _ fun _ => rfl
    · exact h'.closeAndRemove hch _
  · split
    · exact h'.refl
    split
    · exact h'.push fun r hr => by cases hr; exact hch
    · exact h'.refl
  · exact h'.refl
  · split
    · exact h'.refl
    · exact hset _ _ fun _ => rfl
  · split
    · exact h'.refl
    · exact hset _ _ fun _ => rfl
  · exact h'.closeAndRemove hch _

theorem Tagged.notifyPacket (h' : Tagged h) (buf : FlexBuffer) (alloc : Alloc) (sent : Bool) :
    Steady h (h.notifyPacket buf alloc sent).1 := by
  unfold MultiplexHandler.notifyPacket
  split
  · exact h'.refl
  next pb _ =>
    unfold notifyRead
    split
    · exact h'.push fun r hr => nomatch hr
    dsimp only
    split
    · split
      · exact h'.refl
      split
      · next hsupports => exact h'.notifyOpen hsupports pb alloc sent
      · exact h'.refl
    · split
      · exact h'.refl
      next ch hl => exact h'.notifyChannel (h'.table _ ch hl) buf pb

theorem Tagged.callbackReturns (h' : Tagged h) {ok sent : Bool} {r : MultiplexHandler × List HandlerOutput}
    (hstep : h.callbackReturns ok sent = some r) : Steady h r.1 := by
  cases callbackReturns_step hstep with
  | opening hstack =>
    have hpop := h'.pop hstack
    exact hpop.trans (hpop.tagged.answerOpen (h'.top hstack rfl) ok sent)
  | taken hstack hok => exact h'.pop hstack
  | refused hstack hok =>
    have hpop := h'.pop hstack
    exact hpop.trans (hpop.tagged.closeAndRemove (h'.top hstack rfl) _)
  | @closing c ch below hstack =>
    have hpop := h'.pop hstack
    exact hpop.trans (hpop.tagged.remove c)
  | @timedOut c ch rest below hstack =>
    have hloop := (h'.pop hstack).tagged.pop rfl
    have hremoved := h'.remove c
    refine ⟨hremoved.worker, hremoved.incompleteBuf, hremoved.chunk, hremoved.tagged.table, fun f hf => ?_⟩
    rcases List.mem_cons.mp hf with rfl | hf
    · exact fun r hr => nomatch hr
    · rw [hremoved.worker]
      exact hloop.tagged.stack f hf
  | kept hstack hseen => exact h'.pop hstack
  | told hstack | streamData hstack => exact h'.pop hstack

theorem Tagged.openChannel (h' : Tagged h) {type : ChannelType} (hsupports : h.supports type = true) (alloc : Alloc)
    (cookie : List UInt8) (sent : Bool) : Steady h (h.openChannel type alloc cookie sent).1 := by
  unfold MultiplexHandler.openChannel
  split
  · exact h'.refl
  · exact h'.refl
  next x =>
    have hput := h'.put x ⟨0, .opening, ⟨type, h.next⟩⟩ (allowed_of_supports hsupports h.next) (h.next + 1)
    cases sent with
    | true => exact hput
    | false => exact hput.trans (hput.tagged.remove x)

theorem Tagged.closeChannel (h' : Tagged h) (c : ChannelId) (sent : Bool) : Steady h (h.closeChannel c sent).1 := by
  unfold MultiplexHandler.closeChannel
  split
  · exact h'.refl
  next ch hl => exact h'.closeAndRemove (h'.table c ch hl) _

/-- A loop has taken a step. -/
theorem Tagged.loop {g : Frame} (h' : Tagged h) (hstack : h.stack = f :: below) (hg : g.channel = none) :
    Steady h { h with stack := g :: below } := by
  have hpop := h'.pop hstack
  exact hpop.trans (hpop.tagged.push fun r hr => by rw [hg] at hr; cases hr)

theorem Tagged.visit (h' : Tagged h) {due : Due} {r : MultiplexHandler × List HandlerOutput}
    (hstep : h.visit c due = some r) : Steady h r.1 := by
  have hremoved := h'.remove c
  have hremovedStack : (h.remove c).stack = h.stack := remove_stack
  cases visit_step hstep with
  | @checkpoint ch rest below hstack hl =>
    have hloop := h'.loop (g := .checkpoint (rest.erase c) h.modified) hstack rfl
    cases due with
    | nothing => exact hloop
    | keepAlive sent => exact hloop
    | timeout =>
      unfold checkpointVisit
      dsimp only
      split
      · exact hloop.trans (hloop.tagged.push fun r hr => by cases hr; exact h'.table c ch hl)
      · exact hremoved.trans (hremoved.tagged.loop (hremovedStack.trans hstack) rfl)
  | @closeChannels ch reason rest below hstack hl =>
    have hloop := hremoved.trans (hremoved.tagged.loop
      (g := .closeChannels reason (rest.erase c) (h.remove c).modified) (hremovedStack.trans hstack) rfl)
    unfold closeVisit
    dsimp only
    split
    · refine hloop.trans (hloop.tagged.push fun r hr => ?_)
      cases hr
      rw [hloop.worker]
      exact h'.table c ch hl
    · exact hloop

theorem Tagged.rescan (h' : Tagged h) {r : MultiplexHandler × List HandlerOutput} (hstep : h.rescan = some r) :
    Steady h r.1 := by
  obtain ⟨f, g, below, hstack, -, hg, rfl⟩ := rescan_step hstep
  exact h'.loop hstack (Frame.channel_of_isLoop hg)

theorem Tagged.leave (h' : Tagged h) {r : MultiplexHandler × List HandlerOutput} (hstep : h.leave = some r) :
    Steady h r.1 := by
  obtain ⟨f, below, hstack, -, rfl⟩ := leave_step hstep
  exact h'.pop hstack

end Channels

/-! What passes. -/

section Passed
variable {h : MultiplexHandler} {c : ChannelId} {ch : HandlerChannel}

theorem setChannel_worker (f : HandlerChannel → HandlerChannel) : (h.setChannel c f).worker = h.worker := by
  unfold setChannel
  split <;> rfl

@[simp] theorem passed_callback (checks : List Check) (tag : Incarnation) (e : MuxEvent) :
    passed (checks.map .check ++ [.callback tag e]) = checks.all Check.passes := by
  rw [passed_append]
  change ((checks.map HandlerOutput.check).all _ && true) = _
  rw [Bool.and_true, List.all_map]
  rfl

/-- What the callbacks assert that are told of nothing but the channel. -/
theorem passed_worker (hch : ch.tag.Allowed h.worker) :
    (if ch.tag.type = .tcpPortForwarding then [Check.assertion h.worker] else []).all Check.passes = true := by
  split
  · next htype => simp [Check.passes, hch htype]
  · rfl

theorem passed_tell (hch : ch.tag.Allowed h.worker) {e : MuxEvent}
    (he : ∀ (h : MultiplexHandler) (type : ChannelType),
      h.callbackChecks type e = if type = .tcpPortForwarding then [.assertion h.worker] else []) :
    passed (h.tell c ch e).2 = true := by
  unfold tell
  split
  · rw [call, passed_callback, he]
    exact passed_worker hch
  · rfl

theorem passed_closeAndRemove (hch : ch.tag.Allowed h.worker) (reason : CloseReason) :
    passed (h.closeAndRemove c ch reason).2 = true := by
  unfold closeAndRemove
  split
  · rw [call, passed_callback]
    exact passed_worker hch
  · rfl

theorem passed_answerOpen (hch : ch.tag.Allowed h.worker) (ok sent : Bool) :
    passed (h.answerOpen c ch ok sent).2 = true := by
  cases sent with
  | true =>
    cases ok with
    | true =>
      have hset : ch.tag.Allowed (h.setChannel c ({ · with status := .open })).worker := by
        rwa [setChannel_worker]
      exact passed_tell hset fun _ _ => rfl
    | false => rfl
  | false =>
    cases ok with
    | true => exact passed_closeAndRemove hch _
    | false => rfl

/-- The cookie of an open packet is a string, and one of port forwarding is not empty. -/
def cookieFits (type : ChannelType) (payload : List UInt8) : Bool :=
  match type with
  | .user => payload.isEmpty || decide (0 ∈ payload)
  | .udpPortForwarding => true
  | .tcpPortForwarding => payload.head?.any (· ≠ 0) && decide (0 ∈ payload)

theorem all_callbackChecks_open {type : ChannelType} (hcallbacks : type.hasCallbacks = true) (x : ChannelId)
    (cookie : List UInt8) :
    (h.callbackChecks type (.channelOpen x cookie)).all Check.passes = cookieFits type cookie := by
  cases type with
  | user =>
    by_cases hnil : cookie = []
    · simp [callbackChecks, cookieFits, hnil]
    · simp [callbackChecks, cookieFits, hnil, Check.passes]
  | udpPortForwarding => cases hcallbacks
  | tcpPortForwarding =>
    cases cookie with
    | nil => simp [callbackChecks, cookieFits, Check.passes]
    | cons => simp [callbackChecks, cookieFits, Check.passes]

theorem passed_notifyOpen (type : ChannelType) (pb : ReadPacket) (alloc : Alloc) (sent : Bool) :
    passed (h.notifyOpen type pb alloc sent).2 =
      match alloc with
      | .id _ => cookieFits type pb.payload
      | _ => true := by
  cases alloc with
  | outOfMemory => rfl
  | limitExceeded => cases sent <;> rfl
  | id x =>
    have hindex : (Check.callbacks type.code.toNat).passes = true := by cases type <;> rfl
    rw [notifyOpen]
    dsimp only
    rw [passed_check, hindex, Bool.true_and]
    split
    · next hcallbacks => rw [call, passed_callback, all_callbackChecks_open hcallbacks]
    · next hcallbacks =>
      obtain rfl : type = .udpPortForwarding := by cases type <;> simp [ChannelType.hasCallbacks] at hcallbacks ⊢
      exact passed_answerOpen (fun he => ChannelType.noConfusion he) _ _

/-- Data for a TCP channel are not empty. -/
def dataFits (ch : HandlerChannel) (payload : List UInt8) : Bool :=
  decide (ch.status = .opening) || decide (ch.tag.type ≠ .tcpPortForwarding) || decide (payload ≠ [])

theorem all_callbackChecks_data (hch : ch.tag.Allowed h.worker) (hstatus : ch.status ≠ .opening) (x : ChannelId)
    (data : List UInt8) :
    (h.callbackChecks ch.tag.type (.channelData x data)).all Check.passes = dataFits ch data := by
  unfold callbackChecks
  dsimp only
  split
  · next htype => simp [dataFits, hstatus, htype, Check.passes, hch htype]
  · next htype => simp [dataFits, htype]

theorem packetType_eq_some {code : UInt8} {type : PacketType} (h : packetType code = some type) :
    code = type.code := by
  unfold packetType at h
  split at h <;> cases h <;> rfl

theorem passed_notifyChannel (hch : ch.tag.Allowed h.worker) {buf : FlexBuffer}
    (hbuf : buf.offset + protocolHeadLen ≤ buf.capacity) (pb : ReadPacket) :
    passed (h.notifyChannel ch buf pb).2 =
      (decide (pb.type ≠ PacketType.channelData.code) || dataFits ch pb.payload) := by
  have hset : ∀ (g : HandlerChannel → HandlerChannel) (e : MuxEvent), (∀ (h : MultiplexHandler) (type : ChannelType),
      h.callbackChecks type e = if type = .tcpPortForwarding then [.assertion h.worker] else []) →
      passed ((h.setChannel pb.localChannelId g).tell pb.localChannelId ch e).2 = true :=
    fun g e he => passed_tell (by rwa [setChannel_worker]) he
  cases htype : packetType pb.type with
  | none =>
    have hother : pb.type ≠ PacketType.channelData.code := by
      intro hdata
      rw [hdata, packetType_code] at htype
      cases htype
    rw [notifyChannel, htype, decide_eq_true hother]
    rfl
  | some type =>
    rw [packetType_eq_some htype, notifyChannel, htype]
    cases type with
    | channelOpen => rfl
    | channelOpenConfirmation =>
      dsimp only
      split
      · rfl
      split
      · exact hset _ _ fun _ _ => rfl
      · exact passed_closeAndRemove hch _
    | channelData =>
      dsimp only
      split
      · next hstatus =>
        have hopening : ch.status = .opening := by
          cases hs : ch.status <;> simp_all
        simp [dataFits, hopening]
      · next hstatus =>
        have hopening : ch.status ≠ .opening := fun hs => hstatus (by rw [hs]; decide)
        have hhead : (Check.assertion (buf.offset + protocolHeadLen ≤ buf.capacity)).passes = true :=
          decide_eq_true hbuf
        split
        · rw [headCheck, passed_check, hhead, call, passed_callback, all_callbackChecks_data hch hopening]
          rfl
        · next hcallbacks =>
          have hudp : ch.tag.type ≠ .tcpPortForwarding := fun ht => hcallbacks (by rw [ht]; rfl)
          rw [headCheck, passed_check, hhead]
          simp [dataFits, hudp]
    | channelKeepAlive => rfl
    | channelPending =>
      dsimp only
      split
      · rfl
      · exact hset _ _ fun _ _ => rfl
    | channelResume =>
      dsimp only
      split
      · rfl
      · exact hset _ _ fun _ _ => rfl
    | channelClose => exact passed_closeAndRemove hch _

/-- The cookie matters when a channel is created. -/
def openFits (h : MultiplexHandler) (payload : List UInt8) : Alloc → Option ChannelType → Bool
  | .id _, some type => !h.supports type || cookieFits type payload
  | _, _ => true

/-- What a packet of the peer has to keep to. -/
def packetFits (h : MultiplexHandler) (alloc : Alloc) (pb : ReadPacket) : Bool :=
  decide (pb.remoteChannelId = 0 ∧ pb.localChannelId = 0 ∧ pb.type = PacketType.channelData.code) ||
    decide (pb.type.toNat < packetTypeNames.length) &&
      if pb.type = PacketType.channelOpen.code then h.openFits pb.payload alloc (channelType pb.option)
      else match h.channels.lookup pb.localChannelId with
        | none => true
        | some ch => decide (pb.type ≠ PacketType.channelData.code) || dataFits ch pb.payload

theorem passed_notifyPacket (h' : Tagged h) {buf : FlexBuffer} (hbuf : buf.Fits 0) (alloc : Alloc) (sent : Bool) :
    passed (h.notifyPacket buf alloc sent).2 =
      (decide (protocolHeadLen ≤ buf.size) && (readPacket buf.data).all (h.packetFits alloc)) := by
  have hinside := hbuf.inside
  rw [notifyPacket, passed_check]
  congr 1
  cases hread : readPacket buf.data with
  | none => rfl
  | some pb =>
    have hsize := readPacket_length hread
    rw [hbuf.length_data] at hsize
    have hhead : buf.offset + protocolHeadLen ≤ buf.capacity := by omega
    rw [Option.all_some]
    dsimp only
    rw [notifyRead, packetFits]
    split
    · next hdata =>
      rw [headCheck, passed_check, Check.passes, decide_eq_true hhead, decide_eq_true hdata]
      rfl
    · next hdata =>
      rw [decide_eq_false hdata, Bool.false_or, passed_check, Check.passes]
      congr 1
      split
      · cases channelType pb.option with
        | none => cases alloc <;> rfl
        | some type =>
          dsimp only
          split
          · next hsupports =>
            rw [passed_notifyOpen]
            cases alloc <;> simp [openFits, hsupports]
          · next hsupports =>
            cases alloc <;> simp [openFits, hsupports]
      · cases hl : h.channels.lookup pb.localChannelId with
        | none => rfl
        | some ch => exact passed_notifyChannel (h'.table _ ch hl) hhead pb

theorem passed_callbackReturns (h' : Tagged h) {ok sent : Bool} {r : MultiplexHandler × List HandlerOutput}
    (hstep : h.callbackReturns ok sent = some r) : passed r.2 = true := by
  cases callbackReturns_step hstep with
  | @opening c ch below hstack =>
    have hallowed : ch.tag.Allowed { h with stack := below }.worker := h'.top hstack rfl
    exact passed_answerOpen hallowed ok sent
  | @refused c ch below hstack hok =>
    have hallowed : ch.tag.Allowed { h with stack := below }.worker := h'.top hstack rfl
    exact passed_closeAndRemove hallowed _
  | taken | closing | timedOut | kept | told | streamData => rfl

theorem passed_sent (packets : List (ProtocolBuffer Incarnation)) : passed (packets.map .sent) = true := by
  rw [passed, List.all_map]
  exact List.all_eq_true.mpr fun _ _ => rfl

theorem passed_openChannel (type : ChannelType) (alloc : Alloc) (cookie : List UInt8) (sent : Bool) :
    passed (h.openChannel type alloc cookie sent).2 = true := by
  cases alloc with
  | id x => cases sent <;> rfl
  | _ => rfl

theorem passed_closeChannel (h' : Tagged h) (c : ChannelId) (sent : Bool) :
    passed (h.closeChannel c sent).2 = true := by
  unfold closeChannel
  split
  · rfl
  next ch hl =>
    rw [passed_append, passed_closeAndRemove (h'.table c ch hl), Bool.and_true]
    split <;> rfl

theorem passed_visit (h' : Tagged h) {due : Due} {r : MultiplexHandler × List HandlerOutput}
    (hstep : h.visit c due = some r) : passed r.2 = true := by
  cases visit_step hstep with
  | @checkpoint ch rest below hstack hl =>
    cases due with
    | nothing => rfl
    | keepAlive sent => cases sent <;> rfl
    | timeout =>
      unfold checkpointVisit
      dsimp only
      split
      · rw [call, passed_callback]
        exact passed_worker (h'.table c ch hl)
      · rfl
  | @closeChannels ch reason rest below hstack hl =>
    unfold closeVisit
    dsimp only
    split
    · have hworker := (h'.remove c).worker
      have hallowed : ch.tag.Allowed (h.remove c).worker := by
        rw [hworker]
        exact h'.table c ch hl
      rw [call, passed_callback]
      exact passed_worker hallowed
    · rfl

end Passed

/-! Runs. -/

/-- The state of a handler that is between two steps. -/
structure Sound (h : MultiplexHandler) : Prop where
  tagged : Tagged h
  receiving : Receiving h.incompleteBuf
  unfinished : Unfinished h.incompleteBuf
  chunk : ∀ buf ∈ h.chunk, buf.Fits 0 ∧ 0 < buf.size

/-- What arrives keeps to what the handler relies on: datagrams hold a head, packet types have a name, cookies
are strings, and those for port forwarding are not empty, as its data. In a stream this is about every packet
that has room in the buffer. -/
def Fits (h : MultiplexHandler) : HandlerInput → Bool
  | .datagram buf alloc _ => decide (protocolHeadLen ≤ buf.size) && (readPacket buf.data).all (h.packetFits alloc)
  | .turn alloc _ =>
    match h.chunk with
    | none => true
    | some buf => (nextPacket (h.incompleteBuf.data ++ buf.data)).all fun q =>
        decide (flexBufferMaxLen - flexPaddingLen < q.length) || (readPacket q).all (h.packetFits alloc)
  | _ => true

section Runs
variable {h t u : MultiplexHandler} {i : HandlerInput} {is : List HandlerInput} {o os : List HandlerOutput}

theorem Sound.steady (h' : Sound h) (ht : Steady h t) : Sound t :=
  ⟨ht.tagged, ht.incompleteBuf ▸ h'.receiving, ht.incompleteBuf ▸ h'.unfinished, ht.chunk ▸ h'.chunk⟩

/-- The bytes of the chunk that the loop has not taken yet. -/
def left (h : MultiplexHandler) : Nat := (h.chunk.map FlexBuffer.size).getD 0

theorem Steady.left (ht : Steady h t) : t.left = h.left := by
  rw [MultiplexHandler.left, MultiplexHandler.left, ht.chunk]

theorem turn_fits (h' : Sound h) {buf : FlexBuffer} (hchunk : h.chunk = some buf) (alloc : Alloc) (sent : Bool) :
    ((turn h.incompleteBuf buf).1.notified.bind readPacket).all (h.packetFits alloc) = Fits h (.turn alloc sent) := by
  rw [turn_nextPacket h'.receiving h'.unfinished (h'.chunk buf hchunk).1, Fits, hchunk]
  dsimp only
  cases hnext : nextPacket (h.incompleteBuf.data ++ buf.data) with
  | none => rfl
  | some q =>
    rw [Option.map_some, Option.bind_some, Option.all_some]
    rcases Nat.lt_or_ge (flexBufferMaxLen - flexPaddingLen) q.length with hlong | hshort
    · rw [readPacket_cut hnext hlong (by decide), decide_eq_true hlong]
      rfl
    · rw [List.take_of_length_le hshort, decide_eq_false (Nat.not_lt.mpr hshort), Bool.false_or]

theorem notifyDataTurn_sound (h' : Sound h) {buf : FlexBuffer} (hchunk : h.chunk = some buf) (alloc : Alloc) (sent : Bool) :
    Sound (h.notifyDataTurn buf alloc sent).1 ∧
      passed (h.notifyDataTurn buf alloc sent).2 = Fits h (.turn alloc sent) ∧
      (h.notifyDataTurn buf alloc sent).1.left < h.left := by
  obtain ⟨hbuf, hpos⟩ := h'.chunk buf hchunk
  have hleft : h.left = buf.size := by rw [left, hchunk]; rfl
  have hchecks := passed_turn h'.receiving hbuf
  have hfits := turn_fits h' hchunk alloc sent
  rw [← hfits, notifyDataTurn]
  cases hturn : turn h.incompleteBuf buf with
  | mk ends checks =>
    have hends : (turn h.incompleteBuf buf).1 = ends := by rw [hturn]
    rw [hturn] at hchecks
    cases ends with
    | kept incomplete =>
      obtain ⟨hreceiving, hunfinished⟩ := turn_kept h'.receiving hbuf hends
      refine ⟨⟨⟨h'.tagged.table, h'.tagged.stack⟩, hreceiving, hunfinished, fun b hb => nomatch hb⟩, hchecks, ?_⟩
      rw [hleft]
      exact hpos
    | packet whole rest =>
      obtain ⟨hreceiving, hhead, hrest, hless⟩ := turn_packet h'.receiving h'.unfinished hbuf hends
      obtain ⟨hreset, -⟩ := hreceiving.reset
      have hnext : Sound { h with
          incompleteBuf := whole.reset flexPaddingLen
          chunk := if rest.size = 0 then none else some rest } := by
        refine ⟨⟨h'.tagged.table, h'.tagged.stack⟩, hreset, .inl (show 0 < protocolHeadLen by decide), fun b hb => ?_⟩
        dsimp only at hb
        split at hb
        · cases hb
        · next hne =>
          cases hb
          exact ⟨hrest, Nat.pos_of_ne_zero hne⟩
      have hsteady := hnext.tagged.notifyPacket whole alloc sent
      refine ⟨hnext.steady hsteady, ?_, ?_⟩
      · dsimp only
        rw [passed_append, hchecks, passed_notifyPacket hnext.tagged hreceiving.fits, decide_eq_true hhead]
        rfl
      · rw [hsteady.left, hleft, left]
        dsimp only
        split
        · exact hpos
        · exact hless

theorem passed_rescan {r : MultiplexHandler × List HandlerOutput} (hstep : h.rescan = some r) :
    passed r.2 = true := by
  obtain ⟨f, g, below, -, -, -, rfl⟩ := rescan_step hstep
  rfl

theorem passed_leave {r : MultiplexHandler × List HandlerOutput} (hstep : h.leave = some r) :
    passed r.2 = true := by
  obtain ⟨f, below, -, -, rfl⟩ := leave_step hstep
  rfl

/-- Everything but a chunk and a turn of the loop over it. -/
theorem steady_step (h' : Tagged h) (hchunk : i.isChunk = false) (hturn : i.isTurn = false)
    (hstep : handlerStep h i = some (t, o)) : Steady h t ∧ passed o = Fits h i := by
  cases i with
  | chunk buf => cases hchunk
  | turn alloc sent => cases hturn
  | datagram buf alloc sent =>
    simp only [handlerStep, Option.ite_none_right_eq_some, Option.some.injEq] at hstep
    have hsteady := h'.notifyPacket buf.toFlexBuffer alloc sent
    have hpassed := passed_notifyPacket h' buf.fits alloc sent
    rw [hstep.2] at hsteady hpassed
    exact ⟨hsteady, hpassed⟩
  | callbackReturns ok sent => exact ⟨h'.callbackReturns hstep, passed_callbackReturns h' hstep⟩
  | «open» type alloc cookie sent =>
    simp only [handlerStep, Option.ite_none_right_eq_some, Bool.and_eq_true, Option.some.injEq] at hstep
    have hsteady := h'.openChannel hstep.1.1.2 alloc cookie sent
    have hpassed := passed_openChannel (h := h) type alloc cookie sent
    rw [hstep.2] at hsteady hpassed
    exact ⟨hsteady, hpassed⟩
  | close c sent =>
    simp only [handlerStep, Option.ite_none_right_eq_some, Option.some.injEq] at hstep
    have hsteady := h'.closeChannel c sent
    have hpassed := passed_closeChannel h' c sent
    rw [hstep.2] at hsteady hpassed
    exact ⟨hsteady, hpassed⟩
  | write | pend | resume =>
    simp only [handlerStep, sends, Option.ite_none_right_eq_some, Option.some.injEq, Prod.mk.injEq] at hstep
    obtain ⟨-, rfl, rfl⟩ := hstep
    exact ⟨h'.refl, passed_sent _⟩
  | checkpoint | stop =>
    simp only [handlerStep, Option.ite_none_right_eq_some, Option.some.injEq, Prod.mk.injEq] at hstep
    obtain ⟨-, rfl, rfl⟩ := hstep
    refine ⟨⟨rfl, rfl, rfl, h'.table, fun f hf => ?_⟩, rfl⟩
    cases List.mem_singleton.mp hf
    exact fun r hr => nomatch hr
  | visit c due => exact ⟨h'.visit hstep, passed_visit h' hstep⟩
  | rescan => exact ⟨h'.rescan hstep, passed_rescan hstep⟩
  | leave => exact ⟨h'.leave hstep, passed_leave hstep⟩

/-- A step keeps the handler sound, and what it relies on holds when what arrives fits. -/
theorem sound_step (h' : Sound h) (hstep : handlerStep h i = some (t, o)) : Sound t ∧ passed o = Fits h i := by
  cases i with
  | chunk buf =>
    simp only [handlerStep, Option.ite_none_right_eq_some, Bool.and_eq_true, decide_eq_true_eq,
      Option.some.injEq, Prod.mk.injEq] at hstep
    obtain ⟨⟨-, hpos⟩, rfl, rfl⟩ := hstep
    refine ⟨⟨⟨h'.tagged.table, h'.tagged.stack⟩, h'.receiving, h'.unfinished, fun b hb => ?_⟩, rfl⟩
    cases hb
    exact ⟨buf.fits, hpos⟩
  | turn alloc sent =>
    simp only [handlerStep] at hstep
    split at hstep
    · cases hstep
    next buf hchunk =>
      simp only [Option.ite_none_right_eq_some, Option.some.injEq] at hstep
      obtain ⟨hsound, hpassed, -⟩ := notifyDataTurn_sound h' hchunk alloc sent
      rw [hstep.2] at hsound hpassed
      exact ⟨hsound, hpassed⟩
  | _ =>
    obtain ⟨hsteady, hpassed⟩ := steady_step h'.tagged rfl rfl hstep
    exact ⟨h'.steady hsteady, hpassed⟩

/-- Only a turn of the loop takes bytes from the chunk. -/
theorem left_step (h' : Sound h) (hchunk : i.isChunk = false) (hstep : handlerStep h i = some (t, o)) :
    i.isTurn.toNat + t.left ≤ h.left := by
  cases i with
  | chunk buf => cases hchunk
  | turn alloc sent =>
    simp only [handlerStep] at hstep
    split at hstep
    · cases hstep
    next buf hbuf =>
      simp only [Option.ite_none_right_eq_some, Option.some.injEq] at hstep
      obtain ⟨-, -, hless⟩ := notifyDataTurn_sound h' hbuf alloc sent
      rw [hstep.2] at hless
      exact (Nat.add_comm 1 t.left).trans_le hless
  | _ =>
    obtain ⟨hsteady, -⟩ := steady_step h'.tagged rfl rfl hstep
    rw [hsteady.left]
    exact Nat.le_of_eq (Nat.zero_add _)

/-- However often the handler goes on with a chunk, with callbacks and calls in between: there are no more turns
of the loop than bytes in it. -/
def LoopEnds (h : MultiplexHandler) : Prop :=
  ∀ is os t, Machine.Run handlerMachine Machine.Free h is os t → (∀ i ∈ is, i.isChunk = false) →
    is.countP HandlerInput.isTurn ≤ h.left

theorem Sound.loopEnds (h' : Sound h) : LoopEnds h := by
  have hbound : ∀ is os t, Machine.Run handlerMachine Machine.Free h is os t → (∀ i ∈ is, i.isChunk = false) →
      is.countP HandlerInput.isTurn + t.left ≤ h.left := by
    intro is os t hrun hno
    induction hrun with
    | nil => exact Nat.le_of_eq (Nat.zero_add _)
    | @cons s t _ i _ _ _ _ hstep _ ih =>
      have hfirst := left_step h' (hno i List.mem_cons_self) hstep
      have hrest := ih (sound_step h' hstep).1 fun j hj => hno j (List.mem_cons_of_mem _ hj)
      rw [List.countP_cons]
      cases hturn : i.isTurn <;> simp [hturn] at hfirst ⊢ <;> omega
  intro is os t hrun hno
  exact (Nat.le_add_right _ _).trans (hbound is os t hrun hno)

theorem run_sound {s : MultiplexHandler} (hs : Sound s) (hrun : Machine.Run handlerMachine Machine.Free s is os u) :
    Sound u ∧ (passed os = true ↔ Machine.Run handlerMachine (fun h i => Fits h i = true) s is os u) := by
  induction hrun with
  | nil => exact ⟨hs, fun _ => .nil _, fun _ => rfl⟩
  | cons _ hstep _ ih =>
    obtain ⟨hsound, hpassed⟩ := sound_step hs hstep
    obtain ⟨hlast, hrest⟩ := ih hsound
    refine ⟨hlast, ?_⟩
    rw [Machine.run_cons_iff hstep, passed_append, Bool.and_eq_true, hpassed, hrest]

theorem sound_create (reliable worker : Bool) : Sound (create reliable worker) where
  tagged := ⟨fun _ _ hl => (nomatch hl), fun _ hf => (nomatch hf)⟩
  receiving := receiving_incompleteBuf
  unfinished := .inl (show 0 < protocolHeadLen by decide)
  chunk := fun _ hb => nomatch hb

end Runs

/-- In a run over anything that arrives, all lookups are in range, all assertions hold and all cookies end inside
their packets when, and only when, every step fits; the loop over a chunk always ends. -/
theorem receive_safe_iff {reliable worker : Bool} {is : List HandlerInput} {os : List HandlerOutput}
    {u : MultiplexHandler} (hrun : Machine.Run handlerMachine Machine.Free (create reliable worker) is os u) :
    ((∀ c, .check c ∈ os → c.passes = true) ∧ LoopEnds u) ↔
      Machine.Run handlerMachine (fun h i => Fits h i = true) (create reliable worker) is os u := by
  obtain ⟨hsound, hiff⟩ := run_sound (sound_create reliable worker) hrun
  rw [← hiff, passed, List.all_eq_true]
  constructor
  · intro hall o ho
    cases o with
    | check c => exact hall.1 c ho
    | _ => rfl
  · exact fun hall => ⟨fun c hc => hall _ hc, hsound.loopEnds⟩

/-- A stream that a peer opens a channel on, with the cookie of one letter and in two chunks. -/
def wellBehaved : List HandlerInput :=
  [.chunk (arrival [1, 0, 0, 0, 0]), .turn .outOfMemory true,
    .chunk (arrival [7, 0, 2, 65, 0]), .turn (.id 1) true, .callbackReturns true true, .callbackReturns true true]

theorem receive_safe_cut : ∃ u os, handlerMachine.exec (create true false) wellBehaved = some (u, os) ∧
    (∀ c, .check c ∈ os → c.passes = true) ∧ LoopEnds u := by
  obtain ⟨u, os, hexec, -⟩ := Machine.exec_any handlerMachine (create true false) wellBehaved (fun _ => true)
    (by decide +kernel)
  have hfits := Machine.run_of_exec (g := Fits) (G := fun h i => Fits h i = true) (fun _ _ hg => hg) hexec
    (by decide +kernel)
  exact ⟨u, os, hexec, (receive_safe_iff (Machine.free_run_of_exec hexec)).mpr hfits⟩

/-- A cookie without an end, and a packet of a type that has no name. -/
def misbehaved : List HandlerInput :=
  [.chunk (arrival [1, 0, 0, 0, 0, 7, 0, 1, 65, 255, 0, 0, 0, 0, 0, 0, 0]), .turn (.id 1) true,
    .callbackReturns true true, .callbackReturns true true, .turn .outOfMemory true]

theorem receive_unsafe : ∃ os u, Machine.Run handlerMachine Machine.Free (create true false) misbehaved os u ∧
    ∃ c, .check c ∈ os ∧ c.passes = false := by
  obtain ⟨u, os, hexec, hfailed⟩ := Machine.exec_any handlerMachine (create true false) misbehaved
    (fun r => decide (.check (.cookie [65]) ∈ r.2) && decide (.check (.packetTypeName 255) ∈ r.2)) (by decide +kernel)
  rw [Bool.and_eq_true, decide_eq_true_eq, decide_eq_true_eq] at hfailed
  exact ⟨os, u, Machine.free_run_of_exec hexec, .packetTypeName 255, hfailed.2, rfl⟩

end MultiplexHandler
end CarrierSdk.Mux
