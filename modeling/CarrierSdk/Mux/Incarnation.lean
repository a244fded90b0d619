import CarrierSdk.Mux.Link

/-! Packets and the incarnations they reach. A packet finds its channel by id alone, so the
ids that are still named must not be put into use again. -/
namespace CarrierSdk.Mux

/-- What a packet does to a channel that exists, it does to the incarnation it was sent by. -/
def SameIncarnation (os : List LinkOutput) : Prop :=
  ∀ p e packet channel, .effect p e packet channel ∈ os → packet = channel

/-- Whatever names a live channel belongs to its incarnation. -/
structure Bound (s : Link) : Prop where
  zero : ∀ p, (s.channels p).lookup 0 = none
  peer : ∀ p c ch e, (s.channels p).lookup c = some ch →
    (s.channels p.other).lookup ch.remoteId = some e → e.tag = ch.tag
  arriving : ∀ p pb ch, pb ∈ s.wire p.other →
    (s.channels p).lookup pb.localChannelId = some ch → ch.tag = pb.tag
  leaving : ∀ p pb ch, pb ∈ s.wire p → pb.binds = true →
    (s.channels p).lookup pb.remoteChannelId = some ch → ch.tag = pb.tag

variable {s : Link} {p : Peer}

theorem Bound.setAt_zero (hb : Bound s) {chs : Channels Nat} (h : chs = s.channels p) :
    SetAt (s.channels p) chs 0 none := by
  rw [h]
  exact setAt_same (hb.zero p)

/-- One peer's table changes at one key, packets arrive and packets go out. -/
theorem Bound.update (hb : Bound s) {c : ChannelId} {o : Option (Channel Nat)} {r : MuxResult Nat}
    {w : Wires Packet} {next : Nat} (hr : SetAt (s.channels p) r.channels c o)
    (hw : ∀ q, ∀ pb ∈ w q, pb ∈ s.wire q) (hz : c = 0 → o = none)
    (hto : ∀ ch e, o = some ch → (s.channels p.other).lookup ch.remoteId = some e → e.tag = ch.tag)
    (hfrom : ∀ ch x e, o = some ch → (s.channels p.other).lookup x = some e → e.remoteId = c →
      ch.tag = e.tag)
    (harr : ∀ ch pb, o = some ch → pb ∈ s.wire p.other → pb.localChannelId = c → ch.tag = pb.tag)
    (hleave : ∀ ch pb, o = some ch → pb ∈ s.wire p → pb.binds = true → pb.remoteChannelId = c →
      ch.tag = pb.tag)
    (hsent : ∀ y ∈ r.sent, ∀ e, (s.channels p.other).lookup y.localChannelId = some e → e.tag = y.tag)
    (hbinds : ∀ y ∈ r.sent, y.binds = true → ∀ e, r.channels.lookup y.remoteChannelId = some e →
      e.tag = y.tag) :
    Bound (s.after p w next r) := by
  have hself : (s.after p w next r).channels p = r.channels := Function.update_self ..
  have hother : (s.after p w next r).channels p.other = s.channels p.other :=
    Function.update_of_ne p.other_ne ..
  have hwire : ∀ q pb, pb ∈ (s.after p w next r).wire q → pb ∈ s.wire q ∨ (q = p ∧ pb ∈ r.sent) := by
    intro q pb h
    exact (Wires.mem_send.mp h).imp_left (hw q pb)
  constructor
  case zero =>
    intro q
    rcases p.eq_or_other q with rfl | rfl
    · rw [hself, hr 0]
      split
      next h => exact hz h.symm
      · exact hb.zero _
    · rw [hother]
      exact hb.zero _
  case peer =>
    intro q x ch e hx he
    rcases p.eq_or_other q with rfl | rfl
    · rw [hself, hr x] at hx
      rw [hother] at he
      split at hx
      · exact hto ch e hx he
      · exact hb.peer _ _ _ _ hx he
    · rw [hother] at hx
      rw [Peer.other_other, hself, hr] at he
      split at he
      next h => exact hfrom e x ch he hx h
      · exact hb.peer _ _ _ _ hx (by rwa [Peer.other_other])
  case arriving =>
    intro q pb ch hm hx
    rcases p.eq_or_other q with rfl | rfl
    · rw [hself, hr] at hx
      rcases hwire _ _ hm with hm | ⟨h, -⟩
      · split at hx
        next h => exact harr ch pb hx hm h
        · exact hb.arriving _ _ _ hm hx
      · exact absurd h q.other_ne
    · rw [hother] at hx
      rcases hwire _ _ hm with hm | ⟨-, hm⟩
      · exact hb.arriving _ _ _ hm hx
      · exact hsent pb hm ch hx
  case leaving =>
    intro q pb ch hm hbi hx
    rcases p.eq_or_other q with rfl | rfl
    · rw [hself] at hx
      rcases hwire _ _ hm with hm | ⟨-, hm⟩
      · rw [hr] at hx
        split at hx
        next h => exact hleave ch pb hx hm hbi h
        · exact hb.leaving _ _ _ hm hbi hx
      · exact hbinds pb hm hbi ch hx
    · rw [hother] at hx
      rcases hwire _ _ hm with hm | ⟨h, -⟩
      · exact hb.leaving _ _ _ hm hbi hx
      · exact absurd h p.other_ne

/-- The table stays as it is. -/
theorem Bound.sends (hb : Bound s) {r : MuxResult Nat} {w : Wires Packet} {next : Nat}
    (hr : r.channels = s.channels p) (hw : ∀ q, ∀ pb ∈ w q, pb ∈ s.wire q)
    (hsent : ∀ y ∈ r.sent, ∀ e, (s.channels p.other).lookup y.localChannelId = some e → e.tag = y.tag)
    (hbinds : ∀ y ∈ r.sent, y.binds = true → ∀ e, (s.channels p).lookup y.remoteChannelId = some e →
      e.tag = y.tag) :
    Bound (s.after p w next r) :=
  hb.update (hb.setAt_zero hr) hw (fun _ => rfl) (fun _ _ h => nomatch h) (fun _ _ _ h => nomatch h)
    (fun _ _ h => nomatch h) (fun _ _ h => nomatch h) hsent
    (fun y hy hbi e he => hbinds y hy hbi e (hr ▸ he))

/-- A channel goes. -/
theorem Bound.removes (hb : Bound s) {c : ChannelId} {r : MuxResult Nat} {w : Wires Packet} {next : Nat}
    (hr : SetAt (s.channels p) r.channels c none) (hw : ∀ q, ∀ pb ∈ w q, pb ∈ s.wire q)
    (hsent : ∀ y ∈ r.sent, y.binds = false ∧
      ∀ e, (s.channels p.other).lookup y.localChannelId = some e → e.tag = y.tag) :
    Bound (s.after p w next r) :=
  hb.update hr hw (fun _ => rfl) (fun _ _ h => nomatch h) (fun _ _ _ h => nomatch h)
    (fun _ _ h => nomatch h) (fun _ _ h => nomatch h) (fun y hy => (hsent y hy).2)
    (fun y hy hbi => absurd hbi (by simp [(hsent y hy).1]))

/-- What is sent on a channel names the other end's incarnation. -/
theorem Bound.onChannel (hb : Bound s) {r : MuxResult Nat} {next : Nat} {type : PacketType}
    {c : ChannelId} {ch : Channel Nat} {payload : List UInt8} (hr : r.channels = s.channels p)
    (hl : (s.channels p).lookup c = some ch) (ht : type ≠ .channelOpen ∧ type ≠ .channelOpenConfirmation)
    (hsent : r.sent = [sendPacket type .user c ch.remoteId payload ch.tag]) :
    Bound (s.after p s.wire next r) := by
  refine hb.sends hr (fun _ _ h => h) ?_ ?_
  · intro y hy e he
    rw [hsent, List.mem_singleton] at hy
    subst hy
    exact hb.peer p c ch e hl he
  · intro y hy hbi
    rw [hsent, List.mem_singleton] at hy
    subst hy
    simp [ProtocolBuffer.binds, sendPacket, ht.1, ht.2] at hbi

/-- An id that is named nowhere can be given to a new channel. -/
theorem Bound.adds (hb : Bound s) {r : MuxResult Nat} {w : Wires Packet} {next : Nat} {c : ChannelId}
    {ch : Channel Nat} {y : Packet} (hu : Unnamed s p c) (hc : c ≠ 0)
    (hr : SetAt (s.channels p) r.channels c (some ch)) (hw : ∀ q, ∀ pb ∈ w q, pb ∈ s.wire q)
    (hto : ∀ e, (s.channels p.other).lookup ch.remoteId = some e → e.tag = ch.tag)
    (hsent : r.sent = [y]) (hy : y.localChannelId = ch.remoteId ∧ y.remoteChannelId = c ∧ y.tag = ch.tag) :
    Bound (s.after p w next r) := by
  refine hb.update hr hw (fun h => absurd h hc) ?_ ?_ ?_ ?_ ?_ ?_
  · intro _ e h he
    rw [← Option.some.inj h] at he ⊢
    exact hto e he
  · intro _ x e _ he h
    exact absurd h (hu.peer x e he)
  · intro _ pb _ hm h
    exact absurd h (hu.arriving pb hm)
  · intro _ pb _ hm hbi h
    exact absurd h (hu.leaving pb hm hbi)
  · intro z hz e he
    rw [hsent, List.mem_singleton] at hz
    rw [hz, hy.1] at he
    rw [hz, hy.2.2]
    exact hto e he
  · intro z hz _ e he
    rw [hsent, List.mem_singleton] at hz
    rw [hz, hy.2.1, hr c, if_pos rfl] at he
    rw [hz, hy.2.2, Option.some.inj he]

/-- What an arriving packet does keeps the incarnations apart. -/
theorem Bound.deliver (hb : Bound s) {env : NotifyEnv} {pb : Packet} {rest : List Packet}
    (hw : s.wire p.other = pb :: rest) (hf : allocFree (s.channels p) env.alloc = true)
    (hg : reusesSafely s (.deliver p env) = true) :
    Bound (s.after p (s.wire.taken p.other) s.next (notifyPacket (s.channels p) pb env)) := by
  have hm : pb ∈ s.wire p.other := by
    rw [hw]
    exact List.mem_cons_self
  have hback : ∀ q, ∀ y ∈ s.wire.taken p.other q, y ∈ s.wire q := fun _ _ => Wires.mem_of_taken
  have hopen : pb.type = .channelOpen → ∀ e,
      (s.channels p.other).lookup pb.remoteChannelId = some e → e.tag = pb.tag := fun ht e he =>
    hb.leaving p.other pb e hm (by simp [ProtocolBuffer.binds, ht]) he
  have hn : Notified (s.channels p) pb env _ := notifyPacket_notified hf
  cases hn with
  | idle hr hs =>
    refine hb.sends hr hback (fun y hy e he => ?_) (fun y hy _ e he => ?_)
    · obtain ⟨-, -, ht, h0 | ⟨hrem, hty⟩⟩ := hs y hy
      · rw [h0, hb.zero] at he
        cases he
      · rw [ht]
        exact hopen hty e (hrem ▸ he)
    · rw [(hs y hy).2.1, hb.zero] at he
      cases he
  | born c ht ho he hr hs =>
    have hput : putsIntoUse s (.deliver p env) = some (p, c) := by
      obtain ⟨alloc, accept, keep, sent⟩ := env
      obtain ⟨rfl, rfl, rfl⟩ := he
      simp [putsIntoUse, hw, ht, ho]
    rw [reusesSafely, hput] at hg
    have hu : Unnamed s p c := unnamed_of_named (by simpa using hg)
    have hc : c ≠ 0 := by
      rw [he.1] at hf
      simp only [allocFree, Bool.and_eq_true, decide_eq_true_eq] at hf
      exact hf.1.1
    exact hb.adds hu hc hr hback (hopen ht) hs ⟨rfl, rfl, rfl⟩
  | changed ch o ht hl hr hk hs =>
    have htag : ch.tag = pb.tag := hb.arriving p pb ch hm hl
    refine hb.update hr hback ?_ ?_ ?_ ?_ ?_ ?_ ?_
    · intro h
      rw [h, hb.zero] at hl
      cases hl
    · intro ch' e h he
      obtain ⟨hkt, hkr | ⟨hconf, hkr⟩⟩ := hk ch' h
      · rw [hkt]
        exact hb.peer p _ ch e hl (hkr ▸ he)
      · rw [hkt, htag]
        exact hb.leaving p.other pb e hm (by simp [ProtocolBuffer.binds, hconf]) (hkr ▸ he)
    · intro ch' x e h he hx
      rw [(hk ch' h).1]
      refine hb.peer p.other x e ch he ?_
      rwa [Peer.other_other, hx]
    · intro ch' y h hy hx
      rw [(hk ch' h).1]
      exact hb.arriving p y ch hy (hx ▸ hl)
    · intro ch' y h hy hbi hx
      rw [(hk ch' h).1]
      exact hb.leaving p y ch hy hbi (hx ▸ hl)
    · intro y hy
      rw [hs] at hy
      cases hy
    · intro y hy
      rw [hs] at hy
      cases hy

theorem bound_step {t : Link} {i : LinkInput} {o : List LinkOutput} (hb : Bound s)
    (hg : reusesSafely s i = true) (h : linkStep s i = some (t, o)) : Bound t := by
  have hback : ∀ q, ∀ y ∈ s.wire q, y ∈ s.wire q := fun _ _ hy => hy
  have hquiet : ∀ {p : Peer} {next : Nat} {r : MuxResult Nat}, r.channels = s.channels p → r.sent = [] →
      Bound (s.after p s.wire next r) := by
    intro p next r hr hs
    exact hb.sends hr hback (fun y hy => by rw [hs] at hy; cases hy)
      (fun y hy => by rw [hs] at hy; cases hy)
  cases i with
  | «open» p alloc cookie sent =>
    simp only [linkStep] at h
    split at h
    next hf =>
      cases h
      rcases openChannel_cases cookie sent s.next hf with
        ⟨hr, hs⟩ | ⟨c, rfl, rfl, hc, hl, hr, hs⟩
      · exact hquiet hr hs
      · have hu : Unnamed s p c := unnamed_of_named (by simpa [reusesSafely, putsIntoUse] using hg)
        refine hb.adds hu hc hr hback (fun e he => ?_) hs ⟨rfl, rfl, rfl⟩
        rw [hb.zero] at he
        cases he
    · cases h
  | close p c sent =>
    cases h
    rcases closeChannel_cases (s.channels p) c sent with ⟨hr, hs⟩ | ⟨ch, hl, hr, hs⟩
    · exact hquiet hr hs
    · refine hb.removes hr hback fun y hy => ?_
      rw [hs] at hy
      split at hy
      · rw [List.mem_singleton.mp hy]
        exact ⟨rfl, fun e he => hb.peer p c ch e hl he⟩
      · cases hy
  | write p c payload sent =>
    cases h
    obtain ⟨hr, hs | hs | ⟨ch, hl, -, -, hs⟩⟩ :=
      writeChannel_cases (s.channels p) c payload sent streamTag
    · exact hquiet hr hs
    · refine hb.sends hr hback (fun y hy e he => ?_) (fun y hy _ e he => ?_)
      · rw [hs, List.mem_singleton] at hy
        rw [hy] at he
        exact absurd he (by rw [sendPacket, hb.zero]; simp)
      · rw [hs, List.mem_singleton] at hy
        rw [hy] at he
        exact absurd he (by rw [sendPacket, hb.zero]; simp)
    · exact hb.onChannel hr hl ⟨by decide, by decide⟩ hs
  | pend p c sent =>
    cases h
    obtain ⟨hr, hs | ⟨ch, hl, -, -, hs⟩⟩ := sendOnChannel_cases .channelPending (s.channels p) c [] sent
    · exact hquiet hr hs
    · exact hb.onChannel hr hl ⟨by decide, by decide⟩ hs
  | resume p c sent =>
    cases h
    obtain ⟨hr, hs | ⟨ch, hl, -, -, hs⟩⟩ := sendOnChannel_cases .channelResume (s.channels p) c [] sent
    · exact hquiet hr hs
    · exact hb.onChannel hr hl ⟨by decide, by decide⟩ hs
  | deliver p env =>
    simp only [linkStep] at h
    split at h
    · cases h
    next pb rest hw =>
      split at h
      next hf =>
        cases h
        exact hb.deliver hw hf hg
      · cases h

/-- What a step shows of packets and channels. -/
theorem effects_step {t : Link} {i : LinkInput} {o : List LinkOutput} (hb : Bound s)
    (h : linkStep s i = some (t, o)) : SameIncarnation o := by
  have hplain : ∀ (p : Peer) (events : List MuxEvent), SameIncarnation (events.map (.event p)) := by
    intro p events q e m n hm
    obtain ⟨_, -, he⟩ := List.mem_map.mp hm
    cases he
  cases i with
  | «open» p alloc cookie sent =>
    simp only [linkStep] at h
    split at h
    · cases h
      exact hplain _ _
    · cases h
  | close p c sent =>
    cases h
    exact hplain _ _
  | write p c payload sent =>
    cases h
    exact hplain _ _
  | pend p c sent =>
    cases h
    exact hplain _ _
  | resume p c sent =>
    cases h
    exact hplain _ _
  | deliver p env =>
    simp only [linkStep] at h
    split at h
    · cases h
    next pb rest hw =>
      split at h
      · cases h
        unfold deliverOutputs
        split
        next ch hl =>
          split
          · exact hplain _ _
          · intro q e m n hm
            obtain ⟨_, -, he⟩ := List.mem_map.mp hm
            cases he
            exact (hb.arriving p pb ch (by rw [hw]; exact List.mem_cons_self) hl).symm
        · exact hplain _ _
      · cases h

theorem bound_new : Bound .new where
  zero _ := rfl
  peer _ _ _ _ h := nomatch h
  arriving _ _ _ h := nomatch h
  leaving _ _ _ h := nomatch h

/-- The state stays bound, and every effect so far stayed inside one incarnation. -/
structure Apart (s : Link) (os : List LinkOutput) : Prop where
  bound : Bound s
  effects : SameIncarnation os

/-- As long as no id is put into use that is still named, no packet reaches an incarnation
other than its own. -/
theorem effects_same_incarnation {is : List LinkInput} {os : List LinkOutput} {u : Link}
    (h : linkMachine.Run (fun s i => reusesSafely s i = true) .new is os u) : SameIncarnation os := by
  have hstart : Apart .new [] := ⟨bound_new, fun _ _ _ _ hm => nomatch hm⟩
  have hend : Apart u ([] ++ os) := by
    refine h.history (fun {s i t o os} hi hg hs => ⟨bound_step hi.bound hg hs, ?_⟩) hstart
    intro p e m n hm
    rcases List.mem_append.mp hm with hm | hm
    · exact hi.effects p e m n hm
    · exact effects_step hi.bound hs p e m n hm
  exact hend.effects

def Alloc.granted (c : ChannelId) : NotifyEnv := ⟨.id c, true, true, true⟩

/-- A channel is opened and confirmed, and a byte goes over it. -/
def openAndWrite : List LinkInput :=
  [.open .left (.id 1) [] true, .deliver .right (Alloc.granted 1), .deliver .left (Alloc.granted 2),
    .write .left 1 [7] true, .deliver .right (Alloc.granted 2)]

theorem effects_same_incarnation_small : ∃ os : List LinkOutput,
    .effect .right (.channelData 1 [7]) 1 1 ∈ os ∧ SameIncarnation os := by
  obtain ⟨u, os, he, hp⟩ := linkMachine.exec_any .new openAndWrite
    (fun r => decide (LinkOutput.effect .right (.channelData 1 [7]) 1 1 ∈ r.2)) (by decide +kernel)
  exact ⟨os, of_decide_eq_true hp,
    effects_same_incarnation (Machine.run_of_exec (fun _ _ h => h) he (by decide +kernel))⟩

/-- The acceptor closes and its id serves the next open packet, behind which data for the
closed channel still arrive. -/
theorem effects_cross_incarnations : ¬ ∀ (is : List LinkInput) (os : List LinkOutput) (u : Link),
    linkMachine.Run Machine.Free .new is os u → SameIncarnation os := by
  intro h
  obtain ⟨u, os, he, hp⟩ := linkMachine.exec_any .new
    [.open .left (.id 1) [] true, .deliver .right (Alloc.granted 1), .deliver .left (Alloc.granted 2),
      .close .right 1 true, .open .left (.id 2) [] true, .write .left 1 [7] true,
      .deliver .right (Alloc.granted 1), .deliver .right (Alloc.granted 2)]
    (fun r => decide (LinkOutput.effect .right (.channelData 1 [7]) 1 2 ∈ r.2)) (by decide +kernel)
  have hsame := h _ os u (Machine.free_run_of_exec he) .right _ 1 2 (of_decide_eq_true hp)
  exact absurd hsame (by decide)

end CarrierSdk.Mux
