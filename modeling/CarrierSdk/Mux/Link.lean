import CarrierSdk.Mux.Multiplexer
import CarrierSdk.Library.Machine
import CarrierSdk.Library.Peers

/-! Two multiplexers over a connected reliable stream. Every open call starts an incarnation
of its own, and the packets and channels that stem from it carry its number. -/
namespace CarrierSdk.Mux

abbrev Packet := ProtocolBuffer Nat

/-- Both handlers, the packets in flight, and the number of the next incarnation. -/
structure Link where
  channels : Peer → Channels Nat
  wire : Wires Packet
  next : Nat

/-- The number of packets that belong to the stream itself. -/
def streamTag : Nat := 0

def Link.new : Link := ⟨fun _ => ∅, .empty, streamTag + 1⟩

inductive LinkInput
  | open (p : Peer) (alloc : Alloc) (cookie : List UInt8) (sent : Bool)
  | close (p : Peer) (c : ChannelId) (sent : Bool)
  | write (p : Peer) (c : ChannelId) (payload : List UInt8) (sent : Bool)
  | pend (p : Peer) (c : ChannelId) (sent : Bool)
  | resume (p : Peer) (c : ChannelId) (sent : Bool)
  | deliver (p : Peer) (env : NotifyEnv)
  deriving DecidableEq

/-- Callbacks of a peer. Those that a packet causes on a channel that exists come with the
incarnations of both. -/
inductive LinkOutput
  | event (p : Peer) (e : MuxEvent)
  | effect (p : Peer) (e : MuxEvent) (packet channel : Nat)
  deriving DecidableEq

/-- All that is known of the allocator: an id it hands out is not in use. -/
def allocFree (chs : Channels Nat) : Alloc → Bool
  | .id c => decide (c ≠ 0) && decide (c ≤ maxChannelId) && (chs.lookup c).isNone
  | _ => true

def Link.after (s : Link) (p : Peer) (w : Wires Packet) (next : Nat) (r : MuxResult Nat) : Link :=
  ⟨Function.update s.channels p r.channels, w.send p r.sent, next⟩

def deliverOutputs (p : Peer) (pb : Packet) (found : Option (Channel Nat)) (events : List MuxEvent) :
    List LinkOutput :=
  match found with
  | some ch =>
    if pb.type = .channelOpen then events.map (.event p)
    else events.map fun e => .effect p e pb.tag ch.tag
  | none => events.map (.event p)

def linkStep (s : Link) : LinkInput → Option (Link × List LinkOutput)
  | .open p alloc cookie sent =>
    if allocFree (s.channels p) alloc then
      let r := openChannel (s.channels p) alloc cookie sent s.next
      some (s.after p s.wire (s.next + 1) r, r.events.map (.event p))
    else none
  | .close p c sent =>
    let r := closeChannel (s.channels p) c sent
    some (s.after p s.wire s.next r, r.events.map (.event p))
  | .write p c payload sent =>
    let r := elaStreamWriteChannel (s.channels p) c payload sent streamTag
    some (s.after p s.wire s.next r, r.events.map (.event p))
  | .pend p c sent =>
    let r := pendChannel (s.channels p) c sent
    some (s.after p s.wire s.next r, r.events.map (.event p))
  | .resume p c sent =>
    let r := resumeChannel (s.channels p) c sent
    some (s.after p s.wire s.next r, r.events.map (.event p))
  | .deliver p env =>
    match s.wire p.other with
    | [] => none
    | pb :: _ =>
      if allocFree (s.channels p) env.alloc then
        let r := notifyPacket (s.channels p) pb env
        some (s.after p (s.wire.taken p.other) s.next r,
          deliverOutputs p pb ((s.channels p).lookup pb.localChannelId) r.events)
      else none

def linkMachine : Machine Link LinkInput LinkOutput := ⟨linkStep⟩

/-! What may still name a channel id. -/

/-- The packets whose receiver takes the sender's id as the remote id of a channel. -/
def ProtocolBuffer.binds (pb : Packet) : Bool :=
  decide (pb.type = .channelOpen) || decide (pb.type = .channelOpenConfirmation)

/-- An id that a packet in flight is addressed to, that a packet in flight is about to bind,
or that a channel of the other peer has as its remote id. -/
def named (s : Link) (p : Peer) (c : ChannelId) : Bool :=
  (s.wire p.other).any (fun pb => decide (pb.localChannelId = c)) ||
  (s.wire p).any (fun pb => pb.binds && decide (pb.remoteChannelId = c)) ||
  (s.channels p.other).entries.any fun e => decide (e.2.remoteId = c)

/-- The id that a step puts into use. -/
def putsIntoUse (s : Link) : LinkInput → Option (Peer × ChannelId)
  | .open p (.id c) _ true => some (p, c)
  | .deliver p env =>
    match s.wire p.other, env with
    | pb :: _, ⟨.id c, true, _, true⟩ =>
      if pb.type = .channelOpen ∧ pb.option = .user then some (p, c) else none
    | _, _ => none
  | _ => none

/-- No id is put into use that is still named. -/
def reusesSafely (s : Link) (i : LinkInput) : Bool :=
  (putsIntoUse s i).all fun r => !named s r.1 r.2

/-- What an id that is named nowhere is worth. -/
structure Unnamed (s : Link) (p : Peer) (c : ChannelId) : Prop where
  arriving : ∀ pb ∈ s.wire p.other, pb.localChannelId ≠ c
  leaving : ∀ pb ∈ s.wire p, pb.binds = true → pb.remoteChannelId ≠ c
  peer : ∀ x ch, (s.channels p.other).lookup x = some ch → ch.remoteId ≠ c

theorem unnamed_of_named {s : Link} {p : Peer} {c : ChannelId} (h : named s p c = false) :
    Unnamed s p c := by
  simp only [named, Bool.or_eq_false_iff, List.any_eq_false, Bool.and_eq_true, decide_eq_true_eq,
    not_and] at h
  obtain ⟨⟨ha, hl⟩, hp⟩ := h
  refine ⟨ha, hl, fun x ch hx => ?_⟩
  exact hp ⟨x, ch⟩ (AList.mem_lookup_iff.mp hx)

/-! One spec of every call: it changes the table at one key at most. -/

/-- A table that differs from another at one key. -/
def SetAt (chs chs' : Channels Nat) (c : ChannelId) (o : Option (Channel Nat)) : Prop :=
  ∀ x, chs'.lookup x = if x = c then o else chs.lookup x

theorem setAt_insert (chs : Channels Nat) (c : ChannelId) (ch : Channel Nat) :
    SetAt chs (chs.insert c ch) c (some ch) := fun x => Table.lookup_insert_eq chs c x ch

theorem setAt_erase (chs : Channels Nat) (c : ChannelId) : SetAt chs (chs.erase c) c none :=
  fun x => Table.lookup_erase_eq chs c x

theorem setAt_same {chs : Channels Nat} {c : ChannelId} {o : Option (Channel Nat)}
    (h : chs.lookup c = o) : SetAt chs chs c o := by
  intro x
  split
  · next hx => rw [hx, h]
  · rfl

theorem openChannel_cases {chs : Channels Nat} {alloc : Alloc} (cookie : List UInt8) (sent : Bool)
    (tag : Nat) (hf : allocFree chs alloc = true) :
    ((openChannel chs alloc cookie sent tag).channels = chs ∧
      (openChannel chs alloc cookie sent tag).sent = []) ∨
    ∃ c, alloc = .id c ∧ sent = true ∧ c ≠ 0 ∧ chs.lookup c = none ∧
      SetAt chs (openChannel chs alloc cookie sent tag).channels c (some ⟨0, .opening, tag⟩) ∧
      (openChannel chs alloc cookie sent tag).sent =
        [sendPacket .channelOpen .user c 0 cookie tag] := by
  unfold openChannel
  split
  · exact .inl ⟨rfl, rfl⟩
  · exact .inl ⟨rfl, rfl⟩
  next c =>
    simp only [allocFree, Bool.and_eq_true, decide_eq_true_eq, Option.isNone_iff_eq_none] at hf
    cases sent with
    | false => exact .inl ⟨Table.erase_insert_of_free hf.2 _, rfl⟩
    | true => exact .inr ⟨c, rfl, rfl, hf.1.1, hf.2, setAt_insert _ _ _, rfl⟩

theorem closeChannel_cases (chs : Channels Nat) (c : ChannelId) (sent : Bool) :
    ((closeChannel chs c sent).channels = chs ∧ (closeChannel chs c sent).sent = []) ∨
    ∃ ch, chs.lookup c = some ch ∧ SetAt chs (closeChannel chs c sent).channels c none ∧
      (closeChannel chs c sent).sent =
        if ch.remoteId ≠ 0 ∧ sent then [sendPacket .channelClose .user c ch.remoteId [] ch.tag] else [] := by
  unfold closeChannel
  split
  · exact .inl ⟨rfl, rfl⟩
  next ch hl => exact .inr ⟨ch, hl, setAt_erase _ _, rfl⟩

/-- What goes out on a channel goes to its remote id, and the channel is open. -/
theorem sendOnChannel_cases (type : PacketType) (chs : Channels Nat) (c : ChannelId)
    (payload : List UInt8) (sent : Bool) :
    (sendOnChannel type chs c payload sent).channels = chs ∧
    ((sendOnChannel type chs c payload sent).sent = [] ∨
      ∃ ch, chs.lookup c = some ch ∧ ch.status ≠ .opening ∧ ch.remoteId ≠ 0 ∧
        (sendOnChannel type chs c payload sent).sent =
          [sendPacket type .user c ch.remoteId payload ch.tag]) := by
  unfold sendOnChannel
  split
  · exact ⟨rfl, .inl rfl⟩
  next ch hl =>
    split
    · exact ⟨rfl, .inl rfl⟩
    next hs =>
      split
      · exact ⟨rfl, .inl rfl⟩
      next hr =>
        split
        · refine ⟨rfl, .inr ⟨ch, hl, fun ho => hs ?_, hr, rfl⟩⟩
          rw [ho]
          decide
        · exact ⟨rfl, .inl rfl⟩

theorem writeChannel_cases (chs : Channels Nat) (c : ChannelId) (payload : List UInt8) (sent : Bool)
    (tag : Nat) :
    (elaStreamWriteChannel chs c payload sent tag).channels = chs ∧
    ((elaStreamWriteChannel chs c payload sent tag).sent = [] ∨
      (elaStreamWriteChannel chs c payload sent tag).sent =
        [sendPacket .channelData .user 0 0 payload tag] ∨
      ∃ ch, chs.lookup c = some ch ∧ ch.status ≠ .opening ∧ ch.remoteId ≠ 0 ∧
        (elaStreamWriteChannel chs c payload sent tag).sent =
          [sendPacket .channelData .user c ch.remoteId payload ch.tag]) := by
  unfold elaStreamWriteChannel
  split
  · exact ⟨rfl, .inl rfl⟩
  unfold writeChannel
  split
  · split
    · exact ⟨rfl, .inr (.inl rfl)⟩
    · exact ⟨rfl, .inl rfl⟩
  · have h := sendOnChannel_cases .channelData chs c payload sent
    exact ⟨h.1, h.2.imp_right .inr⟩

/-- What an arriving packet can do. -/
inductive Notified (chs : Channels Nat) (pb : Packet) (env : NotifyEnv) (r : MuxResult Nat) : Prop
  /-- Nothing stays behind; an open packet may have been refused. -/
  | idle (channels : r.channels = chs)
      (sent : ∀ y ∈ r.sent, y.type = .channelOpenConfirmation ∧ y.remoteChannelId = 0 ∧ y.tag = pb.tag ∧
        (y.localChannelId = 0 ∨ (y.localChannelId = pb.remoteChannelId ∧ pb.type = .channelOpen)))
  /-- A channel is created and confirmed. -/
  | born (c : ChannelId) (type : pb.type = .channelOpen) (option : pb.option = .user)
      (env : env.alloc = .id c ∧ env.accept = true ∧ env.sent = true)
      (channels : SetAt chs r.channels c (some ⟨pb.remoteChannelId, .open, pb.tag⟩))
      (sent : r.sent = [sendPacket .channelOpenConfirmation .user c pb.remoteChannelId [] pb.tag])
  /-- The channel it is addressed to changes or goes. -/
  | changed (ch : Channel Nat) (o : Option (Channel Nat)) (type : pb.type ≠ .channelOpen)
      (found : chs.lookup pb.localChannelId = some ch)
      (channels : SetAt chs r.channels pb.localChannelId o)
      (kept : ∀ ch', o = some ch' → ch'.tag = ch.tag ∧ (ch'.remoteId = ch.remoteId ∨
        (pb.type = .channelOpenConfirmation ∧ ch'.remoteId = pb.remoteChannelId)))
      (sent : r.sent = [])

theorem notifyOpen_notified {chs : Channels Nat} {pb : Packet} {env : NotifyEnv}
    (hf : allocFree chs env.alloc = true) (ht : pb.type = .channelOpen) (ho : pb.option = .user) :
    Notified chs pb env (notifyOpen chs pb env) := by
  unfold notifyOpen
  split
  · exact .idle rfl fun y hy => nomatch hy
  · refine .idle rfl fun y hy => ?_
    split at hy
    · rw [List.mem_singleton.mp hy]
      exact ⟨rfl, rfl, rfl, .inl rfl⟩
    · cases hy
  next c hc =>
    rw [hc] at hf
    simp only [allocFree, Bool.and_eq_true, Option.isNone_iff_eq_none] at hf
    have hback : ((chs.insert c ⟨pb.remoteChannelId, .opening, pb.tag⟩).erase c : Channels Nat) = chs :=
      Table.erase_insert_of_free hf.2 _
    cases ha : env.accept with
    | false =>
      refine .idle hback fun y hy => ?_
      cases hs : env.sent with
      | false => simp [hs] at hy
      | true =>
        simp only [hs, if_true, Bool.false_eq_true, if_false, Bool.not_false] at hy
        rw [List.mem_singleton.mp hy]
        exact ⟨rfl, rfl, rfl, .inr ⟨rfl, ht⟩⟩
    | true =>
      cases hs : env.sent with
      | false =>
        refine .idle hback fun y hy => ?_
        simp at hy
      | true =>
        refine .born c ht ho ⟨hc, ha, hs⟩ ?_ rfl
        intro x
        rw [Bool.not_true, if_neg Bool.false_ne_true, if_neg Bool.false_ne_true, Table.lookup_insert_eq]
        split
        · rfl
        · next hx => rw [Table.lookup_insert_eq, if_neg hx]

theorem notifyChannel_notified {chs : Channels Nat} {ch : Channel Nat} {pb : Packet} {env : NotifyEnv}
    (ht : pb.type ≠ .channelOpen) (hl : chs.lookup pb.localChannelId = some ch) :
    Notified chs pb env (notifyChannel chs ch pb env) := by
  have hsame : ∀ e, Notified chs pb env ⟨chs, [], e, .ok ()⟩ := fun e =>
    .idle rfl fun y hy => nomatch hy
  have hgone : ∀ e, Notified chs pb env ⟨chs.erase pb.localChannelId, [], e, .ok ()⟩ := fun e =>
    .changed ch none ht hl (setAt_erase _ _) (fun _ h => nomatch h) rfl
  have hset : ∀ (ch' : Channel Nat) e, ch'.tag = ch.tag → (ch'.remoteId = ch.remoteId ∨
      (pb.type = .channelOpenConfirmation ∧ ch'.remoteId = pb.remoteChannelId)) →
      Notified chs pb env ⟨chs.insert pb.localChannelId ch', [], e, .ok ()⟩ := fun ch' e h1 h2 =>
    .changed ch (some ch') ht hl (setAt_insert _ _ _)
      (fun _ h => by rw [← Option.some.inj h]; exact ⟨h1, h2⟩) rfl
  unfold notifyChannel
  split
  · exact hsame _
  next hc =>
    split
    · exact hsame _
    split
    · exact hset _ _ rfl (.inr ⟨hc, rfl⟩)
    · exact hgone _
  · split
    · exact hsame _
    split
    · exact hgone _
    · exact hsame _
  · exact hsame _
  · split
    · exact hsame _
    · exact hset _ _ rfl (.inl rfl)
  · split
    · exact hsame _
    · exact hset _ _ rfl (.inl rfl)
  · exact hgone _

theorem notifyPacket_notified {chs : Channels Nat} {pb : Packet} {env : NotifyEnv}
    (hf : allocFree chs env.alloc = true) : Notified chs pb env (notifyPacket chs pb env) := by
  unfold notifyPacket
  split
  · exact .idle rfl fun y hy => nomatch hy
  split
  next ht =>
    split
    next ho => exact notifyOpen_notified hf ht ho
    · exact .idle rfl fun y hy => nomatch hy
  next ht =>
    split
    · exact .idle rfl fun y hy => nomatch hy
    next ch hl => exact notifyChannel_notified ht hl

end CarrierSdk.Mux
