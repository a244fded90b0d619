import CarrierSdk.Mux.Handler

/-! What an open packet is answered, and what the answer does to the channel that was asked for. -/
namespace CarrierSdk.Mux

/-- A packet as it lies in the buffer that the next handler writes. -/
def ProtocolBuffer.bytes {Tag : Type} (pb : ProtocolBuffer Tag) : List UInt8 :=
  protocolHead pb.type.code pb.option.code pb.localChannelId pb.remoteChannelId pb.payload.length ++ pb.payload

/-- What the peer reads. -/
def ProtocolBuffer.read {Tag : Type} (pb : ProtocolBuffer Tag) : ReadPacket :=
  ⟨pb.type.code, pb.option.code, pb.localChannelId, pb.remoteChannelId, pb.payload⟩

theorem readPacket_head (type option : UInt8) (l r : ChannelId) {payload : List UInt8}
    (h : payload.length < 256 ^ 2) :
    readPacket (protocolHead type option l r payload.length ++ payload) =
      some ⟨type, option, l, r, payload⟩ := by
  have hread : readPacket (protocolHead type option l r payload.length ++ payload) =
      if payload.length = Bytes.number (Bytes.bigEndian 2 payload.length) then
        some ⟨type, option, .ofNat (Bytes.number (Bytes.bigEndian 2 l.toNat)),
          .ofNat (Bytes.number (Bytes.bigEndian 2 r.toNat)), payload⟩
      else none := rfl
  rw [hread, Bytes.number_bigEndian, Nat.mod_eq_of_lt h, if_pos rfl, ofNat_number_bigEndian,
    ofNat_number_bigEndian]

def Frame.isOpening : Frame → Bool
  | .opening .. => true
  | _ => false

theorem Frame.not_isOpening_of_isLoop {f : Frame} (h : f.isLoop = true) : f.isOpening = false := by
  cases f with
  | checkpoint | closeChannels => rfl
  | _ => cases h

namespace MultiplexHandler

def confirmations (os : List HandlerOutput) : List (ProtocolBuffer Incarnation) :=
  os.filterMap fun
    | .sent pb => if pb.type = .channelOpenConfirmation then some pb else none
    | _ => none

/-- The first of the callbacks that run has not returned yet. -/
def Inside (h : MultiplexHandler) (i : HandlerInput) : Prop :=
  ∀ ok sent, i = .callbackReturns ok sent → 1 < h.stack.length

/-- A packet arrives while no callback runs, and is handled at once or when the callback that it causes has
returned, whatever the application does from inside. What the callback answers and what comes out is recorded.
The transport accepts the answers of the handler. -/
inductive Handled (h : MultiplexHandler) (buf : FlexBuffer) (alloc : Alloc) :
    Bool → List HandlerOutput → MultiplexHandler → Prop
  | atOnce : (h.notifyPacket buf alloc true).1.stack = [] →
      Handled h buf alloc true (h.notifyPacket buf alloc true).2 (h.notifyPacket buf alloc true).1
  | returned {u v : MultiplexHandler} {is : List HandlerInput} {os p : List HandlerOutput} {ok : Bool} :
      (h.notifyPacket buf alloc true).1.stack ≠ [] →
      Machine.Run handlerMachine Inside (h.notifyPacket buf alloc true).1 is os u → u.stack.length = 1 →
      u.callbackReturns ok true = some (v, p) →
      Handled h buf alloc ok ((h.notifyPacket buf alloc true).2 ++ os ++ p) v

/-- The channel that an open packet gets. -/
def acceptedId (alloc : Alloc) (ok : Bool) : ChannelId :=
  match alloc with
  | .id c => if ok then c else 0
  | _ => 0

/-- A channel that the application of a peer is opening. -/
def Opening (h : MultiplexHandler) (c : ChannelId) : Prop :=
  ∃ ch, h.channels.lookup c = some ch ∧ ch.status = .opening

/-- One confirmation goes to the channel that the packet came from, and that channel is not being
opened any more when the confirmation has been handled. -/
structure Answered (pb : ReadPacket) (alloc : Alloc) (ok : Bool) (os : List HandlerOutput) : Prop where
  answer : ∃ a, confirmations os = [a] ∧ a.localChannelId = pb.remoteChannelId ∧
    a.remoteChannelId = acceptedId alloc ok
  leaves : ∀ (peer after : MultiplexHandler) (a : ProtocolBuffer Incarnation) (buf : FlexBuffer) (alloc : Alloc)
    (ok : Bool) (os' : List HandlerOutput), a ∈ confirmations os → peer.stack = [] →
    peer.Opening pb.remoteChannelId → buf.data = a.bytes → peer.Handled buf alloc ok os' after →
    ¬ after.Opening pb.remoteChannelId

/-! What the parts of a step leave alone. -/

section Parts
variable {h : MultiplexHandler} {c : ChannelId} {ch : HandlerChannel}

@[simp] theorem confirmations_append (os ps : List HandlerOutput) :
    confirmations (os ++ ps) = confirmations os ++ confirmations ps := List.filterMap_append

@[simp] theorem confirmations_callback (checks : List Check) (tag : Incarnation) (e : MuxEvent) :
    confirmations (checks.map .check ++ [.callback tag e]) = [] := by
  rw [confirmations_append, confirmations, Machine.filterMap_map_none fun _ => rfl]
  rfl

@[simp] theorem confirmations_tell (e : MuxEvent) : confirmations (h.tell c ch e).2 = [] := by
  unfold tell
  split
  · exact confirmations_callback _ _ _
  · rfl

@[simp] theorem confirmations_closeAndRemove (reason : CloseReason) :
    confirmations (h.closeAndRemove c ch reason).2 = [] := by
  unfold closeAndRemove
  split
  · exact confirmations_callback _ _ _
  · rfl

/-- The answer of channel_open decides the id in the confirmation. -/
theorem confirmations_answerOpen (ok : Bool) :
    confirmations (h.answerOpen c ch ok true).2 =
      [sendPacket .channelOpenConfirmation .user (if ok then c else 0) ch.remoteId [] ch.tag] := by
  cases ok with
  | false => rfl
  | true =>
    change _ :: confirmations (tell _ c ch _).2 = _
    rw [confirmations_tell]

theorem Opening.of_remove {x : ChannelId} (hx : (h.remove c).Opening x) : h.Opening x := by
  obtain ⟨ch', hl, hs⟩ := hx
  rw [lookup_remove] at hl
  split at hl
  · cases hl
  · exact ⟨ch', hl, hs⟩

theorem Opening.of_closeAndRemove {x : ChannelId} {reason : CloseReason}
    (hx : (h.closeAndRemove c ch reason).1.Opening x) : h.Opening x := by
  unfold closeAndRemove at hx
  split at hx
  · exact hx
  · exact hx.of_remove

theorem not_opening_setChannel {f : HandlerChannel → HandlerChannel} (hf : ∀ ch, (f ch).status ≠ .opening) :
    ¬ (h.setChannel c f).Opening c := by
  rintro ⟨ch', hl, hs⟩
  rw [lookup_setChannel, if_pos rfl, Option.map_eq_some_iff] at hl
  obtain ⟨ch, -, rfl⟩ := hl
  exact hf ch hs

end Parts

theorem confirmations_sent {packets : List (ProtocolBuffer Incarnation)}
    (h : ∀ pb ∈ packets, pb.type ≠ .channelOpenConfirmation) : confirmations (packets.map .sent) = [] := by
  refine List.filterMap_eq_nil_iff.mpr fun o ho => ?_
  obtain ⟨pb, hpb, rfl⟩ := List.mem_map.mp ho
  exact if_neg (h pb hpb)

theorem sendOnChannel_type {type : PacketType} {chs : Channels Incarnation} {c : ChannelId}
    {payload : List UInt8} {sent : Bool} (ht : type ≠ .channelOpenConfirmation) :
    ∀ pb ∈ (sendOnChannel type chs c payload sent).sent, pb.type ≠ .channelOpenConfirmation := by
  intro pb hpb
  unfold sendOnChannel at hpb
  split at hpb
  · cases hpb
  split at hpb
  · cases hpb
  split at hpb
  · cases hpb
  split at hpb
  · cases List.mem_singleton.mp hpb
    exact ht
  · cases hpb

theorem elaStreamWriteChannel_type {chs : Channels Incarnation} {c : ChannelId} {payload : List UInt8}
    {sent : Bool} {tag : Incarnation} :
    ∀ pb ∈ (elaStreamWriteChannel chs c payload sent tag).sent, pb.type ≠ .channelOpenConfirmation := by
  intro pb hpb
  unfold elaStreamWriteChannel at hpb
  split at hpb
  · cases hpb
  unfold writeChannel at hpb
  split at hpb
  · split at hpb
    · cases List.mem_singleton.mp hpb
      exact fun he => nomatch he
    · cases hpb
  · have ht : PacketType.channelData ≠ .channelOpenConfirmation := fun he => nomatch he
    exact sendOnChannel_type ht pb hpb

/-! From inside a callback. -/

/-- The callback at the bottom of the stack, with no other channel_open above it. -/
def Waits (f : Frame) (h : MultiplexHandler) : Prop :=
  ∃ above, h.stack = above ++ [f] ∧ ∀ g ∈ above, g.isOpening = false

section Inside
variable {f : Frame} {h t : MultiplexHandler} {c x : ChannelId} {ch : HandlerChannel} {o : List HandlerOutput}

theorem Waits.of_stack (hw : Waits f h) (hstack : t.stack = h.stack) : Waits f t := by
  rwa [Waits, hstack]

theorem Waits.push {g : Frame} (hw : Waits f h) (hstack : t.stack = g :: h.stack)
    (hg : g.isOpening = false) : Waits f t := by
  obtain ⟨above, habove, hnone⟩ := hw
  refine ⟨g :: above, by rw [hstack, habove]; rfl, fun g' hg' => ?_⟩
  rcases List.mem_cons.mp hg' with rfl | hmem
  · exact hg
  · exact hnone g' hmem

theorem Waits.closeAndRemove {reason : CloseReason} (hw : Waits f h) :
    Waits f (h.closeAndRemove c ch reason).1 := by
  unfold MultiplexHandler.closeAndRemove
  split
  · exact hw.push rfl rfl
  · exact hw.of_stack remove_stack

/-- The first frame goes, which is not the callback itself. -/
theorem Waits.tail {g : Frame} {below : List Frame} (hw : Waits f h) (hstack : h.stack = g :: below)
    (hne : g = f → below ≠ []) : Waits f { h with stack := below } := by
  obtain ⟨above, habove, hnone⟩ := hw
  rw [hstack] at habove
  cases above with
  | nil =>
    obtain ⟨heq, hnil⟩ := List.cons.inj habove
    exact absurd hnil (hne heq)
  | cons g' above =>
    obtain ⟨-, hbelow⟩ := List.cons.inj habove
    exact ⟨above, hbelow, fun g hg => hnone g (List.mem_cons_of_mem _ hg)⟩

/-- Above the callback the stack has lost its first frame. -/
theorem Waits.pop {g : Frame} {below : List Frame} (hw : Waits f h) (hstack : h.stack = g :: below)
    (hlength : 1 < h.stack.length) : Waits f { h with stack := below } := by
  refine hw.tail hstack fun _ hnil => ?_
  rw [hstack, hnil] at hlength
  exact Nat.lt_irrefl _ hlength

/-- The end of a loop. -/
theorem Waits.done {g : Frame} {below : List Frame} (hf : f.isLoop = false) (hw : Waits f h)
    (hstack : h.stack = g :: below) (hg : g.isLoop = true) : Waits f { h with stack := below } := by
  refine hw.tail hstack fun heq => ?_
  rw [← heq, hg] at hf
  cases hf

/-- A loop on top of the stack has taken a step. -/
theorem Waits.loop {g g' : Frame} {below : List Frame} (hf : f.isLoop = false) (hw : Waits f h)
    (hstack : h.stack = g :: below) (hg : g.isLoop = true) (hg' : g'.isLoop = true)
    (ht : t.stack = g' :: below) : Waits f t :=
  (hw.done hf hstack hg).push ht (Frame.not_isOpening_of_isLoop hg')

/-- What a step from inside the callback keeps: the frame, and that the channel it refers to is not being opened. -/
structure Kept (f : Frame) (h : MultiplexHandler) (r : MultiplexHandler × List HandlerOutput) : Prop where
  waits : Waits f r.1
  quiet : confirmations r.2 = []
  opening : ∀ c ch, f.channel = some (c, ch) → r.1.Opening c → h.Opening c

theorem Kept.same {os : List HandlerOutput} (hw : Waits f t) (hq : confirmations os = [])
    (hchannels : t.channels = h.channels) : Kept f h (t, os) := by
  refine ⟨hw, hq, fun c ch _ hop => ?_⟩
  rwa [Opening, hchannels] at hop

theorem Kept.closeAndRemove {u : MultiplexHandler} {reason : CloseReason} (hw : Waits f u)
    (hchannels : u.channels = h.channels) : Kept f h (u.closeAndRemove c ch reason) := by
  refine ⟨hw.closeAndRemove, confirmations_closeAndRemove reason, fun x ch' _ hop => ?_⟩
  have hbefore := hop.of_closeAndRemove
  rwa [Opening, hchannels] at hbefore

/-- A removal, and whatever happens to the stack besides. -/
theorem Kept.remove {stack : List Frame} {os : List HandlerOutput}
    (hw : Waits f { h.remove c with stack := stack }) (hq : confirmations os = []) :
    Kept f h ({ h.remove c with stack := stack }, os) := by
  refine ⟨hw, hq, fun x ch' _ hop => ?_⟩
  have hbefore : (h.remove c).Opening x := hop
  exact hbefore.of_remove

theorem callbackReturns_kept {ok sent : Bool} {r : MultiplexHandler × List HandlerOutput}
    (hloop : f.isLoop = false) (hw : Waits f h) (hlength : 1 < h.stack.length)
    (hstep : h.callbackReturns ok sent = some r) : Kept f h r := by
  cases callbackReturns_step hstep with
  | opening hstack =>
    obtain ⟨above, habove, hnone⟩ := hw
    cases above with
    | nil =>
      rw [habove] at hlength
      exact (Nat.lt_irrefl _ hlength).elim
    | cons g above =>
      rw [hstack, List.cons_append] at habove
      have hopening := hnone g List.mem_cons_self
      rw [← (List.cons.inj habove).1] at hopening
      cases hopening
  | taken hstack hok => exact .same (hw.pop hstack hlength) rfl rfl
  | refused hstack hok => exact .closeAndRemove (hw.pop hstack hlength) rfl
  | closing hstack =>
    refine ⟨(hw.pop hstack hlength).of_stack remove_stack, rfl, fun x ch' _ hop => ?_⟩
    exact hop.of_remove
  | timedOut hstack =>
    have hpop := hw.pop hstack hlength
    exact .remove (hpop.loop hloop rfl rfl rfl rfl) rfl
  | kept hstack hseen => exact .same (hw.pop hstack hlength) rfl rfl
  | told hstack | streamData hstack => exact .same (hw.pop hstack hlength) rfl rfl

theorem checkpointVisit_kept {below : List Frame} {rest : List ChannelId} {due : Due}
    (hw : ∀ u seen, u.stack = .checkpoint rest seen :: below → Waits f u) :
    Kept f h (h.checkpointVisit below rest c ch due) := by
  cases due with
  | nothing => exact .same (hw _ _ rfl) rfl rfl
  | keepAlive sent =>
    refine .same (hw _ _ rfl) ?_ rfl
    cases sent <;> rfl
  | timeout =>
    rw [checkpointVisit]
    split
    · have hlooping := hw { h with stack := .checkpoint rest h.modified :: below } _ rfl
      refine .same (hlooping.push rfl rfl) ?_ rfl
      exact confirmations_callback _ _ _
    · exact .remove (hw _ _ rfl) rfl

theorem closeVisit_kept {below : List Frame} {reason : CloseReason} {rest : List ChannelId}
    (hw : ∀ u seen, u.stack = .closeChannels reason rest seen :: below → Waits f u) :
    Kept f h (h.closeVisit below reason rest c ch) := by
  have hlooping := hw { h.remove c with stack := .closeChannels reason rest (h.remove c).modified :: below } _ rfl
  rw [closeVisit]
  split
  · refine .remove (hlooping.push rfl rfl) ?_
    exact confirmations_callback _ _ _
  · exact .remove hlooping rfl

theorem visit_kept {due : Due} {r : MultiplexHandler × List HandlerOutput} (hloop : f.isLoop = false)
    (hw : Waits f h) (hstep : h.visit c due = some r) : Kept f h r := by
  cases visit_step hstep with
  | checkpoint hstack hc => exact checkpointVisit_kept fun u seen hu => hw.loop hloop hstack rfl rfl hu
  | closeChannels hstack hc => exact closeVisit_kept fun u seen hu => hw.loop hloop hstack rfl rfl hu

theorem openChannel_kept {type : ChannelType} {alloc : Alloc} {cookie : List UInt8} {sent : Bool}
    (hw : Waits f h) (halloc : h.allocates alloc = true) : Kept f h (h.openChannel type alloc cookie sent) := by
  unfold openChannel
  split
  · exact .same hw rfl rfl
  · exact .same hw rfl rfl
  next x =>
    have hother : ∀ c ch, f.channel = some (c, ch) → c ≠ x := by
      rintro c ch hf rfl
      obtain ⟨above, habove, -⟩ := hw
      simp [allocates, inUse, habove, hf] at halloc
    have hput : ∀ y, y ≠ x → ∀ ch' : HandlerChannel, (h.put x ch').channels.lookup y = h.channels.lookup y :=
      fun y hy ch' => AList.lookup_insert_ne hy
    dsimp only
    split
    · refine ⟨hw.of_stack rfl, rfl, fun c ch hf hop => ?_⟩
      obtain ⟨ch', hl, hs⟩ := hop
      exact ⟨ch', (hput c (hother c ch hf) _).symm.trans hl, hs⟩
    · refine ⟨(hw.of_stack rfl).of_stack remove_stack, rfl, fun c ch hf hop => ?_⟩
      obtain ⟨ch', hl, hs⟩ := hop.of_remove
      exact ⟨ch', (hput c (hother c ch hf) _).symm.trans hl, hs⟩

theorem closeChannel_kept {sent : Bool} (hw : Waits f h) : Kept f h (h.closeChannel c sent) := by
  unfold closeChannel
  split
  · exact .same hw rfl rfl
  next ch _ =>
    have hclose : Kept f h (h.closeAndRemove c ch .normal) := .closeAndRemove hw rfl
    refine ⟨hclose.waits, ?_, hclose.opening⟩
    rw [confirmations_append, hclose.quiet, List.append_nil]
    split <;> rfl

/-- While the callback runs nothing arrives. -/
theorem Waits.not_idle (hw : Waits f h) : h.stack.isEmpty = false ∧ h.idle = false := by
  obtain ⟨above, habove, -⟩ := hw
  simp [idle, habove]

theorem inside_step {i : HandlerInput} (hloop : f.isLoop = false) (hw : Waits f h) (hi : Inside h i)
    (hstep : handlerStep h i = some (t, o)) : Kept f h (t, o) := by
  obtain ⟨hstack, hidle⟩ := hw.not_idle
  cases i with
  | chunk | datagram | checkpoint | stop =>
    simp [handlerStep, hidle] at hstep
  | turn alloc sent =>
    simp only [handlerStep] at hstep
    split at hstep
    · cases hstep
    · simp [hstack] at hstep
  | callbackReturns ok sent => exact callbackReturns_kept hloop hw (hi ok sent rfl) hstep
  | «open» type alloc cookie sent =>
    simp only [handlerStep, Option.ite_none_right_eq_some, Bool.and_eq_true, Option.some.injEq] at hstep
    exact hstep.2 ▸ openChannel_kept hw hstep.1.2
  | close c sent =>
    simp only [handlerStep, Option.ite_none_right_eq_some, Option.some.injEq] at hstep
    exact hstep.2 ▸ closeChannel_kept hw
  | write c payload sent =>
    simp only [handlerStep, Option.ite_none_right_eq_some, Option.some.injEq] at hstep
    rw [← hstep.2]
    exact .same hw (confirmations_sent elaStreamWriteChannel_type) rfl
  | pend c sent =>
    simp only [handlerStep, Option.ite_none_right_eq_some, Option.some.injEq] at hstep
    rw [← hstep.2]
    refine .same hw (confirmations_sent (sendOnChannel_type ?_)) rfl
    exact fun he => nomatch he
  | resume c sent =>
    simp only [handlerStep, Option.ite_none_right_eq_some, Option.some.injEq] at hstep
    rw [← hstep.2]
    refine .same hw (confirmations_sent (sendOnChannel_type ?_)) rfl
    exact fun he => nomatch he
  | visit c due => exact visit_kept hloop hw hstep
  | rescan =>
    obtain ⟨f, g, below, hstack', hf, hg, hr⟩ := rescan_step hstep
    rw [hr]
    exact .same (hw.loop hloop hstack' hf hg rfl) rfl rfl
  | leave =>
    obtain ⟨f, below, hstack', hf, hr⟩ := leave_step hstep
    rw [hr]
    exact .same (hw.done hloop hstack' hf) rfl rfl

/-- The same over everything that the application does from inside. -/
theorem inside_run {is : List HandlerInput} {os : List HandlerOutput} {u : MultiplexHandler}
    (hloop : f.isLoop = false) (hrun : Machine.Run handlerMachine Inside h is os u) (hw : Waits f h) :
    Kept f h (u, os) := by
  induction hrun with
  | nil => exact .same hw rfl rfl
  | cons hi hstep _ ih =>
    have hkept := inside_step hloop hw hi hstep
    have hrest := ih hkept.waits
    refine ⟨hrest.waits, ?_, fun c ch hf hop => hkept.opening c ch hf (hrest.opening c ch hf hop)⟩
    rw [confirmations_append, hkept.quiet, hrest.quiet]
    rfl

/-- The stack that the callback leaves behind when it returns. -/
theorem Waits.last (hw : Waits f h) (hlength : h.stack.length = 1) : h.stack = [f] := by
  obtain ⟨above, habove, -⟩ := hw
  rw [habove, List.length_append, List.length_singleton] at hlength
  rw [habove, List.length_eq_zero_iff.mp (Nat.succ.inj hlength), List.nil_append]

theorem waits_singleton (hstack : h.stack = [f]) : Waits f h := ⟨[], hstack, fun _ hmem => nomatch hmem⟩

end Inside

/-! The answer. -/

section Answers
variable {h v : MultiplexHandler} {buf : FlexBuffer} {pb : ReadPacket} {type : ChannelType} {alloc : Alloc}
  {ok : Bool} {os : List HandlerOutput}

theorem Handled.quiet (hh : h.Handled buf alloc ok os v) (hstack : (h.notifyPacket buf alloc true).1.stack = []) :
    os = (h.notifyPacket buf alloc true).2 ∧ v = (h.notifyPacket buf alloc true).1 ∧ ok = true := by
  cases hh with
  | atOnce => exact ⟨rfl, rfl, rfl⟩
  | returned hne => exact (hne hstack).elim

theorem Handled.waits {f : Frame} (hh : h.Handled buf alloc ok os v)
    (hstack : (h.notifyPacket buf alloc true).1.stack = [f]) (hloop : f.isLoop = false) :
    ∃ u o p, Kept f (h.notifyPacket buf alloc true).1 (u, o) ∧ u.stack = [f] ∧
      u.callbackReturns ok true = some (v, p) ∧ os = (h.notifyPacket buf alloc true).2 ++ o ++ p := by
  cases hh with
  | atOnce hnil =>
    rw [hnil] at hstack
    cases hstack
  | returned _ hrun hlength hreturns =>
    have hkept := inside_run hloop hrun (waits_singleton hstack)
    exact ⟨_, _, _, hkept, hkept.waits.last hlength, hreturns, rfl⟩

/-- The confirmations that an open packet causes. -/
def openAnswers (h : MultiplexHandler) (type : ChannelType) (pb : ReadPacket) (ok : Bool) :
    Alloc → List (ProtocolBuffer Incarnation)
  | .outOfMemory => []
  | .limitExceeded => [sendPacket .channelOpenConfirmation .user 0 0 [] ⟨type, h.next⟩]
  | .id c =>
    [sendPacket .channelOpenConfirmation .user (if ok then c else 0) pb.remoteChannelId [] ⟨type, h.next⟩]

theorem notifyPacket_open (hread : readPacket buf.data = some pb) (htype : pb.type = PacketType.channelOpen.code)
    (hoption : channelType pb.option = some type) (hsupports : h.supports type = true) (alloc : Alloc)
    (sent : Bool) :
    (h.notifyPacket buf alloc sent).1 = (h.notifyOpen type pb alloc sent).1 ∧
      confirmations (h.notifyPacket buf alloc sent).2 = confirmations (h.notifyOpen type pb alloc sent).2 := by
  have hdata : ¬ (pb.remoteChannelId = 0 ∧ pb.localChannelId = 0 ∧ pb.type = PacketType.channelData.code) := by
    rintro ⟨-, -, hd⟩
    rw [htype] at hd
    cases hd
  rw [notifyPacket, hread]
  dsimp only
  rw [notifyRead, if_neg hdata]
  dsimp only
  rw [if_pos htype, hoption]
  dsimp only
  rw [if_pos hsupports]
  exact ⟨rfl, rfl⟩

theorem notifyOpen_called (pb : ReadPacket) (c : ChannelId) (sent : Bool) (hcallbacks : type.hasCallbacks = true) :
    (h.notifyOpen type pb (.id c) sent).1.stack =
        .opening c ⟨pb.remoteChannelId, .opening, ⟨type, h.next⟩⟩ :: h.stack ∧
      confirmations (h.notifyOpen type pb (.id c) sent).2 = [] := by
  rw [notifyOpen]
  dsimp only
  rw [if_pos hcallbacks]
  exact ⟨rfl, confirmations_callback _ _ _⟩

/-- A channel without callbacks is accepted at once, and nobody is told. -/
theorem notifyOpen_alone (pb : ReadPacket) (c : ChannelId) (hcallbacks : type.hasCallbacks = false) :
    (h.notifyOpen type pb (.id c) true).1.stack = h.stack ∧
      confirmations (h.notifyOpen type pb (.id c) true).2 =
        [sendPacket .channelOpenConfirmation .user c pb.remoteChannelId [] ⟨type, h.next⟩] := by
  rw [notifyOpen]
  dsimp only
  rw [if_neg (by rw [hcallbacks]; exact Bool.false_ne_true)]
  refine ⟨?_, confirmations_answerOpen true⟩
  rw [answerOpen, if_pos rfl, if_pos rfl]
  dsimp only
  rw [tell, if_neg (by rw [hcallbacks]; exact Bool.false_ne_true), setChannel_stack]
  rfl

theorem confirmations_handled (hstack : h.stack = []) (hread : readPacket buf.data = some pb)
    (htype : pb.type = PacketType.channelOpen.code) (hoption : channelType pb.option = some type)
    (hsupports : h.supports type = true) (hh : h.Handled buf alloc ok os v) :
    confirmations os = h.openAnswers type pb ok alloc := by
  obtain ⟨hstate, hanswers⟩ := notifyPacket_open hread htype hoption hsupports alloc true
  have hstacks := congrArg MultiplexHandler.stack hstate
  cases alloc with
  | outOfMemory =>
    obtain ⟨rfl, -, -⟩ := hh.quiet (hstacks.trans hstack)
    exact hanswers
  | limitExceeded =>
    obtain ⟨rfl, -, -⟩ := hh.quiet (hstacks.trans hstack)
    exact hanswers
  | id c =>
    cases hcallbacks : type.hasCallbacks with
    | false =>
      obtain ⟨hsame, hconfirmed⟩ := notifyOpen_alone (h := h) pb c hcallbacks
      obtain ⟨rfl, -, rfl⟩ := hh.quiet (hstacks.trans (hsame.trans hstack))
      exact hanswers.trans hconfirmed
    | true =>
      obtain ⟨hcalled, hnone⟩ := notifyOpen_called (h := h) pb c true hcallbacks
      rw [hstack] at hcalled
      obtain ⟨u, o, p, hkept, hu, hreturns, rfl⟩ := hh.waits (hstacks.trans hcalled) rfl
      rw [confirmations_append, confirmations_append, hanswers, hnone, hkept.quiet]
      rw [callbackReturns_opening hu] at hreturns
      have hp := congrArg (fun r => confirmations r.2) (Option.some.inj hreturns)
      exact hp.symm.trans (confirmations_answerOpen ok)

/-- A confirmation for a channel that is being opened. -/
theorem notifyPacket_confirmation {peer : MultiplexHandler} {a : ProtocolBuffer Incarnation} {ch : HandlerChannel}
    (hread : readPacket buf.data = some a.read) (htype : a.type = .channelOpenConfirmation)
    (hl : peer.channels.lookup a.localChannelId = some ch) (hs : ch.status = .opening) (alloc : Alloc)
    (sent : Bool) :
    (peer.notifyPacket buf alloc sent).1 =
      if a.remoteChannelId ≠ 0 then
        ((peer.setChannel a.localChannelId ({ · with status := .open, remoteId := a.remoteChannelId })).tell
          a.localChannelId ch (.channelOpened a.localChannelId)).1
      else (peer.closeAndRemove a.localChannelId ch .error).1 := by
  have hnotify : (peer.notifyPacket buf alloc sent).1 = (peer.notifyChannel ch buf a.read).1 := by
    rw [notifyPacket, hread]
    simp [notifyRead, ProtocolBuffer.read, htype, hl, PacketType.code]
  rw [hnotify, notifyChannel]
  have hdecoded : packetType a.read.type = some .channelOpenConfirmation := by
    rw [ProtocolBuffer.read, htype, packetType_code]
  rw [hdecoded]
  dsimp only
  rw [if_neg (not_not.mpr hs), apply_ite Prod.fst]
  rfl

/-- A confirmation ends the opening of the channel that it is addressed to. -/
theorem not_opening_handled {peer after : MultiplexHandler} {a : ProtocolBuffer Incarnation}
    (hstack : peer.stack = []) (hopening : peer.Opening a.localChannelId)
    (htype : a.type = .channelOpenConfirmation) (hpayload : a.payload = []) (hbytes : buf.data = a.bytes)
    (hh : peer.Handled buf alloc ok os after) : ¬ after.Opening a.localChannelId := by
  obtain ⟨ch, hl, hs⟩ := hopening
  have hread : readPacket buf.data = some a.read := by
    rw [hbytes]
    exact readPacket_head _ _ _ _ (by rw [hpayload]; decide)
  have hnotify := notifyPacket_confirmation hread htype hl hs alloc true
  by_cases hcid : a.remoteChannelId ≠ 0
  · rw [if_pos hcid, tell] at hnotify
    have hset : ¬ (peer.setChannel a.localChannelId
        ({ · with status := .open, remoteId := a.remoteChannelId })).Opening a.localChannelId :=
      not_opening_setChannel fun _ he => nomatch he
    split at hnotify
    · have hcalled := congrArg MultiplexHandler.stack hnotify
      dsimp only [call] at hcalled
      rw [setChannel_stack, hstack] at hcalled
      obtain ⟨u, o, p, hkept, hu, hreturns, -⟩ := hh.waits hcalled rfl
      have hafter : { u with stack := [] } = after := by
        rw [callbackReturns_told hu] at hreturns
        exact congrArg Prod.fst (Option.some.inj hreturns)
      intro hop
      rw [← hafter] at hop
      have hbefore := hkept.opening _ _ rfl hop
      rw [hnotify] at hbefore
      exact hset hbefore
    · obtain ⟨-, rfl, -⟩ := hh.quiet (by rw [hnotify, setChannel_stack, hstack])
      rwa [hnotify]
  · rw [if_neg hcid, closeAndRemove] at hnotify
    have hremoved : ∀ u : MultiplexHandler, ¬ (u.remove a.localChannelId).Opening a.localChannelId := by
      rintro u ⟨ch', hl', -⟩
      rw [lookup_remove, if_pos rfl] at hl'
      cases hl'
    split at hnotify
    · have hcalled := congrArg MultiplexHandler.stack hnotify
      dsimp only [call] at hcalled
      rw [hstack] at hcalled
      obtain ⟨u, o, p, -, hu, hreturns, -⟩ := hh.waits hcalled rfl
      have hafter : { u with stack := [] }.remove a.localChannelId = after := by
        rw [callbackReturns_closing hu] at hreturns
        exact congrArg Prod.fst (Option.some.inj hreturns)
      rw [← hafter]
      exact hremoved _
    · obtain ⟨-, rfl, -⟩ := hh.quiet (by rw [hnotify, remove_stack, hstack])
      rw [hnotify]
      exact hremoved _

/-- A confirmation to the sender is all that it takes. -/
theorem answered_of_confirmation {a : ProtocolBuffer Incarnation} (hone : confirmations os = [a])
    (hto : a.localChannelId = pb.remoteChannelId) (hcid : a.remoteChannelId = acceptedId alloc ok)
    (htype : a.type = .channelOpenConfirmation) (hpayload : a.payload = []) : Answered pb alloc ok os where
  answer := ⟨a, hone, hto, hcid⟩
  leaves := by
    intro peer after a' buf alloc' ok' os' hmem hstack hopening hbytes hh
    rw [hone] at hmem
    obtain rfl := List.mem_singleton.mp hmem
    rw [← hto] at hopening ⊢
    exact not_opening_handled hstack hopening htype hpayload hbytes hh

end Answers

/-- An open packet of a type that the stream supports is answered to its sender when there is memory and an id
for the new channel. When all ids are in use the confirmation goes to id 0 instead. -/
theorem open_answered_iff {h v : MultiplexHandler} (hstack : h.stack = []) {buf : FlexBuffer} {pb : ReadPacket}
    (hread : readPacket buf.data = some pb) (htype : pb.type = PacketType.channelOpen.code) {type : ChannelType}
    (hoption : channelType pb.option = some type) (hsupports : h.supports type = true) {alloc : Alloc} {ok : Bool}
    {os : List HandlerOutput} (hh : h.Handled buf alloc ok os v) :
    Answered pb alloc ok os ↔ (∃ c, alloc = .id c) ∨ alloc = .limitExceeded ∧ pb.remoteChannelId = 0 := by
  have hanswers := confirmations_handled hstack hread htype hoption hsupports hh
  cases alloc with
  | outOfMemory =>
    constructor
    · intro h
      obtain ⟨a, ha, -⟩ := h.answer
      rw [hanswers] at ha
      cases ha
    · rintro (⟨c, hc⟩ | ⟨hc, -⟩) <;> cases hc
  | limitExceeded =>
    constructor
    · intro h
      obtain ⟨a, ha, hto, -⟩ := h.answer
      rw [hanswers] at ha
      obtain ⟨rfl, -⟩ := List.cons.inj ha
      exact .inr ⟨rfl, hto.symm⟩
    · rintro (⟨c, hc⟩ | ⟨-, hzero⟩)
      · cases hc
      · exact answered_of_confirmation hanswers hzero.symm rfl rfl rfl
  | id c =>
    refine ⟨fun _ => .inl ⟨c, rfl⟩, fun _ => ?_⟩
    exact answered_of_confirmation hanswers rfl rfl rfl rfl

theorem open_answered_first : ∃ os v,
    (create true false).Handled (flexBufferFrom [1, 0, 0, 0, 0, 7, 0, 0]) (.id 1) true os v ∧
      Answered ⟨1, 0, 0, 7, []⟩ (.id 1) true os := by
  have hh : (create true false).Handled (flexBufferFrom [1, 0, 0, 0, 0, 7, 0, 0]) (.id 1) true _ _ :=
    .returned (by decide +kernel) (.nil _) (by decide +kernel) rfl
  exact ⟨_, _, hh, (open_answered_iff rfl (by decide +kernel) rfl rfl rfl hh).mpr (.inl ⟨1, rfl⟩)⟩

/-- The application opens a number of channels. -/
def openAll (n : Nat) : List HandlerInput :=
  (List.range n).map fun k => .open .user (.id (.ofNat (k + 1))) [] true

theorem open_user {h : MultiplexHandler} {c : ChannelId} (hstack : h.stack = []) (hfree : h.channels.lookup c = none)
    (hc : c ≠ 0 ∧ c ≤ maxChannelId) : ∃ t o, handlerMachine.step h (.open .user (.id c) [] true) = some (t, o) ∧
      t.stack = [] ∧ ∀ x, (t.channels.lookup x).isSome = (decide (x = c) || (h.channels.lookup x).isSome) := by
  have hstep : handlerMachine.step h (.open .user (.id c) [] true) = some (h.openChannel .user (.id c) [] true) := by
    simp [handlerMachine, handlerStep, callable, hstack, supports, allocates, inUse, hfree, hc]
  refine ⟨_, _, hstep, hstack, fun x => ?_⟩
  change ((h.channels.insert c _).lookup x).isSome = _
  rw [Table.lookup_insert_eq]
  split
  · next hx => simp [hx]
  · next hx => simp [hx]

theorem run_openAll {n : Nat} (hn : n ≤ 2048) : ∃ os h,
    Machine.Run handlerMachine Machine.Free (create true false) (openAll n) os h ∧ h.stack = [] ∧
      ∀ k < 2048, (h.channels.lookup (.ofNat (k + 1))).isSome = decide (k < n) := by
  induction n with
  | zero => exact ⟨[], _, .nil _, rfl, fun k _ => rfl⟩
  | succ n ih =>
    obtain ⟨os, h, hrun, hstack, hkeys⟩ := ih (Nat.le_of_succ_le hn)
    have hvalue : ∀ k < 2048, (UInt16.ofNat (k + 1)).toNat = k + 1 := by
      intro k hk
      exact UInt16.toNat_ofNat_of_lt' (by simp only [UInt16.size]; omega)
    have hfree : h.channels.lookup (.ofNat (n + 1)) = none := by
      rw [← Option.not_isSome_iff_eq_none, hkeys n hn]
      simp
    have hc : UInt16.ofNat (n + 1) ≠ 0 ∧ UInt16.ofNat (n + 1) ≤ maxChannelId := by
      constructor
      · intro he
        have hv := hvalue n hn
        rw [he] at hv
        cases hv
      · rw [UInt16.le_iff_toNat_le, hvalue n hn]
        exact hn
    obtain ⟨t, o, hstep, htstack, htkeys⟩ := open_user hstack hfree hc
    refine ⟨os ++ (o ++ []), t, ?_, htstack, fun k hk => ?_⟩
    · rw [openAll, List.range_succ, List.map_append]
      exact hrun.append (.cons trivial hstep (.nil _))
    · have heq : UInt16.ofNat (k + 1) = .ofNat (n + 1) ↔ k = n := by
        refine ⟨fun he => ?_, fun he => by rw [he]⟩
        have hkn := congrArg UInt16.toNat he
        rw [hvalue k hk, hvalue n hn] at hkn
        exact Nat.succ.inj hkn
      rw [htkeys, hkeys k hk, decide_eq_decide.mpr heq, ← Bool.decide_or]
      exact decide_eq_decide.mpr (by omega)

/-- With all ids in use the peer that asks for a channel is answered on id 0. -/
theorem open_unanswered : ∃ is os h os' v,
    Machine.Run handlerMachine Machine.Free (create true false) is os h ∧ h.allocates .limitExceeded = true ∧
      h.Handled (flexBufferFrom [1, 0, 0, 0, 0, 7, 0, 0]) .limitExceeded true os' v ∧
      ¬ Answered ⟨1, 0, 0, 7, []⟩ .limitExceeded true os' := by
  obtain ⟨os, h, hrun, hstack, hkeys⟩ := run_openAll (Nat.le_refl 2048)
  have hfull : h.allocates .limitExceeded = true := by
    refine List.all_eq_true.mpr fun k hk => ?_
    have hk : k < 2048 := List.mem_range.mp hk
    rw [inUse, hkeys k hk, decide_eq_true hk, Bool.true_or]
  have hnotify : h.notifyPacket (flexBufferFrom [1, 0, 0, 0, 0, 7, 0, 0]) .limitExceeded true =
      (h, [.check (.assertion true), .check (.packetTypeName 1),
        .sent (sendPacket .channelOpenConfirmation .user 0 0 [] ⟨.user, h.next⟩)]) := rfl
  have hh : h.Handled (flexBufferFrom [1, 0, 0, 0, 0, 7, 0, 0]) .limitExceeded true _ _ :=
    .atOnce (by rw [hnotify]; exact hstack)
  refine ⟨_, os, h, _, _, hrun, hfull, hh, fun hanswered => ?_⟩
  obtain ⟨a, ha, hto, -⟩ := hanswered.answer
  have hone : confirmations (h.notifyPacket (flexBufferFrom [1, 0, 0, 0, 0, 7, 0, 0]) .limitExceeded true).2 =
      [sendPacket .channelOpenConfirmation .user 0 0 [] ⟨.user, h.next⟩] := by rw [hnotify]; rfl
  obtain ⟨rfl, -⟩ := List.cons.inj (ha.symm.trans hone)
  cases hto

end MultiplexHandler
end CarrierSdk.Mux
