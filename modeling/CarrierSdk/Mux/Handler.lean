import CarrierSdk.Mux.Framing

/-! The multiplex handler call by call: what arrives, what the timer and the application ask
for, and callbacks from inside which the application may call again. -/
namespace CarrierSdk.Mux

/-- An incarnation of a channel, with the type that chooses its callbacks. -/
structure Incarnation where
  type : ChannelType
  number : Nat
  deriving DecidableEq

abbrev HandlerChannel := Channel Incarnation

/-! Codes on the wire. -/

def PacketType.code : PacketType → UInt8
  | .channelOpen => 1
  | .channelOpenConfirmation => 2
  | .channelData => 3
  | .channelKeepAlive => 4
  | .channelPending => 5
  | .channelResume => 6
  | .channelClose => 7

def packetType : UInt8 → Option PacketType
  | 1 => some .channelOpen
  | 2 => some .channelOpenConfirmation
  | 3 => some .channelData
  | 4 => some .channelKeepAlive
  | 5 => some .channelPending
  | 6 => some .channelResume
  | 7 => some .channelClose
  | _ => none

def ChannelType.code : ChannelType → UInt8
  | .user => 0
  | .udpPortForwarding => 1
  | .tcpPortForwarding => 2

def channelTypeMax : Nat := 3

def channelType : UInt8 → Option ChannelType
  | 0 => some .user
  | 1 => some .udpPortForwarding
  | 2 => some .tcpPortForwarding
  | _ => none

theorem packetType_code (type : PacketType) : packetType type.code = some type := by
  cases type <;> rfl

/-- No callbacks are ever set for UDP channels. -/
def ChannelType.hasCallbacks : ChannelType → Bool
  | .udpPortForwarding => false
  | _ => true

def packetTypeNames : List String :=
  ["N/A", "Open", "OpenConfirmation", "Data", "KeepAlive", "Pending", "Resume", "Close"]

/-- What the handler relies on: an index into PacketTypeNames or into its callbacks, an
assertion, or the end of the cookie that it passes on. -/
inductive Check
  | packetTypeName (index : Nat)
  | callbacks (index : Nat)
  | assertion (holds : Bool)
  | cookie (payload : List UInt8)
  deriving DecidableEq

def Check.passes : Check → Bool
  | .packetTypeName index => decide (index < packetTypeNames.length)
  | .callbacks index => decide (index < channelTypeMax)
  | .assertion holds => holds
  | .cookie payload => decide (0 ∈ payload)

inductive HandlerOutput
  | check (c : Check)
  | sent (pb : ProtocolBuffer Incarnation)
  | callback (ch : Incarnation) (e : MuxEvent)
  | streamData (data : List UInt8)
  deriving DecidableEq

/-- What a callback interrupts, or a loop over the channels that has channels left. A loop knows
the modifications of the table that it has seen. -/
inductive Frame
  /-- channel_open -/
  | opening (c : ChannelId) (ch : HandlerChannel)
  /-- channel_data -/
  | data (c : ChannelId) (ch : HandlerChannel)
  /-- channel_close, with the channel to be removed -/
  | closing (c : ChannelId) (ch : HandlerChannel)
  /-- channel_close, with the channel to be removed through the iterator of the timer -/
  | timedOut (c : ChannelId) (ch : HandlerChannel)
  /-- channel_opened, channel_pending, channel_resume, and channel_close of a removed channel -/
  | told (c : ChannelId) (ch : HandlerChannel)
  | streamData
  | checkpoint (rest : List ChannelId) (seen : Nat)
  | closeChannels (reason : CloseReason) (rest : List ChannelId) (seen : Nat)
  deriving DecidableEq

/-- The channel that a frame holds a reference to. -/
def Frame.channel : Frame → Option (ChannelId × HandlerChannel)
  | .opening c ch | .data c ch | .closing c ch | .timedOut c ch | .told c ch => some (c, ch)
  | _ => none

def Frame.isLoop : Frame → Bool
  | .checkpoint .. | .closeChannels .. => true
  | _ => false

theorem Frame.channel_of_isLoop {f : Frame} (hf : f.isLoop = true) : f.channel = none := by
  cases f with
  | checkpoint | closeChannels => rfl
  | _ => cases hf

/-- What the timer finds out about a channel. -/
inductive Due
  | nothing
  | keepAlive (sent : Bool)
  | timeout
  deriving DecidableEq

/-- struct MultiplexHandler, with what is left of a chunk and the callbacks that have not returned. -/
structure MultiplexHandler where
  reliable : Bool
  worker : Bool
  channels : Channels Incarnation
  modified : Nat
  next : Nat
  incompleteBuf : FlexBuffer
  chunk : Option FlexBuffer
  stack : List Frame

/-! multiplex_handler_notify_data. -/

/-- flex_buffer_forward_offset in the filling of the incomplete packet. -/
def fillCheck (n : Nat) (incomplete buf : FlexBuffer) : List HandlerOutput :=
  if n > incomplete.size then [.check (.assertion (buf.offset + (n - incomplete.size) ≤ buf.capacity))] else []

/-- What a turn of the loop ends with. -/
inductive Turn
  | kept (incomplete : FlexBuffer)
  | packet (incomplete rest : FlexBuffer)

/-- A turn of the loop, up to the call of multiplex_handler_notify_packet. -/
def turn (incomplete buf : FlexBuffer) : Turn × List HandlerOutput :=
  if incomplete.size + buf.size < protocolHeadLen then (.kept (keepRest incomplete buf).1, [])
  else
    let headed := fillTo protocolHeadLen incomplete buf
    let len := payloadLen headed.1 + protocolHeadLen
    let checks := fillCheck protocolHeadLen incomplete buf
    if len > headed.1.size + headed.2.1.size then (.kept (keepRest headed.1 headed.2.1).1, checks)
    else
      let filled := fillTo len headed.1 headed.2.1
      (.packet filled.1 filled.2.1, checks ++ fillCheck len headed.1 headed.2.1)

namespace MultiplexHandler

/-- multiplex_handler_create. -/
def create (reliable worker : Bool) : MultiplexHandler :=
  ⟨reliable, worker, ∅, 0, 0, Mux.incompleteBuf, none, []⟩

/-- An id is freed with the last reference to its channel. -/
def inUse (h : MultiplexHandler) (c : ChannelId) : Bool :=
  (h.channels.lookup c).isSome || h.stack.any fun f => f.channel.any fun r => decide (r.1 = c)

/-- The allocator hands out ids that are not in use, and fails when there are none. -/
def allocates (h : MultiplexHandler) : Alloc → Bool
  | .outOfMemory => true
  | .limitExceeded => (List.range maxChannelId.toNat).all fun k => h.inUse (.ofNat (k + 1))
  | .id c => decide (c ≠ 0) && decide (c ≤ maxChannelId) && !h.inUse c

/-- Whether the stream takes channels of a type. -/
def supports (h : MultiplexHandler) : ChannelType → Bool
  | .user => true
  | .udpPortForwarding => h.worker
  | .tcpPortForwarding => h.worker && h.reliable

/-- channels_put. -/
def put (h : MultiplexHandler) (c : ChannelId) (ch : HandlerChannel) : MultiplexHandler :=
  { h with channels := h.channels.insert c ch, modified := h.modified + 1 }

/-- channels_remove. -/
def remove (h : MultiplexHandler) (c : ChannelId) : MultiplexHandler :=
  if (h.channels.lookup c).isSome then
    { h with channels := h.channels.erase c, modified := h.modified + 1 }
  else h

/-- Assigns to the channel of an id, if it is still in the table. -/
def setChannel (h : MultiplexHandler) (c : ChannelId) (f : HandlerChannel → HandlerChannel) : MultiplexHandler :=
  match h.channels.lookup c with
  | none => h
  | some ch => { h with channels := h.channels.insert c (f ch) }

/-- What is asserted of the arguments of a callback, and the cookie as a string. -/
def callbackChecks (h : MultiplexHandler) (type : ChannelType) : MuxEvent → List Check
  | .channelOpen _ cookie =>
    (if type = .tcpPortForwarding then [.assertion (cookie.head?.any (· ≠ 0))] else []) ++
      (if cookie = [] then [] else [.cookie cookie])
  | .channelData _ data =>
    if type = .tcpPortForwarding then [.assertion h.worker, .assertion (data ≠ [])] else []
  | _ => if type = .tcpPortForwarding then [.assertion h.worker] else []

/-- Calls a callback, behind which the handler goes on as the frame says. -/
def call (h : MultiplexHandler) (f : Frame) (ch : Incarnation) (e : MuxEvent) :
    MultiplexHandler × List HandlerOutput :=
  ({ h with stack := f :: h.stack }, (h.callbackChecks ch.type e).map .check ++ [.callback ch e])

/-- notify_channel_opened, notify_channel_pending and notify_channel_resume. -/
def tell (h : MultiplexHandler) (c : ChannelId) (ch : HandlerChannel) (e : MuxEvent) :
    MultiplexHandler × List HandlerOutput :=
  if ch.tag.type.hasCallbacks then h.call (.told c ch) ch.tag e else (h, [])

/-- notify_channel_close and channels_remove. -/
def closeAndRemove (h : MultiplexHandler) (c : ChannelId) (ch : HandlerChannel) (reason : CloseReason) :
    MultiplexHandler × List HandlerOutput :=
  if ch.tag.type.hasCallbacks then h.call (.closing c ch) ch.tag (.channelClose c reason)
  else (h.remove c, [])

/-! multiplex_handler_notify_packet. -/

/-- The branch for open packets from the answer of channel_open on. -/
def answerOpen (h : MultiplexHandler) (c : ChannelId) (ch : HandlerChannel) (ok sent : Bool) :
    MultiplexHandler × List HandlerOutput :=
  let cid := if ok then c else 0
  if sent then
    let confirmation := .sent (sendPacket .channelOpenConfirmation .user cid ch.remoteId [] ch.tag)
    if ok then
      let r := (h.setChannel c ({ · with status := .open })).tell c ch (.channelOpened c)
      (r.1, confirmation :: r.2)
    else (h.remove c, [confirmation])
  else if ok then h.closeAndRemove c ch .error
  else (h.remove c, [])

/-- The branch for open packets. The channel object of a failed id allocation still has
remote id 0, and that is where the confirmation goes. -/
def notifyOpen (h : MultiplexHandler) (type : ChannelType) (pb : ReadPacket) (alloc : Alloc) (sent : Bool) :
    MultiplexHandler × List HandlerOutput :=
  match alloc with
  | .outOfMemory => (h, [])
  | .limitExceeded =>
    (h, if sent then [.sent (sendPacket .channelOpenConfirmation .user 0 0 [] ⟨type, h.next⟩)] else [])
  | .id c =>
    let ch : HandlerChannel := ⟨pb.remoteChannelId, .opening, ⟨type, h.next⟩⟩
    let opening := { h.put c ch with next := h.next + 1 }
    let r :=
      if type.hasCallbacks then opening.call (.opening c ch) ch.tag (.channelOpen c pb.payload)
      else opening.answerOpen c ch true sent
    (r.1, .check (.callbacks type.code.toNat) :: r.2)

/-- flex_buffer_forward_offset over the head of a packet. -/
def headCheck (buf : FlexBuffer) : HandlerOutput :=
  .check (.assertion (buf.offset + protocolHeadLen ≤ buf.capacity))

/-- The branches for packets to a channel that exists. -/
def notifyChannel (h : MultiplexHandler) (ch : HandlerChannel) (buf : FlexBuffer) (pb : ReadPacket) :
    MultiplexHandler × List HandlerOutput :=
  let c := pb.localChannelId
  match packetType pb.type with
  | none | some .channelOpen => (h, [])
  | some .channelOpenConfirmation =>
    if ch.status ≠ .opening then (h, [])
    else if pb.remoteChannelId ≠ 0 then
      (h.setChannel c ({ · with status := .open, remoteId := pb.remoteChannelId })).tell c ch (.channelOpened c)
    else h.closeAndRemove c ch .error
  | some .channelData =>
    if ch.status ≠ .pending ∧ ch.status ≠ .open then (h, [])
    else if ch.tag.type.hasCallbacks then
      let r := h.call (.data c ch) ch.tag (.channelData c pb.payload)
      (r.1, headCheck buf :: r.2)
    else (h, [headCheck buf])
  | some .channelKeepAlive => (h, [])
  | some .channelPending =>
    if ch.status ≠ .open then (h, [])
    else (h.setChannel c ({ · with status := .pending })).tell c ch (.channelPending c)
  | some .channelResume =>
    if ch.status ≠ .pending then (h, [])
    else (h.setChannel c ({ · with status := .open })).tell c ch (.channelResume c)
  | some .channelClose => h.closeAndRemove c ch .normal

/-- A packet whose sizes are right. -/
def notifyRead (h : MultiplexHandler) (buf : FlexBuffer) (pb : ReadPacket) (alloc : Alloc) (sent : Bool) :
    MultiplexHandler × List HandlerOutput :=
  if pb.remoteChannelId = 0 ∧ pb.localChannelId = 0 ∧ pb.type = PacketType.channelData.code then
    ({ h with stack := .streamData :: h.stack }, [headCheck buf, .streamData pb.payload])
  else
    let r :=
      if pb.type = PacketType.channelOpen.code then
        match channelType pb.option with
        | none => (h, [])
        | some type => if h.supports type then h.notifyOpen type pb alloc sent else (h, [])
      else match h.channels.lookup pb.localChannelId with
        | none => (h, [])
        | some ch => h.notifyChannel ch buf pb
    (r.1, .check (.packetTypeName pb.type.toNat) :: r.2)

def notifyPacket (h : MultiplexHandler) (buf : FlexBuffer) (alloc : Alloc) (sent : Bool) :
    MultiplexHandler × List HandlerOutput :=
  let r := match readPacket buf.data with
    | none => (h, [])
    | some pb => h.notifyRead buf pb alloc sent
  (r.1, .check (.assertion (protocolHeadLen ≤ buf.size)) :: r.2)

/-- The handler goes on when a callback returns. -/
def callbackReturns (h : MultiplexHandler) (ok sent : Bool) : Option (MultiplexHandler × List HandlerOutput) :=
  match h.stack with
  | .opening c ch :: below => some ({ h with stack := below }.answerOpen c ch ok sent)
  | .data c ch :: below =>
    let h := { h with stack := below }
    some (if ok then (h, []) else h.closeAndRemove c ch .error)
  | .closing c _ :: below => some ({ h with stack := below }.remove c, [])
  | .timedOut c _ :: .checkpoint rest seen :: below =>
    -- channels_iterator_remove does nothing once the table has changed.
    if seen = h.modified then
      let removed := h.remove c
      some ({ removed with stack := .checkpoint rest removed.modified :: below }, [])
    else some ({ h with stack := .checkpoint rest seen :: below }, [])
  | .told _ _ :: below | .streamData :: below => some ({ h with stack := below }, [])
  | _ => none


/-- A turn of the loop of multiplex_handler_notify_data. -/
def notifyDataTurn (h : MultiplexHandler) (buf : FlexBuffer) (alloc : Alloc) (sent : Bool) :
    MultiplexHandler × List HandlerOutput :=
  match turn h.incompleteBuf buf with
  | (.kept incomplete, checks) => ({ h with incompleteBuf := incomplete, chunk := none }, checks)
  | (.packet incomplete rest, checks) =>
    let chunk := if rest.size = 0 then none else some rest
    let r := { h with incompleteBuf := incomplete.reset flexPaddingLen, chunk }.notifyPacket incomplete alloc sent
    (r.1, checks ++ r.2)

/-! Calls of the application and of the port forwarding worker. -/

/-- multiplex_handler_open_channel. -/
def openChannel (h : MultiplexHandler) (type : ChannelType) (alloc : Alloc) (cookie : List UInt8) (sent : Bool) :
    MultiplexHandler × List HandlerOutput :=
  match alloc with
  | .outOfMemory | .limitExceeded => (h, [])
  | .id c =>
    let tag : Incarnation := ⟨type, h.next⟩
    let opened := { h.put c ⟨0, .opening, tag⟩ with next := h.next + 1 }
    if sent then (opened, [.sent (sendPacket .channelOpen type c 0 cookie tag)]) else (opened.remove c, [])

/-- multiplex_handler_close_channel. -/
def closeChannel (h : MultiplexHandler) (c : ChannelId) (sent : Bool) : MultiplexHandler × List HandlerOutput :=
  match h.channels.lookup c with
  | none => (h, [])
  | some ch =>
    let r := h.closeAndRemove c ch .normal
    (r.1, (if ch.remoteId ≠ 0 ∧ sent then [.sent (sendPacket .channelClose .user c ch.remoteId [] ch.tag)] else []) ++
      r.2)

/-- Calls that leave the channels alone. -/
def sends (h : MultiplexHandler) (r : MuxResult Incarnation) : MultiplexHandler × List HandlerOutput :=
  (h, r.sent.map .sent)

/-! multiplex_handler_checkpoint and multiplex_handler_close_channels. -/

/-- A channel in the loop of the timer. -/
def checkpointVisit (h : MultiplexHandler) (below : List Frame) (rest : List ChannelId) (c : ChannelId)
    (ch : HandlerChannel) : Due → MultiplexHandler × List HandlerOutput
  | .nothing => ({ h with stack := .checkpoint rest h.modified :: below }, [])
  | .keepAlive sent =>
    ({ h with stack := .checkpoint rest h.modified :: below },
      if sent then [.sent (sendPacket .channelKeepAlive .user c ch.remoteId [] ch.tag)] else [])
  | .timeout =>
    if ch.tag.type.hasCallbacks then
      { h with stack := .checkpoint rest h.modified :: below }.call (.timedOut c ch) ch.tag (.channelClose c .timeout)
    else
      let removed := h.remove c
      ({ removed with stack := .checkpoint rest removed.modified :: below }, [])

/-- A channel in the loop that closes all. -/
def closeVisit (h : MultiplexHandler) (below : List Frame) (reason : CloseReason) (rest : List ChannelId)
    (c : ChannelId) (ch : HandlerChannel) : MultiplexHandler × List HandlerOutput :=
  let removed := h.remove c
  let looping := { removed with stack := .closeChannels reason rest removed.modified :: below }
  if ch.tag.type.hasCallbacks then looping.call (.told c ch) ch.tag (.channelClose c reason) else (looping, [])

/-- The next channel of a loop, in the order of the table. -/
def visit (h : MultiplexHandler) (c : ChannelId) (due : Due) : Option (MultiplexHandler × List HandlerOutput) :=
  match h.stack, h.channels.lookup c with
  | .checkpoint rest seen :: below, some ch =>
    if seen = h.modified ∧ c ∈ rest then some (h.checkpointVisit below (rest.erase c) c ch due) else none
  | .closeChannels reason rest seen :: below, some ch =>
    if seen = h.modified ∧ c ∈ rest then some (h.closeVisit below reason (rest.erase c) c ch) else none
  | _, _ => none

/-- The iterator has noticed a modification, and the loop begins anew. -/
def rescan (h : MultiplexHandler) : Option (MultiplexHandler × List HandlerOutput) :=
  match h.stack with
  | .checkpoint _ seen :: below =>
    if seen = h.modified then none
    else some ({ h with stack := .checkpoint h.channels.keys h.modified :: below }, [])
  | .closeChannels reason _ seen :: below =>
    if seen = h.modified then none
    else some ({ h with stack := .closeChannels reason h.channels.keys h.modified :: below }, [])
  | _ => none

/-- The end of a loop. -/
def leave (h : MultiplexHandler) : Option (MultiplexHandler × List HandlerOutput) :=
  match h.stack with
  | .checkpoint [] _ :: below | .closeChannels _ [] _ :: below => some ({ h with stack := below }, [])
  | _ => none

/-- The event loop has control. -/
def idle (h : MultiplexHandler) : Bool := h.stack.isEmpty && h.chunk.isNone

/-- The application has control: the event loop or a callback. -/
def callable (h : MultiplexHandler) : Bool := !h.stack.head?.any Frame.isLoop

/-! What these leave alone. -/

section Parts
variable {h : MultiplexHandler} {c : ChannelId} {ch : HandlerChannel} {below : List Frame}

@[simp] theorem remove_stack : (h.remove c).stack = h.stack := by
  unfold remove
  split <;> rfl

@[simp] theorem setChannel_stack (f : HandlerChannel → HandlerChannel) : (h.setChannel c f).stack = h.stack := by
  unfold setChannel
  split <;> rfl

theorem lookup_remove (x : ChannelId) :
    (h.remove c).channels.lookup x = if x = c then none else h.channels.lookup x := by
  unfold remove
  split
  · exact Table.lookup_erase_eq _ _ _
  · next hnone =>
    split
    · next hx =>
      rw [hx]
      exact Option.not_isSome_iff_eq_none.mp hnone
    · rfl

theorem lookup_setChannel (f : HandlerChannel → HandlerChannel) (x : ChannelId) :
    (h.setChannel c f).channels.lookup x = if x = c then (h.channels.lookup c).map f else h.channels.lookup x := by
  unfold setChannel
  split
  · next hnone =>
    split
    · next hx => rw [hx, hnone, Option.map_none]
    · rfl
  · next ch hch => rw [Table.lookup_insert_eq, hch, Option.map_some]

theorem callbackReturns_opening (hstack : h.stack = .opening c ch :: below) (ok sent : Bool) :
    h.callbackReturns ok sent = some ({ h with stack := below }.answerOpen c ch ok sent) := by
  rw [callbackReturns, hstack]

theorem callbackReturns_closing (hstack : h.stack = .closing c ch :: below) (ok sent : Bool) :
    h.callbackReturns ok sent = some ({ h with stack := below }.remove c, []) := by
  rw [callbackReturns, hstack]

theorem callbackReturns_told (hstack : h.stack = .told c ch :: below) (ok sent : Bool) :
    h.callbackReturns ok sent = some ({ h with stack := below }, []) := by
  rw [callbackReturns, hstack]

end Parts

/-! What the steps of callbacks and loops come to. -/

/-- What a handler is after a callback has returned. -/
inductive Returned (h : MultiplexHandler) (ok sent : Bool) : MultiplexHandler × List HandlerOutput → Prop
  | opening {c : ChannelId} {ch : HandlerChannel} {below : List Frame} (hstack : h.stack = .opening c ch :: below) :
    Returned h ok sent ({ h with stack := below }.answerOpen c ch ok sent)
  | taken {c : ChannelId} {ch : HandlerChannel} {below : List Frame} (hstack : h.stack = .data c ch :: below)
    (hok : ok = true) : Returned h ok sent ({ h with stack := below }, [])
  | refused {c : ChannelId} {ch : HandlerChannel} {below : List Frame} (hstack : h.stack = .data c ch :: below)
    (hok : ok = false) : Returned h ok sent ({ h with stack := below }.closeAndRemove c ch .error)
  | closing {c : ChannelId} {ch : HandlerChannel} {below : List Frame} (hstack : h.stack = .closing c ch :: below) :
    Returned h ok sent ({ h with stack := below }.remove c, [])
  | timedOut {c : ChannelId} {ch : HandlerChannel} {rest : List ChannelId} {below : List Frame}
    (hstack : h.stack = .timedOut c ch :: .checkpoint rest h.modified :: below) :
    Returned h ok sent ({ h.remove c with stack := .checkpoint rest (h.remove c).modified :: below }, [])
  | kept {c : ChannelId} {ch : HandlerChannel} {rest : List ChannelId} {seen : Nat} {below : List Frame}
    (hstack : h.stack = .timedOut c ch :: .checkpoint rest seen :: below) (hseen : seen ≠ h.modified) :
    Returned h ok sent ({ h with stack := .checkpoint rest seen :: below }, [])
  | told {c : ChannelId} {ch : HandlerChannel} {below : List Frame} (hstack : h.stack = .told c ch :: below) :
    Returned h ok sent ({ h with stack := below }, [])
  | streamData {below : List Frame} (hstack : h.stack = .streamData :: below) :
    Returned h ok sent ({ h with stack := below }, [])

/-- What a handler is after a loop has come to a channel. -/
inductive Visited (h : MultiplexHandler) (c : ChannelId) (due : Due) : MultiplexHandler × List HandlerOutput → Prop
  | checkpoint {ch : HandlerChannel} {rest : List ChannelId} {below : List Frame}
    (hstack : h.stack = .checkpoint rest h.modified :: below) (hc : h.channels.lookup c = some ch) :
    Visited h c due (h.checkpointVisit below (rest.erase c) c ch due)
  | closeChannels {ch : HandlerChannel} {reason : CloseReason} {rest : List ChannelId} {below : List Frame}
    (hstack : h.stack = .closeChannels reason rest h.modified :: below) (hc : h.channels.lookup c = some ch) :
    Visited h c due (h.closeVisit below reason (rest.erase c) c ch)

section Steps
variable {h : MultiplexHandler} {r : MultiplexHandler × List HandlerOutput}

theorem callbackReturns_step {ok sent : Bool} (hstep : h.callbackReturns ok sent = some r) : Returned h ok sent r := by
  unfold callbackReturns at hstep
  split at hstep
  · next hstack => exact Option.some.inj hstep ▸ .opening hstack
  · next hstack =>
    rw [← Option.some.inj hstep]
    cases ok with
    | true => exact .taken hstack rfl
    | false => exact .refused hstack rfl
  · next hstack => exact Option.some.inj hstep ▸ .closing hstack
  · next hstack =>
    split at hstep
    · next hseen =>
      subst hseen
      exact Option.some.inj hstep ▸ .timedOut hstack
    · next hseen => exact Option.some.inj hstep ▸ .kept hstack hseen
  · next hstack => exact Option.some.inj hstep ▸ .told hstack
  · next hstack => exact Option.some.inj hstep ▸ .streamData hstack
  · cases hstep

theorem visit_step {c : ChannelId} {due : Due} (hstep : h.visit c due = some r) : Visited h c due r := by
  unfold visit at hstep
  split at hstep
  · next hstack hc =>
    obtain ⟨⟨rfl, -⟩, hvisit⟩ := Option.ite_none_right_eq_some.mp hstep
    exact Option.some.inj hvisit ▸ .checkpoint hstack hc
  · next hstack hc =>
    obtain ⟨⟨rfl, -⟩, hvisit⟩ := Option.ite_none_right_eq_some.mp hstep
    exact Option.some.inj hvisit ▸ .closeChannels hstack hc
  · cases hstep

/-- A loop stays a loop when it begins anew. -/
theorem rescan_step (hstep : h.rescan = some r) : ∃ f g below, h.stack = f :: below ∧ f.isLoop = true ∧
    g.isLoop = true ∧ r = ({ h with stack := g :: below }, []) := by
  unfold rescan at hstep
  split at hstep
  · next hstack =>
    obtain ⟨-, hscan⟩ := Option.ite_none_left_eq_some.mp hstep
    exact ⟨_, _, _, hstack, rfl, rfl, (Option.some.inj hscan).symm⟩
  · next hstack =>
    obtain ⟨-, hscan⟩ := Option.ite_none_left_eq_some.mp hstep
    exact ⟨_, _, _, hstack, rfl, rfl, (Option.some.inj hscan).symm⟩
  · cases hstep

theorem leave_step (hstep : h.leave = some r) : ∃ f below, h.stack = f :: below ∧ f.isLoop = true ∧
    r = ({ h with stack := below }, []) := by
  unfold leave at hstep
  split at hstep
  · next hstack => exact ⟨_, _, hstack, rfl, (Option.some.inj hstep).symm⟩
  · next hstack => exact ⟨_, _, hstack, rfl, (Option.some.inj hstep).symm⟩
  · cases hstep

end Steps
end MultiplexHandler

/-- A chunk of a byte stream or a datagram, as the handler below passes it. -/
structure Arrival extends FlexBuffer where
  fits : toFlexBuffer.Fits 0

/-- Bytes as the handler below passes them on. -/
def arrival (bytes : List UInt8) : Arrival := ⟨flexBufferFrom bytes, (flexBufferFrom_fits bytes).mono (Nat.zero_le _)⟩

inductive HandlerInput
  | chunk (buf : Arrival)
  | turn (alloc : Alloc) (sent : Bool)
  | datagram (buf : Arrival) (alloc : Alloc) (sent : Bool)
  | callbackReturns (ok sent : Bool)
  | open (type : ChannelType) (alloc : Alloc) (cookie : List UInt8) (sent : Bool)
  | close (c : ChannelId) (sent : Bool)
  | write (c : ChannelId) (payload : List UInt8) (sent : Bool)
  | pend (c : ChannelId) (sent : Bool)
  | resume (c : ChannelId) (sent : Bool)
  | checkpoint
  | stop (reason : CloseReason)
  | visit (c : ChannelId) (due : Due)
  | rescan
  | leave

/-- A chunk is never empty, and the timer runs on unreliable streams only. -/
def handlerStep (h : MultiplexHandler) : HandlerInput → Option (MultiplexHandler × List HandlerOutput)
  | .chunk buf =>
    if h.reliable && h.idle && decide (0 < buf.size) then some ({ h with chunk := some buf.toFlexBuffer }, [])
    else none
  | .turn alloc sent =>
    match h.chunk with
    | none => none
    | some buf => if h.stack.isEmpty && h.allocates alloc then some (h.notifyDataTurn buf alloc sent) else none
  | .datagram buf alloc sent =>
    if !h.reliable && h.idle && h.allocates alloc then some (h.notifyPacket buf.toFlexBuffer alloc sent) else none
  | .callbackReturns ok sent => h.callbackReturns ok sent
  | .open type alloc cookie sent =>
    if h.callable && h.supports type && h.allocates alloc then some (h.openChannel type alloc cookie sent) else none
  | .close c sent => if h.callable then some (h.closeChannel c sent) else none
  | .write c payload sent =>
    if h.callable then some (h.sends (elaStreamWriteChannel h.channels c payload sent ⟨.user, 0⟩)) else none
  | .pend c sent => if h.callable then some (h.sends (pendChannel h.channels c sent)) else none
  | .resume c sent => if h.callable then some (h.sends (resumeChannel h.channels c sent)) else none
  | .checkpoint =>
    if !h.reliable && h.idle then some ({ h with stack := [.checkpoint h.channels.keys h.modified] }, []) else none
  | .stop reason =>
    if h.idle then some ({ h with stack := [.closeChannels reason h.channels.keys h.modified] }, []) else none
  | .visit c due => h.visit c due
  | .rescan => h.rescan
  | .leave => h.leave

def handlerMachine : Machine MultiplexHandler HandlerInput HandlerOutput := ⟨handlerStep⟩

end CarrierSdk.Mux
