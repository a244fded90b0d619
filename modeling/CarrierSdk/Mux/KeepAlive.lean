import CarrierSdk.Library.WallClock
import CarrierSdk.Mux.Lifecycle

/-! The time stamps of channels, and what the timer decides by them: which channels it closes and on which it sends
keep-alive packets. Intervals are computed in an int. -/
namespace CarrierSdk.Mux
open TimeVal

/-- KEEPALIVE_INTERVAL -/
def keepaliveInterval : Int32 := 30000

/-- KEEPALIVE_TIMEOUT_INTERVAL -/
def keepaliveTimeoutInterval : Int32 := 130000

/-- The times of struct Channel. -/
structure ChannelTimes where
  localTimestamp : TimeVal
  remoteTimestamp : TimeVal
  lastActivity : TimeVal
  timeout : Int32
  deriving DecidableEq

/-- What rc_zalloc leaves. -/
def ChannelTimes.zalloc : ChannelTimes := ⟨zero, zero, zero, 0⟩

/-- What sets a channel's time stamps. -/
inductive Activity
  /-- The channel is made, and update_remote_timestamp is called. -/
  | opened (timeout : Int32)
  /-- update_remote_timestamp -/
  | heard
  /-- A keep-alive packet from the peer. -/
  | keptAlive
  /-- Data, a pause or a resumption has gone out. -/
  | sent
  /-- A keep-alive packet has gone out. -/
  | sentKeepAlive
  deriving DecidableEq

def ChannelTimes.set (times : ChannelTimes) (t : TimeVal) : Activity → ChannelTimes
  | .opened timeout => { times with remoteTimestamp := t, lastActivity := t, timeout }
  | .heard => { times with remoteTimestamp := t, lastActivity := t }
  | .keptAlive => { times with remoteTimestamp := t }
  | .sent => { times with localTimestamp := t, lastActivity := t }
  | .sentKeepAlive => { times with localTimestamp := t }

/-- An activity on an incarnation of a channel, and its time. -/
structure Stamped where
  number : Nat
  time : TimeVal
  activity : Activity
  deriving DecidableEq

def setAll (times : Nat → ChannelTimes) (es : List Stamped) : Nat → ChannelTimes :=
  es.foldl (fun times e => Function.update times e.number ((times e.number).set e.time e.activity)) times

/-- The intervals of multiplex_handler_checkpoint for one channel. -/
def checkpointDue (times : ChannelTimes) (now : TimeVal) (sent : Bool) : Due :=
  if times.timeout ≠ 0 ∧ times.timeout * 1000 ≤ interval now times.lastActivity then .timeout
  else if keepaliveTimeoutInterval ≤ interval now times.remoteTimestamp then .timeout
  else if keepaliveInterval ≤ interval now times.localTimestamp then .keepAlive sent
  else .nothing

/-- A handler with the times of its channels, by their incarnations: what gettimeofday returns, and what it returned
when the pass of the timer began. -/
structure TimedHandler where
  handler : MultiplexHandler
  times : Nat → ChannelTimes
  clock : TimeVal
  now : TimeVal

inductive TimedInput
  | clock (t : TimeVal)
  | open (type : ChannelType) (alloc : Alloc) (cookie : List UInt8) (timeout : Int32) (sent : Bool)
  | visit (c : ChannelId) (sent : Bool)
  | other (input : HandlerInput)

/-- What a packet for a channel sets once its callback has returned, or at once where there is none. -/
def packetActivity (ch : HandlerChannel) (pb : ReadPacket) : Option Activity :=
  match packetType pb.type with
  | some .channelKeepAlive => some .keptAlive
  | some .channelOpenConfirmation => if ch.status = .opening ∧ pb.remoteChannelId ≠ 0 then some .heard else none
  | some .channelData => if ch.status = .pending ∨ ch.status = .open then some .heard else none
  | some .channelPending => if ch.status = .open then some .heard else none
  | some .channelResume => if ch.status = .pending then some .heard else none
  | _ => none

namespace TimedHandler

def create (worker : Bool) (start : TimeVal) : TimedHandler :=
  ⟨MultiplexHandler.create false worker, fun _ => .zalloc, start, start⟩

/-- What the timer finds out about a channel. -/
def due (s : TimedHandler) (c : ChannelId) (sent : Bool) : Due :=
  match s.handler.channels.lookup c with
  | none => .nothing
  | some ch => checkpointDue (s.times ch.tag.number) s.now sent

/-- Timeouts are no negative numbers. -/
def input (s : TimedHandler) : TimedInput → Option HandlerInput
  | .clock _ => none
  | .open type alloc cookie timeout sent => if 0 ≤ timeout then some (.open type alloc cookie sent) else none
  | .visit c sent => some (.visit c (s.due c sent))
  | .other (.open ..) | .other (.visit ..) => none
  | .other input => some input

/-- On the channel with an id. -/
def onChannel (s : TimedHandler) (c : ChannelId) (t : TimeVal) (activity : Activity) : List Stamped :=
  ((s.handler.channels.lookup c).map fun ch => ⟨ch.tag.number, t, activity⟩).toList

/-- A callback has returned whose channel may have been removed in the meantime. -/
def heard (s : TimedHandler) (t : MultiplexHandler) (c : ChannelId) (ch : HandlerChannel) : List Stamped :=
  if (t.channels.lookup c).any fun ch' => ch'.tag = ch.tag then [⟨ch.tag.number, s.clock, .heard⟩] else []

/-- The activities of a step of the handler. Open packets and their confirmations do not set the local time stamp. -/
def activities (s : TimedHandler) (i : HandlerInput) (t : MultiplexHandler) (os : List HandlerOutput) : List Stamped :=
  match i with
  | .datagram buf _ _ =>
    match readPacket buf.data with
    | none => []
    | some pb =>
      match s.handler.channels.lookup pb.localChannelId with
      | none => []
      | some ch =>
        match packetActivity ch pb with
        | none => []
        | some .keptAlive => [⟨ch.tag.number, s.clock, .keptAlive⟩]
        | some activity => if ch.tag.type.hasCallbacks then [] else [⟨ch.tag.number, s.clock, activity⟩]
  | .callbackReturns ok _ =>
    match s.handler.stack with
    | .told c ch :: _ => s.heard t c ch
    | .data c ch :: _ => if ok then s.heard t c ch else []
    | _ => []
  | .write c _ _ | .pend c _ | .resume c _ => if os = [] then [] else s.onChannel c s.clock .sent
  | .visit c due =>
    match s.handler.stack, due with
    | .checkpoint .. :: _, .keepAlive true => s.onChannel c s.now .sentKeepAlive
    | _, _ => []
  | _ => []

/-- The timeout of a channel that a step makes. Channels of the peer have none. -/
def timeoutOf : TimedInput → Int32
  | .open _ _ _ timeout _ => timeout
  | _ => 0

/-- A channel that a step has made. -/
def made (s : TimedHandler) (t : MultiplexHandler) (timeout : Int32) : List Stamped :=
  if s.handler.next < t.next then [⟨s.handler.next, s.clock, .opened timeout⟩] else []

end TimedHandler

/-- The timer reads the clock when a pass begins and when it begins anew. -/
def timedStep (s : TimedHandler) (input : TimedInput) : Option (TimedHandler × List Stamped) :=
  match input with
  | .clock t => some ({ s with clock := t }, [])
  | _ =>
    match s.input input with
    | none => none
    | some i => (handlerStep s.handler i).map fun r =>
      let es := s.made r.1 (TimedHandler.timeoutOf input) ++ s.activities i r.1 r.2
      let now := match i with
        | .checkpoint | .rescan => s.clock
        | _ => s.now
      (⟨r.1, setAll s.times es, s.clock, now⟩, es)

def timedMachine : Machine TimedHandler TimedInput Stamped := ⟨timedStep⟩

/-! The property: what a pass does, with the times that have gone by as they are. -/

/-- What counts for a data timeout, for the peer being alive, and as sending. -/
def Activity.isActivity : Activity → Bool
  | .opened _ | .heard | .sent => true
  | _ => false

def Activity.isHeard : Activity → Bool
  | .opened _ | .heard | .keptAlive => true
  | _ => false

def Activity.isSent : Activity → Bool
  | .sent | .sentKeepAlive => true
  | _ => false

/-- The last time of a kind of activity on an incarnation. -/
def lastTime (es : List Stamped) (n : Nat) (kind : Activity → Bool) : Option TimeVal :=
  ((es.filter fun e => decide (e.number = n) && kind e.activity).getLast?).map (·.time)

/-- The data timeout has run out. -/
def DataRunOut (es : List Stamped) (n : Nat) (timeout : Int32) (now : TimeVal) : Prop :=
  timeout ≠ 0 ∧ ∃ t, lastTime es n Activity.isActivity = some t ∧ timeout.toInt * 1000 ≤ elapsed now t

/-- Nothing has come from the peer for too long. -/
def PeerRunOut (es : List Stamped) (n : Nat) (now : TimeVal) : Prop :=
  ∃ t, lastTime es n Activity.isHeard = some t ∧ 130000 ≤ elapsed now t

/-- Nothing has been sent for some time, or at all. -/
def KeepAliveDue (es : List Stamped) (n : Nat) (now : TimeVal) : Prop :=
  ∀ t, lastTime es n Activity.isSent = some t → 30000 ≤ elapsed now t

/-- A pass closes the channel, sends a keep-alive packet on it, or does nothing. -/
def TreatsExactly (es : List Stamped) (n : Nat) (timeout : Int32) (now : TimeVal) (due : Bool → Due) : Prop :=
  (DataRunOut es n timeout now ∨ PeerRunOut es n now → ∀ sent, due sent = .timeout) ∧
    (¬ (DataRunOut es n timeout now ∨ PeerRunOut es n now) →
      (KeepAliveDue es n now → ∀ sent, due sent = .keepAlive sent) ∧
        (¬ KeepAliveDue es n now → ∀ sent, due sent = .nothing))

/-! The condition. -/

def DataShows (es : List Stamped) (n : Nat) (timeout : Int32) (now : TimeVal) : Prop :=
  timeout ≠ 0 ∧ ∃ t, lastTime es n Activity.isActivity = some t ∧ Shows (timeout.toInt * 1000) (elapsed now t)

def PeerShows (es : List Stamped) (n : Nat) (now : TimeVal) : Prop :=
  ∃ t, lastTime es n Activity.isHeard = some t ∧ Shows 130000 (elapsed now t)

/-- Of a channel that has never sent, the milliseconds since 1970 count. -/
def KeepAliveShows (es : List Stamped) (n : Nat) (now : TimeVal) : Prop :=
  Shows 30000 (elapsed now ((lastTime es n Activity.isSent).getD zero))

/-- What has run out shows in 32 bits, and a data timeout shows no earlier. -/
structure ShowsInTime (es : List Stamped) (n : Nat) (timeout : Int32) (now : TimeVal) : Prop where
  closes : DataRunOut es n timeout now ∨ PeerRunOut es n now → DataShows es n timeout now ∨ PeerShows es n now
  stays : ¬ (DataRunOut es n timeout now ∨ PeerRunOut es n now) → ¬ DataShows es n timeout now
  keeps : ¬ (DataRunOut es n timeout now ∨ PeerRunOut es n now) → KeepAliveDue es n now → KeepAliveShows es n now

/-! Time stamps against the activities so far. -/

section Times
variable {es : List Stamped} {n : Nat} {kind : Activity → Bool}

theorem lastTime_snoc (es : List Stamped) (e : Stamped) (n : Nat) (kind : Activity → Bool) :
    lastTime (es ++ [e]) n kind =
      if e.number = n ∧ kind e.activity = true then some e.time else lastTime es n kind := by
  rw [lastTime, List.filter_append, List.filter_singleton]
  cases hmatch : decide (e.number = n) && kind e.activity with
  | true =>
    rw [if_pos (by simpa using hmatch), cond_true, List.getLast?_concat, Option.map_some]
  | false =>
    have hother : ¬ (e.number = n ∧ kind e.activity = true) := fun h => by simp [h] at hmatch
    rw [if_neg hother, cond_false, List.append_nil, lastTime]

theorem setAll_append (times : Nat → ChannelTimes) (es es' : List Stamped) :
    setAll times (es ++ es') = setAll (setAll times es) es' := List.foldl_append

/-- A time stamp is the time of the last activity that sets it. -/
theorem setAll_field {field : ChannelTimes → TimeVal}
    (hset : ∀ times t activity, field (times.set t activity) = if kind activity then t else field times)
    (es : List Stamped) (n : Nat) :
    field (setAll (fun _ => .zalloc) es n) = (lastTime es n kind).getD (field .zalloc) := by
  induction es using List.reverseRecOn with
  | nil => rfl
  | append_singleton es e ih =>
    rw [setAll_append, lastTime_snoc]
    change field (Function.update (setAll _ es) e.number ((setAll _ es e.number).set e.time e.activity) n) = _
    by_cases hn : n = e.number
    · subst hn
      rw [Function.update_self, hset]
      by_cases hkind : kind e.activity = true
      · rw [if_pos hkind, if_pos ⟨rfl, hkind⟩, Option.getD_some]
      · rw [if_neg hkind, if_neg fun h => hkind h.2, ih]
    · rw [Function.update_of_ne hn, if_neg fun h => hn h.1.symm, ih]

theorem lastActivity_eq (es : List Stamped) (n : Nat) :
    (setAll (fun _ => .zalloc) es n).lastActivity = (lastTime es n Activity.isActivity).getD zero :=
  setAll_field (fun _ _ activity => by cases activity <;> rfl) es n

theorem remoteTimestamp_eq (es : List Stamped) (n : Nat) :
    (setAll (fun _ => .zalloc) es n).remoteTimestamp = (lastTime es n Activity.isHeard).getD zero :=
  setAll_field (fun _ _ activity => by cases activity <;> rfl) es n

theorem localTimestamp_eq (es : List Stamped) (n : Nat) :
    (setAll (fun _ => .zalloc) es n).localTimestamp = (lastTime es n Activity.isSent).getD zero :=
  setAll_field (fun _ _ activity => by cases activity <;> rfl) es n

theorem lastTime_isSome (hkind : ∀ timeout, kind (.opened timeout) = true)
    (hopened : ∃ t timeout, ⟨n, t, .opened timeout⟩ ∈ es) : ∃ t, lastTime es n kind = some t := by
  obtain ⟨t, timeout, hmem⟩ := hopened
  have hne : es.filter (fun e => decide (e.number = n) && kind e.activity) ≠ [] :=
    List.ne_nil_of_mem (List.mem_filter.mpr ⟨hmem, by simp [hkind]⟩)
  exact ⟨_, by rw [lastTime, List.getLast?_eq_some_getLast hne, Option.map_some]⟩

theorem lastTime_mem {t : TimeVal} (h : lastTime es n kind = some t) : ∃ e ∈ es, e.number = n ∧ e.time = t := by
  obtain ⟨e, he, rfl⟩ := Option.map_eq_some_iff.mp h
  have hmem := List.mem_filter.mp (List.mem_of_getLast? he)
  simp only [Bool.and_eq_true, decide_eq_true_eq] at hmem
  exact ⟨e, hmem.1, hmem.2.1, rfl⟩

end Times

/-! A channel in the table has been opened. -/

namespace MultiplexHandler
variable {h t u : MultiplexHandler} {c : ChannelId} {ch : HandlerChannel} {below : List Frame}

/-- The channels come from those of another handler. -/
structure Stems (t h : MultiplexHandler) : Prop where
  next : t.next = h.next
  table : ∀ c ch, t.channels.lookup c = some ch → ∃ ch', h.channels.lookup c = some ch' ∧ ch'.tag = ch.tag

theorem Stems.same (hnext : t.next = h.next) (hchannels : t.channels = h.channels) : Stems t h :=
  ⟨hnext, fun _ ch hc => ⟨ch, hchannels ▸ hc, rfl⟩⟩

theorem Stems.trans (h₁ : Stems u t) (h₂ : Stems t h) : Stems u h where
  next := h₁.next.trans h₂.next
  table c ch hc := by
    obtain ⟨ch₁, hc₁, he₁⟩ := h₁.table c ch hc
    obtain ⟨ch₂, hc₂, he₂⟩ := h₂.table c ch₁ hc₁
    exact ⟨ch₂, hc₂, he₂.trans he₁⟩

theorem stems_remove (h : MultiplexHandler) (c : ChannelId) : Stems (h.remove c) h :=
  ⟨remove_next h c, fun x ch hx => ⟨ch, fewer_remove h c x ch hx, rfl⟩⟩

theorem stems_setChannel (h : MultiplexHandler) (c : ChannelId) {f : HandlerChannel → HandlerChannel}
    (hf : ∀ ch, (f ch).tag = ch.tag) : Stems (h.setChannel c f) h where
  next := by
    unfold setChannel
    split <;> rfl
  table x ch hx := by
    rw [lookup_setChannel] at hx
    split at hx
    next he =>
      subst he
      obtain ⟨ch', hc, rfl⟩ := Option.map_eq_some_iff.mp hx
      exact ⟨ch', hc, (hf ch').symm⟩
    · exact ⟨ch, hx, rfl⟩

theorem stems_tell (h : MultiplexHandler) (c : ChannelId) (ch : HandlerChannel) (e : MuxEvent) :
    Stems (h.tell c ch e).1 h := by
  unfold tell
  split <;> exact .same rfl rfl

theorem stems_closeAndRemove (h : MultiplexHandler) (c : ChannelId) (ch : HandlerChannel) (reason : CloseReason) :
    Stems (h.closeAndRemove c ch reason).1 h := by
  unfold closeAndRemove
  split
  · exact .same rfl rfl
  · exact stems_remove h c

theorem stems_answerOpen (h : MultiplexHandler) (c : ChannelId) (ch : HandlerChannel) (ok sent : Bool) :
    Stems (h.answerOpen c ch ok sent).1 h := by
  unfold answerOpen
  cases sent with
  | true =>
    cases ok with
    | true => exact (stems_tell _ c ch _).trans (stems_setChannel h c fun _ => rfl)
    | false => exact stems_remove h c
  | false =>
    cases ok with
    | true => exact stems_closeAndRemove h c ch .error
    | false => exact stems_remove h c

theorem stems_notifyChannel (h : MultiplexHandler) (ch : HandlerChannel) (buf : FlexBuffer) (pb : ReadPacket) :
    Stems (h.notifyChannel ch buf pb).1 h := by
  have hsame : Stems h h := .same rfl rfl
  have hset : ∀ (g : HandlerChannel → HandlerChannel) (e : MuxEvent), (∀ ch, (g ch).tag = ch.tag) →
      Stems ((h.setChannel pb.localChannelId g).tell pb.localChannelId ch e).1 h := fun g e hg =>
    (stems_tell _ _ ch e).trans (stems_setChannel h _ hg)
  unfold notifyChannel
  simp only
  split
  · exact hsame
  · exact hsame
  · split
    · exact hsame
    split
    · exact hset _ _ fun _ => rfl
    · exact stems_closeAndRemove h _ ch .error
  · split
    · exact hsame
    split <;> exact .same rfl rfl
  · exact hsame
  · split
    · exact hsame
    · exact hset _ _ fun _ => rfl
  · split
    · exact hsame
    · exact hset _ _ fun _ => rfl
  · exact stems_closeAndRemove h _ ch .normal

theorem stems_callbackReturns {ok sent : Bool} {r : MultiplexHandler × List HandlerOutput}
    (hstep : h.callbackReturns ok sent = some r) : Stems r.1 h := by
  have hpop : ∀ below : List Frame, Stems { h with stack := below } h := fun _ => .same rfl rfl
  cases callbackReturns_step hstep with
  | opening hstack => exact (stems_answerOpen _ _ _ ok sent).trans (hpop _)
  | taken hstack hok => exact hpop _
  | refused hstack hok => exact (stems_closeAndRemove _ _ _ _).trans (hpop _)
  | closing hstack => exact (stems_remove _ _).trans (hpop _)
  | @timedOut c ch rest below hstack =>
    have hremoved := stems_remove h c
    exact ⟨hremoved.next, hremoved.table⟩
  | kept hstack hseen => exact hpop _
  | told hstack | streamData hstack => exact hpop _

theorem stems_closeChannel (h : MultiplexHandler) (c : ChannelId) (sent : Bool) : Stems (h.closeChannel c sent).1 h := by
  unfold closeChannel
  split
  · exact .same rfl rfl
  · exact stems_closeAndRemove h c _ .normal

theorem stems_visit {due : Due} {r : MultiplexHandler × List HandlerOutput} (hstep : h.visit c due = some r) :
    Stems r.1 h := by
  have hremoved := stems_remove h c
  cases visit_step hstep with
  | checkpoint hstack hc =>
    cases due with
    | nothing => exact .same rfl rfl
    | keepAlive sent => exact .same rfl rfl
    | timeout =>
      unfold checkpointVisit
      dsimp only
      split
      · exact .same rfl rfl
      · exact ⟨hremoved.next, hremoved.table⟩
  | closeChannels hstack hc =>
    unfold closeVisit
    dsimp only
    split <;> exact ⟨hremoved.next, hremoved.table⟩

theorem stems_rescan {r : MultiplexHandler × List HandlerOutput} (hstep : h.rescan = some r) : Stems r.1 h := by
  obtain ⟨f, g, below, -, -, -, rfl⟩ := rescan_step hstep
  exact .same rfl rfl

theorem stems_leave {r : MultiplexHandler × List HandlerOutput} (hstep : h.leave = some r) : Stems r.1 h := by
  obtain ⟨f, below, -, -, rfl⟩ := leave_step hstep
  exact .same rfl rfl

/-- The channels come from those of another handler, and at most one of them is new. -/
def Grows (t h : MultiplexHandler) : Prop :=
  ∀ c ch, t.channels.lookup c = some ch →
    (∃ ch', h.channels.lookup c = some ch' ∧ ch'.tag = ch.tag) ∨ ch.tag.number = h.next ∧ h.next < t.next

theorem Stems.grows (hs : Stems t h) : Grows t h := fun c ch hc => .inl (hs.table c ch hc)

theorem Stems.grows_put (hs : Stems t { h.put c ch with next := h.next + 1 }) (hnumber : ch.tag.number = h.next) :
    Grows t h := by
  intro x ch' hx
  obtain ⟨ch₁, hx₁, he⟩ := hs.table x ch' hx
  change (h.channels.insert c ch).lookup x = some ch₁ at hx₁
  rw [Table.lookup_insert_eq] at hx₁
  split at hx₁
  · cases hx₁
    exact .inr ⟨he ▸ hnumber, by rw [hs.next]; exact Nat.lt_succ_self _⟩
  · exact .inl ⟨ch₁, hx₁, he⟩

theorem grows_notifyOpen (h : MultiplexHandler) (type : ChannelType) (pb : ReadPacket) (alloc : Alloc) (sent : Bool) :
    Grows (h.notifyOpen type pb alloc sent).1 h := by
  have hsame : Stems h h := .same rfl rfl
  unfold notifyOpen
  split
  · exact hsame.grows
  · exact hsame.grows
  next c =>
    let ch : HandlerChannel := ⟨pb.remoteChannelId, .opening, ⟨type, h.next⟩⟩
    have hput : ∀ stack, Stems { h.put c ch with next := h.next + 1, stack } { h.put c ch with next := h.next + 1 } :=
      fun _ => .same rfl rfl
    dsimp only
    split
    · exact (hput _).grows_put rfl
    · exact (stems_answerOpen _ c ch true sent).grows_put rfl

theorem grows_notifyPacket (h : MultiplexHandler) (buf : FlexBuffer) (alloc : Alloc) (sent : Bool) :
    Grows (h.notifyPacket buf alloc sent).1 h := by
  have hsame : Stems h h := .same rfl rfl
  unfold notifyPacket
  split
  · exact hsame.grows
  next pb _ =>
    unfold notifyRead
    split
    · exact Stems.grows (.same rfl rfl)
    dsimp only
    split
    · split
      · exact hsame.grows
      · split
        · exact grows_notifyOpen h _ pb alloc sent
        · exact hsame.grows
    · split
      · exact hsame.grows
      next ch _ => exact (stems_notifyChannel h ch buf pb).grows

theorem grows_openChannel (h : MultiplexHandler) (type : ChannelType) (alloc : Alloc) (cookie : List UInt8)
    (sent : Bool) : Grows (h.openChannel type alloc cookie sent).1 h := by
  have hsame : Stems h h := .same rfl rfl
  unfold openChannel
  split
  · exact hsame.grows
  · exact hsame.grows
  next c =>
    let ch : HandlerChannel := ⟨0, .opening, ⟨type, h.next⟩⟩
    have hput : Stems { h.put c ch with next := h.next + 1 } { h.put c ch with next := h.next + 1 } := .same rfl rfl
    dsimp only
    split
    · exact hput.grows_put rfl
    · exact (stems_remove _ c).grows_put rfl

theorem handlerStep_grows {i : HandlerInput} {o : List HandlerOutput} (hstep : handlerStep h i = some (t, o)) :
    Grows t h := by
  cases i with
  | chunk buf =>
    simp only [handlerStep, Option.ite_none_right_eq_some, Option.some.injEq] at hstep
    obtain ⟨-, hstep⟩ := hstep
    cases hstep
    exact Stems.grows (.same rfl rfl)
  | turn alloc sent =>
    simp only [handlerStep] at hstep
    split at hstep
    · cases hstep
    next buf _ =>
      simp only [Option.ite_none_right_eq_some, Option.some.injEq] at hstep
      obtain ⟨-, hstep⟩ := hstep
      unfold notifyDataTurn at hstep
      split at hstep
      · cases hstep
        exact Stems.grows (.same rfl rfl)
      · cases hstep
        exact grows_notifyPacket _ _ alloc sent
  | datagram buf alloc sent =>
    simp only [handlerStep, Option.ite_none_right_eq_some, Option.some.injEq] at hstep
    obtain ⟨-, hstep⟩ := hstep
    obtain rfl : _ = t := congrArg Prod.fst hstep
    exact grows_notifyPacket h buf.toFlexBuffer alloc sent
  | callbackReturns ok sent => exact (stems_callbackReturns hstep).grows
  | «open» type alloc cookie sent =>
    simp only [handlerStep, Option.ite_none_right_eq_some, Option.some.injEq] at hstep
    obtain ⟨-, hstep⟩ := hstep
    obtain rfl : _ = t := congrArg Prod.fst hstep
    exact grows_openChannel h type alloc cookie sent
  | close c sent =>
    simp only [handlerStep, Option.ite_none_right_eq_some, Option.some.injEq] at hstep
    obtain ⟨-, hstep⟩ := hstep
    obtain rfl : _ = t := congrArg Prod.fst hstep
    exact (stems_closeChannel h c sent).grows
  | write | pend | resume =>
    simp only [handlerStep, sends, Option.ite_none_right_eq_some, Option.some.injEq] at hstep
    obtain ⟨-, hstep⟩ := hstep
    cases hstep
    exact Stems.grows (.same rfl rfl)
  | checkpoint | stop =>
    simp only [handlerStep, Option.ite_none_right_eq_some, Option.some.injEq] at hstep
    obtain ⟨-, hstep⟩ := hstep
    cases hstep
    exact Stems.grows (.same rfl rfl)
  | visit c due => exact (stems_visit hstep).grows
  | rescan => exact (stems_rescan hstep).grows
  | leave => exact (stems_leave hstep).grows

end MultiplexHandler

/-! Runs. -/

/-- The time stamps are those of the activities so far, of which each channel in the table has its opening. -/
structure Recorded (s : TimedHandler) (es : List Stamped) : Prop where
  times : s.times = setAll (fun _ => .zalloc) es
  opened : ∀ c ch, s.handler.channels.lookup c = some ch → ∃ t timeout, ⟨ch.tag.number, t, .opened timeout⟩ ∈ es

theorem recorded_create (worker : Bool) (start : TimeVal) : Recorded (.create worker start) [] :=
  ⟨rfl, fun _ _ hc => nomatch hc⟩

theorem recorded_step {s t : TimedHandler} {input : TimedInput} {es os : List Stamped} (h : Recorded s es)
    (hstep : timedStep s input = some (t, os)) : Recorded t (es ++ os) := by
  unfold timedStep at hstep
  split at hstep
  · cases hstep
    exact ⟨by rw [List.append_nil]; exact h.times, fun c ch hc => by rw [List.append_nil]; exact h.opened c ch hc⟩
  · split at hstep
    · cases hstep
    next i _ =>
      obtain ⟨⟨u, o⟩, hu, hr⟩ := Option.map_eq_some_iff.mp hstep
      cases hr
      refine ⟨by rw [setAll_append _ es, ← h.times], fun c ch hc => ?_⟩
      rcases MultiplexHandler.handlerStep_grows hu c ch hc with ⟨ch', hc', he⟩ | ⟨hnumber, hnext⟩
      · obtain ⟨t, timeout, hmem⟩ := h.opened c ch' hc'
        exact ⟨t, timeout, List.mem_append_left _ (he ▸ hmem)⟩
      · refine ⟨s.clock, TimedHandler.timeoutOf input, List.mem_append_right _ (List.mem_append_left _ ?_)⟩
        rw [TimedHandler.made, if_pos hnext, hnumber]
        exact List.mem_cons_self

/-- What is due in ints against what is due. -/
theorem due_iff {data peer keep data' peer' keep' : Prop} [Decidable data'] [Decidable peer'] [Decidable keep']
    (hpeer : peer' → peer) (hkeep : keep' → keep) {due : Bool → Due}
    (hdue : ∀ sent, due sent = if data' then .timeout else if peer' then .timeout else
      if keep' then .keepAlive sent else .nothing) :
    ((data ∨ peer → ∀ sent, due sent = .timeout) ∧
      (¬ (data ∨ peer) → (keep → ∀ sent, due sent = .keepAlive sent) ∧ (¬ keep → ∀ sent, due sent = .nothing))) ↔
    (data ∨ peer → data' ∨ peer') ∧ (¬ (data ∨ peer) → ¬ data') ∧ (¬ (data ∨ peer) → keep → keep') := by
  simp only [hdue]
  by_cases hd' : data'
  · by_cases hr : data ∨ peer <;> by_cases hk : keep <;> simp [hd', hr, hk]
  · by_cases hp' : peer'
    · simp [hd', hp', hpeer hp']
    · by_cases hk' : keep'
      · by_cases hr : data ∨ peer <;> simp [hd', hp', hk', hr, hkeep hk']
      · by_cases hr : data ∨ peer <;> by_cases hk : keep <;> simp [hd', hp', hk', hr, hk]

section Decisions
variable {es : List Stamped} {n : Nat} {now : TimeVal} {times : ChannelTimes}

theorem dataShows_iff (htimes : times = setAll (fun _ => .zalloc) es n)
    (hopened : ∃ t timeout, ⟨n, t, .opened timeout⟩ ∈ es) :
    (times.timeout ≠ 0 ∧ times.timeout * 1000 ≤ interval now times.lastActivity) ↔
      DataShows es n times.timeout now := by
  obtain ⟨t, ht⟩ : ∃ t, lastTime es n Activity.isActivity = some t := lastTime_isSome (fun _ => rfl) hopened
  have hlast : times.lastActivity = t := by rw [htimes, lastActivity_eq, ht, Option.getD_some]
  have hshows : times.timeout * 1000 ≤ interval now t ↔ Shows (times.timeout.toInt * 1000) (elapsed now t) :=
    le_interval_iff (Int32.toInt_mul _ _)
  rw [hlast, DataShows, ht, hshows]
  simp

theorem peerShows_iff (htimes : times = setAll (fun _ => .zalloc) es n)
    (hopened : ∃ t timeout, ⟨n, t, .opened timeout⟩ ∈ es) :
    keepaliveTimeoutInterval ≤ interval now times.remoteTimestamp ↔ PeerShows es n now := by
  obtain ⟨t, ht⟩ : ∃ t, lastTime es n Activity.isHeard = some t := lastTime_isSome (fun _ => rfl) hopened
  have hlast : times.remoteTimestamp = t := by rw [htimes, remoteTimestamp_eq, ht, Option.getD_some]
  have hshows : keepaliveTimeoutInterval ≤ interval now t ↔ Shows 130000 (elapsed now t) := le_interval_iff rfl
  rw [hlast, PeerShows, ht, hshows]
  simp

theorem keepAliveShows_iff (htimes : times = setAll (fun _ => .zalloc) es n) :
    keepaliveInterval ≤ interval now times.localTimestamp ↔ KeepAliveShows es n now := by
  rw [htimes, localTimestamp_eq]
  exact le_interval_iff rfl

/-- Time stamps are not in the future. -/
theorem elapsed_lastTime (hlater : ∀ e ∈ es, e.number = n → e.time ≤ now) {kind : Activity → Bool} {t : TimeVal}
    (ht : lastTime es n kind = some t) : 0 ≤ elapsed now t := by
  obtain ⟨e, hmem, hn, rfl⟩ := lastTime_mem ht
  exact elapsed_nonneg (hlater e hmem hn)

theorem peerRunOut_of_shows (hlater : ∀ e ∈ es, e.number = n → e.time ≤ now) (h : PeerShows es n now) :
    PeerRunOut es n now := by
  obtain ⟨t, ht, hshows⟩ := h
  exact ⟨t, ht, le_of_shows (by decide) (by decide) (elapsed_lastTime hlater ht) hshows⟩

theorem keepAliveDue_of_shows (hlater : ∀ e ∈ es, e.number = n → e.time ≤ now) (h : KeepAliveShows es n now) :
    KeepAliveDue es n now := by
  intro t ht
  rw [KeepAliveShows, ht] at h
  exact le_of_shows (by decide) (by decide) (elapsed_lastTime hlater ht) h

theorem treatsExactly_iff (htimes : times = setAll (fun _ => .zalloc) es n)
    (hopened : ∃ t timeout, ⟨n, t, .opened timeout⟩ ∈ es) (hlater : ∀ e ∈ es, e.number = n → e.time ≤ now) :
    TreatsExactly es n times.timeout now (checkpointDue times now) ↔ ShowsInTime es n times.timeout now := by
  classical
  have hdue : ∀ sent, checkpointDue times now sent = if DataShows es n times.timeout now then .timeout else
      if PeerShows es n now then .timeout else if KeepAliveShows es n now then .keepAlive sent else .nothing := by
    intro sent
    simp only [checkpointDue, dataShows_iff htimes hopened, peerShows_iff htimes hopened, keepAliveShows_iff htimes]
  rw [TreatsExactly, due_iff (peerRunOut_of_shows hlater) (keepAliveDue_of_shows hlater) hdue]
  exact ⟨fun ⟨hcloses, hstays, hkeeps⟩ => ⟨hcloses, hstays, hkeeps⟩, fun h => ⟨h.closes, h.stays, h.keeps⟩⟩

/-- Intervals of less than 2^31 milliseconds on a channel that has sent. -/
theorem showsInTime_of_fits {timeout : Int32} (hzero : 0 ≤ timeout.toInt) (hfits : timeout.toInt * 1000 < 2 ^ 31)
    (hlater : ∀ e ∈ es, e.number = n → e.time ≤ now) (hrecent : ∀ e ∈ es, e.number = n → elapsed now e.time < 2 ^ 31)
    (hsent : lastTime es n Activity.isSent ≠ none) : ShowsInTime es n timeout now := by
  have hshows : ∀ {limit : Int} {kind : Activity → Bool} {t : TimeVal}, 0 ≤ limit → limit < 2 ^ 31 →
      lastTime es n kind = some t → (Shows limit (elapsed now t) ↔ limit ≤ elapsed now t) := by
    intro limit kind t hpos hlt ht
    refine shows_iff_of_lt hpos hlt (elapsed_lastTime hlater ht) ?_
    obtain ⟨e, hmem, hn, rfl⟩ := lastTime_mem ht
    exact hrecent e hmem hn
  have hdata : DataShows es n timeout now ↔ DataRunOut es n timeout now := by
    refine and_congr_right fun _ => exists_congr fun t => and_congr_right fun ht => ?_
    exact hshows (by omega) hfits ht
  have hpeer : PeerShows es n now ↔ PeerRunOut es n now :=
    exists_congr fun t => and_congr_right fun ht => hshows (by decide) (by decide) ht
  have hkeep : KeepAliveDue es n now → KeepAliveShows es n now := by
    intro hdue
    obtain ⟨t, ht⟩ := Option.ne_none_iff_exists'.mp hsent
    rw [KeepAliveShows, ht]
    exact (hshows (by decide) (by decide) ht).mpr (hdue t ht)
  exact ⟨by rw [hdata, hpeer]; exact id, fun hnone hd => hnone (.inl (hdata.mp hd)), fun _ => hkeep⟩

end Decisions

def atSecond (sec : Nat) : TimeVal := ⟨sec, 0, zero_lt_second⟩

/-- A channel is opened and confirmed. -/
def openedRun : List TimedInput :=
  [.open .user (.id 1) [] 0 true,
    .other (.datagram (arrival (protocolHead PacketType.channelOpenConfirmation.code ChannelType.user.code 1 7 0))
      .outOfMemory true),
    .other (.callbackReturns true true)]

end CarrierSdk.Mux
