import CarrierSdk.Friends.Calls
import CarrierSdk.Library.Machine

/-! The queue of friend events and the loop of ela_run that works it off. The calls of the
application come at any time, also from inside the callbacks. -/
namespace CarrierSdk.Friends

/-- A call of a callback of the application. -/
inductive FriendNotice where
  | friendAdded (fi : ElaFriendInfo)
  | friendRemoved (userid : UserId)
  | friendConnection (userid : UserId) (status : ConnectionStatus)
  deriving DecidableEq

/-- do_friend_event. -/
def doFriendEvent (event : FriendEvent) : List FriendNotice :=
  match event.type with
  | .added => [.friendAdded event.fi]
  | .removed =>
    (if event.fi.status = .connected then
      [.friendConnection event.fi.userInfo.userid .disconnected] else []) ++
      [.friendRemoved event.fi.userInfo.userid]

/-- Where do_friend_events is: it is not running, it is about to ask its iterator for the next
event, or it has called the callbacks of an event and not removed it yet. The flag says
that the list was changed behind the iterator. -/
inductive EventLoop where
  | idle
  | iterating (stale : Bool)
  | called (event : FriendEvent) (stale : Bool)
  deriving DecidableEq

structure EventState where
  carrier : ElaCarrier
  loop : EventLoop

/-- A call of the application, which the DHT gives a number or refuses; a connection event
of the DHT; and the steps of do_friend_events. What has_next says of a stale iterator is
not known. -/
inductive EventInput where
  | ready (b : Bool)
  | call (c : FriendCall) (tox : Option FriendNumber)
  | connection (friendNumber : FriendNumber) (connected : Bool)
  | begin
  | next (hasNext : Bool)
  | remove

inductive EventOutput where
  | queued (event : FriendEvent)
  | began
  | delivered (n : FriendNotice)
  | direct (n : FriendNotice)
  | returned (left : List FriendEvent)
  deriving DecidableEq

/-- A change of the list makes an iterator stale. -/
def EventLoop.touched : EventLoop → EventLoop
  | .idle => .idle
  | .iterating _ => .iterating true
  | .called event _ => .called event true

def statusOf (connected : Bool) : ConnectionStatus := if connected then .connected else .disconnected

/-- notify_friend_connection_cb. -/
def notifyFriendConnectionCb (w : ElaCarrier) (friendNumber : FriendNumber) (connected : Bool) :
    ElaCarrier × List FriendNotice :=
  match w.friends.lookup friendNumber with
  | none => (w, [])
  | some fi =>
    if statusOf connected ≠ fi.status then
      ({ w with friends := w.friends.insert friendNumber { fi with status := statusOf connected } },
        [.friendConnection fi.userInfo.userid (statusOf connected)])
    else (w, [])

/-- One step of ela_run, or a call of the application between two of them. The DHT reports
connections in dht_iterate, after do_friend_events has returned. -/
def eventStep (codec : KeyCodec) (s : EventState) : EventInput → Option (EventState × List EventOutput)
  | .ready b => some ({ s with carrier := { s.carrier with isReady := b } }, [])
  | .call c tox =>
    let w := (friendCall codec tox s.carrier c).1
    let queued := w.friendEvents.drop s.carrier.friendEvents.length
    some (⟨w, if queued.isEmpty then s.loop else s.loop.touched⟩, queued.map .queued)
  | .connection friendNumber connected =>
    if s.loop = .idle then
      let r := notifyFriendConnectionCb s.carrier friendNumber connected
      some ({ s with carrier := r.1 }, r.2.map .direct)
    else none
  | .begin => if s.loop = .idle then some ({ s with loop := .iterating false }, [.began]) else none
  | .next hasNext =>
    match s.loop with
    | .iterating true =>
      -- list_iterator_next would return -1, which starts the iteration again.
      if hasNext then some ({ s with loop := .iterating false }, [])
      else some ({ s with loop := .idle }, [.returned s.carrier.friendEvents])
    | .iterating false =>
      match s.carrier.friendEvents with
      | [] => some ({ s with loop := .idle }, [.returned []])
      | event :: _ => some ({ s with loop := .called event false }, (doFriendEvent event).map .delivered)
    | _ => none
  | .remove =>
    match s.loop with
    | .called _ true => some ({ s with loop := .iterating true }, [])
    | .called _ false =>
      some (⟨{ s.carrier with friendEvents := s.carrier.friendEvents.tail }, .iterating false⟩, [])
    | _ => none

def eventMachine (codec : KeyCodec) : Machine EventState EventInput EventOutput := ⟨eventStep codec⟩

/-- The queued events whose callbacks have not been called yet. -/
def EventState.waiting (s : EventState) : List FriendEvent :=
  match s.loop with
  | .called _ _ => s.carrier.friendEvents.tail
  | _ => s.carrier.friendEvents

def queuedEvents (os : List EventOutput) : List FriendEvent :=
  os.filterMap fun | .queued e => some e | _ => none

def deliveredNotices (os : List EventOutput) : List FriendNotice :=
  os.filterMap fun | .delivered n => some n | _ => none

/-- The outputs since do_friend_events last began. -/
def sinceBegan (os : List EventOutput) : List EventOutput :=
  os.foldl (fun since o => if o = .began then [] else since ++ [o]) []

/-- The callbacks of all events are called once each in the order of queueing, up to the events
that still wait. Where nothing was queued since it began, do_friend_events returns with
an empty queue. -/
structure ExactlyOnce (s u : EventState) (os : List EventOutput) : Prop where
  inOrder : (s.carrier.friendEvents ++ queuedEvents os).flatMap doFriendEvent =
    deliveredNotices os ++ u.waiting.flatMap doFriendEvent
  empties : ∀ before left after, os = before ++ .returned left :: after →
    (∀ e, .queued e ∉ sinceBegan before) → left = []

/-- No friend is added or removed between the call of an event's callbacks and the removal
of the event from the list. -/
def leavesListAlone (codec : KeyCodec) (s : EventState) : EventInput → Bool
  | .call c tox =>
    match s.loop with
    | .called _ _ => (friendCall codec tox s.carrier c).2.isSome
    | _ => true
  | _ => true

/-- A connection event changes nothing or the status of one friend, and reports it. -/
theorem notifyFriendConnectionCb_cases (w : ElaCarrier) (n : FriendNumber) (b : Bool) :
    notifyFriendConnectionCb w n b = (w, []) ∨ ∃ fi, w.friends.lookup n = some fi ∧
      statusOf b ≠ fi.status ∧ notifyFriendConnectionCb w n b =
        ({ w with friends := w.friends.insert n { fi with status := statusOf b } },
          [.friendConnection fi.userInfo.userid (statusOf b)]) := by
  unfold notifyFriendConnectionCb
  split
  · exact .inl rfl
  · next fi hfi =>
    split
    · next hstatus => exact .inr ⟨fi, hfi, hstatus, rfl⟩
    · exact .inl rfl

/-- The calls change the queue only at its end, and only where they succeed. -/
theorem friendCall_events (codec : KeyCodec) (tox : Option FriendNumber) (w : ElaCarrier) (c : FriendCall) :
    ∃ new, (friendCall codec tox w c).1.friendEvents = w.friendEvents ++ new ∧
      ((friendCall codec tox w c).2.isSome = true → new = []) := by
  have hout := friendCall_outcome codec tox w c
  generalize (friendCall codec tox w c).1 = w' at hout ⊢
  generalize (friendCall codec tox w c).2 = e at hout ⊢
  cases hout with
  | failed e => exact ⟨[], by simp, fun _ => rfl⟩
  | added hc hkey htox hw => exact ⟨_, hw.events, fun he => (nomatch he)⟩
  | removed hc hkey hw => exact ⟨_, hw.events, fun he => (nomatch he)⟩

section Histories
variable (os ps : List EventOutput)

@[simp] theorem queuedEvents_append : queuedEvents (os ++ ps) = queuedEvents os ++ queuedEvents ps :=
  List.filterMap_append

@[simp] theorem deliveredNotices_append :
    deliveredNotices (os ++ ps) = deliveredNotices os ++ deliveredNotices ps := List.filterMap_append

@[simp] theorem queuedEvents_queued (es : List FriendEvent) : queuedEvents (es.map .queued) = es := by
  rw [queuedEvents, List.filterMap_map]
  exact List.filterMap_some

@[simp] theorem deliveredNotices_queued (es : List FriendEvent) :
    deliveredNotices (es.map .queued) = [] :=
  Machine.filterMap_map_none (fun _ => rfl) es

@[simp] theorem queuedEvents_delivered (ns : List FriendNotice) :
    queuedEvents (ns.map .delivered) = [] :=
  Machine.filterMap_map_none (fun _ => rfl) ns

@[simp] theorem deliveredNotices_delivered (ns : List FriendNotice) :
    deliveredNotices (ns.map .delivered) = ns := by
  rw [deliveredNotices, List.filterMap_map]
  exact List.filterMap_some

@[simp] theorem queuedEvents_direct (ns : List FriendNotice) : queuedEvents (ns.map .direct) = [] :=
  Machine.filterMap_map_none (fun _ => rfl) ns

@[simp] theorem deliveredNotices_direct (ns : List FriendNotice) :
    deliveredNotices (ns.map .direct) = [] :=
  Machine.filterMap_map_none (fun _ => rfl) ns

theorem sinceBegan_append {l : List EventOutput} (h : .began ∉ l) :
    sinceBegan (os ++ l) = sinceBegan os ++ l := by
  induction l generalizing os with
  | nil => simp
  | cons o l ih =>
    rw [List.mem_cons, not_or] at h
    rw [List.append_cons, ih _ h.2, sinceBegan, List.foldl_concat, if_neg (Ne.symm h.1), ← sinceBegan]
    simp

end Histories

/-- All that a step can do. -/
inductive Effect (codec : KeyCodec) (s : EventState) :
    EventInput → EventState → List EventOutput → Prop
  | ready (b : Bool) : Effect codec s (.ready b) { s with carrier := { s.carrier with isReady := b } } []
  | call {c : FriendCall} {tox : Option FriendNumber} {new : List FriendEvent}
      (hevents : (friendCall codec tox s.carrier c).1.friendEvents = s.carrier.friendEvents ++ new)
      (hfailed : (friendCall codec tox s.carrier c).2.isSome = true → new = []) :
      Effect codec s (.call c tox)
        ⟨(friendCall codec tox s.carrier c).1, if new.isEmpty then s.loop else s.loop.touched⟩
        (new.map .queued)
  | connection {n : FriendNumber} {b : Bool} (hloop : s.loop = .idle) :
      Effect codec s (.connection n b) { s with carrier := (notifyFriendConnectionCb s.carrier n b).1 }
        ((notifyFriendConnectionCb s.carrier n b).2.map .direct)
  | began (hloop : s.loop = .idle) : Effect codec s .begin { s with loop := .iterating false } [.began]
  | restarted (hloop : s.loop = .iterating true) :
      Effect codec s (.next true) { s with loop := .iterating false } []
  | returned {stale hasNext : Bool} (hloop : s.loop = .iterating stale)
      (hempty : stale = false → s.carrier.friendEvents = []) :
      Effect codec s (.next hasNext) { s with loop := .idle } [.returned s.carrier.friendEvents]
  | delivered {event : FriendEvent} {rest : List FriendEvent} {hasNext : Bool}
      (hloop : s.loop = .iterating false) (hevents : s.carrier.friendEvents = event :: rest) :
      Effect codec s (.next hasNext) { s with loop := .called event false }
        ((doFriendEvent event).map .delivered)
  | kept {event : FriendEvent} (hloop : s.loop = .called event true) :
      Effect codec s .remove { s with loop := .iterating true } []
  | removed {event : FriendEvent} (hloop : s.loop = .called event false) :
      Effect codec s .remove
        ⟨{ s.carrier with friendEvents := s.carrier.friendEvents.tail }, .iterating false⟩ []

theorem eventStep_effect {codec : KeyCodec} {s t : EventState} {i : EventInput} {o : List EventOutput}
    (hs : eventStep codec s i = some (t, o)) : Effect codec s i t o := by
  cases i with
  | ready b =>
    cases hs
    exact .ready b
  | call c tox =>
    obtain ⟨new, hevents, hfailed⟩ := friendCall_events codec tox s.carrier c
    simp only [eventStep, hevents, List.drop_left] at hs
    cases hs
    exact .call hevents hfailed
  | connection n b =>
    simp only [eventStep] at hs
    split at hs
    · next hloop =>
      cases hs
      exact .connection hloop
    · cases hs
  | begin =>
    simp only [eventStep] at hs
    split at hs
    · next hloop =>
      cases hs
      exact .began hloop
    · cases hs
  | next hasNext =>
    simp only [eventStep] at hs
    split at hs
    · next hloop =>
      split at hs
      · next hnext =>
        cases hs
        cases hnext
        exact .restarted hloop
      · cases hs
        exact .returned hloop fun hf => (nomatch hf)
    · next hloop =>
      split at hs
      · next hempty =>
        cases hs
        rw [← hempty]
        exact .returned hloop fun _ => hempty
      · next event rest hevents =>
        cases hs
        exact .delivered hloop hevents
    · cases hs
  | remove =>
    simp only [eventStep] at hs
    split at hs
    · next hloop =>
      cases hs
      exact .kept hloop
    · next hloop =>
      cases hs
      exact .removed hloop
    · cases hs

/-- The event whose callbacks are called is the first of the list, which did not change. -/
def EventState.Held (s : EventState) : Prop :=
  ∀ e stale, s.loop = .called e stale → stale = false ∧ ∃ rest, s.carrier.friendEvents = e :: rest

/-! One step of a run that leaves the list alone. -/

section Step
variable {codec : KeyCodec} {s t : EventState} {i : EventInput} {o : List EventOutput}

/-- No event is queued during the callbacks. -/
theorem leavesListAlone_call {c : FriendCall} {tox : Option FriendNumber} {e : FriendEvent} {stale : Bool}
    {new : List FriendEvent} (hg : leavesListAlone codec s (.call c tox) = true)
    (hloop : s.loop = .called e stale)
    (hfailed : (friendCall codec tox s.carrier c).2.isSome = true → new = []) : new = [] := by
  apply hfailed
  simpa only [leavesListAlone, hloop] using hg

theorem EventState.Held.step (h : s.Held) (hg : leavesListAlone codec s i = true)
    (hs : Effect codec s i t o) : t.Held := by
  cases hs with
  | ready b => exact h
  | @call c tox new hevents hfailed =>
    intro e stale he
    cases new with
    | nil =>
      obtain ⟨hstale, rest, hrest⟩ := h e stale he
      exact ⟨hstale, rest, by rw [hevents, hrest, List.append_nil]⟩
    | cons n new =>
      cases hl : s.loop with
      | idle => simp [hl, EventLoop.touched] at he
      | iterating b => simp [hl, EventLoop.touched] at he
      | called e' b => cases leavesListAlone_call hg hl hfailed
  | connection hloop =>
    intro e stale he
    cases hloop.symm.trans he
  | delivered hloop hevents =>
    intro e stale he
    cases he
    exact ⟨rfl, _, hevents⟩
  | began | restarted | returned | kept | removed =>
    intro e stale he
    cases he

@[simp] theorem notifyFriendConnectionCb_events (w : ElaCarrier) (n : FriendNumber) (b : Bool) :
    (notifyFriendConnectionCb w n b).1.friendEvents = w.friendEvents := by
  obtain h | ⟨fi, -, -, h⟩ := notifyFriendConnectionCb_cases w n b
  · rw [h]
  · rw [h]

theorem waiting_of_called {e : FriendEvent} {stale : Bool} (h : s.loop = .called e stale) :
    s.waiting = s.carrier.friendEvents.tail := by
  simp only [EventState.waiting, h]

theorem waiting_of_not_called (h : ∀ e stale, s.loop ≠ .called e stale) :
    s.waiting = s.carrier.friendEvents := by
  unfold EventState.waiting
  split
  · next e stale hloop => exact (h e stale hloop).elim
  · rfl

/-- What is queued goes to the end of the waiting events; what is delivered was their first. -/
theorem Effect.balance (hheld : s.Held) (hg : leavesListAlone codec s i = true)
    (hs : Effect codec s i t o) : ∃ done, deliveredNotices o = done.flatMap doFriendEvent ∧
      s.waiting ++ queuedEvents o = done ++ t.waiting := by
  cases hs with
  | ready b => exact ⟨[], rfl, by simp [queuedEvents, EventState.waiting]⟩
  | @call c tox new hevents hfailed =>
    refine ⟨[], by simp, ?_⟩
    rw [queuedEvents_queued, List.nil_append]
    cases hl : s.loop with
    | idle =>
      rw [waiting_of_not_called (by simp [hl]), waiting_of_not_called (by simp [EventLoop.touched]), hevents]
    | iterating b =>
      have hnot : ∀ e stale,
          (if new.isEmpty then EventLoop.iterating b else EventLoop.touched (.iterating b)) ≠
            .called e stale := by
        intro e stale
        split <;> exact fun he => (nomatch he)
      rw [waiting_of_not_called (by simp [hl]), waiting_of_not_called hnot, hevents]
    | called e b =>
      cases leavesListAlone_call hg hl hfailed
      rw [waiting_of_called hl, waiting_of_called rfl, hevents]
      simp
  | connection hloop =>
    refine ⟨[], by simp, ?_⟩
    rw [waiting_of_not_called (by simp [hloop]), waiting_of_not_called (by simp [hloop])]
    simp
  | began hloop =>
    refine ⟨[], rfl, ?_⟩
    simp [EventState.waiting, hloop, queuedEvents]
  | restarted hloop =>
    refine ⟨[], rfl, ?_⟩
    simp [EventState.waiting, hloop, queuedEvents]
  | returned hloop hempty =>
    refine ⟨[], rfl, ?_⟩
    simp [EventState.waiting, hloop, queuedEvents]
  | @delivered event rest hasNext hloop hevents =>
    refine ⟨[event], by simp, ?_⟩
    simp [EventState.waiting, hloop, hevents]
  | kept hloop => cases (hheld _ _ hloop).1
  | removed hloop =>
    refine ⟨[], rfl, ?_⟩
    simp [EventState.waiting, hloop, queuedEvents]

/-- The iterator of a loop that has not returned is stale only if something was queued since
the loop began. -/
def QueuedWhileStale (s : EventState) (os : List EventOutput) : Prop :=
  s.loop = .iterating true → ∃ e, .queued e ∈ sinceBegan os

/-- do_friend_events returns with an empty queue, unless events were queued since it began. -/
def EmptyOnReturn (before : List EventOutput) (o : EventOutput) : Prop :=
  ∀ left, o = .returned left → (∀ e, .queued e ∉ sinceBegan before) → left = []

theorem Effect.stale {os : List EventOutput} (hheld : s.Held) (h : QueuedWhileStale s os)
    (hg : leavesListAlone codec s i = true) (hs : Effect codec s i t o) :
    QueuedWhileStale t (os ++ o) := by
  cases hs with
  | ready b => rwa [List.append_nil]
  | @call c tox new hevents hfailed =>
    intro hloop
    rw [sinceBegan_append os (by simp)]
    cases new with
    | nil =>
      obtain ⟨e, he⟩ := h hloop
      exact ⟨e, List.mem_append_left _ he⟩
    | cons e new => exact ⟨e, List.mem_append_right _ List.mem_cons_self⟩
  | connection hidle =>
    intro hloop
    cases hidle.symm.trans hloop
  | kept hloop => cases (hheld _ _ hloop).1
  | began | restarted | returned | delivered | removed =>
    intro hloop
    cases hloop

theorem Effect.emptyOnReturn {os : List EventOutput} (h : QueuedWhileStale s os)
    (hall : Machine.EachAfter EmptyOnReturn os) (hs : Effect codec s i t o) :
    Machine.EachAfter EmptyOnReturn (os ++ o) := by
  cases hs with
  | @returned stale hasNext hloop hempty =>
    refine hall.snoc fun left heq hnone => ?_
    cases heq
    cases stale with
    | false => exact hempty rfl
    | true =>
      obtain ⟨e, he⟩ := h hloop
      exact (hnone e he).elim
  | ready | call | connection | began | restarted | delivered | kept | removed =>
    refine hall.append fun e he before left heq => ?_
    simp [heq] at he

end Step

/-- What holds after each step. -/
structure Ordered (start s : EventState) (os : List EventOutput) : Prop where
  held : s.Held
  stale : QueuedWhileStale s os
  inOrder : (start.carrier.friendEvents ++ queuedEvents os).flatMap doFriendEvent =
    deliveredNotices os ++ s.waiting.flatMap doFriendEvent
  empties : Machine.EachAfter EmptyOnReturn os

theorem Ordered.step {codec : KeyCodec} {start s t : EventState} {i : EventInput}
    {os o : List EventOutput} (h : Ordered start s os) (hg : leavesListAlone codec s i = true)
    (hs : Effect codec s i t o) : Ordered start t (os ++ o) where
  held := h.held.step hg hs
  stale := hs.stale h.held h.stale hg
  inOrder := by
    obtain ⟨done, hdone, hwait⟩ := hs.balance h.held hg
    calc (start.carrier.friendEvents ++ queuedEvents (os ++ o)).flatMap doFriendEvent
        = (start.carrier.friendEvents ++ queuedEvents os).flatMap doFriendEvent ++
            (queuedEvents o).flatMap doFriendEvent := by
          rw [queuedEvents_append, ← List.append_assoc, List.flatMap_append]
      _ = deliveredNotices os ++ (s.waiting ++ queuedEvents o).flatMap doFriendEvent := by
          rw [h.inOrder, List.append_assoc, List.flatMap_append]
      _ = deliveredNotices (os ++ o) ++ t.waiting.flatMap doFriendEvent := by
          rw [hwait, deliveredNotices_append, hdone, List.flatMap_append, List.append_assoc]
  empties := hs.emptyOnReturn h.stale h.empties

theorem Ordered.initial {s : EventState} (h : s.loop = .idle) : Ordered s s [] where
  held e stale he := by cases h.symm.trans he
  stale he := by cases h.symm.trans he
  inOrder := by simp [queuedEvents, deliveredNotices, EventState.waiting, h]
  empties := Machine.EachAfter.nil

/-- The steps of do_friend_events over n events, with nothing in between. -/
def doFriendEvents (n : Nat) : List EventInput :=
  .begin :: ((List.replicate n [.next true, .remove]).flatten ++ [.next false])

theorem exec_iterating (codec : KeyCodec) (w : ElaCarrier) (events : List FriendEvent) :
    (eventMachine codec).exec ⟨{ w with friendEvents := events }, .iterating false⟩
      ((List.replicate events.length [.next true, .remove]).flatten ++ [.next false]) =
      some (⟨{ w with friendEvents := [] }, .idle⟩,
        (events.flatMap doFriendEvent).map .delivered ++ [.returned []]) := by
  induction events with
  | nil => rfl
  | cons event events ih =>
    simp only [List.length_cons, List.replicate_succ, List.flatten_cons, List.cons_append, List.nil_append,
      Machine.exec, eventMachine, eventStep, List.tail_cons, Option.bind_some] at ih ⊢
    rw [ih]
    simp

theorem exec_doFriendEvents (codec : KeyCodec) (s : EventState) (h : s.loop = .idle) :
    (eventMachine codec).exec s (doFriendEvents s.carrier.friendEvents.length) =
      some (⟨{ s.carrier with friendEvents := [] }, .idle⟩,
        .began :: ((s.carrier.friendEvents.flatMap doFriendEvent).map .delivered ++ [.returned []])) := by
  have hiterating := exec_iterating codec s.carrier s.carrier.friendEvents
  simp only [doFriendEvents, Machine.exec, eventMachine, eventStep, h, if_true, Option.bind_some] at hiterating ⊢
  rw [hiterating]
  rfl

/-- In every run where the callbacks leave the list alone, all events are delivered once and in
order; and do_friend_events, from wherever it begins, delivers what is queued and
returns with an empty queue. -/
theorem delivered_exactly_once (codec : KeyCodec) {start u : EventState} {is : List EventInput}
    {os : List EventOutput} (hstart : start.loop = .idle)
    (h : Machine.Run (eventMachine codec) (fun s i => leavesListAlone codec s i = true) start is os u) :
    ExactlyOnce start u os ∧ (u.loop = .idle →
      (eventMachine codec).exec u (doFriendEvents u.carrier.friendEvents.length) =
        some (⟨{ u.carrier with friendEvents := [] }, .idle⟩,
          .began :: ((u.carrier.friendEvents.flatMap doFriendEvent).map .delivered ++ [.returned []]))) := by
  have hend : Ordered start u ([] ++ os) := by
    refine h.history (fun {s i t o os} hord hg hs => ?_) (Ordered.initial hstart)
    exact hord.step hg (eventStep_effect hs)
  rw [List.nil_append] at hend
  refine ⟨⟨hend.inOrder, ?_⟩, exec_doFriendEvents codec u⟩
  intro before left after hsplit hnone
  exact hend.empties before _ after hsplit left rfl hnone

/-- A node that is ready, has no friends and waits for the DHT. -/
def EventState.fresh : EventState := ⟨.empty, .idle⟩

/-- Accepts the user with a key; the DHT gives the friend a number. -/
def acceptKey (key : PublicKey) (n : FriendNumber) : EventInput :=
  .call (.accept (some (base58Key key).text)) (some n)

theorem delivered_exactly_once_accepted : ∃ u os, ExactlyOnce .fresh u os ∧ u.loop = .idle ∧
    deliveredNotices os = [.friendAdded (.ofUserid (base58Key 1)), .friendAdded (.ofUserid (base58Key 2))] := by
  let inputs := [acceptKey 1 0, .begin, .next true, acceptKey 1 1, .remove, acceptKey 2 1, .next true,
    .next true, .remove, .next false]
  obtain ⟨u, os, he, hp⟩ := (eventMachine .base58).exec_any .fresh inputs
    (fun r => decide (r.1.loop = .idle ∧ deliveredNotices r.2 =
      [.friendAdded (.ofUserid (base58Key 1)), .friendAdded (.ofUserid (base58Key 2))]))
    (by decide +kernel)
  obtain ⟨hidle, hnotices⟩ := of_decide_eq_true hp
  have hrun := Machine.run_of_exec (fun _ _ h => h) he
    (show (eventMachine .base58).guarded (leavesListAlone .base58) .fresh inputs = true by decide +kernel)
  exact ⟨u, os, (delivered_exactly_once .base58 rfl hrun).1, hidle, hnotices⟩

/-- A friend accepted in the callback of an event: the event stays in the list and its callback
is called again. -/
theorem delivered_again : ∃ u os, Machine.Run (eventMachine .base58) Machine.Free .fresh
      [acceptKey 1 0, .begin, .next true, acceptKey 2 1, .remove, .next true, .next true] os u ∧
    queuedEvents os = [⟨.added, .ofUserid (base58Key 1)⟩, ⟨.added, .ofUserid (base58Key 2)⟩] ∧
    deliveredNotices os = [.friendAdded (.ofUserid (base58Key 1)), .friendAdded (.ofUserid (base58Key 1))] ∧
    ¬ ExactlyOnce .fresh u os := by
  obtain ⟨u, os, he, hp⟩ := (eventMachine .base58).exec_any .fresh
    [acceptKey 1 0, .begin, .next true, acceptKey 2 1, .remove, .next true, .next true]
    (fun r => decide (queuedEvents r.2 =
        [⟨.added, .ofUserid (base58Key 1)⟩, ⟨.added, .ofUserid (base58Key 2)⟩] ∧
      deliveredNotices r.2 =
        [.friendAdded (.ofUserid (base58Key 1)), .friendAdded (.ofUserid (base58Key 1))] ∧
      (EventState.fresh.carrier.friendEvents ++ queuedEvents r.2).flatMap doFriendEvent ≠
        deliveredNotices r.2 ++ r.1.waiting.flatMap doFriendEvent))
    (by decide +kernel)
  obtain ⟨hqueued, hdelivered, horder⟩ := of_decide_eq_true hp
  exact ⟨u, os, Machine.free_run_of_exec he, hqueued, hdelivered, fun h => horder h.inOrder⟩

end CarrierSdk.Friends
