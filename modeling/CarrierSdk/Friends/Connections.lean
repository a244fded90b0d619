import CarrierSdk.Friends.Events

/-! What the callbacks tell an application about each of its friends, against the friends
table. -/
namespace CarrierSdk.Friends

/-- What an application that follows the callbacks knows of a user. -/
inductive Seen where
  | unknown
  | friend (status : ConnectionStatus)
  deriving DecidableEq

/-- The callbacks that are consistent with it. -/
def Seen.step : Seen → FriendNotice → Option Seen
  | .unknown, .friendAdded _ => some (.friend .disconnected)
  | .friend .disconnected, .friendConnection _ .connected => some (.friend .connected)
  | .friend .connected, .friendConnection _ .disconnected => some (.friend .disconnected)
  | .friend .disconnected, .friendRemoved _ => some .unknown
  | _, _ => none

def FriendNotice.userid : FriendNotice → UserId
  | .friendAdded fi => fi.userInfo.userid
  | .friendRemoved userid => userid
  | .friendConnection userid _ => userid

/-- What the friends table holds of a user. -/
def storedView (w : ElaCarrier) (userid : UserId) : Seen :=
  match w.friends.entries.find? fun e => e.2.userInfo.userid = userid with
  | some e => .friend e.2.status
  | none => .unknown

/-- The callbacks in the order of their calls. -/
def noticesOf (os : List EventOutput) : List FriendNotice :=
  os.filterMap fun | .delivered n => some n | .direct n => some n | _ => none

def about (userid : UserId) (ns : List FriendNotice) : List FriendNotice :=
  ns.filter fun n => n.userid = userid

/-- The callbacks about each user are consistent and lead from what one table holds of him to
what the other does. -/
def Leads (w w' : ElaCarrier) (ns : List FriendNotice) : Prop :=
  ∀ userid, (about userid ns).foldlM Seen.step (storedView w userid) = some (storedView w' userid)

/-- The callbacks about each user so far are consistent. Once no event is queued, they say
what the friends table holds. -/
structure ConsistentFor (s u : EventState) (os : List EventOutput) (userid : UserId) : Prop where
  consistent : ∃ seen, (about userid (noticesOf os)).foldlM Seen.step (storedView s.carrier userid) = some seen
  settled : u.carrier.friendEvents = [] →
    (about userid (noticesOf os)).foldlM Seen.step (storedView s.carrier userid) =
      some (storedView u.carrier userid)

/-- The DHT gives a new friend a number that no other friend has. -/
def dhtNumberFree (s : EventState) : EventInput → Bool
  | .call _ (some n) => (s.carrier.dht.lookup n).isNone
  | _ => true

/-- A friend's connection changes only while no event about him is queued. -/
def changesInTurn (s : EventState) : EventInput → Bool
  | .connection n b =>
    match s.carrier.friends.lookup n with
    | none => true
    | some fi => decide (statusOf b = fi.status) ||
      s.carrier.friendEvents.all fun e => decide (e.fi.userInfo.userid ≠ fi.userInfo.userid)
  | _ => true

/-! The tables. -/

structure Coherent (codec : KeyCodec) (w : ElaCarrier) : Prop where
  agree : Agree codec w
  distinct : Distinct w

section View
variable {codec : KeyCodec} {w w' : ElaCarrier} {n : FriendNumber} {key : PublicKey}
  {fi : ElaFriendInfo} {userid : UserId}

theorem storedView_unknown (h : ∀ n fi, w.friends.lookup n = some fi → fi.userInfo.userid ≠ userid) :
    storedView w userid = .unknown := by
  unfold storedView
  split
  · next e he =>
    have hmem := AList.mem_lookup_iff.mpr (List.mem_of_find?_eq_some he)
    exact (h e.1 e.2 hmem (by simpa using List.find?_some he)).elim
  · rfl

theorem Coherent.view (h : Coherent codec w) (hn : w.friends.lookup n = some fi) :
    storedView w fi.userInfo.userid = .friend fi.status := by
  unfold storedView
  split
  · next e he =>
    have hmem := AList.mem_lookup_iff.mpr (List.mem_of_find?_eq_some he)
    have hu : e.2.userInfo.userid = fi.userInfo.userid := by simpa using List.find?_some he
    cases h.agree.unique h.distinct hmem hn hu
    rw [Option.some.inj (hmem.symm.trans hn)]
  · next hnone => simpa using List.find?_eq_none.mp hnone ⟨n, fi⟩ (AList.mem_lookup_iff.mp hn)

/-- Tables that hold the same of a user. -/
theorem Coherent.view_congr (h : Coherent codec w) (h' : Coherent codec w')
    (heq : ∀ n fi, fi.userInfo.userid = userid →
      (w'.friends.lookup n = some fi ↔ w.friends.lookup n = some fi)) :
    storedView w' userid = storedView w userid := by
  by_cases hex : ∃ n fi, w.friends.lookup n = some fi ∧ fi.userInfo.userid = userid
  · obtain ⟨n, fi, hn, rfl⟩ := hex
    rw [h.view hn, h'.view ((heq n fi rfl).mpr hn)]
  · have hno : ∀ n fi, w.friends.lookup n = some fi → fi.userInfo.userid ≠ userid :=
      fun n fi hn hu => hex ⟨n, fi, hn, hu⟩
    rw [storedView_unknown hno, storedView_unknown fun n fi hn hu => hno n fi ((heq n fi hu).mp hn) hu]

end View

/-! What the operations report. -/

section Reports
variable {codec : KeyCodec} {w w' w'' : ElaCarrier} {n : FriendNumber} {key : PublicKey}
  {fi : ElaFriendInfo} {userid : UserId} {ns ms : List FriendNotice}

theorem about_append (userid : UserId) (ns ms : List FriendNotice) :
    about userid (ns ++ ms) = about userid ns ++ about userid ms := List.filter_append ns ms

theorem about_eq_nil (h : ∀ n ∈ ns, n.userid ≠ userid) : about userid ns = [] := by
  refine List.filter_eq_nil_iff.mpr fun n hn => ?_
  simpa using h n hn

theorem Leads.nil (h : ∀ userid, storedView w' userid = storedView w userid) : Leads w w' [] := by
  intro userid
  rw [h]
  rfl

theorem Leads.append (h : Leads w w' ns) (h' : Leads w' w'' ms) : Leads w w'' (ns ++ ms) := by
  intro userid
  rw [about_append, List.foldlM_append, h userid, Option.bind_eq_bind, Option.bind_some, h' userid]

/-- Callbacks about one user. -/
theorem Leads.user (userid : UserId) (hall : ∀ n ∈ ns, n.userid = userid)
    (hfold : ns.foldlM Seen.step (storedView w userid) = some (storedView w' userid))
    (hother : ∀ u, u ≠ userid → storedView w' u = storedView w u) : Leads w w' ns := by
  intro u
  by_cases hu : u = userid
  · subst hu
    rwa [about, List.filter_eq_self.mpr (by simpa using hall)]
  · rw [about_eq_nil fun n hn he => hu (he.symm.trans (hall n hn)), hother u hu]
    rfl

theorem doFriendEvent_userid (event : FriendEvent) :
    ∀ n ∈ doFriendEvent event, n.userid = event.fi.userInfo.userid := by
  intro n hn
  unfold doFriendEvent at hn
  split at hn
  · rw [List.mem_singleton.mp hn]
    rfl
  · rcases List.mem_append.mp hn with hn | hn
    · split at hn
      · rw [List.mem_singleton.mp hn]
        rfl
      · cases hn
    · rw [List.mem_singleton.mp hn]
      rfl

theorem Coherent.added (h : Coherent codec w) (hw : Added codec w w' n key) : Coherent codec w' :=
  ⟨h.agree.added hw, h.distinct.added hw⟩

theorem Coherent.removed (h : Coherent codec w) (hw : Removed w w' n key fi) : Coherent codec w' :=
  ⟨h.agree.removed hw, h.distinct.removed hw⟩

theorem Coherent.leads_added (h : Coherent codec w) (hw : Added codec w w' n key)
    (hfree : w.dht.lookup n = none) :
    Leads w w' (doFriendEvent ⟨.added, .ofUserid (codec.encode key)⟩) := by
  have hunstored : ∀ fi, w.friends.lookup n ≠ some fi := by
    intro fi hfi
    obtain ⟨k, hk, -⟩ := (h.agree n _).mp ⟨fi, hfi, rfl⟩
    cases hfree.symm.trans hk
  have hunknown : storedView w (codec.encode key) = .unknown := by
    refine storedView_unknown fun m fi hm hu => ?_
    obtain ⟨k, hk, hku⟩ := (h.agree m _).mp ⟨fi, hm, rfl⟩
    cases codec.encode_injective (hu.symm.trans hku)
    exact hw.unknown m hk
  have hknown : storedView w' (codec.encode key) = .friend .disconnected := by
    have hstored : w'.friends.lookup n = some (.ofUserid (codec.encode key)) := by
      rw [hw.friends, AList.lookup_insert]
    exact (h.added hw).view hstored
  refine Leads.user _ (doFriendEvent_userid _) ?_ fun u hu => ?_
  · rw [show (ElaFriendInfo.ofUserid (codec.encode key)).userInfo.userid = codec.encode key from rfl, hunknown,
      hknown]
    rfl
  · refine h.view_congr (h.added hw) fun m fi hfi => ?_
    rw [hw.friends, Table.lookup_insert_eq]
    split
    · next hm =>
      subst hm
      refine ⟨fun he => ?_, fun he => (hunstored fi he).elim⟩
      cases he
      exact (hu hfi.symm).elim
    · rfl

theorem Coherent.leads_removed (h : Coherent codec w) (hw : Removed w w' n key fi) :
    Leads w w' (doFriendEvent ⟨.removed, fi⟩) := by
  have hunknown : storedView w' fi.userInfo.userid = .unknown := by
    refine storedView_unknown fun m fi' hm hu => ?_
    rw [hw.friends, Table.lookup_erase_eq] at hm
    split at hm
    · cases hm
    · next hne => exact hne (h.agree.unique h.distinct hm hw.stored hu)
  refine Leads.user _ (doFriendEvent_userid _) ?_ fun u hu => ?_
  · rw [hunknown, h.view hw.stored, doFriendEvent]
    cases fi.status with
    | connected => rfl
    | disconnected => rfl
  · refine h.view_congr (h.removed hw) fun m fi' hfi' => ?_
    rw [hw.friends, Table.lookup_erase_eq]
    split
    · next hm =>
      subst hm
      refine ⟨fun he => (nomatch he), fun he => ?_⟩
      cases hw.stored.symm.trans he
      exact (hu hfi'.symm).elim
    · rfl

/-- A call queues what changes the view of the application as it changes the table. -/
theorem Coherent.call (h : Coherent codec w) (c : FriendCall) (tox : Option FriendNumber)
    (htox : ∀ n, tox = some n → w.dht.lookup n = none) {new : List FriendEvent}
    (hevents : (friendCall codec tox w c).1.friendEvents = w.friendEvents ++ new) :
    Coherent codec (friendCall codec tox w c).1 ∧
      Leads w (friendCall codec tox w c).1 (new.flatMap doFriendEvent) := by
  have hout := friendCall_outcome codec tox w c
  generalize (friendCall codec tox w c).1 = w' at hout hevents ⊢
  generalize (friendCall codec tox w c).2 = e at hout
  cases hout with
  | failed e =>
    obtain rfl : new = [] := by simpa using hevents
    exact ⟨h, Leads.nil fun _ => rfl⟩
  | added hc hkey hn hw =>
    rw [hw.events, List.append_cancel_left_eq] at hevents
    subst hevents
    rw [List.flatMap_singleton]
    exact ⟨h.added hw, h.leads_added hw (htox _ hn)⟩
  | removed hc hkey hw =>
    rw [hw.events, List.append_cancel_left_eq] at hevents
    subst hevents
    rw [List.flatMap_singleton]
    exact ⟨h.removed hw, h.leads_removed hw⟩

/-- So does a connection event with what it reports. -/
theorem Coherent.connection (h : Coherent codec w) (n : FriendNumber) (b : Bool) :
    Coherent codec (notifyFriendConnectionCb w n b).1 ∧
      Leads w (notifyFriendConnectionCb w n b).1 (notifyFriendConnectionCb w n b).2 := by
  obtain heq | ⟨fi, hfi, hstatus, heq⟩ := notifyFriendConnectionCb_cases w n b
  · rw [heq]
    exact ⟨h, Leads.nil fun _ => rfl⟩
  · rw [heq]
    have hcoherent : Coherent codec
        { w with friends := w.friends.insert n { fi with status := statusOf b } } := by
      refine ⟨fun m u => ?_, h.distinct⟩
      rw [← h.agree m u, Table.lookup_insert_eq]
      split
      · next hm =>
        rw [hm, hfi]
        simp
      · rfl
    have hview := hcoherent.view (n := n) (AList.lookup_insert w.friends)
    refine ⟨hcoherent, Leads.user fi.userInfo.userid (by simp [FriendNotice.userid]) ?_ fun u hu => ?_⟩
    · rw [h.view hfi, hview]
      cases b with
      | true =>
        cases hs : fi.status with
        | connected => exact (hstatus hs.symm).elim
        | disconnected => rfl
      | false =>
        cases hs : fi.status with
        | connected => rfl
        | disconnected => exact (hstatus hs.symm).elim
    · refine h.view_congr hcoherent fun m fi' hu' => ?_
      rw [Table.lookup_insert_eq]
      split
      · next hm =>
        rw [hm, hfi]
        constructor
        · intro he
          cases he
          exact (hu hu'.symm).elim
        · intro he
          cases he
          exact (hu hu'.symm).elim
      · rfl

end Reports

/-! The runs. -/

/-- What holds after each step: the callbacks called and those that wait lead together to the
friends table. -/
structure Told (codec : KeyCodec) (start s : EventState) (os : List EventOutput) : Prop where
  held : s.Held
  coherent : Coherent codec s.carrier
  leads : Leads start.carrier s.carrier (noticesOf os ++ s.waiting.flatMap doFriendEvent)

section Runs
variable {codec : KeyCodec} {start s t : EventState} {i : EventInput} {os o : List EventOutput}

theorem noticesOf_append (os ps : List EventOutput) : noticesOf (os ++ ps) = noticesOf os ++ noticesOf ps :=
  List.filterMap_append

theorem noticesOf_queued (es : List FriendEvent) : noticesOf (es.map .queued) = [] :=
  Machine.filterMap_map_none (fun _ => rfl) es

theorem noticesOf_delivered (ns : List FriendNotice) : noticesOf (ns.map .delivered) = ns := by
  rw [noticesOf, List.filterMap_map]
  exact List.filterMap_some

theorem noticesOf_direct (ns : List FriendNotice) : noticesOf (ns.map .direct) = ns := by
  rw [noticesOf, List.filterMap_map]
  exact List.filterMap_some

/-- Callbacks about different users may change places. -/
theorem Leads.swap {w w' : ElaCarrier} {ns ms ps : List FriendNotice} (h : Leads w w' (ns ++ ps ++ ms))
    (hapart : ∀ userid, about userid ps = [] ∨ about userid ms = []) : Leads w w' (ns ++ ms ++ ps) := by
  intro userid
  have hfold := h userid
  simp only [about_append] at hfold ⊢
  rcases hapart userid with hp | hm
  · simpa only [hp, List.append_nil] using hfold
  · simpa only [hm, List.append_nil] using hfold

theorem Told.of_leads (h : Told codec start s os) (hg : leavesListAlone codec s i = true)
    (hs : Effect codec s i t o) (hdirect : noticesOf o = deliveredNotices o)
    (hleads : Leads s.carrier t.carrier ((queuedEvents o).flatMap doFriendEvent)) :
    Leads start.carrier t.carrier (noticesOf (os ++ o) ++ t.waiting.flatMap doFriendEvent) := by
  obtain ⟨done, hdone, hwait⟩ := hs.balance h.held hg
  have hall := h.leads.append hleads
  rwa [List.append_assoc, ← List.flatMap_append, hwait, List.flatMap_append, ← hdone, ← hdirect,
    ← List.append_assoc, ← noticesOf_append] at hall

/-- A connection event in turn reports on a user that no waiting event is about. -/
theorem changesInTurn_apart {n : FriendNumber} {b : Bool}
    (hg : changesInTurn s (.connection n b) = true) (userid : UserId) :
    about userid (s.carrier.friendEvents.flatMap doFriendEvent) = [] ∨
      about userid (notifyFriendConnectionCb s.carrier n b).2 = [] := by
  obtain heq | ⟨fi, hfi, hstatus, heq⟩ := notifyFriendConnectionCb_cases s.carrier n b
  · rw [heq]
    exact .inr rfl
  · by_cases hu : userid = fi.userInfo.userid
    · left
      simp only [changesInTurn, hfi, hstatus, decide_false, Bool.false_or, List.all_eq_true,
        decide_eq_true_eq] at hg
      refine about_eq_nil fun m hm hmu => ?_
      obtain ⟨e, he, hme⟩ := List.mem_flatMap.mp hm
      exact hg e he ((doFriendEvent_userid e m hme).symm.trans (hmu.trans hu))
    · right
      rw [heq]
      refine about_eq_nil fun m hm hmu => hu ?_
      rw [List.mem_singleton.mp hm] at hmu
      exact hmu.symm

theorem Coherent.of_eq {w w' : ElaCarrier} (h : Coherent codec w) (hdht : w'.dht = w.dht)
    (hfriends : w'.friends = w.friends) : Coherent codec w' where
  agree := by
    unfold Agree
    rw [hdht, hfriends]
    exact h.agree
  distinct := by
    unfold Distinct
    rw [hdht]
    exact h.distinct

/-- Steps that leave the tables alone and report only from the queue. -/
theorem Told.of_tables_eq (h : Told codec start s os) (halone : leavesListAlone codec s i = true)
    (hs : Effect codec s i t o) (hdht : t.carrier.dht = s.carrier.dht)
    (hfriends : t.carrier.friends = s.carrier.friends) (hqueued : queuedEvents o = [])
    (hdirect : noticesOf o = deliveredNotices o) : Told codec start t (os ++ o) := by
  refine ⟨h.held.step halone hs, h.coherent.of_eq hdht hfriends, h.of_leads halone hs hdirect ?_⟩
  rw [hqueued]
  refine Leads.nil fun userid => ?_
  rw [storedView, storedView, hfriends]

theorem Told.step (h : Told codec start s os) (hfree : dhtNumberFree s i = true)
    (halone : leavesListAlone codec s i = true) (hturn : changesInTurn s i = true)
    (hs : Effect codec s i t o) : Told codec start t (os ++ o) := by
  have hheld := h.held.step halone hs
  cases hs with
  | @call c tox new hevents hfailed =>
    have htox : ∀ n, tox = some n → s.carrier.dht.lookup n = none := by
      rintro n rfl
      simpa [dhtNumberFree] using hfree
    obtain ⟨hcoherent, hleads⟩ := h.coherent.call c tox htox hevents
    refine ⟨hheld, hcoherent, h.of_leads halone (.call hevents hfailed) ?_ ?_⟩
    · rw [noticesOf_queued, deliveredNotices_queued]
    · rwa [queuedEvents_queued]
  | @connection n b hloop =>
    obtain ⟨hcoherent, hleads⟩ := h.coherent.connection n b
    refine ⟨hheld, hcoherent, ?_⟩
    have hall := h.leads.append hleads
    rw [waiting_of_not_called (by simp [hloop])] at hall ⊢
    rw [noticesOf_append, noticesOf_direct, notifyFriendConnectionCb_events]
    exact hall.swap (changesInTurn_apart hturn)
  | @delivered event rest hasNext hloop hevents =>
    refine h.of_tables_eq halone (.delivered hloop hevents) rfl rfl (queuedEvents_delivered _) ?_
    rw [noticesOf_delivered, deliveredNotices_delivered]
  | ready b => exact h.of_tables_eq halone (.ready b) rfl rfl rfl rfl
  | began hloop => exact h.of_tables_eq halone (.began hloop) rfl rfl rfl rfl
  | restarted hloop => exact h.of_tables_eq halone (.restarted hloop) rfl rfl rfl rfl
  | returned hloop hempty => exact h.of_tables_eq halone (.returned hloop hempty) rfl rfl rfl rfl
  | kept hloop => exact h.of_tables_eq halone (.kept hloop) rfl rfl rfl rfl
  | removed hloop => exact h.of_tables_eq halone (.removed hloop) rfl rfl rfl rfl

theorem Told.initial (hidle : s.loop = .idle) (hempty : s.carrier.friendEvents = [])
    (h : Coherent codec s.carrier) : Told codec s s [] where
  held e stale he := by cases hidle.symm.trans he
  coherent := h
  leads := by
    rw [waiting_of_not_called (by simp [hidle]), hempty]
    exact Leads.nil fun _ => rfl

end Runs

/-- In every run of ela_run's loop where the callbacks leave the event list alone and the DHT
reports a friend's connection only while no event about him waits, the callbacks about each
user are consistent with one another and with the friends table. -/
theorem callbacks_consistent (codec : KeyCodec) {start u : EventState} {is : List EventInput}
    {os : List EventOutput} (hidle : start.loop = .idle) (hempty : start.carrier.friendEvents = [])
    (hagree : Agree codec start.carrier) (hdistinct : Distinct start.carrier)
    (h : Machine.Run (eventMachine codec) (fun s i => dhtNumberFree s i = true ∧
      leavesListAlone codec s i = true ∧ changesInTurn s i = true) start is os u) (userid : UserId) :
    ConsistentFor start u os userid := by
  have hend : Told codec start u ([] ++ os) := by
    refine h.history (fun {s i t o os} htold hg hs => ?_) (Told.initial hidle hempty ⟨hagree, hdistinct⟩)
    exact htold.step hg.1 hg.2.1 hg.2.2 (eventStep_effect hs)
  rw [List.nil_append] at hend
  have hall := hend.leads userid
  constructor
  · rw [about_append, List.foldlM_append, Option.bind_eq_bind] at hall
    obtain ⟨seen, hseen, -⟩ := Option.bind_eq_some_iff.mp hall
    exact ⟨seen, hseen⟩
  · intro hnone
    have hwaiting : u.waiting = [] := by
      unfold EventState.waiting
      split
      · rw [hnone, List.tail_nil]
      · exact hnone
    rwa [hwaiting, List.flatMap_nil, List.append_nil] at hall

/-- The friend is accepted, connects, and is removed. -/
theorem callbacks_consistent_removed : ∃ u os, ConsistentFor .fresh u os (base58Key 1) ∧
    u.carrier.friendEvents = [] ∧ noticesOf os = [.friendAdded (.ofUserid (base58Key 1)),
      .friendConnection (base58Key 1) .connected, .friendConnection (base58Key 1) .disconnected,
      .friendRemoved (base58Key 1)] := by
  let inputs := [acceptKey 1 0, .begin, .next true, .remove, .next false, .connection 0 true,
    .call (.remove (some (base58Key 1).text)) none, .begin, .next true, .remove, .next false]
  obtain ⟨u, os, he, hp⟩ := (eventMachine .base58).exec_any .fresh inputs
    (fun r => decide (r.1.carrier.friendEvents = [] ∧ noticesOf r.2 =
      [.friendAdded (.ofUserid (base58Key 1)), .friendConnection (base58Key 1) .connected,
        .friendConnection (base58Key 1) .disconnected, .friendRemoved (base58Key 1)]))
    (by decide +kernel)
  obtain ⟨hempty, hnotices⟩ := of_decide_eq_true hp
  have hrun := Machine.run_of_exec
    (g := fun s i => dhtNumberFree s i && (leavesListAlone .base58 s i && changesInTurn s i))
    (fun s i h => by simpa only [Bool.and_eq_true] using h) he (by decide +kernel)
  refine ⟨u, os, ?_, hempty, hnotices⟩
  exact callbacks_consistent .base58 rfl rfl
    (fun n v => by simp [EventState.fresh, ElaCarrier.empty])
    (fun n m key hn _ => by simp [EventState.fresh, ElaCarrier.empty] at hn) hrun (base58Key 1)

/-- A friend that connects before its event is delivered is reported as connected before it is
reported as added. -/
theorem callbacks_out_of_order : ∃ u os, Machine.Run (eventMachine .base58) Machine.Free .fresh
      [acceptKey 1 0, .connection 0 true, .begin, .next true, .remove, .next false] os u ∧
    noticesOf os = [.friendConnection (base58Key 1) .connected,
      .friendAdded (.ofUserid (base58Key 1))] ∧
    ¬ ConsistentFor .fresh u os (base58Key 1) := by
  obtain ⟨u, os, he, hp⟩ := (eventMachine .base58).exec_any .fresh
    [acceptKey 1 0, .connection 0 true, .begin, .next true, .remove, .next false]
    (fun r => decide (noticesOf r.2 = [.friendConnection (base58Key 1) .connected,
      .friendAdded (.ofUserid (base58Key 1))]))
    (by decide +kernel)
  have hnotices := of_decide_eq_true hp
  refine ⟨u, os, Machine.free_run_of_exec he, hnotices, fun h => ?_⟩
  obtain ⟨seen, hseen⟩ := h.consistent
  rw [hnotices] at hseen
  simp [about, FriendNotice.userid, ElaFriendInfo.ofUserid, ElaUserInfo.ofUserid, EventState.fresh,
    storedView, ElaCarrier.empty, Seen.step] at hseen

end CarrierSdk.Friends
