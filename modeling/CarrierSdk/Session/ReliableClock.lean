import CarrierSdk.Library.Machine
import Mathlib.Data.UInt

/-! The clock timer of a reliable handler. Pseudo-TCP asks for deadlines, and three places schedule
the timer: two of the handler, and the worker when the callback has returned. Times are milliseconds
of the monotonic clock; long has 64 bits. -/
namespace CarrierSdk

/-- struct PjTimer, with the time at which its entry is due where it is on the timer heap. -/
structure PjTimer where
  interval : UInt64
  due : Option Nat
  deriving DecidableEq

/-- How far the timer's callback is: it has called pseudo_tcp_socket_notify_clock, or has returned. -/
inductive ClockCallback | notifying | returned
  deriving DecidableEq

/-- struct ReliableHandler as far as its clock goes, and the clock that it reads. The timer lives in a pool,
also when it has been destroyed and handler->clock is NULL again. -/
structure ReliableHandler where
  now : UInt64
  sockClosed : Bool
  lastClockTimeout : UInt64
  timer : Option PjTimer
  destroyed : Bool
  callback : Option ClockCallback
  deriving DecidableEq

/-- A deadline that get_next_clock has returned. -/
inductive ClockOutput
  | nextClock (timeout : UInt64)
  deriving DecidableEq

def intMax : Int64 := 2147483647

/-- ice_worker_schedule_timer. The entry is taken off the heap first. -/
def PjTimer.schedule (timer : PjTimer) (now next : UInt64) : PjTimer :=
  let interval := next - now
  { timer with due := some (now.toNat + (interval / 1000).toNat * 1000 + (interval % 1000).toNat) }

/-- ice_worker_create_timer -/
def PjTimer.create (now interval : UInt64) : PjTimer :=
  PjTimer.schedule ⟨interval, none⟩ now (now + interval)

namespace ReliableHandler

def new (now : UInt64) : ReliableHandler := ⟨now, false, 0, none, false, none⟩

/-- reliable_handler_stop, which closes the socket and destroys the timer. -/
def stop (h : ReliableHandler) : ReliableHandler :=
  { h with sockClosed := true, timer := h.timer.map ({ · with due := none }), destroyed := h.timer.isSome }

/-- reliable_handler_adjust_clock. The deadline is absent where get_next_clock fails. -/
def adjustClock (h : ReliableHandler) (next : Option UInt64) : ReliableHandler × List ClockOutput :=
  if h.sockClosed then (h, [])
  else match next with
    | none => (h.stop, [])
    | some timeout =>
      if timeout = h.lastClockTimeout then (h, [.nextClock timeout])
      else
        let h := { h with lastClockTimeout := timeout }
        match h.timer with
        | some timer => ({ h with timer := some (timer.schedule h.now timeout) }, [.nextClock timeout])
        | none =>
          let interval := (timeout - h.now).toInt64
          let interval := if interval < 0 ∨ intMax < interval then intMax else interval
          ({ h with timer := some (.create h.now interval.toUInt64) }, [.nextClock timeout])

end ReliableHandler

/-- Time passes. The clock is adjusted after a send, a received segment or a connect, and by the
callback of the timer. Sockets close with and without the handler being stopped. -/
inductive ClockInput
  | elapse (ms : UInt64)
  | adjust (next : Option UInt64)
  | sockClosed
  | stop
  | fire
  | notified (next : Option UInt64)
  | rearm
  deriving DecidableEq

/-- The heap calls ice_timer_callback for an entry that is due, and forgets it. The callback of a timer
that is destroyed does nothing, any other is armed again. -/
def clockStep (h : ReliableHandler) : ClockInput → Option (ReliableHandler × List ClockOutput)
  | .elapse ms => if h.now.toNat + ms.toNat < 2 ^ 64 then some ({ h with now := h.now + ms }, []) else none
  | .adjust next => some (h.adjustClock next)
  | .sockClosed => some ({ h with sockClosed := true }, [])
  | .stop => some (h.stop, [])
  | .fire =>
    match h.timer with
    | none => none
    | some timer =>
      if timer.due.any (· ≤ h.now.toNat) ∧ h.callback = none then
        some ({ h with timer := some { timer with due := none },
                       callback := if h.destroyed then none else some .notifying }, [])
      else none
  | .notified next =>
    if h.callback = some .notifying then some ({ h with callback := some .returned }.adjustClock next) else none
  | .rearm =>
    match h.timer with
    | none => none
    | some timer =>
      if h.callback = some .returned then
        some ({ h with timer := some (timer.schedule h.now (h.now + timer.interval)), callback := none }, [])
      else none

def clockMachine : Machine ReliableHandler ClockInput ClockOutput := ⟨clockStep⟩

/-! What is promised. -/

/-- The deadline that get_next_clock has returned last. -/
def lastDeadline (os : List ClockOutput) : Option UInt64 :=
  os.getLast?.map fun
    | .nextClock timeout => timeout

/-- A pending timer is due no later than the deadline, or now where that has passed. -/
def NeverOversleeps (h : ReliableHandler) (os : List ClockOutput) : Prop :=
  ∀ timer ∈ h.timer, ∀ due ∈ timer.due, ∃ deadline ∈ lastDeadline os, due ≤ max h.now.toNat deadline.toNat

/-- A new deadline has not passed when the timer is set for it, and the interval that the timer was
created with, after which it is armed again, is 0 or ends before the deadline. -/
def inTime (h : ReliableHandler) : ClockInput → Bool
  | .adjust (some timeout) | .notified (some timeout) =>
    h.sockClosed || timeout = h.lastClockTimeout || h.now ≤ timeout
  | .rearm => h.timer.all fun timer =>
    timer.interval = 0 || h.now.toNat + timer.interval.toNat ≤ h.lastClockTimeout.toNat
  | _ => true

theorem inTime_adjust {h : ReliableHandler} {timeout : UInt64} : inTime h (.adjust (some timeout)) = true ↔
    h.sockClosed = true ∨ timeout = h.lastClockTimeout ∨ h.now ≤ timeout := by
  change (h.sockClosed || decide (timeout = h.lastClockTimeout) || decide (h.now ≤ timeout)) = true ↔ _
  rw [Bool.or_eq_true, Bool.or_eq_true, decide_eq_true_eq, decide_eq_true_eq, or_assoc]

theorem inTime_rearm {h : ReliableHandler} {timer : PjTimer} (htimer : h.timer = some timer) :
    inTime h .rearm = true ↔
      timer.interval = 0 ∨ h.now.toNat + timer.interval.toNat ≤ h.lastClockTimeout.toNat := by
  change (h.timer.all fun timer => decide (timer.interval = 0) ||
    decide (h.now.toNat + timer.interval.toNat ≤ h.lastClockTimeout.toNat)) = true ↔ _
  rw [htimer, Option.all_some, Bool.or_eq_true, decide_eq_true_eq, decide_eq_true_eq]

/-! When the timer is due. -/

namespace PjTimer
variable {timer : PjTimer} {now next interval : UInt64}

theorem schedule_due : (timer.schedule now next).due = some (now.toNat + (next - now).toNat) := by
  have hsplit := Nat.div_add_mod' (next - now).toNat 1000
  simp only [schedule, UInt64.toNat_div, UInt64.toNat_mod, UInt64.reduceToNat, Option.some.injEq]
  omega

theorem create_due : (create now interval).due = some (now.toNat + interval.toNat) := by
  rw [create, schedule_due, add_sub_cancel_left]

end PjTimer

theorem toInt_toInt64 (d : UInt64) :
    d.toInt64.toInt = if d.toNat < 2 ^ 63 then (d.toNat : Int) else d.toNat - 2 ^ 64 := by
  change BitVec.toInt d.toBitVec = _
  rw [BitVec.toInt_eq_toNat_cond]
  change (if 2 * d.toNat < 2 ^ 64 then (d.toNat : Int) else (d.toNat : Int) - (2 ^ 64 : Nat)) = _
  split <;> split <;> omega

/-- The interval of a new timer is at most INT_MAX, and a negative one is INT_MAX. -/
theorem clamped_interval (d : UInt64) :
    (if d.toInt64 < 0 ∨ intMax < d.toInt64 then intMax else d.toInt64).toUInt64.toNat =
      min d.toNat intMax.toUInt64.toNat := by
  have hd := toInt_toInt64 d
  have hlt := d.toNat_lt
  have hmax : intMax.toInt = 2147483647 := by decide
  have hint : intMax.toUInt64.toNat = 2147483647 := by decide
  rw [hint]
  split
  · next h =>
    rw [Int64.lt_iff_toInt_lt, Int64.lt_iff_toInt_lt, hd, hmax, Int64.toInt_zero] at h
    rw [hint]
    split at h <;> omega
  · next h =>
    rw [Int64.lt_iff_toInt_lt, Int64.lt_iff_toInt_lt, hd, hmax, Int64.toInt_zero] at h
    rw [UInt64.toUInt64_toInt64]
    split at h <;> omega

/-- A timer is in time with an interval up to the difference of the clock values where the deadline has
not passed. Where it has, the difference wraps around, and any interval but 0 is too long. -/
theorem due_inTime {now next : UInt64} {interval : Nat} (hle : interval ≤ (next - now).toNat)
    (hpos : interval = 0 → (next - now).toNat = 0) :
    now.toNat + interval ≤ max now.toNat next.toNat ↔ now ≤ next := by
  rw [UInt64.le_iff_toNat_le]
  constructor
  · intro h
    by_contra hlt
    have hsub := UInt64.toNat_sub next now
    have hnow := now.toNat_lt
    have hnext := next.toNat_lt
    omega
  · intro h
    rw [UInt64.toNat_sub_of_le _ _ (UInt64.le_iff_toNat_le.mpr h)] at hle
    omega

variable {h : ReliableHandler} {os : List ClockOutput}

@[simp] theorem lastDeadline_nextClock (os : List ClockOutput) (timeout : UInt64) :
    lastDeadline (os ++ [.nextClock timeout]) = some timeout := by
  simp [lastDeadline]

theorem neverOversleeps_iff {timer : PjTimer} {due : Nat} {deadline : UInt64} (htimer : h.timer = some timer)
    (hdue : timer.due = some due) (hlast : lastDeadline os = some deadline) :
    NeverOversleeps h os ↔ due ≤ max h.now.toNat deadline.toNat := by
  simp [NeverOversleeps, htimer, hdue, hlast]

theorem neverOversleeps_idle (hidle : ∀ timer ∈ h.timer, timer.due = none) : NeverOversleeps h os := by
  intro timer htimer due hdue
  rw [hidle timer htimer] at hdue
  cases hdue

/-- What every step keeps. -/
structure ClockInv (h : ReliableHandler) (os : List ClockOutput) : Prop where
  returned : h.timer.isSome = true → lastDeadline os = some h.lastClockTimeout
  running : h.callback.isSome = true → h.timer.isSome = true

theorem ClockInv.stop (hi : ClockInv h os) : ClockInv h.stop os where
  returned hsome := hi.returned (by simpa [ReliableHandler.stop] using hsome)
  running hrunning := by simpa [ReliableHandler.stop] using hi.running hrunning

theorem neverOversleeps_stop : NeverOversleeps h.stop os :=
  neverOversleeps_idle fun timer htimer => by
    obtain ⟨t, -, rfl⟩ := Option.map_eq_some_iff.mp htimer
    rfl

theorem ClockInv.adjustClock (hi : ClockInv h os) (next : Option UInt64) :
    ClockInv (h.adjustClock next).1 (os ++ (h.adjustClock next).2) := by
  unfold ReliableHandler.adjustClock
  split
  · rwa [List.append_nil]
  · cases next with
    | none =>
      simp only [List.append_nil]
      exact hi.stop
    | some timeout =>
      simp only
      split
      · next heq => exact ⟨fun _ => by rw [lastDeadline_nextClock, heq], hi.running⟩
      · split
        · exact ⟨fun _ => lastDeadline_nextClock _ _, fun _ => rfl⟩
        · exact ⟨fun _ => lastDeadline_nextClock _ _, fun _ => rfl⟩

/-- A deadline that has been returned before leaves the timer as it is. -/
theorem neverOversleeps_again (hi : ClockInv h os) (hs : NeverOversleeps h os) :
    NeverOversleeps h (os ++ [.nextClock h.lastClockTimeout]) := by
  intro timer htimer due hdue
  obtain ⟨deadline, hdeadline, hle⟩ := hs timer htimer due hdue
  rw [hi.returned (Option.isSome_of_mem htimer)] at hdeadline
  cases hdeadline
  exact ⟨_, lastDeadline_nextClock _ _, hle⟩

theorem adjustClock_inTime (hi : ClockInv h os) (hs : NeverOversleeps h os) (next : Option UInt64) :
    NeverOversleeps (h.adjustClock next).1 (os ++ (h.adjustClock next).2) ↔ inTime h (.adjust next) = true := by
  unfold ReliableHandler.adjustClock
  cases hclosed : h.sockClosed with
  | true =>
    rw [if_pos rfl, List.append_nil]
    refine iff_of_true hs ?_
    cases next with
    | none => rfl
    | some timeout => exact inTime_adjust.mpr (.inl hclosed)
  | false =>
    rw [if_neg Bool.false_ne_true]
    cases next with
    | none =>
      simp only [List.append_nil]
      exact iff_of_true neverOversleeps_stop rfl
    | some timeout =>
      rw [inTime_adjust, or_iff_right (by simp [hclosed])]
      simp only
      by_cases heq : timeout = h.lastClockTimeout
      · rw [if_pos heq, heq]
        exact iff_of_true (neverOversleeps_again hi hs) (.inl rfl)
      · rw [if_neg heq, or_iff_right heq]
        cases htimer : h.timer with
        | some timer =>
          simp only
          rw [neverOversleeps_iff rfl PjTimer.schedule_due (lastDeadline_nextClock _ _)]
          exact due_inTime (Nat.le_refl _) id
        | none =>
          simp only
          rw [neverOversleeps_iff rfl PjTimer.create_due (lastDeadline_nextClock _ _), clamped_interval]
          have hmax : 0 < intMax.toUInt64.toNat := by decide
          exact due_inTime (Nat.min_le_left _ _) fun hzero => by omega

/-! What a step of each kind does. -/

section Steps
variable {t : ReliableHandler} {o : List ClockOutput}

theorem elapse_step {ms : UInt64} (hstep : clockStep h (.elapse ms) = some (t, o)) :
    h.now.toNat + ms.toNat < 2 ^ 64 ∧ t = { h with now := h.now + ms } ∧ o = [] := by
  obtain ⟨hfits, hstep⟩ := Option.ite_none_right_eq_some.mp hstep
  cases hstep
  exact ⟨hfits, rfl, rfl⟩

theorem fire_step (hstep : clockStep h .fire = some (t, o)) : ∃ timer, h.timer = some timer ∧
    t = { h with timer := some { timer with due := none },
                 callback := if h.destroyed then none else some .notifying } ∧ o = [] := by
  simp only [clockStep] at hstep
  split at hstep
  · cases hstep
  · next timer htimer =>
    split at hstep <;> cases hstep
    exact ⟨timer, htimer, rfl, rfl⟩

theorem notified_step {next : Option UInt64} (hstep : clockStep h (.notified next) = some (t, o)) :
    h.callback = some .notifying ∧ { h with callback := some .returned }.adjustClock next = (t, o) := by
  obtain ⟨hcallback, hstep⟩ := Option.ite_none_right_eq_some.mp hstep
  exact ⟨hcallback, Option.some.inj hstep⟩

theorem rearm_step (hstep : clockStep h .rearm = some (t, o)) : ∃ timer, h.timer = some timer ∧
    t = { h with timer := some (timer.schedule h.now (h.now + timer.interval)), callback := none } ∧ o = [] := by
  simp only [clockStep] at hstep
  split at hstep
  · cases hstep
  · next timer htimer =>
    split at hstep <;> cases hstep
    exact ⟨timer, htimer, rfl, rfl⟩

/-- While the callback runs, the handler has a timer. -/
theorem ClockInv.returns (hi : ClockInv h os) (hcallback : h.callback = some .notifying) :
    ClockInv { h with callback := some .returned } os :=
  ⟨hi.returned, fun _ => hi.running (by rw [hcallback]; rfl)⟩

theorem clockStep_inv {i : ClockInput} (hi : ClockInv h os) (hstep : clockStep h i = some (t, o)) :
    ClockInv t (os ++ o) := by
  cases i with
  | elapse ms =>
    obtain ⟨-, rfl, rfl⟩ := elapse_step hstep
    rw [List.append_nil]
    exact ⟨hi.returned, hi.running⟩
  | adjust next =>
    have hadjusted := hi.adjustClock next
    rwa [show h.adjustClock next = (t, o) from Option.some.inj hstep] at hadjusted
  | sockClosed =>
    cases hstep
    rw [List.append_nil]
    exact ⟨hi.returned, hi.running⟩
  | stop =>
    cases hstep
    rw [List.append_nil]
    exact hi.stop
  | fire =>
    obtain ⟨timer, htimer, rfl, rfl⟩ := fire_step hstep
    rw [List.append_nil]
    exact ⟨fun _ => hi.returned (by rw [htimer]; rfl), fun _ => rfl⟩
  | notified next =>
    obtain ⟨hcallback, hadjust⟩ := notified_step hstep
    have hadjusted := (hi.returns hcallback).adjustClock next
    rwa [hadjust] at hadjusted
  | rearm =>
    obtain ⟨timer, htimer, rfl, rfl⟩ := rearm_step hstep
    rw [List.append_nil]
    exact ⟨fun _ => hi.returned (by rw [htimer]; rfl), fun _ => rfl⟩

/-- A step from a state whose timer is in time leaves it in time if and only if it is in time itself. -/
theorem clockStep_inTime {i : ClockInput} (hi : ClockInv h os) (hs : NeverOversleeps h os)
    (hstep : clockStep h i = some (t, o)) : NeverOversleeps t (os ++ o) ↔ inTime h i = true := by
  cases i with
  | elapse ms =>
    obtain ⟨hfits, rfl, rfl⟩ := elapse_step hstep
    rw [List.append_nil]
    refine iff_of_true (fun timer htimer due hdue => ?_) rfl
    obtain ⟨deadline, hdeadline, hle⟩ := hs timer htimer due hdue
    refine ⟨deadline, hdeadline, hle.trans (max_le_max_right _ ?_)⟩
    simp only [UInt64.toNat_add]
    omega
  | adjust next =>
    have hiff := adjustClock_inTime hi hs next
    rwa [show h.adjustClock next = (t, o) from Option.some.inj hstep] at hiff
  | sockClosed =>
    cases hstep
    rw [List.append_nil]
    exact iff_of_true hs rfl
  | stop =>
    cases hstep
    rw [List.append_nil]
    exact iff_of_true neverOversleeps_stop rfl
  | fire =>
    obtain ⟨timer, -, rfl, rfl⟩ := fire_step hstep
    exact iff_of_true (neverOversleeps_idle fun t ht => by cases ht; rfl) rfl
  | notified next =>
    obtain ⟨hcallback, hadjust⟩ := notified_step hstep
    have hiff := adjustClock_inTime (hi.returns hcallback) hs next
    rw [hadjust] at hiff
    cases next <;> exact hiff
  | rearm =>
    obtain ⟨timer, htimer, rfl, rfl⟩ := rearm_step hstep
    rw [List.append_nil, neverOversleeps_iff rfl PjTimer.schedule_due (hi.returned (by rw [htimer]; rfl))]
    rw [inTime_rearm htimer]
    simp only [add_sub_cancel_left, ← UInt64.toNat_inj, UInt64.toNat_zero]
    omega

end Steps

abbrev ClockHistory (h : ReliableHandler) (os : List ClockOutput) : Prop := ClockInv h os ∧ NeverOversleeps h os

/-- Handlers begin without a timer. In every run whose steps are in time, the pending timer is due no
later than the deadline that was returned last, or now; and a next step keeps that if and only if
it is in time. -/
theorem timer_in_time {now : UInt64} {is : List ClockInput} {os : List ClockOutput}
    (hrun : clockMachine.Run (fun h i => inTime h i = true) (.new now) is os h) :
    NeverOversleeps h os ∧ ∀ i t o, clockMachine.step h i = some (t, o) →
      (NeverOversleeps t (os ++ o) ↔ inTime h i = true) := by
  have hstart : ClockHistory (.new now) [] := by
    refine ⟨⟨?_, ?_⟩, ?_⟩
    · intro hsome
      cases hsome
    · intro hsome
      cases hsome
    · intro timer htimer
      cases htimer
  have hend : ClockHistory h ([] ++ os) := by
    apply hrun.history _ hstart
    exact fun hinv hg hm => ⟨clockStep_inv hinv.1 hm, (clockStep_inTime hinv.1 hinv.2 hm).mpr hg⟩
  exact ⟨hend.2, fun i t o hm => clockStep_inTime hend.1 hend.2 hm⟩

/-- The first deadline is now, so the timer is created with the interval 0. It fires at once, and
is armed for the next deadline. -/
def startedAtOnce : List ClockInput :=
  [.adjust (some 1000), .fire, .notified (some 1400), .rearm, .fire, .notified (some 1500), .elapse 100, .rearm,
    .adjust (some 1250)]

theorem timer_in_time_at_once : ∃ os h, NeverOversleeps h os ∧ h.timer = some ⟨0, some 1250⟩ := by
  obtain ⟨h, os, he, hp⟩ := clockMachine.exec_any (.new 1000) startedAtOnce
    (fun r => decide (r.1.timer = some ⟨0, some 1250⟩)) (by decide +kernel)
  have hrun := Machine.run_of_exec (G := fun h i => inTime h i = true) (fun _ _ hg => hg) he
    (show clockMachine.guarded inTime (.new 1000) startedAtOnce = true by decide +kernel)
  exact ⟨os, h, (timer_in_time hrun).1, of_decide_eq_true hp⟩

/-- A send brings a deadline that has passed. And a timer that was created with 4000 ms to go is armed
for another 4000 ms behind a callback that has asked for 500. -/
theorem timer_oversleeps :
    (∃ os h, clockMachine.Run Machine.Free (.new 1000) [.adjust (some 5000), .adjust (some 900)] os h ∧
      ¬ NeverOversleeps h os) ∧
    ∃ os h, clockMachine.Run Machine.Free (.new 1000)
        [.adjust (some 5000), .adjust (some 2000), .elapse 1000, .fire, .notified (some 2500), .rearm] os h ∧
      h.timer = some ⟨4000, some 6000⟩ ∧ lastDeadline os = some 2500 ∧ ¬ NeverOversleeps h os := by
  constructor
  · obtain ⟨h, os, he, hp⟩ := clockMachine.exec_any (.new 1000) [.adjust (some 5000), .adjust (some 900)]
      (fun r => decide (r.1.timer = some ⟨4000, some (2 ^ 64 + 900)⟩ ∧ r.1.now = 1000 ∧
        lastDeadline r.2 = some 900)) (by decide +kernel)
    obtain ⟨htimer, hnow, hlast⟩ := of_decide_eq_true hp
    refine ⟨os, h, Machine.free_run_of_exec he, fun hs => ?_⟩
    rw [neverOversleeps_iff htimer rfl hlast, hnow] at hs
    revert hs
    decide
  · obtain ⟨h, os, he, hp⟩ := clockMachine.exec_any (.new 1000)
      [.adjust (some 5000), .adjust (some 2000), .elapse 1000, .fire, .notified (some 2500), .rearm]
      (fun r => decide (r.1.timer = some ⟨4000, some 6000⟩ ∧ r.1.now = 2000 ∧
        lastDeadline r.2 = some 2500)) (by decide +kernel)
    obtain ⟨htimer, hnow, hlast⟩ := of_decide_eq_true hp
    refine ⟨os, h, Machine.free_run_of_exec he, htimer, hlast, fun hs => ?_⟩
    rw [neverOversleeps_iff htimer rfl hlast, hnow] at hs
    revert hs
    decide

end CarrierSdk
