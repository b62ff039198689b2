import TinyWS.Net.TimerArmed

/-! # TimerQueue of the Multi-process Libraries

    The queue holds the data of the multi-threaded one
    (`cancelTimers_` stands in the field `cancelingTimers_`, and no timer
    ever waits in `adding`: `addTimer` inserts at once) and shares with it
    `insert`, `getExpired`, `readTimerfd` and `resetTimerfd`.  It differs in
    `addTimer`, `cancel` and `reset`.  The two copies, in `multiProcess1`
    and `multiProcess2`, are the same.

    `reset` decides about `timerfd_` inside its loop over the collected
    timers, so a `handleRead` that collects none does not set it.  The
    turns of this loop are steps of their own, as time passes between
    them. -/

namespace TinyWS

open Std

namespace Process

/-- `addTimer(cb, timeout, interval)`. -/
def addTimer (q : TimerQueue) (t : TimerPtr) (timeout interval : Int) : TimerQueue :=
  let timer := Timer.new timeout interval (q.numCreated + 1)
  let q := { q with numCreated := q.numCreated + 1, heap := q.heap.insert t timer }
  let inserted := q.insert t timer
  if inserted.2 then inserted.1.resetTimerfd timer.expiredTime_ else inserted.1

/-- `cancel(timerId)` after the `lock()`.  A timer that is not active is
    remembered in `cancelTimers_`, in a callback or outside of one. -/
def cancelLocked (q : TimerQueue) (t : TimerPtr) (timer : Option Timer) : TimerQueue :=
  match timer with
  | none => q.checkSizes
  | some timer =>
      let q := q.checkSizes
      let active := ⟨t, timer.sequence_⟩
      let entry := ⟨timer.expiredTime_, t⟩
      let q :=
        if q.activeTimers_.contains active then
          let q := q.check .erased (q.timers_.contains entry)
          { q with
            timers_ := q.timers_.erase entry
            activeTimers_ := q.activeTimers_.erase active }
        else
          { q with cancelingTimers_ := q.cancelingTimers_.insert active }
      q.checkSizes

def cancel (q : TimerQueue) (t : TimerPtr) : TimerQueue := cancelLocked q t (q.lock t)

/-- One turn of the loop in `reset`: the entry is restarted, and
    `timerfd_` is set for the earliest timer. -/
def resetTurn (now : Int) (q : TimerQueue) (e : Entry) : TimerQueue :=
  let q := TimerQueue.resetEntry now q e
  match begin? q.timers_ with
  | none => q
  | some first =>
      match q.heap[first.timer]? with
      | none => q
      | some earliestTimer =>
          if earliestTimer.isValid q.clock then q.resetTimerfd earliestTimer.expiredTime_ else q

/-- The queue, and where `reset` is. -/
structure TimerQueue extends TinyWS.TimerQueue where
  /-- The entries that the loop in `reset` has still to visit. -/
  resetting : Option (List Entry)

inductive TimerStep where
  | elapse (d : Nat)
  | addTimer (timer : TimerPtr) (timeout interval : Int)
  | cancel (timer : TimerPtr)
  /-- `handleRead` up to its loop. -/
  | handleRead
  /-- The next callback of that loop is invoked. -/
  | runTimer
  /-- The end of that loop, and `reset` up to its own. -/
  | reset
  | resetTurn
  deriving DecidableEq, Repr

namespace TimerQueue

/-- The constructor, at any time. -/
def new (clock : Int) : TimerQueue where
  toTimerQueue := .new clock
  resetting := none

/-- User code runs between two events, and in a callback. -/
def InUserCode (q : TimerQueue) : Prop := q.resetting = none ∧ q.toTimerQueue.InUserCode

instance (q : TimerQueue) : Decidable q.InUserCode := inferInstanceAs (Decidable (_ ∧ _))

def next (q : TimerQueue) : TimerStep → TimerQueue
  | .elapse d => { q with toTimerQueue := q.elapse d }
  | .addTimer t timeout interval => { q with toTimerQueue := addTimer q.toTimerQueue t timeout interval }
  | .cancel t => { q with toTimerQueue := cancel q.toTimerQueue t }
  | .handleRead => { q with toTimerQueue := q.toTimerQueue.handleRead }
  | .runTimer => { q with toTimerQueue := q.toTimerQueue.next .runTimer }
  | .reset =>
      match q.phase with
      | .calling _ [] _ => { q with callingExpiredTimers_ := false, phase := .idle }
      | .calling _ expired _ => { q with callingExpiredTimers_ := false, resetting := some expired }
      | _ => q
  | .resetTurn =>
      match q.phase, q.resetting with
      | .calling now _ _, some (e :: rest) =>
          let done := resetTurn now q.toTimerQueue e
          match rest with
          | [] => { toTimerQueue := { done with phase := .idle }, resetting := none }
          | rest => { toTimerQueue := done, resetting := some rest }
      | _, _ => q

/-- What the phase and the state of the objects permit. -/
def guard (q : TimerQueue) : TimerStep → Prop
  | .elapse _ => True
  | .addTimer t _ _ => q.InUserCode ∧ t ≠ 0 ∧ t ∉ q.heap
  | .cancel t => q.InUserCode ∧ t ∈ q.heap
  | .handleRead => q.resetting = none ∧ q.toTimerQueue.guard .handleRead
  | .runTimer => q.resetting = none ∧ q.toTimerQueue.guard .runTimer
  | .reset => q.resetting = none ∧ q.toTimerQueue.guard .reset
  | .resetTurn => q.resetting ≠ none

instance (q : TimerQueue) : DecidablePred q.guard
  | .elapse _ => isTrue trivial
  | .addTimer t _ _ => inferInstanceAs (Decidable (q.InUserCode ∧ t ≠ 0 ∧ t ∉ q.heap))
  | .cancel t => inferInstanceAs (Decidable (q.InUserCode ∧ t ∈ q.heap))
  | .handleRead =>
      inferInstanceAs (Decidable (q.resetting = none ∧ q.toTimerQueue.guard .handleRead))
  | .runTimer => inferInstanceAs (Decidable (q.resetting = none ∧ q.toTimerQueue.guard .runTimer))
  | .reset => inferInstanceAs (Decidable (q.resetting = none ∧ q.toTimerQueue.guard .reset))
  | .resetTurn => inferInstanceAs (Decidable (q.resetting ≠ none))

end TimerQueue

/-- Any order of timer operations, events, callbacks and passing time. -/
def timerQueue : Machine TimerQueue TimerStep where
  guard := TimerQueue.guard
  next := TimerQueue.next

instance (q : TimerQueue) (l : TimerStep) : Decidable (timerQueue.guard q l) :=
  inferInstanceAs (Decidable (q.guard l))

namespace TimerQueue

/-! ## The specification -/

/-- The condition of the runs.  A `handleRead` without an expired timer
    has not consumed an expiration of `timerfd_`, or no timer is pending;
    when the last turn of the loop in `reset` looks, none of the timers
    is due, or `timerfd_` is set so that it covers them; and outside of the
    callbacks `timerfd_` is not set for a time further back than 64 bits
    can tell. -/
def Rearms (q : TimerQueue) : TimerStep → Prop
  | .addTimer _ timeout interval =>
      q.phase = .idle → q.isEarliest (Timer.new timeout interval (q.numCreated + 1)) = true →
        q.Within64 timeout
  | .reset =>
      match q.phase with
      | .calling _ [] _ => q.timerfd_ ≠ .disarmed ∨ begin? q.timers_ = none
      | _ => True
  | .resetTurn =>
      match q.phase, q.resetting with
      | .calling now _ _, some [e] =>
          q.AllTimes (q.clock ≤ ·) now [e] ∨ q.AllTimes q.timerfd_.Covers now [e]
      | _, _ => True
  | _ => True

instance (q : TimerQueue) : DecidablePred q.Rearms
  | .addTimer _ timeout interval =>
      inferInstanceAs (Decidable (q.phase = .idle →
        q.isEarliest (Timer.new timeout interval (q.numCreated + 1)) = true → q.Within64 timeout))
  | .reset =>
      match h : q.phase with
      | .calling _ [] _ =>
          decidable_of_iff (q.timerfd_ ≠ .disarmed ∨ begin? q.timers_ = none) (by simp [Rearms, h])
      | .calling _ (_ :: _) _ | .idle | .rearming _ _ => isTrue (by simp [Rearms, h])
  | .resetTurn =>
      match h : q.phase, hr : q.resetting with
      | .calling now _ _, some [e] =>
          decidable_of_iff (q.AllTimes (q.clock ≤ ·) now [e] ∨ q.AllTimes q.timerfd_.Covers now [e])
            (by simp [Rearms, h, hr])
      | .calling _ _ _, none | .calling _ _ _, some [] | .calling _ _ _, some (_ :: _ :: _)
      | .idle, _ | .rearming _ _, _ => isTrue (by simp [Rearms, h, hr])
  | .elapse _ | .cancel _ | .handleRead | .runTimer => isTrue trivial

/-! ## The invariant -/

/-- All pending timers are covered. -/
def AllCovered (q : TinyWS.TimerQueue) : Prop := ∀ e ∈ q.timers_, q.timerfd_.Covers e.time

/-- What is known in each phase. -/
inductive Covered (q : TimerQueue) : Prop where
  | idle (phase : q.phase = .idle) (resetting : q.resetting = none)
      (kept : q.WellKept q.adding) (covers : AllCovered q.toTimerQueue)
  | calling {now : Int} {expired rest : List Entry} (phase : q.phase = .calling now expired rest)
      (resetting : q.resetting = none) (kept : q.WellKept (expired.map Entry.timer ++ q.adding))
      -- nothing was collected: `readTimerfd` has disarmed `timerfd_`, or it was not due
      (empty : expired = [] → q.timerfd_ = .disarmed ∨ AllCovered q.toTimerQueue)
  | resetting {now : Int} {expired called : List Entry} {e : Entry} {rest : List Entry}
      (phase : q.phase = .calling now expired called) (resetting : q.resetting = some (e :: rest))
      (kept : q.WellKept (e.timer :: (rest.map Entry.timer ++ q.adding)))

theorem covered_new (clock : Int) : (new clock).Covered :=
  .idle rfl rfl (TinyWS.TimerQueue.agrees_new clock).kept fun _ he =>
    absurd he ExtTreeSet.not_mem_empty

theorem Covered.neverAsleep {q : TimerQueue} (h : q.Covered) : q.NeverAsleep := by
  intro hidle first hfirst
  cases h with
  | idle _ _ _ covers => exact covers first (TinyWS.TimerQueue.begin?_mem hfirst)
  | calling phase => rw [hidle] at phase; cases phase
  | resetting phase => rw [hidle] at phase; cases phase

/-! ## User operations -/

section User

variable {q : TinyWS.TimerQueue} {t : TimerPtr} {ts : List TimerPtr}

/-- `addTimer` creates the timer, inserts it, and sets `timerfd_` if it is
    the earliest one now. -/
theorem addTimer_spec (q : TinyWS.TimerQueue) (t : TimerPtr) (timeout interval : Int) :
    ∃ timer q₁ fd, timer = Timer.new timeout interval (q.numCreated + 1) ∧
      q₁ = { q with numCreated := q.numCreated + 1, heap := q.heap.insert t timer } ∧
      addTimer q t timeout interval = { (q₁.insert t timer).1 with timerfd_ := fd } ∧
      fd = if (q₁.insert t timer).2 then
        .armed (q₁.clock + q₁.howMuchTimeFromNow timer.expiredTime_) q₁.clock
      else q₁.timerfd_ := by
  refine ⟨_, _, ?fd, rfl, rfl, ?_, ?_⟩
  case fd => exact (addTimer q t timeout interval).timerfd_
  · unfold addTimer
    dsimp only
    split
    · rfl
    · rfl
  · unfold addTimer
    dsimp only
    obtain ⟨hrest, -⟩ := TinyWS.TimerQueue.insert_frame
      { q with
        numCreated := q.numCreated + 1
        heap := q.heap.insert t (Timer.new timeout interval (q.numCreated + 1)) } t
      (Timer.new timeout interval (q.numCreated + 1))
    split
    · rw [TinyWS.TimerQueue.resetTimerfd, TinyWS.TimerQueue.howMuchTimeFromNow, hrest.clock]
      rfl
    · exact hrest.timerfd_

/-- What `addTimer` leaves alone. -/
theorem addTimer_frame (q : TinyWS.TimerQueue) (t : TimerPtr) (timeout interval : Int) :
    (addTimer q t timeout interval).phase = q.phase ∧
      (addTimer q t timeout interval).adding = q.adding := by
  obtain ⟨timer, q₁, fd, rfl, rfl, heq, -⟩ := addTimer_spec q t timeout interval
  obtain ⟨hrest, -⟩ := TinyWS.TimerQueue.insert_frame
    { q with
      numCreated := q.numCreated + 1
      heap := q.heap.insert t (Timer.new timeout interval (q.numCreated + 1)) } t
    (Timer.new timeout interval (q.numCreated + 1))
  rw [heq]
  exact ⟨hrest.phase, hrest.adding⟩

theorem wellKept_addTimer (h : q.WellKept ts) (ht : t ∉ q.heap) (timeout interval : Int) :
    (addTimer q t timeout interval).WellKept ts := by
  obtain ⟨timer, q₁, fd, rfl, rfl, heq, -⟩ := addTimer_spec q t timeout interval
  rw [heq]
  have hcreated : TinyWS.TimerQueue.WellKept
      { q with
        numCreated := q.numCreated + 1
        heap := q.heap.insert t (Timer.new timeout interval (q.numCreated + 1)) } (t :: ts) :=
    (TinyWS.TimerQueue.wellKept_addTimer h ht timeout interval).mono rfl fun _ he => he
  have hinserted := TinyWS.TimerQueue.wellKept_insert hcreated
    TinyWS.TimerQueue.getElem?_insert_self
  exact hinserted.mono rfl fun _ he => he

theorem allCovered_addTimer (h : AllCovered q) {timeout interval : Int}
    (hcond : q.isEarliest (Timer.new timeout interval (q.numCreated + 1)) = true →
      q.Within64 timeout) : AllCovered (addTimer q t timeout interval) := by
  obtain ⟨timer, q₁, fd, rfl, rfl, heq, hfd⟩ := addTimer_spec q t timeout interval
  rw [heq]
  exact TinyWS.TimerQueue.covers_insert h hfd hcond

/-- Set for a time that is not within 64 bits, `timerfd_` does not cover
    the new timer. -/
theorem not_neverAsleep_addTimer (hidle : q.phase = .idle) {timeout interval : Int}
    (hearliest : q.isEarliest (Timer.new timeout interval (q.numCreated + 1)) = true)
    (hfar : ¬ q.Within64 timeout) : ¬ (addTimer q t timeout interval).NeverAsleep := by
  have hphase := (addTimer_frame q t timeout interval).1.trans hidle
  obtain ⟨timer, q₁, fd, rfl, rfl, heq, hfd⟩ := addTimer_spec q t timeout interval
  obtain ⟨e, he, huncovered⟩ := TinyWS.TimerQueue.not_covers_insert hfd hearliest hfar
  rw [heq] at hphase ⊢
  exact TinyWS.TimerQueue.not_neverAsleep_of_mem hphase he huncovered

/-- `cancel` takes at most one entry away. -/
theorem cancelLocked_frame (q : TinyWS.TimerQueue) (t : TimerPtr) (timer : Option Timer) :
    (∀ e ∈ (cancelLocked q t timer).timers_, e ∈ q.timers_) ∧
      (cancelLocked q t timer).heap = q.heap ∧ (cancelLocked q t timer).adding = q.adding ∧
      (cancelLocked q t timer).phase = q.phase ∧
      (cancelLocked q t timer).timerfd_ = q.timerfd_ := by
  have hsub : ∀ e entry : Entry, e ∈ q.timers_.erase entry → e ∈ q.timers_ :=
    fun e entry he => ExtTreeSet.mem_of_mem_erase he
  unfold cancelLocked
  dsimp only [TinyWS.TimerQueue.checkSizes, TinyWS.TimerQueue.check]
  split
  · exact ⟨fun _ he => he, rfl, rfl, rfl, rfl⟩
  · split
    · exact ⟨fun e he => hsub e _ he, rfl, rfl, rfl, rfl⟩
    · exact ⟨fun _ he => he, rfl, rfl, rfl, rfl⟩

end User

theorem covered_addTimer {q : TimerQueue} (h : q.Covered) {t : TimerPtr} {timeout interval : Int}
    (hguard : q.guard (.addTimer t timeout interval))
    (hcond : q.Rearms (.addTimer t timeout interval)) :
    (q.next (.addTimer t timeout interval)).Covered := by
  obtain ⟨⟨hnone, huser⟩, -, ht⟩ := hguard
  obtain ⟨hphase, hadding⟩ := addTimer_frame q.toTimerQueue t timeout interval
  cases h with
  | idle phase resetting kept covers =>
    refine .idle (hphase.trans phase) resetting ?_ (allCovered_addTimer covers (hcond phase))
    show TinyWS.TimerQueue.WellKept _ (addTimer q.toTimerQueue t timeout interval).adding
    rw [hadding]
    exact wellKept_addTimer kept ht timeout interval
  | @calling now expired rest phase resetting kept empty =>
    -- in a callback, so a timer was collected
    rw [TinyWS.TimerQueue.InUserCode, phase] at huser
    refine .calling (hphase.trans phase) resetting ?_ fun hnil => ?_
    · show TinyWS.TimerQueue.WellKept _ (expired.map Entry.timer ++
        (addTimer q.toTimerQueue t timeout interval).adding)
      rw [hadding]
      exact wellKept_addTimer kept ht timeout interval
    · rw [hnil] at huser
      exact absurd huser (Nat.not_lt_zero _)
  | resetting _ hsome _ => rw [hnone] at hsome; cases hsome

theorem covered_cancel {q : TimerQueue} (h : q.Covered) {t : TimerPtr}
    (hguard : q.guard (.cancel t)) : (q.next (.cancel t)).Covered := by
  obtain ⟨⟨hnone, huser⟩, -⟩ := hguard
  obtain ⟨htimers, hheap, hadding, hphase, hfd⟩ :=
    cancelLocked_frame q.toTimerQueue t (q.lock t)
  have hcovers : AllCovered q.toTimerQueue → AllCovered (cancel q.toTimerQueue t) := by
    intro hall e he
    show (cancelLocked _ t _).timerfd_.Covers e.time
    rw [hfd]
    exact hall e (htimers e he)
  cases h with
  | idle phase resetting kept covers =>
    refine .idle (hphase.trans phase) resetting ?_ (hcovers covers)
    show TinyWS.TimerQueue.WellKept _ (cancelLocked q.toTimerQueue t (q.lock t)).adding
    rw [hadding]
    exact kept.mono hheap htimers
  | @calling now expired rest phase resetting kept empty =>
    refine .calling (hphase.trans phase) resetting ?_ fun hnil => ?_
    · show TinyWS.TimerQueue.WellKept _ (expired.map Entry.timer ++
        (cancelLocked q.toTimerQueue t (q.lock t)).adding)
      rw [hadding]
      exact kept.mono hheap htimers
    · exact (empty hnil).imp hfd.trans hcovers
  | resetting _ hsome _ => rw [hnone] at hsome; cases hsome

/-! ## Events -/

theorem covered_elapse {q : TimerQueue} (h : q.Covered) (d : Nat) :
    (q.next (.elapse d)).Covered := by
  have hcovers : AllCovered q.toTimerQueue → AllCovered (q.toTimerQueue.elapse d) :=
    fun hall e he => TinyWS.TimerQueue.covers_elapse (hall e he) d
  have hdisarmed : q.timerfd_ = .disarmed → (q.toTimerQueue.elapse d).timerfd_ = .disarmed := by
    intro hfd
    rw [TinyWS.TimerQueue.elapse, hfd]
  cases h with
  | idle phase resetting kept covers =>
    exact .idle phase resetting (kept.mono rfl fun _ he => he) (hcovers covers)
  | calling phase resetting kept empty =>
    exact .calling phase resetting (kept.mono rfl fun _ he => he)
      fun hnil => (empty hnil).imp hdisarmed hcovers
  | resetting phase resetting kept =>
    exact .resetting phase resetting (kept.mono rfl fun _ he => he)

/-- `handleRead` takes the expiration, and the timers that are due. -/
theorem covered_handleRead {q : TimerQueue} (h : q.Covered) (hguard : q.guard .handleRead) :
    (q.next .handleRead).Covered := by
  obtain ⟨hnone, hidle⟩ := hguard
  obtain ⟨htimers, hheap, hadding, -, hphase⟩ := q.toTimerQueue.handleRead_spec
  have hfd : q.toTimerQueue.handleRead.timerfd_ =
      if q.timerfd_ = .expired then .disarmed else q.timerfd_ := by
    simp only [TinyWS.TimerQueue.handleRead, TinyWS.TimerQueue.getExpired,
      TinyWS.TimerQueue.checkSizes, TinyWS.TimerQueue.check, TinyWS.TimerQueue.readTimerfd]
  cases h with
  | idle phase resetting kept covers =>
    refine .calling hphase resetting ?_ fun _ => ?_
    · show TinyWS.TimerQueue.WellKept _ (_ ++ q.toTimerQueue.handleRead.adding)
      rw [hadding]
      exact (TinyWS.TimerQueue.wellKept_collect kept q.clock).mono hheap fun e he => htimers ▸ he
    · by_cases hexpired : q.timerfd_ = .expired
      · exact Or.inl (by rw [show (q.next .handleRead).timerfd_ = _ from hfd, if_pos hexpired])
      · -- not due: the read fails and changes nothing
        right
        intro e he
        show q.toTimerQueue.handleRead.timerfd_.Covers e.time
        rw [hfd, if_neg hexpired]
        change e ∈ q.toTimerQueue.handleRead.timers_ at he
        rw [htimers] at he
        exact covers e (TinyWS.TimerQueue.mem_laterThan.mp he).1
  | calling phase => rw [show q.phase = .idle from hidle] at phase; cases phase
  | resetting _ hsome _ => rw [hnone] at hsome; cases hsome

theorem covered_runTimer {q : TimerQueue} (h : q.Covered) (hguard : q.guard .runTimer) :
    (q.next .runTimer).Covered := by
  obtain ⟨hnone, now, expired, e, rest, hphase⟩ := hguard
  have hnext : q.next .runTimer =
      { q with phase := .calling now expired rest, fired := q.fired ++ [(e.timer, now)] } := by
    show { q with toTimerQueue := q.toTimerQueue.next .runTimer } = _
    rw [TinyWS.TimerQueue.next_runTimer hphase]
  rw [hnext]
  cases h with
  | idle phase => rw [hphase] at phase; cases phase
  | calling phase resetting kept empty =>
    rw [hphase] at phase
    cases phase
    exact .calling rfl resetting (kept.mono rfl fun _ he => he) empty
  | resetting _ hsome _ => rw [hnone] at hsome; cases hsome

/-! ## The reset -/

section Turn

variable {q : TinyWS.TimerQueue} {now : Int} {e : Entry} {rest : List Entry} {ts : List TimerPtr}

/-- A turn restarts its entry, and sets `timerfd_` for the earliest timer
    if that is not due. -/
theorem resetTurn_cases (now : Int)
    (hkept : q.WellKept (e.timer :: (rest.map Entry.timer ++ ts))) :
    ∃ q' : TinyWS.TimerQueue, q'.WellKept (rest.map Entry.timer ++ ts) ∧
      TinyWS.TimerQueue.SameRest q q' ∧
      (∀ P : Int → Prop, (∀ x ∈ q'.timers_, P x.time) ↔ q.AllTimes P now [e]) ∧
      ((resetTurn now q e = q' ∧
          ∀ first, begin? q'.timers_ = some first → first.time < q.clock) ∨
        ∃ first, begin? q'.timers_ = some first ∧ q.clock ≤ first.time ∧
          resetTurn now q e = q'.resetTimerfd first.time) := by
  obtain ⟨hkept', htimers, -⟩ := TinyWS.TimerQueue.resetEntry_spec now hkept
  obtain ⟨hrest, -⟩ := TinyWS.TimerQueue.resetEntry_frame now q e
  refine ⟨TinyWS.TimerQueue.resetEntry now q e, hkept', hrest, fun P => ?_, ?_⟩
  · -- the times there, and the next time of the entry
    simp only [TinyWS.TimerQueue.AllTimes, htimers, List.mem_singleton, forall_eq]
    constructor
    · intro hall
      exact ⟨fun x hx => hall x (Or.inl hx),
        fun timer htimer => hall ⟨timer.following now, e.timer⟩ (Or.inr ⟨timer, htimer, rfl⟩)⟩
    · rintro ⟨hthere, hrestarted⟩ x (hx | ⟨timer, htimer, rfl⟩)
      · exact hthere x hx
      · exact hrestarted timer htimer
  · unfold resetTurn
    dsimp only
    generalize TinyWS.TimerQueue.resetEntry now q e = q' at hkept' hrest ⊢
    cases hfirst : begin? q'.timers_ with
    | none => exact Or.inl ⟨rfl, fun first hfirst => by cases hfirst⟩
    | some first =>
      obtain ⟨timer, htimer, htime⟩ := hkept'.time first (TinyWS.TimerQueue.begin?_mem hfirst)
      dsimp only
      rw [htimer]
      dsimp only
      -- `timerfd_` is set again only if the earliest timer is not due
      by_cases hvalid : timer.isValid q'.clock = true
      · rw [if_pos hvalid]
        rw [Timer.isValid, decide_eq_true_eq, htime, hrest.clock] at hvalid
        exact Or.inr ⟨first, rfl, hvalid, by rw [htime]⟩
      · rw [if_neg hvalid]
        rw [Timer.isValid, decide_eq_true_eq, htime, hrest.clock] at hvalid
        refine Or.inl ⟨rfl, fun first' hfirst' => ?_⟩
        cases hfirst'
        omega

theorem resetTurn_frame (now : Int)
    (hkept : q.WellKept (e.timer :: (rest.map Entry.timer ++ ts))) :
    (resetTurn now q e).WellKept (rest.map Entry.timer ++ ts) ∧
      (resetTurn now q e).phase = q.phase ∧ (resetTurn now q e).adding = q.adding := by
  obtain ⟨q', hkept', hrest, -, ⟨heq, -⟩ | ⟨first, -, -, heq⟩⟩ := resetTurn_cases now hkept
  · rw [heq]
    exact ⟨hkept', hrest.phase, hrest.adding⟩
  · rw [heq]
    exact ⟨hkept'.mono rfl fun _ he => he, hrest.phase, hrest.adding⟩

/-- In time, the turn leaves all timers covered. -/
theorem allCovered_resetTurn (hkept : q.WellKept (e.timer :: (rest.map Entry.timer ++ ts)))
    (hcond : q.AllTimes (q.clock ≤ ·) now [e] ∨ q.AllTimes q.timerfd_.Covers now [e]) :
    AllCovered (resetTurn now q e) := by
  obtain ⟨q', -, hrest, htimes, ⟨heq, hdue⟩ | ⟨first, hfirst, hvalid, heq⟩⟩ :=
    resetTurn_cases now hkept
  · rw [heq]
    rcases hcond with hcond | hcond
    · -- nothing is due and the earliest timer is: there is none
      intro x hx
      obtain ⟨first, hfirst, -⟩ := TinyWS.TimerQueue.exists_begin? hx
      have hle := (htimes _).mpr hcond first (TinyWS.TimerQueue.begin?_mem hfirst)
      have hlt := hdue first hfirst
      omega
    · intro x hx
      rw [hrest.timerfd_]
      exact (htimes _).mpr hcond x hx
  · rw [heq]
    intro x hx
    have hle := TinyWS.TimerQueue.begin?_time_le hfirst hx
    exact (TinyWS.TimerQueue.covers_armed_iff.mpr
      (TinyWS.TimerQueue.within64_of_le (hrest.clock ▸ hvalid))).mono hle

/-- Too late, a timer is left uncovered. -/
theorem not_allCovered_resetTurn (hkept : q.WellKept (e.timer :: (rest.map Entry.timer ++ ts)))
    (hclock : ¬ q.AllTimes (q.clock ≤ ·) now [e])
    (hfd : ¬ q.AllTimes q.timerfd_.Covers now [e]) :
    ∃ first, begin? (resetTurn now q e).timers_ = some first ∧
      ¬ (resetTurn now q e).timerfd_.Covers first.time := by
  obtain ⟨q', -, hrest, htimes, hend⟩ := resetTurn_cases now hkept
  rw [← htimes] at hclock hfd
  push Not at hclock hfd
  obtain ⟨x, hx, hlate⟩ := hclock
  obtain ⟨y, hy, huncovered⟩ := hfd
  rcases hend with ⟨heq, -⟩ | ⟨first, hfirst, hvalid, -⟩
  · -- were the earliest one covered, so would be all
    obtain ⟨first, hfirst, hle⟩ := TinyWS.TimerQueue.exists_begin? hy
    rw [heq]
    refine ⟨first, hfirst, fun hcovers => huncovered ?_⟩
    rw [← hrest.timerfd_]
    exact hcovers.mono hle
  · have hle := TinyWS.TimerQueue.begin?_time_le hfirst hx
    omega

end Turn

theorem next_reset {q : TimerQueue} {now : Int} {expired rest : List Entry}
    (hphase : q.phase = .calling now expired rest) :
    q.next .reset = if expired = [] then { q with callingExpiredTimers_ := false, phase := .idle }
      else { q with callingExpiredTimers_ := false, resetting := some expired } := by
  cases expired with
  | nil => simp [next, hphase]
  | cons e expired => simp [next, hphase]

theorem next_resetTurn {q : TimerQueue} {now : Int} {expired called rest : List Entry} {e : Entry}
    (hphase : q.phase = .calling now expired called) (hresetting : q.resetting = some (e :: rest)) :
    q.next .resetTurn =
      if rest = [] then
        { toTimerQueue := { resetTurn now q.toTimerQueue e with phase := .idle }, resetting := none }
      else { toTimerQueue := resetTurn now q.toTimerQueue e, resetting := some rest } := by
  cases rest with
  | nil => simp [next, hphase, hresetting]
  | cons e' rest => simp [next, hphase, hresetting]

theorem covered_reset {q : TimerQueue} (h : q.Covered) (hguard : q.guard .reset)
    (hcond : q.Rearms .reset) : (q.next .reset).Covered := by
  obtain ⟨hnone, now, expired, hphase⟩ := hguard
  rw [next_reset hphase]
  cases h with
  | idle phase => rw [hphase] at phase; cases phase
  | resetting _ hsome _ => rw [hnone] at hsome; cases hsome
  | calling phase resetting kept empty =>
    rw [hphase] at phase
    cases phase
    cases expired with
    | nil =>
      refine .idle rfl resetting (kept.mono rfl fun _ he => he) ?_
      rw [Rearms, hphase] at hcond
      rcases empty rfl with hdisarmed | hcovers
      · -- then no timer is pending
        intro e he
        obtain ⟨first, hfirst, -⟩ := TinyWS.TimerQueue.exists_begin? he
        rcases hcond with hcond | hcond
        · exact absurd hdisarmed hcond
        · have hfirst' : begin? q.timers_ = some first := hfirst
          rw [hcond] at hfirst'
          cases hfirst'
      · exact hcovers
    | cons e expired =>
      exact .resetting hphase rfl (kept.mono rfl fun _ he => he)

theorem covered_resetTurn {q : TimerQueue} (h : q.Covered) (hguard : q.guard .resetTurn)
    (hcond : q.Rearms .resetTurn) : (q.next .resetTurn).Covered := by
  cases h with
  | idle _ resetting => exact absurd resetting hguard
  | calling _ resetting => exact absurd resetting hguard
  | @resetting now expired called e rest phase resetting kept =>
    obtain ⟨hkept, hphase, hadding⟩ := resetTurn_frame now kept
    rw [next_resetTurn phase resetting]
    cases rest with
    | nil =>
      rw [Rearms, phase, resetting] at hcond
      refine .idle rfl rfl ?_ (allCovered_resetTurn kept hcond)
      show TinyWS.TimerQueue.WellKept _ (resetTurn now q.toTimerQueue e).adding
      rw [hadding]
      exact hkept.mono rfl fun _ he => he
    | cons e' rest =>
      refine .resetting (hphase.trans phase) rfl ?_
      show TinyWS.TimerQueue.WellKept _ (_ :: (_ ++ (resetTurn now q.toTimerQueue e).adding))
      rw [hadding]
      exact hkept

/-! ## The invariant over runs -/

/-- **Step**: every step that meets the condition keeps the timers
    covered. -/
theorem covered_next {q : TimerQueue} (h : q.Covered) {l : TimerStep} (hguard : q.guard l)
    (hcond : q.Rearms l) : (q.next l).Covered := by
  cases l with
  | elapse d => exact covered_elapse h d
  | addTimer t timeout interval => exact covered_addTimer h hguard hcond
  | cancel t => exact covered_cancel h hguard
  | handleRead => exact covered_handleRead h hguard
  | runTimer => exact covered_runTimer h hguard
  | reset => exact covered_reset h hguard hcond
  | resetTurn => exact covered_resetTurn h hguard hcond

/-- **Step**: one that misses the condition puts the queue to sleep. -/
theorem not_neverAsleep_next {q : TimerQueue} (h : q.Covered) {l : TimerStep} (hguard : q.guard l)
    (hcond : ¬ q.Rearms l) : ¬ (q.next l).NeverAsleep := by
  cases l with
  | addTimer t timeout interval =>
    simp only [Rearms, not_forall] at hcond
    obtain ⟨hidle, hearliest, hfar⟩ := hcond
    exact not_neverAsleep_addTimer hidle hearliest hfar
  | elapse | cancel | handleRead | runTimer => exact absurd trivial hcond
  | reset =>
    obtain ⟨hnone, now, expired, hphase⟩ := hguard
    rw [Rearms, hphase] at hcond
    rw [next_reset hphase]
    cases expired with
    | cons e expired => exact absurd trivial hcond
    | nil =>
      push Not at hcond
      obtain ⟨hdisarmed, hsome⟩ := hcond
      obtain ⟨first, hfirst⟩ := Option.ne_none_iff_exists'.mp hsome
      intro hawake
      have hcovers : q.timerfd_.Covers first.time := hawake rfl first hfirst
      rw [hdisarmed] at hcovers
      exact hcovers
  | resetTurn =>
    cases h with
    | idle _ resetting => exact absurd resetting hguard
    | calling _ resetting => exact absurd resetting hguard
    | @resetting now expired called e rest phase resetting kept =>
      rw [Rearms, phase, resetting] at hcond
      rw [next_resetTurn phase resetting]
      cases rest with
      | cons e' rest => exact absurd trivial hcond
      | nil =>
        obtain ⟨hclock, hfd⟩ := not_or.mp hcond
        obtain ⟨first, hfirst, huncovered⟩ := not_allCovered_resetTurn kept hclock hfd
        exact fun hawake => huncovered (hawake rfl first hfirst)

/-- **The queue never sleeps on its timers**, in every state of a run,
    exactly when every `reset` of the run sets `timerfd_` again and no
    `addTimer` sets it for a time that is not within 64 bits. -/
theorem neverAsleep_iff_rearms (clock : Int) (steps : List TimerStep)
    (hvalid : timerQueue.Valid (new clock) steps) :
    (∀ pre, pre <+: steps → (timerQueue.run (new clock) pre).NeverAsleep) ↔
      timerQueue.Along Rearms (new clock) steps := by
  apply timerQueue.always_iff_along (fun q steps => q.Covered ∧ timerQueue.Valid q steps)
    fun q => q.NeverAsleep
  · rintro q steps ⟨h, -⟩
    exact h.neverAsleep
  · rintro q l steps ⟨h, hguard, hrest⟩ hcond
    exact ⟨covered_next h hguard hcond, hrest⟩
  · rintro q l steps ⟨h, hguard, -⟩ hcond
    exact not_neverAsleep_next h hguard hcond
  · exact ⟨covered_new clock, hvalid⟩

/-- Two timers, the second of which is still due after the first. -/
theorem neverAsleep_twoTimers :
    let steps : List TimerStep :=
      [.addTimer 1 200 0, .addTimer 2 300 0, .elapse 201, .handleRead, .runTimer, .reset,
        .resetTurn, .elapse 100, .handleRead, .runTimer, .reset, .resetTurn]
    ∀ pre, pre <+: steps → (timerQueue.run (new 0) pre).NeverAsleep :=
  (neverAsleep_iff_rearms 0 _ (by decide +kernel)).mpr (by decide +kernel)

/-- The earliest timer is cancelled, `timerfd_` fires for it all the same,
    and nothing sets it for the other timer. -/
theorem asleep_cancelled :
    let steps : List TimerStep :=
      [.addTimer 1 200 0, .addTimer 2 300 0, .cancel 1, .elapse 200, .handleRead, .reset]
    timerQueue.Valid (new 0) steps ∧ ¬ (timerQueue.run (new 0) steps).NeverAsleep := by
  refine ⟨by decide +kernel, fun h => ?_⟩
  have hcovers := h (by decide +kernel) ⟨300, 2⟩ (by decide +kernel)
  revert hcovers
  decide +kernel

end TimerQueue

end Process

end TinyWS
