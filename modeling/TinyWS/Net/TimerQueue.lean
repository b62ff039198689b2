import TinyWS.Framework.Machine
import Mathlib

/-! # TimerQueue

    Timers in two ordered sets, one by expiry and one by address, and the
    one-shot `timerfd` that is set for the earliest of them.

    `handleRead` is split at its callbacks: it collects the expired timers,
    runs them one by one, re-inserts the periodic ones and sets `timerfd_`
    again.  Between these steps time passes, and a callback may add and
    cancel timers.

    An address is not used twice: nothing in the queue could tell.  The
    asserts that failed are kept as data, as a release build goes on after
    them.

    Times are integers here, and sums and differences of them are cut to
    the 64 bits that `Timer::TimeType` has. -/

namespace TinyWS

open Std

namespace TimeType64

/-- The last time there is. -/
def maxTime : Int := 2 ^ 63 - 1

/-- What a 64-bit integer holds of a sum or a difference. -/
def wrap (x : Int) : Int := x.bmod (2 ^ 64)

theorem le_wrap {x : Int} (h : x ≤ maxTime) : x ≤ wrap x := by
  unfold maxTime at h
  rw [wrap, Int.bmod_def]
  split <;> omega

theorem wrap_le {x : Int} (h : -2 ^ 63 ≤ x) : wrap x ≤ x := by
  rw [wrap, Int.bmod_def]
  split <;> omega

end TimeType64

/-- The address of a `Timer` object. -/
abbrev TimerPtr : Type := Nat

/-- `class Timer`, without its callback.  Times are in microseconds. -/
structure Timer where
  expiredTime_ : Int
  interval_ : Int
  repeat_ : Bool
  sequence_ : Int
  deriving DecidableEq, Repr

namespace Timer

/-- The constructor. -/
def new (timeout interval sequence : Int) : Timer where
  expiredTime_ := timeout
  interval_ := interval
  repeat_ := 0 < interval
  sequence_ := sequence

/-- `isValid()` at the time `now`. -/
def isValid (t : Timer) (now : Int) : Bool := now ≤ t.expiredTime_

def invalid : Int := 0

/-- The time of the next expiry, one interval after `now`. -/
def following (t : Timer) (now : Int) : Int := TimeType64.wrap (now + t.interval_)

def restart (t : Timer) (now : Int) : Timer :=
  if t.repeat_ then { t with expiredTime_ := t.following now }
  else { t with expiredTime_ := invalid }

end Timer

/-! ## Ordered sets -/

/-- `TimerQueue::Entry`, ordered by time and then by address. -/
structure Entry where
  time : Int
  timer : TimerPtr
  deriving DecidableEq, Repr

def Entry.cmp : Entry → Entry → Ordering :=
  compareLex (compareOn Entry.time) (compareOn Entry.timer)

/-- `TimerQueue::ActiveTimer`, ordered by address and then by sequence. -/
structure ActiveTimer where
  timer : TimerPtr
  sequence : Int
  deriving DecidableEq, Repr

def ActiveTimer.cmp : ActiveTimer → ActiveTimer → Ordering :=
  compareLex (compareOn ActiveTimer.timer) (compareOn ActiveTimer.sequence)

instance : TransCmp Entry.cmp := inferInstanceAs (TransCmp (compareLex _ _))

instance : TransCmp ActiveTimer.cmp := inferInstanceAs (TransCmp (compareLex _ _))

instance : LawfulEqCmp Entry.cmp where
  eq_of_compare {a b} h := by
    rw [Entry.cmp, compareLex_eq_eq] at h
    have htime := LawfulEqOrd.eq_of_compare h.1
    have htimer := LawfulEqOrd.eq_of_compare h.2
    cases a
    cases b
    simp_all

/-- The order of the entries refines the order of their times. -/
theorem Entry.time_le_of_isLE {a b : Entry} (h : (Entry.cmp a b).isLE) : a.time ≤ b.time := by
  rw [Entry.cmp, compareLex] at h
  rcases hc : compareOn Entry.time a b with _ | _ | _
  · exact Int.le_of_lt (compare_lt_iff_lt.mp hc)
  · exact Int.le_of_eq (LawfulEqOrd.eq_of_compare hc)
  · rw [hc] at h
    cases h

/-- `timers_.begin()`, or nothing at `timers_.end()`. -/
def begin? (timers : ExtTreeSet Entry Entry.cmp) : Option Entry := timers.toList.head?

theorem begin?_eq_min? (timers : ExtTreeSet Entry Entry.cmp) : begin? timers = timers.min? :=
  ExtTreeSet.min?_eq_head?_toList.symm

/-! ## The queue -/

/-- The kernel's side of `timerfd_`. -/
inductive Timerfd where
  | disarmed
  /-- Set at `setAt` to expire at `deadline`. -/
  | armed (deadline setAt : Int)
  /-- Expired and not yet read. -/
  | expired
  deriving DecidableEq, Repr

/-- Where the loop thread is. -/
inductive TimerPhase where
  | idle
  /-- In `handleRead`, which began at `now`: `rest` is still to be run. -/
  | calling (now : Int) (expired rest : List Entry)
  /-- At the end of `reset`, about to set `timerfd_` for `when_`. -/
  | rearming (expired : List Entry) (when_ : Int)
  deriving DecidableEq, Repr

/-- The asserts of the queue. -/
inductive TimerAssert where
  /-- `timers_.size() == activeTimers_.size()`. -/
  | sizes
  /-- `result.second`, after an insertion. -/
  | inserted
  /-- `n == 1`, after an `erase`. -/
  | erased
  /-- `it == timers_.end() || now < it->first`. -/
  | sentry
  | cancelTimer
  deriving DecidableEq, Repr

/-- `class TimerQueue`, with the clock and all `Timer` objects. -/
structure TimerQueue where
  clock : Int
  /-- The timers by address, the destroyed ones included. -/
  heap : ExtTreeMap TimerPtr Timer compare
  /-- `Timer::s_numCreated_`. -/
  numCreated : Int
  timerfd_ : Timerfd
  timers_ : ExtTreeSet Entry Entry.cmp
  activeTimers_ : ExtTreeSet ActiveTimer ActiveTimer.cmp
  callingExpiredTimers_ : Bool
  cancelingTimers_ : ExtTreeSet ActiveTimer ActiveTimer.cmp
  phase : TimerPhase
  /-- Timers bound into an `addTimerInLoop` functor that has not run. -/
  adding : List TimerPtr
  /-- History: the callbacks invoked, with the `now` of their `handleRead`. -/
  fired : List (TimerPtr × Int)
  failedAsserts : List TimerAssert

inductive TimerStep where
  | elapse (d : Nat)
  /-- `addTimer` creates the timer and passes it to `addTimerInLoop`. -/
  | addTimer (timer : TimerPtr) (timeout interval : Int)
  | addTimerInLoop (timer : TimerPtr)
  | cancelInLoop (timer : TimerPtr)
  /-- `handleRead` up to its loop. -/
  | handleRead
  /-- The next callback of that loop is invoked. -/
  | runTimer
  /-- The end of the loop, and `reset` up to `resetTimerfd`. -/
  | reset
  | resetTimerfd
  deriving DecidableEq, Repr

namespace TimerQueue

/-- The constructor, at any time. -/
def new (clock : Int) : TimerQueue where
  clock := clock
  heap := ∅
  numCreated := 0
  timerfd_ := .disarmed
  timers_ := ∅
  activeTimers_ := ∅
  callingExpiredTimers_ := false
  cancelingTimers_ := ∅
  phase := .idle
  adding := []
  fired := []
  failedAsserts := []

/-- An `assert`. -/
def check (q : TimerQueue) (a : TimerAssert) (b : Bool) : TimerQueue :=
  { q with failedAsserts := if b then q.failedAsserts else q.failedAsserts ++ [a] }

/-- `assert(timers_.size() == activeTimers_.size())`. -/
def checkSizes (q : TimerQueue) : TimerQueue :=
  q.check .sizes (q.timers_.size == q.activeTimers_.size)

/-- `howMuchTimeFromNow(when)`, in microseconds. -/
def howMuchTimeFromNow (q : TimerQueue) (when_ : Int) : Int :=
  max (TimeType64.wrap (when_ - q.clock)) 100

/-- `resetTimerfd(timerfd_, when)`. -/
def resetTimerfd (q : TimerQueue) (when_ : Int) : TimerQueue :=
  { q with timerfd_ := .armed (q.clock + q.howMuchTimeFromNow when_) q.clock }

/-- The objects a `shared_ptr` keeps alive. -/
def alive (q : TimerQueue) (t : TimerPtr) : Bool :=
  q.adding.contains t || q.timers_.toList.any (·.timer == t) ||
    q.activeTimers_.toList.any (·.timer == t) || q.cancelingTimers_.toList.any (·.timer == t) ||
    match q.phase with
    | .idle => false
    | .calling _ expired _ | .rearming expired _ => expired.any (·.timer == t)

/-- `isEarliest`, computed before the timer is inserted. -/
def isEarliest (q : TimerQueue) (timer : Timer) : Bool :=
  match begin? q.timers_ with
  | none => true
  | some first => timer.expiredTime_ < first.time

/-- `insert(timer)`; the answer says whether it is the earliest now. -/
def insert (q : TimerQueue) (t : TimerPtr) (timer : Timer) : TimerQueue × Bool :=
  let q := q.checkSizes
  let isEarliest := q.isEarliest timer
  let entry := ⟨timer.expiredTime_, t⟩
  let active := ⟨t, timer.sequence_⟩
  let q := q.check .inserted (!q.timers_.contains entry)
  let q := { q with timers_ := q.timers_.insert entry }
  let q := q.check .inserted (!q.activeTimers_.contains active)
  let q := { q with activeTimers_ := q.activeTimers_.insert active }
  (q.checkSizes, isEarliest)

/-- `addTimer(cb, timeout, interval)` in the calling thread: the functor
    keeps the new timer alive. -/
def addTimer (q : TimerQueue) (t : TimerPtr) (timeout interval : Int) : TimerQueue :=
  { q with
    numCreated := q.numCreated + 1
    heap := q.heap.insert t (Timer.new timeout interval (q.numCreated + 1))
    adding := t :: q.adding }

def addTimerInLoop (q : TimerQueue) (t : TimerPtr) : TimerQueue :=
  match q.heap[t]? with
  | none => q
  | some timer =>
      let inserted := q.insert t timer
      let q := { inserted.1 with adding := inserted.1.adding.erase t }
      if inserted.2 then q.resetTimerfd timer.expiredTime_ else q

/-- `timerId.timer_.lock()`: a null pointer once the timer was destroyed. -/
def lock (q : TimerQueue) (t : TimerPtr) : Option Timer :=
  if q.alive t then q.heap[t]? else none

/-- `cancelInLoop(timerId)` after the `lock()`. -/
def cancelLocked (q : TimerQueue) (t : TimerPtr) (cancelTimer : Option Timer) : TimerQueue :=
  let q := q.checkSizes
  match cancelTimer with
  | none => q.check .cancelTimer false
  | some cancelTimer =>
      let active := ⟨t, cancelTimer.sequence_⟩
      let entry := ⟨cancelTimer.expiredTime_, t⟩
      let q :=
        if q.activeTimers_.contains active then
          let q := q.check .erased (q.timers_.contains entry)
          { q with
            timers_ := q.timers_.erase entry
            activeTimers_ := q.activeTimers_.erase active }
        else if q.callingExpiredTimers_ then
          { q with cancelingTimers_ := q.cancelingTimers_.insert active }
        else
          q
      q.checkSizes

def cancelInLoop (q : TimerQueue) (t : TimerPtr) : TimerQueue := q.cancelLocked t (q.lock t)

/-- `readTimerfd`: a read takes the expiration; without one it fails. -/
def readTimerfd (q : TimerQueue) : TimerQueue :=
  { q with timerfd_ := if q.timerfd_ = .expired then .disarmed else q.timerfd_ }

/-- In front of the sentry `(now, nullptr)`. -/
def beforeSentry (now : Int) (e : Entry) : Bool := Entry.cmp e ⟨now, 0⟩ == .lt

/-- The sequence number of the object at an address. -/
def sequenceOf (q : TimerQueue) (t : TimerPtr) : Int := (q.heap[t]?.map Timer.sequence_).getD 0

/-- `getExpired(now)`: all entries in front of the sentry. -/
def getExpired (q : TimerQueue) (now : Int) : TimerQueue × List Entry :=
  let q := q.checkSizes
  let expired := q.timers_.toList.filter (beforeSentry now)
  let later := q.timers_.filter fun e => !beforeSentry now e
  let q := q.check .sentry (((begin? later).map fun e => decide (now < e.time)).getD true)
  let released := expired.foldl (fun (r : ExtTreeSet ActiveTimer ActiveTimer.cmp × Bool) e =>
    let active := ⟨e.timer, q.sequenceOf e.timer⟩
    (r.1.erase active, r.2 && r.1.contains active)) (q.activeTimers_, true)
  let q := { q.check .erased released.2 with timers_ := later, activeTimers_ := released.1 }
  (q.checkSizes, expired)

/-- `handleRead` up to the first callback. -/
def handleRead (q : TimerQueue) : TimerQueue :=
  let now := q.clock
  let read := q.readTimerfd.getExpired now
  { read.1 with
    callingExpiredTimers_ := true
    cancelingTimers_ := ∅
    phase := .calling now read.2 read.2 }

/-- The timer of an expired entry, if it is periodic and was not cancelled
    in a callback. -/
def restarting (q : TimerQueue) (e : Entry) : Option Timer :=
  q.heap[e.timer]?.filter fun timer =>
    timer.repeat_ && !q.cancelingTimers_.contains ⟨e.timer, timer.sequence_⟩

/-- One turn of the loop in `reset`. -/
def resetEntry (now : Int) (q : TimerQueue) (e : Entry) : TimerQueue :=
  match q.restarting e with
  | none => q
  | some timer =>
      let timer := timer.restart now
      ({ q with heap := q.heap.insert e.timer timer }.insert e.timer timer).1

/-- The end of the callbacks, and `reset(expired, now)` up to the decision
    about `timerfd_`. -/
def reset (q : TimerQueue) (expired : List Entry) (now : Int) : TimerQueue :=
  let q := { q with callingExpiredTimers_ := false }
  let q := expired.foldl (resetEntry now) q
  match begin? q.timers_ with
  | none => { q with phase := .idle }
  | some first =>
      match q.heap[first.timer]? with
      | none => { q with phase := .idle }
      | some earliestTimer =>
          if earliestTimer.isValid q.clock then
            { q with phase := .rearming expired earliestTimer.expiredTime_ }
          else
            { q with phase := .idle }

/-- Time passes, and an armed `timerfd_` expires. -/
def elapse (q : TimerQueue) (d : Nat) : TimerQueue :=
  let clock := q.clock + d
  { q with
    clock := clock
    timerfd_ :=
      match q.timerfd_ with
      | .armed deadline setAt => if deadline ≤ clock then .expired else .armed deadline setAt
      | fd => fd }

/-- User code of the loop thread runs between two events, and in a
    callback. -/
def InUserCode (q : TimerQueue) : Prop :=
  match q.phase with
  | .idle => True
  | .calling _ expired rest => rest.length < expired.length
  | .rearming _ _ => False

instance (q : TimerQueue) : Decidable q.InUserCode :=
  match h : q.phase with
  | .idle => isTrue (by simp [InUserCode, h])
  | .calling _ expired rest =>
      decidable_of_iff (rest.length < expired.length) (by simp [InUserCode, h])
  | .rearming _ _ => isFalse (by simp [InUserCode, h])

def next (q : TimerQueue) : TimerStep → TimerQueue
  | .elapse d => q.elapse d
  | .addTimer t timeout interval => q.addTimer t timeout interval
  | .addTimerInLoop t => q.addTimerInLoop t
  | .cancelInLoop t => q.cancelInLoop t
  | .handleRead => q.handleRead
  | .runTimer =>
      match q.phase with
      | .calling now expired (e :: rest) =>
          { q with
            phase := .calling now expired rest
            fired := q.fired ++ [(e.timer, now)] }
      | _ => q
  | .reset =>
      match q.phase with
      | .calling now expired _ => q.reset expired now
      | _ => q
  | .resetTimerfd =>
      match q.phase with
      | .rearming _ when_ => { q.resetTimerfd when_ with phase := .idle }
      | _ => q

/-- What the phase and the state of the objects permit. -/
def guard (q : TimerQueue) : TimerStep → Prop
  | .elapse _ => True
  -- a new object is at a fresh address, never at the null pointer
  | .addTimer t _ _ => t ≠ 0 ∧ t ∉ q.heap
  | .addTimerInLoop t => q.InUserCode ∧ t ∈ q.adding
  | .cancelInLoop t => q.InUserCode ∧ t ∈ q.heap
  | .handleRead => q.phase = .idle
  | .runTimer => ∃ now expired e rest, q.phase = .calling now expired (e :: rest)
  | .reset => ∃ now expired, q.phase = .calling now expired []
  | .resetTimerfd => ∃ expired when_, q.phase = .rearming expired when_

instance (q : TimerQueue) : DecidablePred q.guard
  | .elapse _ => isTrue trivial
  | .addTimer t _ _ => inferInstanceAs (Decidable (t ≠ 0 ∧ t ∉ q.heap))
  | .addTimerInLoop t => inferInstanceAs (Decidable (q.InUserCode ∧ t ∈ q.adding))
  | .cancelInLoop t => inferInstanceAs (Decidable (q.InUserCode ∧ t ∈ q.heap))
  | .handleRead => inferInstanceAs (Decidable (q.phase = .idle))
  | .runTimer =>
      match h : q.phase with
      | .calling now expired (e :: rest) => isTrue ⟨now, expired, e, rest, h⟩
      | .calling _ _ [] | .idle | .rearming _ _ => isFalse (by simp [guard, h])
  | .reset =>
      match h : q.phase with
      | .calling now expired [] => isTrue ⟨now, expired, h⟩
      | .calling _ _ (_ :: _) | .idle | .rearming _ _ => isFalse (by simp [guard, h])
  | .resetTimerfd =>
      match h : q.phase with
      | .rearming expired when_ => isTrue ⟨expired, when_, h⟩
      | .calling _ _ _ | .idle => isFalse (by simp [guard, h])

end TimerQueue

/-- Any order of timer operations, events, callbacks and passing time. -/
def timerQueue : Machine TimerQueue TimerStep where
  guard := TimerQueue.guard
  next := TimerQueue.next

instance (q : TimerQueue) (l : TimerStep) : Decidable (timerQueue.guard q l) :=
  inferInstanceAs (Decidable (q.guard l))

end TinyWS
