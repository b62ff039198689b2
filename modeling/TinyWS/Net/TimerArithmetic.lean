import TinyWS.Net.TimerQueue
import Mathlib.Data.Int.Init

/-! # The Arithmetic of Timers

    Times are 64-bit integers, in microseconds since 1970, and nothing is
    checked where they are added.  A delay or an interval that reaches
    beyond the last of them gives a time in the past. -/

namespace TinyWS

/-- `Timer::TimeType`, with its width. -/
abbrev TimeType64 : Type := Int64

namespace TimeType64

/-- `Timer::kMicroSecondsPerSecond`. -/
def kMicroSecondsPerSecond : TimeType64 := 1000 * 1000

theorem toInt_le (x : TimeType64) : x.toInt ≤ maxTime := by
  have h := Int64.toInt_lt x
  unfold maxTime
  omega

theorem toInt_add_of_le {x y : TimeType64} (hx : 0 ≤ x.toInt) (hy : 0 ≤ y.toInt)
    (h : x.toInt + y.toInt ≤ maxTime) : (x + y).toInt = x.toInt + y.toInt := by
  unfold maxTime at h
  rw [Int64.toInt_add, Int.bmod_eq_of_le] <;> omega

/-- A sum that is too large is a time before both. -/
theorem toInt_add_of_gt {x y : TimeType64} (h : maxTime < x.toInt + y.toInt) :
    (x + y).toInt < x.toInt := by
  have hx := toInt_le x
  have hy := toInt_le y
  unfold maxTime at h hx hy
  rw [Int64.toInt_add, Int.bmod_def]
  split <;> omega

theorem toInt_sub_of_nonneg {x y : TimeType64} (hx : 0 ≤ x.toInt) (hy : 0 ≤ y.toInt) :
    (x - y).toInt = x.toInt - y.toInt := by
  have hx' := toInt_le x
  have hy' := toInt_le y
  unfold maxTime at hx' hy'
  rw [Int64.toInt_sub, Int.bmod_eq_of_le] <;> omega

end TimeType64

/-- What `gettimeofday` stores: a time since 1970 that a `TimeType64` can
    hold. -/
structure Timeval where
  tv_sec : TimeType64
  tv_usec : TimeType64
  tv_sec_nonneg : 0 ≤ tv_sec.toInt
  tv_usec_nonneg : 0 ≤ tv_usec.toInt
  tv_usec_lt : tv_usec.toInt < 1000000
  fits : tv_sec.toInt * 1000000 + tv_usec.toInt ≤ TimeType64.maxTime

/-- `struct timespec`. -/
structure Timespec where
  tv_sec : Int64
  tv_nsec : Int64
  deriving DecidableEq

/-- `class Timer` with its 64-bit times. -/
structure Timer64 where
  expiredTime_ : TimeType64
  interval_ : TimeType64
  repeat_ : Bool
  deriving DecidableEq

namespace Timer64

open TimeType64

/-- `Timer::now()`. -/
def now (tv : Timeval) : TimeType64 := tv.tv_sec * kMicroSecondsPerSecond + tv.tv_usec

/-- The constructor. -/
def new (timeout interval : TimeType64) : Timer64 where
  expiredTime_ := timeout
  interval_ := interval
  repeat_ := 0 < interval

def invalid : TimeType64 := 0

def restart (t : Timer64) (now : TimeType64) : Timer64 :=
  if t.repeat_ then { t with expiredTime_ := now + t.interval_ }
  else { t with expiredTime_ := invalid }

/-- `EventLoop::runAt(time, cb)`. -/
def runAt (time : TimeType64) : Timer64 := new time 0

/-- `EventLoop::runAfter(delay, cb)`. -/
def runAfter (tv : Timeval) (delay : TimeType64) : Timer64 := runAt (now tv + delay)

/-- `EventLoop::runEvery(interval, cb)`. -/
def runEvery (tv : Timeval) (interval : TimeType64) : Timer64 := new (now tv) interval

/-- `Timerfd::howMuchTimeFromNow(when)`. -/
def howMuchTimeFromNow (tv : Timeval) (when_ : TimeType64) : Timespec :=
  let microseconds := when_ - now tv
  let microseconds := if microseconds < 100 then 100 else microseconds
  { tv_sec := microseconds / kMicroSecondsPerSecond
    tv_nsec := (microseconds % kMicroSecondsPerSecond) * 1000 }

/-- The timer of the queue. -/
def toTimer (t : Timer64) (sequence : Int) : Timer where
  expiredTime_ := t.expiredTime_.toInt
  interval_ := t.interval_.toInt
  repeat_ := t.repeat_
  sequence_ := sequence

/-! ## The specification -/

/-- The two calls that create a timer. -/
inductive Call where
  | runAfter (delay : TimeType64)
  | runEvery (interval : TimeType64)
  deriving DecidableEq

/-- The delay or interval of a call. -/
def Call.amount : Call → TimeType64
  | .runAfter delay => delay
  | .runEvery interval => interval

def Call.create (tv : Timeval) : Call → Timer64
  | .runAfter delay => Timer64.runAfter tv delay
  | .runEvery interval => Timer64.runEvery tv interval

/-- Each restart of a timer with the time it is computed from and the new
    expiry; a timer that does not repeat is not restarted. -/
def restarts (t : Timer64) : List Timeval → List (TimeType64 × TimeType64)
  | [] => []
  | tv :: tvs =>
      if t.repeat_ then (now tv, (t.restart (now tv)).expiredTime_) ::
        (t.restart (now tv)).restarts tvs
      else []

/-- The life of a timer: its creation and its restarts. -/
def expiries (call : Call) (tv : Timeval) (tvs : List Timeval) : List (TimeType64 × TimeType64) :=
  (now tv, (call.create tv).expiredTime_) :: (call.create tv).restarts tvs

/-- The time span is `max(when - now, 100)` microseconds, whenever it is
    asked for. -/
def Denotes (when_ : TimeType64) : Prop :=
  ∀ tv : Timeval,
    let ts := howMuchTimeFromNow tv when_
    0 ≤ ts.tv_nsec.toInt ∧ ts.tv_nsec.toInt < 1000000000 ∧
      ts.tv_sec.toInt * 1000000000 + ts.tv_nsec.toInt =
        max (when_.toInt - (now tv).toInt) 100 * 1000

/-- No expiry is earlier than the time it is computed from, and the kernel
    is told the right time to wait for it. -/
def NeverWraps (call : Call) (tv : Timeval) (tvs : List Timeval) : Prop :=
  ∀ e ∈ expiries call tv tvs, e.1.toInt ≤ e.2.toInt ∧ Denotes e.2

/-- The delay, or the interval at every restart, ends before the last time
    there is. -/
def Fits (tv : Timeval) (tvs : List Timeval) : Call → Prop
  | .runAfter delay => (now tv).toInt + delay.toInt ≤ maxTime
  | .runEvery interval =>
      0 < interval.toInt → ∀ tv' ∈ tvs, (now tv').toInt + interval.toInt ≤ maxTime

/-! ## The clock and the kernel -/

theorem toInt_now (tv : Timeval) :
    (now tv).toInt = tv.tv_sec.toInt * 1000000 + tv.tv_usec.toInt := by
  have hsec := tv.tv_sec_nonneg
  have husec := tv.tv_usec_nonneg
  have hfits := tv.fits
  have hsecond : kMicroSecondsPerSecond.toInt = 1000000 := by decide
  have hproduct : (tv.tv_sec * kMicroSecondsPerSecond).toInt = tv.tv_sec.toInt * 1000000 := by
    unfold maxTime at hfits
    rw [Int64.toInt_mul, hsecond, Int.bmod_eq_of_le] <;> omega
  rw [now, toInt_add_of_le (by omega) husec (by omega), hproduct]

theorem now_nonneg (tv : Timeval) : 0 ≤ (now tv).toInt := by
  have hsec := tv.tv_sec_nonneg
  have husec := tv.tv_usec_nonneg
  rw [toInt_now]
  omega

/-- The time span that the queue computes, in the words of the kernel. -/
theorem howMuchTimeFromNow_span (tv : Timeval) (when_ : TimeType64) :
    let ts := howMuchTimeFromNow tv when_
    0 ≤ ts.tv_nsec.toInt ∧ ts.tv_nsec.toInt < 1000000000 ∧
      ts.tv_sec.toInt * 1000000000 + ts.tv_nsec.toInt =
        max (wrap (when_.toInt - (now tv).toInt)) 100 * 1000 := by
  have hdiff : (when_ - now tv).toInt = wrap (when_.toInt - (now tv).toInt) :=
    Int64.toInt_sub when_ (now tv)
  have hhundred : (100 : Int64).toInt = 100 := by decide
  have hsecond : kMicroSecondsPerSecond.toInt = 1000000 := by decide
  -- the microseconds to wait, at least 100 of them
  obtain ⟨microseconds, hmicro, hts⟩ : ∃ microseconds : TimeType64,
      microseconds.toInt = max (wrap (when_.toInt - (now tv).toInt)) 100 ∧
        howMuchTimeFromNow tv when_ =
          ⟨microseconds / kMicroSecondsPerSecond,
            (microseconds % kMicroSecondsPerSecond) * 1000⟩ := by
    refine ⟨_, ?_, rfl⟩
    split
    · next hlt =>
      rw [Int64.lt_iff_toInt_lt, hdiff, hhundred] at hlt
      rw [hhundred, max_eq_right (Int.le_of_lt hlt)]
    · next hge =>
      rw [Int64.lt_iff_toInt_lt, hdiff, hhundred] at hge
      rw [hdiff, max_eq_left (Int.not_lt.mp hge)]
  have hpos : 0 ≤ microseconds.toInt := by
    rw [hmicro]
    exact le_trans (by decide) (le_max_right _ _)
  have hsec : (microseconds / kMicroSecondsPerSecond).toInt = microseconds.toInt / 1000000 := by
    rw [Int64.toInt_div_of_ne_right _ _ (by decide), hsecond, Int.tdiv_eq_ediv_of_nonneg hpos]
  have hnsec : ((microseconds % kMicroSecondsPerSecond) * 1000).toInt =
      microseconds.toInt % 1000000 * 1000 := by
    have hthousand : (1000 : Int64).toInt = 1000 := by decide
    rw [Int64.toInt_mul, Int64.toInt_mod, hsecond, hthousand, Int.tmod_eq_emod_of_nonneg hpos,
      Int.bmod_eq_of_le] <;> omega
  rw [← hmicro, hts]
  show 0 ≤ ((microseconds % kMicroSecondsPerSecond) * 1000).toInt ∧ _ ∧
    (microseconds / kMicroSecondsPerSecond).toInt * 1000000000 + _ = _
  rw [hsec, hnsec]
  omega

/-- `howMuchTimeFromNow` is right for every time since 1970. -/
theorem denotes_of_nonneg {when_ : TimeType64} (h : 0 ≤ when_.toInt) : Denotes when_ := by
  intro tv
  have hdiff : wrap (when_.toInt - (now tv).toInt) = when_.toInt - (now tv).toInt :=
    (Int64.toInt_sub when_ (now tv)).symm.trans (toInt_sub_of_nonneg h (now_nonneg tv))
  have hspan := howMuchTimeFromNow_span tv when_
  rwa [hdiff] at hspan

/-! ## Creating and restarting -/

/-- A time that is computed from the clock is right if and only if it is
    one of the times there are. -/
theorem sum_iff (tv : Timeval) {amount : TimeType64} (hamount : 0 ≤ amount.toInt) :
    ((now tv).toInt ≤ (now tv + amount).toInt ∧ Denotes (now tv + amount)) ↔
      (now tv).toInt + amount.toInt ≤ maxTime := by
  have hnow := now_nonneg tv
  constructor
  · rintro ⟨hle, -⟩
    by_contra hgt
    have hlt := toInt_add_of_gt (Int.not_le.mp hgt)
    omega
  · intro hfits
    have hsum := toInt_add_of_le hnow hamount hfits
    refine ⟨by omega, denotes_of_nonneg ?_⟩
    omega

/-- A timer that is restarted is that of the queue. -/
theorem toTimer_restart (t : Timer64) (sequence : Int) (now : TimeType64) :
    (t.restart now).toTimer sequence = (t.toTimer sequence).restart now.toInt := by
  have hsum : (now + t.interval_).toInt = wrap (now.toInt + t.interval_.toInt) :=
    Int64.toInt_add now t.interval_
  cases hrepeat : t.repeat_ with
  | true => simp [restart, toTimer, Timer.restart, Timer.following, hrepeat, hsum]
  | false =>
    simp [restart, toTimer, Timer.restart, hrepeat]
    decide

theorem restarts_of_repeat {t : Timer64} (h : t.repeat_ = true) (tvs : List Timeval) :
    t.restarts tvs = tvs.map fun tv => (now tv, now tv + t.interval_) := by
  induction tvs generalizing t with
  | nil => rfl
  | cons tv tvs ih =>
    have hrestart : t.restart (now tv) = { t with expiredTime_ := now tv + t.interval_ } := by
      rw [restart, if_pos h]
    rw [restarts, if_pos h, hrestart]
    exact congrArg _ (ih (t := { t with expiredTime_ := now tv + t.interval_ }) h)

theorem restarts_of_not_repeat {t : Timer64} (h : t.repeat_ = false) (tvs : List Timeval) :
    t.restarts tvs = [] := by
  cases tvs with
  | nil => rfl
  | cons tv tvs => rw [restarts, h, if_neg Bool.false_ne_true]

/-- **The times of a timer are right exactly when none of them is beyond the
    last one there is**: for every clock, every delay or interval that is
    not negative and all restarts of the timer, no expiry is earlier than
    the time it is computed from and the kernel waits for the right time,
    if and only if the delay, or the interval at every restart, ends before
    the largest 64-bit time. -/
theorem neverWraps_iff (call : Call) (tv : Timeval) (tvs : List Timeval)
    (hamount : 0 ≤ call.amount.toInt) : NeverWraps call tv tvs ↔ Fits tv tvs call := by
  cases call with
  | runAfter delay =>
    have hnone : (runAfter tv delay).restarts tvs = [] := restarts_of_not_repeat rfl tvs
    rw [NeverWraps, expiries, Call.create, hnone, List.forall_mem_singleton]
    exact sum_iff tv hamount
  | runEvery interval =>
    have hfirst : (now tv).toInt ≤ (now tv).toInt ∧ Denotes (now tv) :=
      ⟨Int.le_refl _, denotes_of_nonneg (now_nonneg tv)⟩
    have hzero : (0 : Int64).toInt = 0 := rfl
    rw [NeverWraps, expiries, Call.create, List.forall_mem_cons, Fits]
    by_cases hpos : 0 < interval.toInt
    · have hrepeat : (runEvery tv interval).repeat_ = true := by
        apply decide_eq_true
        rw [Int64.lt_iff_toInt_lt, hzero]
        exact hpos
      rw [restarts_of_repeat hrepeat, List.forall_mem_map]
      constructor
      · intro h _ tv' htv'
        exact (sum_iff tv' hamount).mp (h.2 tv' htv')
      · intro h
        exact ⟨hfirst, fun tv' htv' => (sum_iff tv' hamount).mpr (h hpos tv' htv')⟩
    · -- an interval of zero does not repeat
      have hrepeat : (runEvery tv interval).repeat_ = false := by
        apply decide_eq_false
        rw [Int64.lt_iff_toInt_lt, hzero]
        exact hpos
      rw [restarts_of_not_repeat hrepeat]
      constructor
      · exact fun _ hgt => absurd hgt hpos
      · exact fun _ => ⟨hfirst, fun e he => absurd he List.not_mem_nil⟩

/-- The second after the epoch. -/
def secondOne : Timeval where
  tv_sec := 1
  tv_usec := 0
  tv_sec_nonneg := by decide
  tv_usec_nonneg := by decide
  tv_usec_lt := by decide
  fits := by decide

/-- A timer that fires every second. -/
theorem neverWraps_iff_second :
    NeverWraps (.runEvery 1000000) secondOne [secondOne] ↔
      Fits secondOne [secondOne] (.runEvery 1000000) :=
  neverWraps_iff (.runEvery 1000000) secondOne [secondOne] (by decide)

/-- A delay that is meant never to end is over before it begins. -/
theorem not_neverWraps :
    ¬ ∀ (call : Call) (tv : Timeval) (tvs : List Timeval), 0 ≤ call.amount.toInt →
      NeverWraps call tv tvs := by
  intro h
  have hfirst := h (.runAfter Int64.maxValue) secondOne [] (by decide) _ List.mem_cons_self
  exact absurd hfirst.1 (by decide)

end Timer64

end TinyWS
