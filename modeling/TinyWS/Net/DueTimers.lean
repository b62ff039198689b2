import TinyWS.Net.TimerSets

/-! # The Due Timers

    `getExpired(now)` takes what lies in front of the sentry
    `(now, nullptr)`.  No pointer is smaller than the null pointer, so a
    timer that expires at `now` lies behind the sentry: it stays, and the
    assert that all timers left are later fails. -/

namespace TinyWS

open Std

namespace TimerQueue

/-! ## The specification -/

/-- `getExpired(now)` takes exactly the due timers, in the order of their
    expiry, out of both sets, and no assert fails. -/
structure TakesDue (q : TimerQueue) (now : Int) : Prop where
  due : ∀ e, e ∈ (q.getExpired now).2 ↔ e ∈ q.timers_ ∧ e.time ≤ now
  once : (q.getExpired now).2.Nodup
  ordered : (q.getExpired now).2.Pairwise fun e e' => e.time ≤ e'.time
  timers_ : ∀ e, e ∈ (q.getExpired now).1.timers_ ↔ e ∈ q.timers_ ∧ ¬ e.time ≤ now
  activeTimers_ : ∀ a, a ∈ (q.getExpired now).1.activeTimers_ ↔
    a ∈ q.activeTimers_ ∧ ¬ ∃ e ∈ q.timers_, e.time ≤ now ∧ e.timer = a.timer
  asserts : (q.getExpired now).1.failedAsserts = q.failedAsserts

/-! ## The sentry -/

/-- No address comes before the null pointer. -/
theorem beforeSentry_iff {now : Int} {e : Entry} :
    beforeSentry now e = true ↔ e.time < now := by
  have hcmp : Entry.cmp e ⟨now, 0⟩ = (compare e.time now).then (compare e.timer 0) := rfl
  rw [beforeSentry, beq_iff_eq, hcmp, Ordering.then_eq_lt]
  constructor
  · rintro (hlt | ⟨-, hlt⟩)
    · exact compare_lt_iff_lt.mp hlt
    · exact absurd (compare_lt_iff_lt.mp hlt) (Nat.not_lt_zero _)
  · exact fun hlt => .inl (compare_lt_iff_lt.mpr hlt)

theorem expiredAt_ordered (q : TimerQueue) (now : Int) :
    (q.expiredAt now).Pairwise fun e e' => e.time ≤ e'.time := by
  refine (q.timers_.ordered_toList.filter _).imp fun hlt => ?_
  apply Entry.time_le_of_isLE
  rw [hlt]
  rfl

/-- The assert about the sentry holds if no timer expires right now. -/
theorem sentryHolds_of_ne {q : TimerQueue} {now : Int} (h : ∀ e ∈ q.timers_, e.time ≠ now) :
    q.sentryHolds now = true := by
  unfold sentryHolds
  cases hfirst : begin? (q.laterThan now) with
  | none => rfl
  | some first =>
    have hmem : first ∈ q.laterThan now := by
      rw [begin?_eq_min?] at hfirst
      exact ExtTreeSet.min?_mem hfirst
    obtain ⟨hfirst', hlater⟩ := mem_laterThan.mp hmem
    have hge : ¬ first.time < now := by
      rw [← beforeSentry_iff, hlater]
      exact Bool.false_ne_true
    have hne := h first hfirst'
    show decide (now < first.time) = true
    apply decide_eq_true
    omega

/-! ## Both sets -/

/-- What the two sets hold is all that `getExpired` relies on. -/
theorem BothHold.wellKept {q : TimerQueue} {S : Set TimerPtr} (h : q.BothHold S) :
    q.WellKept [] := by
  refine ⟨fun e he => ?_, fun t ht => ?_, fun t ht => ?_, List.nodup_nil⟩
  · obtain ⟨t, -, timer, htimer, rfl⟩ := (h.timers e).mp he
    exact ⟨timer, htimer, rfl⟩
  · cases ht
  · cases ht

theorem BothHold.sameTimers {q : TimerQueue} {S : Set TimerPtr} (h : q.BothHold S) :
    q.SameTimers := by
  intro a
  constructor
  · intro ha
    obtain ⟨t, ht, timer, htimer, rfl⟩ := (h.active a).mp ha
    refine ⟨⟨⟨timer.expiredTime_, t⟩, (h.timers _).mpr ⟨t, ht, timer, htimer, rfl⟩, rfl⟩, ?_⟩
    rw [htimer]
    rfl
  · rintro ⟨⟨e, he, hea⟩, hseq⟩
    obtain ⟨t, ht, timer, htimer, rfl⟩ := (h.timers e).mp he
    obtain ⟨timer', htimer', hsequence⟩ := Option.map_eq_some_iff.mp hseq
    refine (h.active a).mpr ⟨a.timer, ?_, timer', htimer', ?_⟩
    · rw [← hea]
      exact ht
    · rw [hsequence]

/-- **Exactly the due timers are taken if and only if none expires right
    now**: for all sets that hold the same timers, each under its key, and
    every time, `getExpired` takes out of both sets the timers that are
    due, in order, and no assert fails, unless a timer expires at that very
    time. -/
theorem takesDue_iff {q : TimerQueue} {S : Set TimerPtr} (h : q.BothHold S) (now : Int) :
    q.TakesDue now ↔ ∀ e ∈ q.timers_, e.time ≠ now := by
  obtain ⟨active, heq, hsame⟩ := collect_spec h.wellKept h.sameTimers now
  have htaken : (q.getExpired now).2 = q.expiredAt now := rfl
  constructor
  · intro hdue e he hnow
    -- it is due, and it is not taken
    have hmem := (hdue.due e).mpr ⟨he, Int.le_of_eq hnow⟩
    rw [htaken] at hmem
    have hlt := beforeSentry_iff.mp (mem_expiredAt.mp hmem).2
    omega
  · intro hne
    have hdue : ∀ e ∈ q.timers_, (beforeSentry now e = true ↔ e.time ≤ now) := by
      intro e he
      have hne' := hne e he
      rw [beforeSentry_iff]
      omega
    have hlater : ∀ e, e ∈ q.laterThan now ↔ e ∈ q.timers_ ∧ ¬ e.time ≤ now := by
      intro e
      rw [mem_laterThan]
      refine and_congr_right fun he => ?_
      rw [← hdue e he, Bool.not_eq_true]
    refine ⟨fun e => ?_, ?_, ?_, fun e => ?_, fun a => ?_, ?_⟩
    · rw [htaken, mem_expiredAt]
      exact and_congr_right fun he => hdue e he
    · exact (nodup_toList _).filter _
    · exact q.expiredAt_ordered now
    · rw [heq]
      exact hlater e
    · have hleft := hsame a
      rw [heq]
      refine hleft.trans ?_
      rw [h.sameTimers a]
      show (∃ e ∈ q.laterThan now, e.timer = a.timer) ∧
        q.heap[a.timer]?.map Timer.sequence_ = some a.sequence ↔ _
      constructor
      · rintro ⟨⟨e, he, hea⟩, hseq⟩
        obtain ⟨hmem, hgt⟩ := (hlater e).mp he
        refine ⟨⟨⟨e, hmem, hea⟩, hseq⟩, ?_⟩
        rintro ⟨e', he', hle, hea'⟩
        rw [h.wellKept.entry_unique he' hmem (hea'.trans hea.symm)] at hle
        exact hgt hle
      · rintro ⟨⟨⟨e, he, hea⟩, hseq⟩, hnot⟩
        exact ⟨⟨e, (hlater e).mpr ⟨he, fun hle => hnot ⟨e, he, hle, hea⟩⟩, hea⟩, hseq⟩
    · rw [heq, sentryHolds_of_ne hne]
      rfl

/-- One timer, added at 0, that expires at 100. -/
def oneTimer : TimerQueue :=
  timerQueue.run (new 0) [.addTimer 1 100 0, .addTimerInLoop 1]

theorem oneTimer_bothHold : oneTimer.BothHold {t | ∃ e ∈ oneTimer.timers_, e.timer = t} := by
  have hagrees : (anyClock.run (new 0)
      [.step (.addTimer 1 100 0), .step (.addTimerInLoop 1)]).Agrees _ :=
    agrees_run 0 (by decide +kernel)
  exact bothHold_of_agrees hagrees

/-- One microsecond later the timer is taken. -/
theorem takesDue_iff_late :
    oneTimer.TakesDue 101 ↔ ∀ e ∈ oneTimer.timers_, e.time ≠ 101 :=
  takesDue_iff oneTimer_bothHold 101

/-- At the time it expires, the timer is not taken. -/
theorem not_takesDue :
    (oneTimer.getExpired 100).2 = [] ∧ (oneTimer.getExpired 100).1.failedAsserts = [.sentry] ∧
      ¬ ∀ (q : TimerQueue) (S : Set TimerPtr) (now : Int), q.BothHold S → q.TakesDue now := by
  refine ⟨by decide +kernel, by decide +kernel, fun h => ?_⟩
  have hdue := (h oneTimer _ 100 oneTimer_bothHold).asserts
  exact absurd hdue (by decide +kernel)

end TimerQueue

end TinyWS
