import TinyWS.Net.TimerFired

/-! # Cancelled Timers

    `cancelInLoop` takes a waiting timer out of the sets, and keeps a
    periodic one that has run from being restarted.  It does nothing for
    a timer that is neither in the sets nor past its callback: one of the
    batch that is still to be run, or one that is still to be added.

    So a cancelled timer is *silent* for good exactly when it was not one
    of these two. -/

namespace TinyWS

open Std

namespace TimerQueue

/-! ## Silence -/

/-- Nothing will ever invoke the callback of the timer `t`. -/
structure Silent (t : TimerPtr) (q : TimerQueue) : Prop where
  known : t ∈ q.heap
  added : t ∉ q.adding
  waiting : ∀ e ∈ q.timers_, e.timer ≠ t
  batch : ∀ now expired rest, q.phase = .calling now expired rest →
    t ∉ rest.map Entry.timer ∧ ∀ e ∈ expired, e.timer = t → q.restarting e = none

/-- A timer that does not restart still does not when more timers are
    cancelled. -/
theorem restarting_mono {q q' : TimerQueue} {e : Entry}
    (hobject : q'.heap[e.timer]? = q.heap[e.timer]?)
    (hcanceling : ∀ a ∈ q.cancelingTimers_, a ∈ q'.cancelingTimers_)
    (h : q.restarting e = none) : q'.restarting e = none := by
  rw [Option.eq_none_iff_forall_ne_some] at h ⊢
  intro timer hr
  obtain ⟨htimer, hrepeat, hnot⟩ := restarting_eq_some.mp hr
  refine h timer (restarting_eq_some.mpr ⟨hobject ▸ htimer, hrepeat, ?_⟩)
  exact fun ha => hnot (hcanceling _ ha)

section Silent

variable {t : TimerPtr} {q : TimerQueue}

theorem Silent.untouched (h : q.Silent t) {q' : TimerQueue} (hu : Untouched t q q') :
    q'.Silent t := by
  refine ⟨?_, fun ha => h.added (hu.adding ha), fun e he het => ?_, fun now expired rest hp => ?_⟩
  · rw [mem_heap_iff, hu.object, ← mem_heap_iff]
    exact h.known
  · exact h.waiting e (hu.entries e he het) het
  · obtain ⟨hrest, hnone⟩ := h.batch now expired rest (hu.batch now expired rest hp)
    refine ⟨hrest, fun e he het => ?_⟩
    exact restarting_mono (het ▸ hu.object) hu.canceling (hnone e he het)

/-- What is collected was waiting. -/
theorem silent_handleRead (h : q.Silent t) : q.handleRead.Silent t := by
  obtain ⟨htimers, hheap, hadding, -, hcalling⟩ := q.handleRead_spec
  refine ⟨?_, ?_, fun e he => ?_, fun now expired rest hphase => ?_⟩
  · rw [hheap]
    exact h.known
  · rw [hadding]
    exact h.added
  · rw [htimers] at he
    exact h.waiting e (mem_laterThan.mp he).1
  rw [hcalling] at hphase
  cases hphase
  have hnot : ∀ e ∈ q.expiredAt q.clock, e.timer ≠ t :=
    fun e he => h.waiting e (mem_expiredAt.mp he).1
  refine ⟨fun hmem => ?_, fun e he het => absurd het (hnot e he)⟩
  obtain ⟨e, he, het⟩ := List.mem_map.mp hmem
  exact hnot e he het

/-- The next callback is not that of `t`. -/
theorem silent_runTimer (h : q.Silent t) {now : Int} {e : Entry} {expired rest : List Entry}
    (hphase : q.phase = .calling now expired (e :: rest)) :
    (q.next .runTimer).Silent t ∧ (q.next .runTimer).firings t = q.firings t := by
  obtain ⟨hrest, hnone⟩ := h.batch now expired (e :: rest) hphase
  rw [List.map_cons, List.mem_cons, not_or] at hrest
  constructor
  · rw [next_runTimer hphase]
    refine ⟨h.known, h.added, h.waiting, fun now' expired' rest' hphase' => ?_⟩
    cases hphase'
    exact ⟨hrest.2, hnone⟩
  · rw [firings_runTimer hphase, if_neg fun het => hrest.1 het.symm, List.append_nil]

/-- `reset` does not put `t` back. -/
theorem silent_reset (h : q.Silent t) (hkept : q.Kept) {now : Int} {expired : List Entry}
    (hphase : q.phase = .calling now expired []) :
    (q.reset expired now).Silent t ∧ (q.reset expired now).firings t = q.firings t := by
  have hguard : q.guard .reset := ⟨now, expired, hphase⟩
  have hknown := mem_heap_next hguard h.known
  rw [next_reset hphase] at hknown
  obtain ⟨hadding, hfired, hentries⟩ := reset_spec hkept.agrees.kept hphase
  refine ⟨⟨hknown, fun hmem => ?_, fun x hx => ?_, fun now' expired' rest' hcalling => ?_⟩,
    firings_congr hfired t⟩
  · rw [hadding] at hmem
    exact h.added hmem
  · rcases (hentries x).mp hx with hx | ⟨e, he, timer, hr, rfl⟩
    · exact h.waiting x hx
    · -- this one restarts, so it is not `t`
      intro het
      rw [(h.batch now expired [] hphase).2 e he het] at hr
      cases hr
  · exact absurd hcalling (q.phase_reset_ne expired now _ _ _)

theorem silent_next (h : q.Silent t) (hkept : q.Kept) {l : TimerStep} (hguard : q.guard l) :
    (q.next l).Silent t ∧ (q.next l).firings t = q.firings t := by
  have hrest : l ≠ .addTimerInLoop t → l ≠ .handleRead ∧ l ≠ .runTimer ∧ l ≠ .reset →
      (q.next l).Silent t ∧ (q.next l).firings t = q.firings t := by
    intro hadd hread
    have hu := untouched_next h.known hguard hadd hread
    exact ⟨h.untouched hu, firings_congr hu.fired t⟩
  cases l with
  | addTimerInLoop u =>
    refine hrest (fun heq => ?_) (by simp)
    -- it is not about to be added
    cases heq
    exact h.added hguard.2
  | handleRead =>
    obtain ⟨-, -, -, hfired, -⟩ := q.handleRead_spec
    exact ⟨silent_handleRead h, firings_congr hfired t⟩
  | runTimer =>
    obtain ⟨now, expired, e, rest, hphase⟩ := hguard
    exact silent_runTimer h hphase
  | reset =>
    obtain ⟨now, expired, hphase⟩ := hguard
    rw [next_reset hphase]
    exact silent_reset h hkept hphase
  | elapse d => exact hrest (by simp) (by simp)
  | addTimer u timeout interval => exact hrest (by simp) (by simp)
  | cancelInLoop u => exact hrest (by simp) (by simp)
  | resetTimerfd => exact hrest (by simp) (by simp)

/-- A silent timer never runs again. -/
theorem silent_run (h : q.Silent t) (hkept : q.Kept) {steps : List ClockStep}
    (hvalid : anyClock.Valid q steps) : (anyClock.run q steps).firings t = q.firings t := by
  refine (anyClock.invariant_run
    (fun q' => q'.Kept ∧ q'.Silent t ∧ q'.firings t = q.firings t) ?_ ⟨hkept, h, rfl⟩ hvalid).2.2
  rintro q' l ⟨hkept', h', hsame⟩ hguard
  refine ⟨kept_anyClock hkept' hguard, ?_⟩
  cases l with
  | clock now =>
    have hu := untouched_clock t q' now
    exact ⟨h'.untouched hu, (firings_congr hu.fired t).trans hsame⟩
  | step l =>
    obtain ⟨hsilent, hfirings⟩ := silent_next h' hkept' hguard
    exact ⟨hsilent, hfirings.trans hsame⟩

/-! ## What cancelling does -/

/-- The timers of the batch that are still to be run. -/
def toRun (q : TimerQueue) : List TimerPtr :=
  match q.phase with
  | .calling _ _ rest => rest.map Entry.timer
  | .idle | .rearming _ _ => []

theorem toRun_calling {now : Int} {expired rest : List Entry}
    (hphase : q.phase = .calling now expired rest) : q.toRun = rest.map Entry.timer := by
  rw [toRun, hphase]

/-- Who has an entry is alive. -/
theorem alive_of_mem_timers {e : Entry} (he : e ∈ q.timers_) : q.alive e.timer = true := by
  have hany : q.timers_.toList.any (·.timer == e.timer) = true :=
    List.any_eq_true.mpr ⟨e, ExtTreeSet.mem_toList.mpr he, beq_self_eq_true _⟩
  simp only [alive, hany, Bool.or_true, Bool.true_or]

/-- An object that is not alive is nowhere. -/
theorem silent_of_not_alive (hkept : q.Kept) (hknown : t ∈ q.heap) (h : ¬ q.alive t = true) :
    q.Silent t := by
  have htimers : ∀ e ∈ q.timers_, e.timer ≠ t := by
    rintro e he rfl
    exact h (alive_of_mem_timers he)
  simp only [alive, Bool.or_eq_true, not_or] at h
  obtain ⟨⟨⟨⟨hadding, -⟩, -⟩, -⟩, hbatch⟩ := h
  refine ⟨hknown, fun hmem => hadding (by simpa using hmem), htimers, ?_⟩
  · intro now expired rest hphase
    have hnot : ∀ e ∈ expired, e.timer ≠ t := by
      intro e he het
      apply hbatch
      rw [hphase]
      exact List.any_eq_true.mpr ⟨e, he, beq_iff_eq.mpr het⟩
    refine ⟨fun hmem => ?_, fun e he het => absurd het (hnot e he)⟩
    obtain ⟨e, he, het⟩ := List.mem_map.mp hmem
    exact hnot e ((hkept.phased.rest now expired rest hphase).subset he) het

/-- A waiting timer is erased, and one that has run is remembered. -/
theorem silent_cancelInLoop (hkept : q.Kept) (hguard : q.guard (.cancelInLoop t))
    (hadding : t ∉ q.adding) (hrest : t ∉ q.toRun) : (q.cancelInLoop t).Silent t := by
  have hknown := hguard.2
  by_cases halive : q.alive t = true
  swap
  · exact (silent_of_not_alive hkept hknown halive).untouched
      (untouched_next hknown hguard (by simp) (by simp))
  obtain ⟨timer, htimer⟩ := mem_heap_iff.mp hknown
  have hlock : q.lock t = some timer := by
    rw [lock, if_pos halive, htimer]
  rw [cancelInLoop, hlock]
  rcases cancelLocked_cases hkept.agrees htimer with ⟨-, hentry, heq⟩ | ⟨hout, heq⟩
  · rw [heq]
    refine ⟨hguard.2, hadding, fun e he het => ?_, fun now expired rest hphase => ?_⟩
    · -- its one entry is the one that is erased
      obtain ⟨hne, he⟩ := mem_erase_iff.mp he
      exact hne (hkept.agrees.kept.entry_unique he hentry het)
    · change q.phase = .calling now expired rest at hphase
      rw [toRun_calling hphase] at hrest
      refine ⟨hrest, fun e he het => ?_⟩
      -- and it is in no batch
      have houtside := mem_outside_of_batch hphase (List.mem_map_of_mem he)
      exact absurd rfl (hkept.agrees.kept.absent t (het ▸ houtside) _ hentry)
  · rw [heq]
    split
    next hcalling =>
      refine ⟨hguard.2, hadding, hout, fun now expired rest hphase => ?_⟩
      change q.phase = .calling now expired rest at hphase
      rw [toRun_calling hphase] at hrest
      refine ⟨hrest, fun e he het => ?_⟩
      -- `reset` finds it among the cancelled ones
      rw [Option.eq_none_iff_forall_ne_some]
      intro timer' hr
      obtain ⟨htimer', -, hnot⟩ := restarting_eq_some.mp hr
      change q.heap[e.timer]? = some timer' at htimer'
      rw [het, htimer] at htimer'
      cases htimer'
      rw [het] at hnot
      exact hnot (mem_insert_iff.mpr (Or.inl rfl))
    next hcalling =>
      refine ⟨hguard.2, hadding, hout, fun now expired rest hphase => ?_⟩
      exact absurd (hkept.phased.calling.mpr ⟨now, expired, rest, hphase⟩) hcalling

/-! ## When a timer can still run -/

theorem beforeSentry_of_lt {e : Entry} {now : Int} (h : e.time < now) :
    beforeSentry now e = true := by
  have htime : compareOn Entry.time e ⟨now, 0⟩ = .lt := compare_lt_iff_lt.mpr h
  rw [beforeSentry, beq_iff_eq, Entry.cmp, compareLex, htime]
  rfl

/-- One of the batch that is still to be run can be run. -/
theorem canRun_of_toRun (n : Nat) {now : Int} {expired : List Entry} (rest : List Entry) :
    ∀ {q : TimerQueue}, q.phase = .calling now expired rest → t ∈ rest.map Entry.timer →
      n ≤ (q.firings t).length →
      anyClock.CanReach (fun q' => n < (q'.firings t).length) q := by
  induction rest with
  | nil =>
    intro q _ hmem
    cases hmem
  | cons e rest ih =>
    intro q hphase hmem hn
    have hguard : anyClock.guard q (.step .runTimer) := ⟨now, expired, e, rest, hphase⟩
    have hfirings := firings_runTimer hphase t
    refine anyClock.canReach_step hguard ?_
    by_cases het : e.timer = t
    · apply anyClock.canReach_now
      show n < ((q.next .runTimer).firings t).length
      rw [hfirings, if_pos het, List.length_append, List.length_singleton]
      omega
    · rw [if_neg het, List.append_nil] at hfirings
      refine ih (q := q.next .runTimer) ?_ ?_ ?_
      · rw [next_runTimer hphase]
      · exact (List.mem_cons.mp hmem).resolve_left fun heq => het heq.symm
      · rw [hfirings]
        exact hn

/-- A waiting timer runs when the clock is past its time. -/
theorem canRun_of_waiting (n : Nat) {e : Entry} (he : e ∈ q.timers_) (hidle : q.phase = .idle)
    (hn : n ≤ (q.firings e.timer).length) :
    anyClock.CanReach (fun q' => n < (q'.firings e.timer).length) q := by
  refine anyClock.canReach_step (l := .clock (e.time + 1)) trivial ?_
  refine anyClock.canReach_step (l := .step .handleRead) hidle ?_
  refine canRun_of_toRun n _ rfl (List.mem_map_of_mem ?_) hn
  exact mem_expiredAt.mpr ⟨he, beforeSentry_of_lt (Int.lt_succ e.time)⟩

/-- And a batch that is under way comes to its end first. -/
theorem canRun_of_calling (n : Nat) {now : Int} {e : Entry} {expired : List Entry}
    (rest : List Entry) :
    ∀ {q : TimerQueue}, q.Kept → e ∈ q.timers_ → q.phase = .calling now expired rest →
      n ≤ (q.firings e.timer).length →
      anyClock.CanReach (fun q' => n < (q'.firings e.timer).length) q := by
  induction rest with
  | nil =>
    intro q hkept he hphase hn
    have hguard : anyClock.guard q (.step .reset) := ⟨now, expired, hphase⟩
    refine anyClock.canReach_step hguard ?_
    show anyClock.CanReach _ (q.next .reset)
    obtain ⟨-, hfired, hentries⟩ := reset_spec hkept.agrees.kept hphase
    have hentry := (hentries e).mpr (Or.inl he)
    rw [← firings_congr hfired] at hn
    rw [next_reset hphase]
    rcases q.phase_reset expired now with hidle | ⟨when_, hrearming⟩
    · exact canRun_of_waiting n hentry hidle hn
    · refine anyClock.canReach_step (l := .step .resetTimerfd) ⟨expired, when_, hrearming⟩ ?_
      show anyClock.CanReach _ ((q.reset expired now).next .resetTimerfd)
      rw [next_resetTimerfd hrearming]
      exact canRun_of_waiting n hentry rfl hn
  | cons x rest ih =>
    intro q hkept he hphase hn
    have hguard : anyClock.guard q (.step .runTimer) := ⟨now, expired, x, rest, hphase⟩
    have hkept' := kept_anyClock hkept hguard
    refine anyClock.canReach_step hguard (ih hkept' ?_ ?_ ?_)
    · show e ∈ (q.next .runTimer).timers_
      rw [next_runTimer hphase]
      exact he
    · show (q.next .runTimer).phase = _
      rw [next_runTimer hphase]
    · show n ≤ ((q.next .runTimer).firings e.timer).length
      rw [firings_runTimer hphase, List.length_append]
      omega

/-- A timer that is still to be added can be added and then waits. -/
theorem canRun_of_adding (n : Nat) (hkept : q.Kept) (hcode : q.InUserCode) (h : t ∈ q.adding)
    (hn : n ≤ (q.firings t).length) :
    anyClock.CanReach (fun q' => n < (q'.firings t).length) q := by
  have hadd : anyClock.guard q (.step (.addTimerInLoop t)) := ⟨hcode, h⟩
  have hkept' : (q.addTimerInLoop t).Kept := kept_anyClock hkept hadd
  obtain ⟨timer, htimer⟩ := hkept.agrees.kept.getElem? (mem_outside_of_adding h)
  have hentry : ⟨timer.expiredTime_, t⟩ ∈ (q.addTimerInLoop t).timers_ := by
    obtain ⟨fd, heq, -⟩ := addTimerInLoop_spec htimer
    rw [heq]
    exact mem_insert_self q t timer
  obtain ⟨-, hfired, hphase, -⟩ := q.addTimerInLoop_frame t
  rw [← firings_congr hfired] at hn
  refine anyClock.canReach_step hadd ?_
  unfold InUserCode at hcode
  split at hcode
  next hidle => exact canRun_of_waiting n hentry (hphase.trans hidle) hn
  next now expired rest hcalling =>
    exact canRun_of_calling n rest hkept' hentry (hphase.trans hcalling) hn
  next => cases hcode

/-- A timer that `cancelInLoop` missed can still run. -/
theorem canRun_cancelInLoop (hkept : q.Kept) (hguard : q.guard (.cancelInLoop t))
    (h : t ∈ q.adding ∨ t ∈ q.toRun) :
    anyClock.CanReach (fun q' => ((q.cancelInLoop t).firings t).length < (q'.firings t).length)
      (q.cancelInLoop t) := by
  have hkept' : (q.cancelInLoop t).Kept := kept_anyClock (l := .step (.cancelInLoop t)) hkept hguard
  obtain ⟨-, -, hrest⟩ := q.cancelLocked_frame t (q.lock t)
  rcases h with h | h
  · have hcode : (q.cancelInLoop t).InUserCode := by
      show InUserCode (q.cancelLocked t (q.lock t))
      rw [InUserCode, hrest.phase]
      exact hguard.1
    exact canRun_of_adding _ hkept' hcode (hrest.adding ▸ h) le_rfl
  · unfold toRun at h
    split at h
    next now expired rest hcalling => exact canRun_of_toRun _ rest (hrest.phase.trans hcalling) h le_rfl
    next => cases h
    next => cases h

end Silent

/-! ## The condition -/

/-- No continuation of the run invokes the callback of `t`. -/
def NeverAgain (q : TimerQueue) (t : TimerPtr) : Prop :=
  ∀ after, anyClock.Valid q after → (anyClock.run q after).firings t = q.firings t

/-- **When a cancelled timer never fires again**: after any run, exactly
    when `cancelInLoop` finds it neither bound into its `addTimerInLoop`
    nor among the timers of the batch that are still to be run. -/
theorem neverAgain_iff (clock : Int) (before : List ClockStep) (t : TimerPtr)
    (hvalid : anyClock.Valid (new clock) (before ++ [.step (.cancelInLoop t)])) :
    (anyClock.run (new clock) (before ++ [.step (.cancelInLoop t)])).NeverAgain t ↔
      t ∉ (anyClock.run (new clock) before).adding ∧
        t ∉ (anyClock.run (new clock) before).toRun := by
  obtain ⟨hbefore, hcancel, -⟩ := (anyClock.valid_append _ _ _).mp hvalid
  have hkept := kept_run (kept_new clock) hbefore
  have hkept' := kept_anyClock hkept hcancel
  rw [anyClock.run_append]
  constructor
  · intro hnever
    by_contra hmissed
    rw [← not_or, not_not] at hmissed
    obtain ⟨after, hafter, hlt⟩ := canRun_cancelInLoop hkept hcancel hmissed
    have hsame := hnever after hafter
    exact absurd (congrArg List.length hsame) hlt.ne'
  · rintro ⟨hadding, hrest⟩ after hafter
    exact silent_run (silent_cancelInLoop hkept hcancel hadding hrest) hkept' hafter

/-- A periodic timer that cancels itself in its callback. -/
theorem neverAgain_itself :
    let steps : List ClockStep :=
      [.step (.addTimer 1 200 500), .step (.addTimerInLoop 1), .clock 250, .step .handleRead,
        .step .runTimer]
    (anyClock.run (new 0) (steps ++ [.step (.cancelInLoop 1)])).NeverAgain 1 :=
  (neverAgain_iff 0 _ 1 (by decide +kernel)).mpr (by decide +kernel)

/-- Two timers expire together, the first one cancels the second one, and
    the second one runs. -/
theorem not_neverAgain_batch :
    ¬ ∀ (clock : Int) (before : List ClockStep) (t : TimerPtr),
      anyClock.Valid (new clock) (before ++ [.step (.cancelInLoop t)]) →
        (anyClock.run (new clock) (before ++ [.step (.cancelInLoop t)])).NeverAgain t := by
  intro h
  have hnever := h 0 [.step (.addTimer 1 200 0), .step (.addTimerInLoop 1),
    .step (.addTimer 2 200 0), .step (.addTimerInLoop 2), .clock 250, .step .handleRead,
    .step .runTimer] 2 (by decide +kernel)
  have hsame := hnever [.step .runTimer] (by decide +kernel)
  revert hsame
  decide +kernel

end TimerQueue

end TinyWS
