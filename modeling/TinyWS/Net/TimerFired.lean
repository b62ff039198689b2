import TinyWS.Net.TimerSets

/-! # No Early and No Duplicate Firing

    The history of the callbacks of one timer, with the `now` each of them
    was invoked at.  A timer is *ready* at a time when firing it then would
    be neither early nor too soon after its last firing.

    Wherever a timer waits, it is ready: its entry has a time at which it
    is, and when it is collected the `now` of the batch is no earlier.
    After it was run it is in no entry and in no functor, until `reset`
    gives it the time `now + interval_`.  Where that is no longer a time of
    64 bits, the timer is ready in the past, and fires again at once.  None
    of this depends on what the clock shows from one event to the next. -/

namespace TinyWS

open Std

namespace TimerQueue

/-! ## What the steps do to the timers -/

/-- `addTimerInLoop` changes the sets, `timerfd_` and the asserts. -/
theorem addTimerInLoop_frame (q : TimerQueue) (t : TimerPtr) :
    (q.addTimerInLoop t).heap = q.heap ∧ (q.addTimerInLoop t).fired = q.fired ∧
      (q.addTimerInLoop t).phase = q.phase ∧
      (q.addTimerInLoop t).cancelingTimers_ = q.cancelingTimers_ ∧
      (q.addTimerInLoop t).callingExpiredTimers_ = q.callingExpiredTimers_ ∧
      ∀ u ∈ (q.addTimerInLoop t).adding, u ∈ q.adding := by
  cases ht : q.heap[t]? with
  | none =>
    have heq : q.addTimerInLoop t = q := by
      simp only [addTimerInLoop, ht]
    rw [heq]
    exact ⟨rfl, rfl, rfl, rfl, rfl, fun _ h => h⟩
  | some timer =>
    obtain ⟨fd, heq, -⟩ := addTimerInLoop_spec ht
    obtain ⟨hrest, hmarks⟩ := q.insert_frame t timer
    rw [heq]
    exact ⟨q.heap_insert t timer, hrest.fired, hrest.phase, hmarks, hrest.callingExpiredTimers_,
      fun _ h => List.mem_of_mem_erase h⟩

/-- The entries after `addTimerInLoop`: there is one more. -/
theorem mem_addTimerInLoop {q : TimerQueue} {t : TimerPtr} {timer : Timer}
    (ht : q.heap[t]? = some timer) {e : Entry} (he : e ∈ (q.addTimerInLoop t).timers_) :
    e = ⟨timer.expiredTime_, t⟩ ∨ e ∈ q.timers_ := by
  obtain ⟨fd, heq, -⟩ := addTimerInLoop_spec ht
  rw [heq] at he
  exact mem_insert he

/-- Over the loop of `reset` a timer stays as it is, or it is one of the
    periodic ones that were collected and gets its next time. -/
theorem foldl_resetEntry_heap {now : Int} {t : TimerPtr} (todo : List Entry) :
    ∀ {q : TimerQueue} {timer : Timer}, q.heap[t]? = some timer →
      (todo.foldl (resetEntry now) q).heap[t]? = some timer ∨
        t ∈ todo.map Entry.timer ∧ timer.repeat_ = true ∧
          (todo.foldl (resetEntry now) q).heap[t]? =
            some { timer with expiredTime_ := timer.following now } := by
  induction todo with
  | nil => exact fun h => Or.inl h
  | cons e todo ih =>
    intro q timer ht
    rcases resetEntry_heap now e ht with hsame | ⟨rfl, hrepeat, hnext⟩
    · rcases ih hsame with h | ⟨hmem, hrepeat, h⟩
      · exact Or.inl h
      · exact Or.inr ⟨List.mem_cons_of_mem _ hmem, hrepeat, h⟩
    · -- restarted once or twice: the time is the same
      rw [Timer.restart_periodic hrepeat] at hnext
      refine Or.inr ⟨List.mem_cons_self, hrepeat, ?_⟩
      rcases ih hnext with h | ⟨-, -, h⟩
      · exact h
      · exact h

theorem reset_heap {q : TimerQueue} {t : TimerPtr} {timer : Timer} (expired : List Entry)
    (now : Int) (ht : q.heap[t]? = some timer) :
    (q.reset expired now).heap[t]? = some timer ∨
      t ∈ expired.map Entry.timer ∧ timer.repeat_ = true ∧
        (q.reset expired now).heap[t]? =
          some { timer with expiredTime_ := timer.following now } := by
  obtain ⟨p, -, heq⟩ := q.reset_eq expired now
  rw [heq]
  exact foldl_resetEntry_heap expired ht

/-- The object at an address, after a step: only a periodic timer that is
    restarted changes, and only its time. -/
theorem next_heap {q : TimerQueue} {l : TimerStep} (hguard : q.guard l) {t : TimerPtr}
    {timer : Timer} (ht : q.heap[t]? = some timer) :
    (q.next l).heap[t]? = some timer ∨
      ∃ now expired, q.phase = .calling now expired [] ∧ t ∈ expired.map Entry.timer ∧
        timer.repeat_ = true ∧
        (q.next l).heap[t]? = some { timer with expiredTime_ := timer.following now } := by
  cases l with
  | elapse d => exact Or.inl ht
  | addTimer u timeout interval =>
    left
    show (q.heap.insert u _)[t]? = some timer
    rw [getElem?_insert_of_ne, ht]
    -- the address was fresh
    rintro rfl
    exact hguard.2 (mem_heap_iff.mpr ⟨timer, ht⟩)
  | addTimerInLoop u =>
    left
    show (q.addTimerInLoop u).heap[t]? = some timer
    rw [(q.addTimerInLoop_frame u).1, ht]
  | cancelInLoop u =>
    left
    show (q.cancelLocked u (q.lock u)).heap[t]? = some timer
    rw [(q.cancelLocked_frame u (q.lock u)).2.1, ht]
  | handleRead => exact Or.inl ht
  | runTimer =>
    obtain ⟨now, expired, e, rest, hphase⟩ := hguard
    rw [next_runTimer hphase]
    exact Or.inl ht
  | reset =>
    obtain ⟨now, expired, hphase⟩ := hguard
    rw [next_reset hphase]
    rcases reset_heap expired now ht with h | ⟨hmem, hrepeat, h⟩
    · exact Or.inl h
    · exact Or.inr ⟨now, expired, hphase, hmem, hrepeat, h⟩
  | resetTimerfd =>
    obtain ⟨expired, when_, hphase⟩ := hguard
    rw [next_resetTimerfd hphase]
    exact Or.inl ht

/-- `cancelInLoop` forgets no timer that was cancelled in a callback. -/
theorem cancelLocked_canceling (q : TimerQueue) (t : TimerPtr) (cancelTimer : Option Timer) :
    ∀ a ∈ q.cancelingTimers_, a ∈ (q.cancelLocked t cancelTimer).cancelingTimers_ := by
  intro a ha
  unfold cancelLocked
  dsimp only [checkSizes, check]
  split
  · exact ha
  · split
    · exact ha
    · split
      · exact mem_insert_iff.mpr (Or.inr ha)
      · exact ha

/-- A step that has no part in the life of the timer `t`, or only ends it. -/
structure Untouched (t : TimerPtr) (q q' : TimerQueue) : Prop where
  object : q'.heap[t]? = q.heap[t]?
  fired : q'.fired = q.fired
  entries : ∀ e ∈ q'.timers_, e.timer = t → e ∈ q.timers_
  adding : t ∈ q'.adding → t ∈ q.adding
  batch : ∀ now expired rest, q'.phase = .calling now expired rest →
    q.phase = .calling now expired rest
  canceling : ∀ a ∈ q.cancelingTimers_, a ∈ q'.cancelingTimers_

theorem untouched_clock (t : TimerPtr) (q : TimerQueue) (now : Int) :
    Untouched t q { q with clock := now } :=
  ⟨rfl, rfl, fun _ he _ => he, fun h => h, fun _ _ _ h => h, fun _ ha => ha⟩

/-- Only its own `addTimerInLoop` and the three parts of `handleRead` are
    about a timer that exists. -/
theorem untouched_next {t : TimerPtr} {q : TimerQueue} (ht : t ∈ q.heap) {l : TimerStep}
    (hguard : q.guard l) (hadd : l ≠ .addTimerInLoop t)
    (hread : l ≠ .handleRead ∧ l ≠ .runTimer ∧ l ≠ .reset) : Untouched t q (q.next l) := by
  cases l with
  | elapse d => exact ⟨rfl, rfl, fun _ he _ => he, fun h => h, fun _ _ _ h => h, fun _ ha => ha⟩
  | addTimer u timeout interval =>
    -- a new timer has a new address
    have hne : t ≠ u := by
      rintro rfl
      exact hguard.2 ht
    refine ⟨?_, rfl, fun _ he _ => he, fun h => ?_, fun _ _ _ h => h, fun _ ha => ha⟩
    · exact getElem?_insert_of_ne hne
    · exact (List.mem_cons.mp h).resolve_left hne
  | addTimerInLoop u =>
    have hne : u ≠ t := fun heq => hadd (heq ▸ rfl)
    obtain ⟨hheap, hfired, hphase, hcanceling, -, hadding⟩ := q.addTimerInLoop_frame u
    refine ⟨?_, hfired, fun e he het => ?_, hadding t, fun _ _ _ h => hphase ▸ h, fun a ha => ?_⟩
    · show (q.addTimerInLoop u).heap[t]? = _
      rw [hheap]
    · cases hobject : q.heap[u]? with
      | none =>
        -- the timer is gone, and nothing is inserted
        have heq : q.addTimerInLoop u = q := by
          simp only [addTimerInLoop, hobject]
        change e ∈ (q.addTimerInLoop u).timers_ at he
        rwa [heq] at he
      | some timer =>
        rcases mem_addTimerInLoop hobject he with rfl | he
        · exact absurd het hne
        · exact he
    · exact hcanceling ▸ ha
  | cancelInLoop u =>
    obtain ⟨htimers, hheap, hrest⟩ := q.cancelLocked_frame u (q.lock u)
    refine ⟨?_, hrest.fired, fun e he _ => htimers e he, fun h => hrest.adding ▸ h,
      fun _ _ _ h => hrest.phase ▸ h, q.cancelLocked_canceling u (q.lock u)⟩
    show (q.cancelLocked u (q.lock u)).heap[t]? = _
    rw [hheap]
  | handleRead => exact absurd rfl hread.1
  | runTimer => exact absurd rfl hread.2.1
  | reset => exact absurd rfl hread.2.2
  | resetTimerfd =>
    obtain ⟨expired, when_, hphase⟩ := hguard
    rw [next_resetTimerfd hphase]
    refine ⟨rfl, rfl, fun _ he _ => he, fun h => h, fun _ _ _ h => ?_, fun _ ha => ha⟩
    cases h

theorem mem_heap_next {q : TimerQueue} {l : TimerStep} (hguard : q.guard l) {t : TimerPtr}
    (ht : t ∈ q.heap) : t ∈ (q.next l).heap := by
  obtain ⟨timer, htimer⟩ := mem_heap_iff.mp ht
  rcases next_heap hguard htimer with h | ⟨_, _, -, -, -, h⟩
  · exact mem_heap_iff.mpr ⟨_, h⟩
  · exact mem_heap_iff.mpr ⟨_, h⟩

/-! ## Where the batch stands -/

/-- What the phase says about the batch, and the history about the
    timers. -/
structure Phased (q : TimerQueue) : Prop where
  rest : ∀ now expired rest, q.phase = .calling now expired rest → rest <:+ expired
  calling : q.callingExpiredTimers_ = true ↔
    ∃ now expired rest, q.phase = .calling now expired rest
  known : ∀ f ∈ q.fired, f.1 ∈ q.heap

theorem phased_new (clock : Int) : (new clock).Phased := by
  refine ⟨fun now expired rest h => ?_, iff_of_false (by simp [new]) ?_, fun f hf => ?_⟩
  · cases h
  · rintro ⟨now, expired, rest, h⟩
    cases h
  · cases hf

/-- Same phase, same flag, and no new callback. -/
theorem Phased.congr {q q' : TimerQueue} (h : q.Phased) (hphase : q'.phase = q.phase)
    (hcalling : q'.callingExpiredTimers_ = q.callingExpiredTimers_)
    (hfired : q'.fired = q.fired) (hheap : ∀ t ∈ q.heap, t ∈ q'.heap) : q'.Phased := by
  refine ⟨?_, ?_, fun f hf => hheap f.1 (h.known f (hfired ▸ hf))⟩
  · rw [hphase]
    exact h.rest
  · rw [hphase, hcalling]
    exact h.calling

/-- A timer of the batch runs: the rest of the batch gets shorter. -/
theorem phased_runTimer {q : TimerQueue} (h : q.Phased) (hkept : q.WellKept q.outside)
    (hguard : q.guard .runTimer) : (q.next .runTimer).Phased := by
  obtain ⟨now, expired, e, rest, hphase⟩ := hguard
  have hsuffix := h.rest now expired (e :: rest) hphase
  have he : e ∈ expired := by
    apply hsuffix.subset
    exact List.mem_cons_self
  rw [next_runTimer hphase]
  refine ⟨fun now' expired' rest' hphase' => ?_, iff_of_true ?_ ⟨_, _, _, rfl⟩, fun f hf => ?_⟩
  · cases hphase'
    exact (List.suffix_cons e rest).trans hsuffix
  · exact h.calling.mpr ⟨now, expired, _, hphase⟩
  · rcases List.mem_append.mp hf with hf | hf
    · exact h.known f hf
    · -- a collected timer is known
      rw [List.mem_singleton.mp hf]
      exact hkept.known _ (mem_outside_of_batch hphase (List.mem_map_of_mem he))

/-- All timers of the batch have run. -/
theorem phased_reset {q : TimerQueue} (h : q.Phased) (hguard : q.guard .reset) :
    (q.next .reset).Phased := by
  have hheap : ∀ t ∈ q.heap, t ∈ (q.next .reset).heap := fun t ht => mem_heap_next hguard ht
  obtain ⟨now, expired, hphase⟩ := hguard
  obtain ⟨p, -, heq⟩ := q.reset_eq expired now
  obtain ⟨hrest, -⟩ :=
    foldl_resetEntry_frame now expired { q with callingExpiredTimers_ := false }
  have hover := q.phase_reset_ne expired now
  rw [next_reset hphase] at hheap ⊢
  refine ⟨fun now' expired' rest' hp => absurd hp (hover _ _ _), iff_of_false ?_ ?_,
    fun f hf => ?_⟩
  · rw [heq]
    show ¬ (expired.foldl (resetEntry now) _).callingExpiredTimers_ = true
    rw [hrest.callingExpiredTimers_]
    simp
  · rintro ⟨now', expired', rest', hp⟩
    exact hover _ _ _ hp
  · -- resetting runs no timer
    apply hheap f.1
    apply h.known f
    rw [heq] at hf
    exact hrest.fired ▸ hf

theorem phased_resetTimerfd {q : TimerQueue} (h : q.Phased) (hguard : q.guard .resetTimerfd) :
    (q.next .resetTimerfd).Phased := by
  obtain ⟨expired, when_, hphase⟩ := hguard
  have hcalling : ¬ q.callingExpiredTimers_ = true := by
    rw [h.calling, hphase]
    rintro ⟨now, expired', rest, hp⟩
    cases hp
  rw [next_resetTimerfd hphase]
  refine ⟨fun now expired rest hp => ?_, iff_of_false hcalling ?_, h.known⟩
  · cases hp
  · rintro ⟨now, expired', rest, hp⟩
    cases hp

theorem phased_next {q : TimerQueue} (h : q.Phased) (hkept : q.WellKept q.outside)
    {l : TimerStep} (hguard : q.guard l) : (q.next l).Phased := by
  have hheap : ∀ t ∈ q.heap, t ∈ (q.next l).heap := fun t ht => mem_heap_next hguard ht
  cases l with
  | elapse d => exact h.congr rfl rfl rfl hheap
  | addTimer t timeout interval => exact h.congr rfl rfl rfl hheap
  | addTimerInLoop t =>
    obtain ⟨-, hfired, hphase, -, hcalling, -⟩ := q.addTimerInLoop_frame t
    exact h.congr hphase hcalling hfired hheap
  | cancelInLoop t =>
    obtain ⟨-, -, hrest⟩ := q.cancelLocked_frame t (q.lock t)
    exact h.congr hrest.phase hrest.callingExpiredTimers_ hrest.fired hheap
  | handleRead =>
    refine ⟨fun now expired rest hphase => ?_, iff_of_true rfl ⟨_, _, _, rfl⟩, h.known⟩
    cases hphase
    exact List.suffix_refl _
  | runTimer => exact phased_runTimer h hkept hguard
  | reset => exact phased_reset h hguard
  | resetTimerfd => exact phased_resetTimerfd h hguard

/-- Everything the history arguments need of the state. -/
structure Kept (q : TimerQueue) : Prop where
  agrees : q.Agrees q.outside
  phased : q.Phased

theorem kept_new (clock : Int) : (new clock).Kept := ⟨agrees_new clock, phased_new clock⟩

theorem kept_anyClock {q : TimerQueue} (h : q.Kept) {l : ClockStep}
    (hguard : anyClock.guard q l) : (anyClock.next q l).Kept := by
  refine ⟨agrees_anyClock h.agrees hguard, ?_⟩
  cases l with
  | clock now => exact h.phased.congr rfl rfl rfl fun _ ht => ht
  | step l => exact phased_next h.phased h.agrees.kept hguard

theorem kept_run {q : TimerQueue} (h : q.Kept) {steps : List ClockStep}
    (hvalid : anyClock.Valid q steps) : (anyClock.run q steps).Kept :=
  anyClock.invariant_run Kept (fun _ _ hq hl => kept_anyClock hq hl) h hvalid

/-! ## One timer -/

/-- The `now` of every callback of a timer. -/
def firings (q : TimerQueue) (t : TimerPtr) : List Int :=
  (q.fired.filter fun f => f.1 == t).map Prod.snd

theorem firings_congr {q q' : TimerQueue} (h : q'.fired = q.fired) (t : TimerPtr) :
    q'.firings t = q.firings t := by
  rw [firings, firings, h]

theorem firings_runTimer {q : TimerQueue} {now : Int} {e : Entry} {expired rest : List Entry}
    (hphase : q.phase = .calling now expired (e :: rest)) (t : TimerPtr) :
    (q.next .runTimer).firings t = q.firings t ++ if e.timer = t then [now] else [] := by
  rw [next_runTimer hphase]
  by_cases h : e.timer = t
  · simp [firings, h]
  · simp [firings, h]

end TimerQueue

/-- After the callbacks `f`, another one at `x` is neither early nor too
    soon. -/
def Ready (timeout interval : Int) (f : List Int) (x : Int) : Prop :=
  timeout ≤ x ∧ (0 < interval → ∀ last ∈ f.getLast?, last + interval ≤ x) ∧
    (interval ≤ 0 → f = [])

theorem Ready.mono {timeout interval : Int} {f : List Int} {x y : Int}
    (h : Ready timeout interval f x) (hxy : x ≤ y) : Ready timeout interval f y := by
  obtain ⟨hlate, hlast, honce⟩ := h
  refine ⟨hlate.trans hxy, fun hpos last hmem => ?_, honce⟩
  exact (hlast hpos last hmem).trans hxy

/-- The first callback only has to wait for the expiry. -/
theorem ready_nil {timeout interval x : Int} (h : timeout ≤ x) :
    Ready timeout interval [] x := by
  refine ⟨h, fun _ last hmem => ?_, fun _ => rfl⟩
  cases hmem

/-- No callback was late in its batch. -/
theorem Ready.last_le {timeout interval : Int} {f : List Int} {x : Int}
    (h : Ready timeout interval f x) : ∀ last ∈ f.getLast?, last ≤ x := by
  intro last hmem
  by_cases hpos : 0 < interval
  · have := h.2.1 hpos last hmem
    omega
  · -- a one-shot timer has not run yet
    rw [h.2.2 (by omega)] at hmem
    cases hmem

namespace TimerQueue

/-- The condition of the runs, for the timer `t`: where `reset` restarts
    it, `now + interval_` is a time of 64 bits. -/
def RestartFits (t : TimerPtr) (q : TimerQueue) : ClockStep → Prop
  | .step .reset =>
      match q.phase with
      | .calling now expired _ =>
          ∀ e ∈ expired, e.timer = t → ∀ timer ∈ q.restarting e,
            now + timer.interval_ ≤ TimeType64.maxTime
      | _ => True
  | _ => True

instance (t : TimerPtr) (q : TimerQueue) : DecidablePred (q.RestartFits t)
  | .step .reset =>
      match h : q.phase with
      | .calling now expired _ =>
          decidable_of_iff (∀ e ∈ expired, e.timer = t → ∀ timer ∈ q.restarting e,
            now + timer.interval_ ≤ TimeType64.maxTime) (by simp [RestartFits, h])
      | .idle | .rearming _ _ => isTrue (by simp [RestartFits, h])
  | .step (.elapse _) | .step (.addTimer _ _ _) | .step (.addTimerInLoop _)
  | .step (.cancelInLoop _) | .step .handleRead | .step .runTimer | .step .resetTimerfd
  | .clock _ => isTrue trivial

/-- The history of the timer `t` is as it should be, and so is its place. -/
structure Spaced (t : TimerPtr) (timeout interval : Int) (q : TimerQueue) : Prop where
  object : ∃ timer, q.heap[t]? = some timer ∧ timer.interval_ = interval ∧
    timer.repeat_ = decide (0 < interval)
  late : ∀ x ∈ q.firings t, timeout ≤ x
  chain : (q.firings t).IsChain fun a b => a + interval ≤ b
  once : interval ≤ 0 → (q.firings t).length ≤ 1
  waiting : ∀ e ∈ q.timers_, e.timer = t → Ready timeout interval (q.firings t) e.time
  added : t ∈ q.adding → q.firings t = [] ∧
    ∃ timer, q.heap[t]? = some timer ∧ timer.expiredTime_ = timeout
  batch : ∀ now expired rest, q.phase = .calling now expired rest →
    t ∈ expired.map Entry.timer →
      timeout ≤ now ∧ (∀ last ∈ (q.firings t).getLast?, last ≤ now) ∧
        (t ∈ rest.map Entry.timer → Ready timeout interval (q.firings t) now)

section Spaced

variable {t : TimerPtr} {timeout interval : Int} {q : TimerQueue}

/-- No callback of the timer: its entries are ready, and so is the timer
    where the batch still has it. -/
theorem Spaced.frame (h : q.Spaced t timeout interval) {q' : TimerQueue}
    (hfirings : q'.firings t = q.firings t)
    (hobject : ∃ timer, q'.heap[t]? = some timer ∧ timer.interval_ = interval ∧
      timer.repeat_ = decide (0 < interval))
    (htimers : ∀ e ∈ q'.timers_, e.timer = t → Ready timeout interval (q.firings t) e.time)
    (hadding : t ∈ q'.adding → t ∈ q.adding ∧ q'.heap[t]? = q.heap[t]?)
    (hbatch : ∀ now expired rest, q'.phase = .calling now expired rest →
      t ∈ expired.map Entry.timer →
        timeout ≤ now ∧ (∀ last ∈ (q.firings t).getLast?, last ≤ now) ∧
          (t ∈ rest.map Entry.timer → Ready timeout interval (q.firings t) now)) :
    q'.Spaced t timeout interval := by
  refine ⟨hobject, ?_, ?_, ?_, ?_, ?_, ?_⟩
  · rw [hfirings]
    exact h.late
  · rw [hfirings]
    exact h.chain
  · rw [hfirings]
    exact h.once
  · rw [hfirings]
    exact htimers
  · intro hmem
    obtain ⟨hmem, hheap⟩ := hadding hmem
    rw [hfirings, hheap]
    exact h.added hmem
  · rw [hfirings]
    exact hbatch

/-- No callback, the same batch or none, and entries that are ready. -/
theorem Spaced.mono (h : q.Spaced t timeout interval) {q' : TimerQueue}
    (hheap : q'.heap[t]? = q.heap[t]?) (hfired : q'.fired = q.fired)
    (htimers : ∀ e ∈ q'.timers_, e.timer = t →
      e ∈ q.timers_ ∨ Ready timeout interval (q.firings t) e.time)
    (hadding : t ∈ q'.adding → t ∈ q.adding)
    (hphase : ∀ now expired rest, q'.phase = .calling now expired rest →
      q.phase = .calling now expired rest) : q'.Spaced t timeout interval := by
  refine h.frame (firings_congr hfired t) (hheap ▸ h.object) (fun e he het => ?_)
    (fun hmem => ⟨hadding hmem, hheap⟩) fun now expired rest hcalling => ?_
  · rcases htimers e he het with he | hready
    · exact h.waiting e he het
    · exact hready
  · exact h.batch now expired rest (hphase now expired rest hcalling)

/-- A timer that was just created. -/
theorem spaced_addTimer (hkept : q.Kept) (ht : t ∉ q.heap) :
    (q.addTimer t timeout interval).Spaced t timeout interval := by
  have hobject : (q.addTimer t timeout interval).heap[t]? =
      some (Timer.new timeout interval (q.numCreated + 1)) := getElem?_insert_self
  have hfirings : (q.addTimer t timeout interval).firings t = [] := by
    show (q.fired.filter fun f => f.1 == t).map Prod.snd = []
    rw [List.map_eq_nil_iff, List.filter_eq_nil_iff]
    intro f hf heq
    exact ht (beq_iff_eq.mp heq ▸ hkept.phased.known f hf)
  refine ⟨⟨_, hobject, rfl, rfl⟩, ?_, ?_, ?_, ?_, ?_, ?_⟩
  · rw [hfirings]
    exact fun _ hx => by cases hx
  · rw [hfirings]
    exact List.isChain_nil
  · rw [hfirings]
    exact fun _ => Nat.zero_le 1
  · intro e he het
    exact absurd het (hkept.agrees.kept.fresh ht e he)
  · exact fun _ => ⟨hfirings, _, hobject, rfl⟩
  · intro now expired rest hphase hmem
    -- what was collected is known
    exact absurd (hkept.agrees.kept.known t (mem_outside_of_batch (q := q) hphase hmem)) ht

theorem Spaced.untouched (h : q.Spaced t timeout interval) {q' : TimerQueue}
    (hu : Untouched t q q') : q'.Spaced t timeout interval :=
  h.mono hu.object hu.fired (fun e he het => Or.inl (hu.entries e he het)) hu.adding hu.batch

/-- Its own `addTimerInLoop`: it has not run yet. -/
theorem spaced_addTimerInLoop (h : q.Spaced t timeout interval) (ht : t ∈ q.adding) :
    (q.addTimerInLoop t).Spaced t timeout interval := by
  obtain ⟨hheap, hfired, hphase, -, -, hadding⟩ := q.addTimerInLoop_frame t
  refine h.mono (by rw [hheap]) hfired (fun e he het => ?_) (hadding t) fun _ _ _ hc => hphase ▸ hc
  obtain ⟨hnone, timer, htimer, htime⟩ := h.added ht
  rcases mem_addTimerInLoop htimer he with rfl | he
  · right
    rw [hnone]
    exact ready_nil htime.ge
  · exact Or.inl he

/-- The batch is collected when its timers are ready. -/
theorem spaced_handleRead (h : q.Spaced t timeout interval) :
    q.handleRead.Spaced t timeout interval := by
  obtain ⟨htimers, hheap, hadding, hfired, hcalling⟩ := q.handleRead_spec
  refine h.frame (firings_congr hfired t) (hheap ▸ h.object) (fun e he het => ?_)
    (fun hmem => ⟨hadding ▸ hmem, by rw [hheap]⟩) ?_
  · rw [htimers] at he
    exact h.waiting e (mem_laterThan.mp he).1 het
  · rw [hcalling]
    intro now expired rest hphase hmem
    cases hphase
    obtain ⟨e, he, rfl⟩ := List.mem_map.mp hmem
    obtain ⟨hentry, hbefore⟩ := mem_expiredAt.mp he
    have hle : e.time ≤ q.clock := by
      refine Entry.time_le_of_isLE (b := ⟨q.clock, 0⟩) ?_
      rw [beq_iff_eq.mp hbefore]
      rfl
    have hready := (h.waiting e hentry rfl).mono hle
    exact ⟨hready.1, hready.last_le, fun _ => hready⟩

/-- Its own callback is invoked: it was ready. -/
theorem spaced_runTimer_self {now : Int} {e : Entry} {expired rest : List Entry}
    (h : q.Spaced e.timer timeout interval) (hkept : q.Kept)
    (hphase : q.phase = .calling now expired (e :: rest)) :
    (q.next .runTimer).Spaced e.timer timeout interval := by
  have hsuffix := hkept.phased.rest now expired (e :: rest) hphase
  obtain ⟨hdistinct, hapart⟩ := hkept.agrees.kept.batch_distinct hphase
  have hfirings := firings_runTimer hphase e.timer
  rw [if_pos rfl] at hfirings
  rw [next_runTimer hphase] at hfirings ⊢
  have hmem : e.timer ∈ expired.map Entry.timer :=
    List.mem_map_of_mem (hsuffix.subset List.mem_cons_self)
  obtain ⟨hlate, hlast, hready⟩ := h.batch now expired (e :: rest) hphase hmem
  have hnow := hready List.mem_cons_self
  refine ⟨h.object, ?_, ?_, ?_, fun x hx hxe => ?_, fun hadding => ?_, ?_⟩
  · rw [hfirings]
    intro x hx
    rcases List.mem_append.mp hx with hx | hx
    · exact h.late x hx
    · rwa [List.mem_singleton.mp hx]
  · -- only a timer that repeats has fired before
    rw [hfirings, List.isChain_append]
    refine ⟨h.chain, List.isChain_singleton now, fun last hmem' x hx => ?_⟩
    cases hx
    by_cases hpos : 0 < interval
    · exact hnow.2.1 hpos last hmem'
    · rw [hnow.2.2 (by omega)] at hmem'
      cases hmem'
  · intro hnonpos
    rw [hfirings, hnow.2.2 hnonpos]
    rfl
  · -- it stands outside
    have houtside := mem_outside_of_batch hphase hmem
    exact absurd hxe (hkept.agrees.kept.absent e.timer houtside x hx)
  · exact absurd hadding (hapart _ hmem)
  · rw [hfirings]
    intro now' expired' rest' hphase' _
    cases hphase'
    refine ⟨hlate, fun last hl => ?_, fun hrest => ?_⟩
    · rw [List.getLast?_append] at hl
      cases hl
      exact Int.le_refl now
    · -- and is in the batch once
      have hnodup := (hsuffix.map Entry.timer).sublist.nodup hdistinct
      exact absurd hrest (List.nodup_cons.mp hnodup).1

/-- The callback of another timer is invoked. -/
theorem spaced_runTimer_of_ne (h : q.Spaced t timeout interval) {now : Int} {e : Entry}
    {expired rest : List Entry} (hphase : q.phase = .calling now expired (e :: rest))
    (het : e.timer ≠ t) : (q.next .runTimer).Spaced t timeout interval := by
  have hfirings := firings_runTimer hphase t
  rw [if_neg het, List.append_nil] at hfirings
  rw [next_runTimer hphase] at hfirings ⊢
  refine h.frame hfirings h.object h.waiting (fun hmem => ⟨hmem, rfl⟩) ?_
  intro now' expired' rest' hphase' hmem
  cases hphase'
  obtain ⟨hlate, hlast, hready⟩ := h.batch now expired (e :: rest) hphase hmem
  exact ⟨hlate, hlast, fun hrest => hready (List.mem_cons_of_mem _ hrest)⟩

/-- A periodic timer goes back with the time `now + interval_`. -/
theorem spaced_reset (h : q.Spaced t timeout interval) (hkept : q.Kept) {now : Int}
    {expired : List Entry} (hphase : q.phase = .calling now expired [])
    (hfits : 0 < interval → q.RestartFits t (.step .reset)) :
    (q.reset expired now).Spaced t timeout interval := by
  obtain ⟨hadding, hfired, hentries⟩ := reset_spec hkept.agrees.kept hphase
  obtain ⟨-, hapart⟩ := hkept.agrees.kept.batch_distinct hphase
  obtain ⟨timer, htimer, hinterval, hrepeat⟩ := h.object
  have hheap := reset_heap expired now htimer
  refine h.frame (firings_congr hfired t) ?_ (fun x hx hxt => ?_) (fun hmem => ?_) ?_
  · rcases hheap with hsame | ⟨-, -, hnext⟩
    · exact ⟨timer, hsame, hinterval, hrepeat⟩
    · exact ⟨_, hnext, hinterval, hrepeat⟩
  · rcases (hentries x).mp hx with hx | ⟨e, he, timer', hr, rfl⟩
    · exact h.waiting x hx hxt
    · -- restarted
      change e.timer = t at hxt
      subst hxt
      obtain ⟨htimer', hrepeat', -⟩ := restarting_eq_some.mp hr
      rw [htimer] at htimer'
      cases htimer'
      have hpos : 0 < interval := by
        rw [hrepeat'] at hrepeat
        exact of_decide_eq_true hrepeat.symm
      obtain ⟨hlate, hlast, -⟩ :=
        h.batch now expired [] hphase (List.mem_map_of_mem he)
      have hnext : now + timer.interval_ ≤ timer.following now := by
        have hfits := hfits hpos
        rw [RestartFits, hphase] at hfits
        exact TimeType64.le_wrap (hfits e he rfl timer hr)
      refine ⟨?_, fun _ last hmem => ?_, fun hnonpos => absurd hpos (by omega)⟩
      · show timeout ≤ timer.following now
        omega
      · have := hlast last hmem
        show last + interval ≤ timer.following now
        omega
  · -- what is still to be added was not in the batch
    rw [hadding] at hmem
    refine ⟨hmem, ?_⟩
    rcases hheap with hsame | ⟨hbatch, -⟩
    · exact hsame.trans htimer.symm
    · exact absurd hmem (hapart _ hbatch)
  · intro now' expired' rest' hcalling
    exact absurd hcalling (q.phase_reset_ne expired now _ _ _)

theorem spaced_next (h : q.Spaced t timeout interval) (hkept : q.Kept) {l : TimerStep}
    (hguard : q.guard l) (hfits : 0 < interval → q.RestartFits t (.step l)) :
    (q.next l).Spaced t timeout interval := by
  have hmem : t ∈ q.heap := by
    obtain ⟨timer, htimer, -⟩ := h.object
    exact mem_heap_iff.mpr ⟨timer, htimer⟩
  cases l with
  | addTimerInLoop u =>
    by_cases hut : u = t
    · subst hut
      exact spaced_addTimerInLoop h hguard.2
    · exact h.untouched (untouched_next hmem hguard (by simpa using hut) (by simp))
  | handleRead => exact spaced_handleRead h
  | runTimer =>
    obtain ⟨now, expired, e, rest, hphase⟩ := hguard
    by_cases het : e.timer = t
    · subst het
      exact spaced_runTimer_self h hkept hphase
    · exact spaced_runTimer_of_ne h hphase het
  | reset =>
    obtain ⟨now, expired, hphase⟩ := hguard
    rw [next_reset hphase]
    exact spaced_reset h hkept hphase hfits
  | elapse d => exact h.untouched (untouched_next hmem hguard (by simp) (by simp))
  | addTimer u timeout' interval' =>
    exact h.untouched (untouched_next hmem hguard (by simp) (by simp))
  | cancelInLoop u => exact h.untouched (untouched_next hmem hguard (by simp) (by simp))
  | resetTimerfd => exact h.untouched (untouched_next hmem hguard (by simp) (by simp))

end Spaced

/-- **Step**: a timer that is restarted in time keeps its history as it
    should be. -/
theorem spaced_anyClock {t : TimerPtr} {timeout interval : Int} {q : TimerQueue}
    (h : q.Kept ∧ q.Spaced t timeout interval) {l : ClockStep} (hguard : anyClock.guard q l)
    (hfits : 0 < interval → q.RestartFits t l) :
    (anyClock.next q l).Kept ∧ (anyClock.next q l).Spaced t timeout interval := by
  refine ⟨kept_anyClock h.1 hguard, ?_⟩
  cases l with
  | clock now => exact h.2.untouched (untouched_clock t q now)
  | step l => exact spaced_next h.2 h.1 hguard hfits

/-- **Run**: and so for the rest of the run. -/
theorem spaced_run {t : TimerPtr} {timeout interval : Int} {q : TimerQueue}
    (h : q.Spaced t timeout interval) (hkept : q.Kept) {steps : List ClockStep}
    (hvalid : anyClock.Valid q steps)
    (hfits : 0 < interval → anyClock.Along (RestartFits t) q steps) :
    (anyClock.run q steps).Spaced t timeout interval := by
  by_cases hpos : 0 < interval
  · exact (anyClock.invariant_run (fun q => q.Kept ∧ q.Spaced t timeout interval)
      (fun _ _ h hl => spaced_anyClock h hl.1 fun _ => hl.2) ⟨hkept, h⟩
      ((anyClock.along_and q steps).mpr ⟨hvalid, hfits hpos⟩)).2
  · -- a one-shot timer is not restarted
    exact (anyClock.invariant_run (fun q => q.Kept ∧ q.Spaced t timeout interval)
      (fun _ _ h hl => spaced_anyClock h hl fun hpos' => absurd hpos' hpos) ⟨hkept, h⟩ hvalid).2

/-- A condition on the times of the `handleRead`s alone: one interval
    later there are still times of 64 bits. -/
def ReadsInTime (interval : Int) (q : TimerQueue) : ClockStep → Prop
  | .step .handleRead => q.clock + interval ≤ TimeType64.maxTime
  | _ => True

/-- Where no timer is read there is no such condition. -/
theorem along_readsInTime {interval : Int} {steps : List ClockStep}
    (h : ∀ l ∈ steps, l ≠ .step .handleRead) (q : TimerQueue) :
    anyClock.Along (ReadsInTime interval) q steps := by
  induction steps generalizing q with
  | nil => trivial
  | cons l steps ih =>
    refine ⟨?_, ih (fun k hk => h k (List.mem_cons_of_mem _ hk)) _⟩
    unfold ReadsInTime
    split
    · exact absurd rfl (h _ List.mem_cons_self)
    · trivial

/-- The batch was read in time. -/
def InTime (interval : Int) (q : TimerQueue) : Prop :=
  ∀ now expired rest, q.phase = .calling now expired rest → now + interval ≤ TimeType64.maxTime

theorem inTime_anyClock {interval : Int} {q : TimerQueue} (h : q.InTime interval) {l : ClockStep}
    (hguard : anyClock.guard q l) (hreads : q.ReadsInTime interval l) :
    (anyClock.next q l).InTime interval := by
  cases l with
  | clock now => exact h
  | step l =>
    cases l with
    | elapse | addTimer => exact h
    | addTimerInLoop t =>
      intro now expired rest hphase
      exact h now expired rest ((q.addTimerInLoop_frame t).2.2.1 ▸ hphase)
    | cancelInLoop t =>
      intro now expired rest hphase
      exact h now expired rest ((q.cancelLocked_frame t (q.lock t)).2.2.phase ▸ hphase)
    | handleRead =>
      intro now expired rest hphase
      cases hphase
      exact hreads
    | runTimer =>
      obtain ⟨now, expired, e, rest, hphase⟩ := hguard
      show (q.next .runTimer).InTime interval
      rw [next_runTimer hphase]
      rintro _ _ _ ⟨⟩
      exact h now expired (e :: rest) hphase
    | reset =>
      obtain ⟨now, expired, hphase⟩ := hguard
      show (q.next .reset).InTime interval
      rw [next_reset hphase]
      exact fun _ _ _ hp => absurd hp (q.phase_reset_ne expired now _ _ _)
    | resetTimerfd =>
      obtain ⟨expired, when_, hphase⟩ := hguard
      show (q.next .resetTimerfd).InTime interval
      rw [next_resetTimerfd hphase]
      rintro _ _ _ ⟨⟩

/-- What is restarted is of the batch. -/
theorem restartFits_of_inTime {t : TimerPtr} {timeout interval : Int} {q : TimerQueue}
    (h : q.Spaced t timeout interval) (htime : q.InTime interval) (l : ClockStep) :
    q.RestartFits t l := by
  obtain ⟨timer, htimer, hinterval, -⟩ := h.object
  unfold RestartFits
  split
  · cases hphase : q.phase with
    | idle | rearming => trivial
    | calling now expired rest =>
      rintro e - rfl timer' hr
      obtain ⟨htimer', -, -⟩ := restarting_eq_some.mp hr
      rw [htimer] at htimer'
      cases htimer'
      rw [hinterval]
      exact htime now expired rest hphase
  · trivial

/-- **Run**: with every `handleRead` in time the history stays as it should
    be. -/
theorem spaced_run_readsInTime {t : TimerPtr} {timeout interval : Int} {q : TimerQueue}
    (h : q.Spaced t timeout interval) (hkept : q.Kept) (htime : 0 < interval → q.InTime interval)
    {steps : List ClockStep} (hvalid : anyClock.Valid q steps)
    (hreads : 0 < interval → anyClock.Along (ReadsInTime interval) q steps) :
    (anyClock.run q steps).Spaced t timeout interval := by
  refine spaced_run h hkept hvalid fun hpos => ?_
  refine anyClock.along_of_invariant
    (fun q => (q.Kept ∧ q.Spaced t timeout interval) ∧ q.InTime interval)
    (fun q l hq hl => ⟨?_, inTime_anyClock hq.2 hl.1 hl.2⟩)
    (fun q l hq _ => restartFits_of_inTime hq.1.2 hq.2 l) ⟨⟨hkept, h⟩, htime hpos⟩
    ((anyClock.along_and q steps).mpr ⟨hvalid, hreads hpos⟩)
  exact spaced_anyClock hq.1 hl.1 fun _ => restartFits_of_inTime hq.1.2 hq.2 l

/-- **No early and no duplicate firing**: whatever the clock shows, a
    one-shot timer runs at most once and not before its expiry, and the
    callbacks of a periodic timer are at least its interval apart, if
    `now + interval_` is a time of 64 bits wherever the timer is
    restarted. -/
theorem firings_spaced (clock : Int) (before after : List ClockStep) (t : TimerPtr)
    (timeout interval : Int)
    (hvalid : anyClock.Valid (new clock) (before ++ .step (.addTimer t timeout interval) :: after))
    (hfits : 0 < interval → anyClock.Along (RestartFits t) (new clock)
      (before ++ .step (.addTimer t timeout interval) :: after)) :
    let f := (anyClock.run (new clock)
      (before ++ .step (.addTimer t timeout interval) :: after)).firings t
    (interval ≤ 0 → f.length ≤ 1) ∧ (∀ now ∈ f, timeout ≤ now) ∧
      (0 < interval → f.IsChain fun now now' => now + interval ≤ now') := by
  obtain ⟨hbefore, hadd, hafter⟩ := (anyClock.valid_append _ _ _).mp hvalid
  have hkept := kept_run (kept_new clock) hbefore
  have hkept' := kept_anyClock hkept hadd
  have h := spaced_run (spaced_addTimer hkept hadd.2) hkept' hafter fun hpos =>
    ((anyClock.along_append _ _ _).mp (hfits hpos)).2.2
  intro f
  have hf : f = (anyClock.run ((anyClock.run (new clock) before).addTimer t timeout interval)
      after).firings t := by
    show firings (anyClock.run (new clock) (before ++ _)) t = _
    rw [anyClock.run_append]
    rfl
  rw [hf]
  exact ⟨h.once, h.late, fun _ => h.chain⟩

/-- A periodic timer runs in two batches. -/
theorem firings_spaced_twice :
    let steps : List ClockStep :=
      [.step (.addTimerInLoop 1), .clock 250, .step .handleRead, .step .runTimer, .step .reset,
        .step .resetTimerfd, .clock 800, .step .handleRead, .step .runTimer]
    let q := anyClock.run (new 0) ([] ++ .step (.addTimer 1 200 500) :: steps)
    q.firings 1 = [250, 800] ∧ (q.firings 1).IsChain fun now now' => now + 500 ≤ now' :=
  ⟨by decide +kernel,
    (firings_spaced 0 [] _ 1 200 500 (by decide +kernel) fun _ => by decide +kernel).2.2 (by decide)⟩

/-- An interval that is meant never to end: the callback at 201 adds a
    timer, `timerfd_` expires for that one, and the periodic timer fires
    again after 100 microseconds. -/
theorem not_firings_spaced :
    let steps : List TimerStep :=
      [.addTimer 1 200 TimeType64.maxTime, .addTimerInLoop 1, .elapse 201, .handleRead, .runTimer,
        .addTimer 2 300 0, .addTimerInLoop 2, .reset, .elapse 100]
    let q := anyClock.run (new 0) (steps.map .step ++ [.step .handleRead, .step .runTimer])
    timerQueue.Valid (new 0) steps ∧ (timerQueue.run (new 0) steps).timerfd_ = .expired ∧
      anyClock.Valid (new 0) (steps.map .step ++ [.step .handleRead, .step .runTimer]) ∧
      q.firings 1 = [201, 301] ∧
      ¬ (q.firings 1).IsChain fun now now' => now + TimeType64.maxTime ≤ now' := by
  decide +kernel

end TimerQueue

end TinyWS
