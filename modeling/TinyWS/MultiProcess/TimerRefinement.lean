import TinyWS.MultiProcess.TimerSets

/-! # One Timer Queue in Both Libraries

    As far as callbacks go, the queue of the multi-process libraries is
    the multi-threaded one: `addTimer` is `addTimer` and `addTimerInLoop`
    in one, and the turns of `reset` end where its loop does.  That
    `cancel` remembers timers outside of the callbacks as well makes no
    difference, as `handleRead` forgets them before anyone looks.

    So what the histories of the multi-threaded queue are, those of this
    queue are too.  The two differ in `timerfd_` alone, and in the assert
    about a timer that is gone. -/

namespace TinyWS

open Std

namespace Process

namespace TimerQueue

/-! ## The same containers -/

/-- The same timers in the same two sets. -/
structure SameSets (q a : TinyWS.TimerQueue) : Prop where
  numCreated : a.numCreated = q.numCreated
  heap : a.heap = q.heap
  timers_ : a.timers_ = q.timers_
  activeTimers_ : a.activeTimers_ = q.activeTimers_

/-- And the same ones are cancelled. -/
structure SameMarks (q a : TinyWS.TimerQueue) : Prop where
  sets : SameSets q a
  cancelingTimers_ : a.cancelingTimers_ = q.cancelingTimers_

theorem SameSets.trans {q a b : TinyWS.TimerQueue} (h : SameSets q a) (h' : SameSets a b) :
    SameSets q b :=
  ⟨h'.numCreated.trans h.numCreated, h'.heap.trans h.heap, h'.timers_.trans h.timers_,
    h'.activeTimers_.trans h.activeTimers_⟩

theorem SameMarks.trans {q a b : TinyWS.TimerQueue} (h : SameMarks q a) (h' : SameMarks a b) :
    SameMarks q b :=
  ⟨h.sets.trans h'.sets, h'.cancelingTimers_.trans h.cancelingTimers_⟩

section Same

variable {q a : TinyWS.TimerQueue}

theorem SameSets.insert (h : SameSets q a) (t : TimerPtr) (timer : Timer) :
    SameSets (q.insert t timer).1 (a.insert t timer).1 where
  numCreated := h.numCreated
  heap := h.heap
  timers_ := by
    show a.timers_.insert _ = q.timers_.insert _
    rw [h.timers_]
  activeTimers_ := by
    show a.activeTimers_.insert _ = q.activeTimers_.insert _
    rw [h.activeTimers_]

theorem SameMarks.insert (h : SameMarks q a) (t : TimerPtr) (timer : Timer) :
    SameMarks (q.insert t timer).1 (a.insert t timer).1 :=
  ⟨h.sets.insert t timer, h.cancelingTimers_⟩

/-- A turn of `reset` does the same to both. -/
theorem SameMarks.resetEntry (h : SameMarks q a) (now : Int) (e : Entry) :
    SameMarks (TinyWS.TimerQueue.resetEntry now q e) (TinyWS.TimerQueue.resetEntry now a e) := by
  have hsame : a.restarting e = q.restarting e := by
    rw [TinyWS.TimerQueue.restarting, TinyWS.TimerQueue.restarting, h.sets.heap,
      h.cancelingTimers_]
  unfold TinyWS.TimerQueue.resetEntry
  rw [hsame]
  cases q.restarting e with
  | none => exact h
  | some timer =>
    have hheap : SameMarks { q with heap := q.heap.insert e.timer (timer.restart now) }
        { a with heap := a.heap.insert e.timer (timer.restart now) } := by
      refine ⟨⟨h.sets.numCreated, ?_, h.sets.timers_, h.sets.activeTimers_⟩, h.cancelingTimers_⟩
      show a.heap.insert _ _ = q.heap.insert _ _
      rw [h.sets.heap]
    exact hheap.insert e.timer (timer.restart now)

theorem SameMarks.foldl_resetEntry (now : Int) (todo : List Entry) :
    ∀ {q a : TinyWS.TimerQueue}, SameMarks q a →
      SameMarks (todo.foldl (TinyWS.TimerQueue.resetEntry now) q)
        (todo.foldl (TinyWS.TimerQueue.resetEntry now) a) := by
  induction todo with
  | nil => exact fun h => h
  | cons e todo ih => exact fun h => ih (h.resetEntry now e)

/-- The same timers are collected. -/
theorem sameMarks_handleRead (h : SameSets q a) (hclock : a.clock = q.clock) :
    SameMarks q.handleRead a.handleRead ∧ a.handleRead.phase = q.handleRead.phase := by
  obtain ⟨hnum, hheap, htimers, hactive⟩ := h
  cases q
  cases a
  subst hclock hnum hheap htimers hactive
  exact ⟨⟨⟨rfl, rfl, rfl, rfl⟩, rfl⟩, rfl⟩

/-- The same objects are alive. -/
theorem SameMarks.alive (h : SameMarks q a) (hphase : a.phase = q.phase)
    (hadding : a.adding = q.adding) (t : TimerPtr) : a.alive t = q.alive t := by
  rw [TinyWS.TimerQueue.alive, TinyWS.TimerQueue.alive, h.sets.timers_, h.sets.activeTimers_,
    h.cancelingTimers_, hphase, hadding]

/-- `addTimer` is the multi-threaded one and `addTimerInLoop` in one. -/
theorem SameSets.addTimer (h : SameSets q a) (t : TimerPtr) (timeout interval : Int) :
    SameSets (addTimer q t timeout interval)
        ((a.addTimer t timeout interval).addTimerInLoop t) ∧
      (addTimer q t timeout interval).cancelingTimers_ = q.cancelingTimers_ ∧
      ((a.addTimer t timeout interval).addTimerInLoop t).cancelingTimers_ =
        a.cancelingTimers_ := by
  obtain ⟨timer, q₁, fd, rfl, rfl, heq, -⟩ := addTimer_spec q t timeout interval
  have hcreated : SameSets
      { q with
        numCreated := q.numCreated + 1
        heap := q.heap.insert t (Timer.new timeout interval (q.numCreated + 1)) }
      (a.addTimer t timeout interval) := by
    refine ⟨?_, ?_, h.timers_, h.activeTimers_⟩
    · show a.numCreated + 1 = q.numCreated + 1
      rw [h.numCreated]
    · show a.heap.insert t (Timer.new timeout interval (a.numCreated + 1)) = _
      rw [h.heap, h.numCreated]
  have hobject : (a.addTimer t timeout interval).heap[t]? =
      some (Timer.new timeout interval (q.numCreated + 1)) := by
    rw [hcreated.heap]
    exact TinyWS.TimerQueue.getElem?_insert_self
  obtain ⟨fd', heq', -⟩ := TinyWS.TimerQueue.addTimerInLoop_spec hobject
  have hsets := hcreated.insert t (Timer.new timeout interval (q.numCreated + 1))
  rw [heq, heq']
  exact ⟨⟨hsets.numCreated, hsets.heap, hsets.timers_, hsets.activeTimers_⟩, rfl, rfl⟩

/-- `cancelInLoop` erases an active timer. -/
theorem cancelInLoop_active (hkept : a.Kept) {t : TimerPtr} {timer : Timer}
    (hobject : a.heap[t]? = some timer)
    (hin : a.activeTimers_.contains ⟨t, timer.sequence_⟩ = true) :
    a.cancelInLoop t = TinyWS.TimerQueue.checkSizes
      { a with
        timers_ := a.timers_.erase ⟨timer.expiredTime_, t⟩
        activeTimers_ := a.activeTimers_.erase ⟨t, timer.sequence_⟩ } := by
  obtain ⟨⟨e, he, het⟩, -⟩ := (hkept.agrees.same _).mp (ExtTreeSet.contains_iff_mem.mp hin)
  have halive : a.alive t = true := by
    rw [← show e.timer = t from het]
    exact TinyWS.TimerQueue.alive_of_mem_timers he
  rw [TinyWS.TimerQueue.cancelInLoop, TinyWS.TimerQueue.lock, if_pos halive, hobject]
  rcases TinyWS.TimerQueue.cancelLocked_cases hkept.agrees hobject with ⟨-, -, heq⟩ | ⟨hno, -⟩
  · exact heq
  · exact absurd het (hno e he)

/-- Any other timer is remembered in the callbacks, if it is alive. -/
theorem SameSets.cancelInLoop_idle (h : SameSets q a) (hkept : a.Kept) {t : TimerPtr}
    {timer : Timer} (hobject : a.heap[t]? = some timer)
    (hnot : ¬ a.activeTimers_.contains ⟨t, timer.sequence_⟩ = true) :
    SameSets q (a.cancelInLoop t) ∧
      (a.cancelInLoop t).cancelingTimers_ =
        if a.alive t = true ∧ a.callingExpiredTimers_ = true then
          a.cancelingTimers_.insert ⟨t, timer.sequence_⟩ else a.cancelingTimers_ := by
  rw [TinyWS.TimerQueue.cancelInLoop, TinyWS.TimerQueue.lock, hobject]
  by_cases halive : a.alive t = true
  · rw [if_pos halive]
    rcases TinyWS.TimerQueue.cancelLocked_cases hkept.agrees hobject with
      ⟨hentry, -, -⟩ | ⟨-, heq⟩
    · -- it has no entry
      refine absurd ?_ hnot
      rw [ExtTreeSet.contains_iff_mem]
      exact (hkept.agrees.same _).mpr ⟨hentry, by rw [hobject]; rfl⟩
    · rw [heq]
      by_cases hcalling : a.callingExpiredTimers_ = true
      · rw [if_pos hcalling, if_pos ⟨halive, hcalling⟩]
        exact ⟨⟨h.numCreated, h.heap, h.timers_, h.activeTimers_⟩, rfl⟩
      · rw [if_neg hcalling, if_neg fun hboth => hcalling hboth.2]
        exact ⟨h, rfl⟩
  · rw [if_neg halive, if_neg fun hboth => halive hboth.1]
    exact ⟨⟨h.numCreated, h.heap, h.timers_, h.activeTimers_⟩, rfl⟩

/-- `cancel` erases what `cancelInLoop` erases; in the callbacks the two
    remember the same. -/
theorem SameSets.cancel (h : SameSets q a) (hkept : a.Kept) {t : TimerPtr} (ht : t ∈ q.heap) :
    SameSets (cancel q t) (a.cancelInLoop t) ∧
      (a.cancelingTimers_ = q.cancelingTimers_ → a.phase = q.phase → a.adding = q.adding →
        a.callingExpiredTimers_ = true →
          (a.cancelInLoop t).cancelingTimers_ = (cancel q t).cancelingTimers_) := by
  obtain ⟨timer, htimer⟩ := mem_heap_iff.mp ht
  have hobject : a.heap[t]? = some timer := by
    rw [h.heap]
    exact htimer
  have hactive : a.activeTimers_.contains ⟨t, timer.sequence_⟩ =
      q.activeTimers_.contains ⟨t, timer.sequence_⟩ := by
    rw [h.activeTimers_]
  rcases cancel_cases htimer with ⟨hin, heq⟩ | ⟨hout, halive, heq⟩ | ⟨hout, halive, heq⟩
  · -- both erase it
    rw [heq, cancelInLoop_active hkept hobject (hactive.trans hin)]
    refine ⟨⟨h.numCreated, h.heap, ?_, ?_⟩, fun hmarks _ _ _ => hmarks⟩
    · show a.timers_.erase _ = q.timers_.erase _
      rw [h.timers_]
    · show a.activeTimers_.erase _ = q.activeTimers_.erase _
      rw [h.activeTimers_]
  · obtain ⟨hsets, hmarked⟩ := h.cancelInLoop_idle hkept hobject (by rw [hactive, hout]; simp)
    rw [heq]
    refine ⟨⟨hsets.numCreated, hsets.heap, hsets.timers_, hsets.activeTimers_⟩, ?_⟩
    intro hmarks hphase hadding hcalling
    have hsame := SameMarks.alive ⟨h, hmarks⟩ hphase hadding t
    rw [hmarked, if_pos ⟨hsame.trans halive, hcalling⟩, hmarks]
    rfl
  · obtain ⟨hsets, hmarked⟩ := h.cancelInLoop_idle hkept hobject (by rw [hactive, hout]; simp)
    rw [heq]
    refine ⟨⟨hsets.numCreated, hsets.heap, hsets.timers_, hsets.activeTimers_⟩, ?_⟩
    intro hmarks hphase hadding hcalling
    have hsame := SameMarks.alive ⟨h, hmarks⟩ hphase hadding t
    rw [hmarked, hsame, halive, if_neg (by simp), hmarks]
    rfl

end Same

/-! What the two operations leave alone. -/

theorem addTimer_rest (q : TinyWS.TimerQueue) (t : TimerPtr) (timeout interval : Int) :
    (addTimer q t timeout interval).clock = q.clock ∧
      (addTimer q t timeout interval).fired = q.fired := by
  obtain ⟨timer, q₁, fd, rfl, rfl, heq, -⟩ := addTimer_spec q t timeout interval
  rw [heq]
  exact ⟨rfl, rfl⟩

theorem addTimerInLoop_new (a : TinyWS.TimerQueue) (t : TimerPtr) (timeout interval : Int) :
    ((a.addTimer t timeout interval).addTimerInLoop t).clock = a.clock ∧
      ((a.addTimer t timeout interval).addTimerInLoop t).adding = a.adding := by
  have hobject : (a.addTimer t timeout interval).heap[t]? =
      some (Timer.new timeout interval (a.numCreated + 1)) :=
    TinyWS.TimerQueue.getElem?_insert_self
  obtain ⟨fd, heq, -⟩ := TinyWS.TimerQueue.addTimerInLoop_spec hobject
  rw [heq]
  exact ⟨rfl, List.erase_cons_head t a.adding⟩

theorem cancel_rest {q : TinyWS.TimerQueue} {t : TimerPtr} (ht : t ∈ q.heap) :
    (cancel q t).clock = q.clock ∧ (cancel q t).fired = q.fired ∧
      (cancel q t).phase = q.phase := by
  obtain ⟨timer, htimer⟩ := mem_heap_iff.mp ht
  rcases cancel_cases htimer with ⟨-, heq⟩ | ⟨-, -, heq⟩ | ⟨-, -, heq⟩
  all_goals
    rw [heq]
    exact ⟨rfl, rfl, rfl⟩

/-! ## The simulation -/

/-- The multi-threaded queue `a` stands where the queue `q` does.  It waits
    in front of its `reset` while `q` takes its turns: they have got to the
    point where `a` is after the entries that are done. -/
inductive Place (q : TimerQueue) (a : TinyWS.TimerQueue) : Prop where
  | outside (resetting : q.resetting = none) (phase : a.phase = q.phase)
      (sets : SameSets q.toTimerQueue a)
      (marks : a.callingExpiredTimers_ = true → a.cancelingTimers_ = q.cancelingTimers_)
  | inside (done : List Entry) {now : Int} {todo : List Entry} (resetting : q.resetting = some todo)
      (phase : a.phase = .calling now (done ++ todo) []) (same : a.phase = q.phase)
      (marks : SameMarks q.toTimerQueue (done.foldl (TinyWS.TimerQueue.resetEntry now) a))

structure Matches (q : TimerQueue) (a : TinyWS.TimerQueue) : Prop where
  sound : q.Sound
  kept : a.Kept
  clock : a.clock = q.clock
  adding : a.adding = []
  fired : a.fired = q.fired
  place : Place q a

theorem matches_new (clock : Int) : Matches (new clock) (TinyWS.TimerQueue.new clock) where
  sound := sound_new clock
  kept := TinyWS.TimerQueue.kept_new clock
  clock := rfl
  adding := rfl
  fired := rfl
  place := .outside rfl rfl ⟨rfl, rfl, rfl, rfl⟩ fun _ => rfl

section Simulation

variable {q : TimerQueue} {a : TinyWS.TimerQueue}

/-- Outside of `reset` the two are in the same phase. -/
theorem Matches.outside (h : Matches q a) (hnone : q.resetting = none) :
    a.phase = q.phase ∧ SameSets q.toTimerQueue a ∧
      (a.callingExpiredTimers_ = true → a.cancelingTimers_ = q.cancelingTimers_) := by
  cases h.place with
  | outside _ phase sets marks => exact ⟨phase, sets, marks⟩
  | inside _ resetting => rw [hnone] at resetting; cases resetting

/-- In user code both are. -/
theorem Matches.inUserCode (h : Matches q a) (hcode : q.InUserCode) : a.InUserCode := by
  obtain ⟨hphase, -, -⟩ := h.outside hcode.1
  rw [TinyWS.TimerQueue.InUserCode, hphase]
  exact hcode.2

/-- `reset` as a whole, and `timerfd_` set again if it has to be. -/
theorem exists_reset {now : Int} {expired : List Entry}
    (hphase : a.phase = .calling now expired []) :
    ∃ ks, TinyWS.anyClock.Valid a ks ∧ (∀ k ∈ ks, k ≠ .step .handleRead) ∧
      (TinyWS.anyClock.run a ks).phase = .idle ∧
      (TinyWS.anyClock.run a ks).clock = a.clock ∧
      (TinyWS.anyClock.run a ks).adding = a.adding ∧
      (TinyWS.anyClock.run a ks).fired = a.fired ∧
      (TinyWS.anyClock.run a ks).callingExpiredTimers_ = false ∧
      SameMarks (expired.foldl (TinyWS.TimerQueue.resetEntry now) a)
        (TinyWS.anyClock.run a ks) := by
  have hguard : TinyWS.anyClock.guard a (.step .reset) := ⟨now, expired, hphase⟩
  have hnext : TinyWS.anyClock.next a (.step .reset) = a.reset expired now :=
    TinyWS.TimerQueue.next_reset hphase
  obtain ⟨p, hp, heq⟩ := a.reset_eq expired now
  obtain ⟨hrest, -⟩ :=
    TinyWS.TimerQueue.foldl_resetEntry_frame now expired { a with callingExpiredTimers_ := false }
  have hmarks : SameMarks (expired.foldl (TinyWS.TimerQueue.resetEntry now) a)
      (expired.foldl (TinyWS.TimerQueue.resetEntry now) { a with callingExpiredTimers_ := false }) :=
    SameMarks.foldl_resetEntry now expired ⟨⟨rfl, rfl, rfl, rfl⟩, rfl⟩
  have hreset : (a.reset expired now).clock = a.clock ∧ (a.reset expired now).adding = a.adding ∧
      (a.reset expired now).fired = a.fired ∧
      (a.reset expired now).callingExpiredTimers_ = false ∧
      SameMarks (expired.foldl (TinyWS.TimerQueue.resetEntry now) a) (a.reset expired now) := by
    rw [heq]
    exact ⟨hrest.clock, hrest.adding, hrest.fired, hrest.callingExpiredTimers_,
      ⟨hmarks.sets.numCreated, hmarks.sets.heap, hmarks.sets.timers_, hmarks.sets.activeTimers_⟩,
      hmarks.cancelingTimers_⟩
  rcases a.phase_reset expired now with hidle | ⟨when_, hrearming⟩
  · refine ⟨[.step .reset], ⟨hguard, trivial⟩, by simp, ?_⟩
    rw [show TinyWS.anyClock.run a [.step .reset] = a.reset expired now from hnext]
    exact ⟨hidle, hreset⟩
  · -- the earliest timer is not due
    have hguard' : TinyWS.anyClock.guard (a.reset expired now) (.step .resetTimerfd) :=
      ⟨expired, when_, hrearming⟩
    refine ⟨[.step .reset, .step .resetTimerfd], ⟨hguard, ?_, trivial⟩, by simp, ?_⟩
    · rw [hnext]
      exact hguard'
    · have hrun : TinyWS.anyClock.run a [.step .reset, .step .resetTimerfd] =
          { (a.reset expired now).resetTimerfd when_ with phase := .idle } := by
        show (TinyWS.anyClock.next a (.step .reset)).next .resetTimerfd = _
        rw [hnext, TinyWS.TimerQueue.next_resetTimerfd hrearming]
      obtain ⟨hclock, hadding, hfired, hcalling, hsame⟩ := hreset
      rw [hrun]
      exact ⟨rfl, hclock, hadding, hfired, hcalling,
        ⟨hsame.sets.numCreated, hsame.sets.heap, hsame.sets.timers_, hsame.sets.activeTimers_⟩,
        hsame.cancelingTimers_⟩

/-- The clock jumps in both. -/
theorem Matches.setClock (h : Matches q a) (now : Int) :
    Matches (anyClock.next q (.clock now)) (TinyWS.anyClock.next a (.clock now)) := by
  refine ⟨h.sound.anyClock trivial, TinyWS.TimerQueue.kept_anyClock h.kept trivial, rfl, h.adding,
    h.fired, ?_⟩
  cases h.place with
  | outside resetting phase sets marks =>
    exact .outside resetting phase
      ⟨sets.numCreated, sets.heap, sets.timers_, sets.activeTimers_⟩ marks
  | @inside done now' _ resetting phase same marks =>
    -- the turns that were taken do not look at the clock
    have hclock := SameMarks.foldl_resetEntry now' done
      (q := a) (a := { a with clock := now }) ⟨⟨rfl, rfl, rfl, rfl⟩, rfl⟩
    have hboth := marks.trans hclock
    exact .inside done resetting phase same
      ⟨⟨hboth.sets.numCreated, hboth.sets.heap, hboth.sets.timers_, hboth.sets.activeTimers_⟩,
        hboth.cancelingTimers_⟩

/-- Outside of `reset` a run of `a` ends where the step of `q` does. -/
theorem Matches.of_run (h : Matches q a) (l : TimerStep) (hguard : q.guard l)
    (hresetting : (q.next l).resetting = none) (ks : List TinyWS.ClockStep)
    (hvalid : TinyWS.anyClock.Valid a ks)
    (hclock : (TinyWS.anyClock.run a ks).clock = (q.next l).clock)
    (hadding : (TinyWS.anyClock.run a ks).adding = [])
    (hfired : (TinyWS.anyClock.run a ks).fired = (q.next l).fired)
    (hphase : (TinyWS.anyClock.run a ks).phase = (q.next l).phase)
    (hsets : SameSets (q.next l).toTimerQueue (TinyWS.anyClock.run a ks))
    (hmarks : (TinyWS.anyClock.run a ks).callingExpiredTimers_ = true →
      (TinyWS.anyClock.run a ks).cancelingTimers_ = (q.next l).cancelingTimers_) :
    TinyWS.anyClock.Valid a ks ∧ Matches (q.next l) (TinyWS.anyClock.run a ks) :=
  ⟨hvalid, h.sound.next hguard, TinyWS.TimerQueue.kept_run h.kept hvalid, hclock, hadding,
    hfired, .outside hresetting hphase hsets hmarks⟩

theorem Matches.addTimer (h : Matches q a) {t : TimerPtr} {timeout interval : Int}
    (hguard : q.guard (.addTimer t timeout interval)) :
    TinyWS.anyClock.Valid a [.step (.addTimer t timeout interval), .step (.addTimerInLoop t)] ∧
      Matches (q.next (.addTimer t timeout interval))
        ((a.addTimer t timeout interval).addTimerInLoop t) := by
  obtain ⟨hcode, hnull, hfresh⟩ := hguard
  obtain ⟨hphase, hsets, hmarks⟩ := h.outside hcode.1
  obtain ⟨hsets', hq, ha⟩ := hsets.addTimer t timeout interval
  obtain ⟨hclock, hfired⟩ := addTimer_rest q.toTimerQueue t timeout interval
  obtain ⟨hphase', -⟩ := addTimer_frame q.toTimerQueue t timeout interval
  obtain ⟨hclock', hadding'⟩ := addTimerInLoop_new a t timeout interval
  obtain ⟨-, hfired', hphase'', -, hcalling, -⟩ :=
    (a.addTimer t timeout interval).addTimerInLoop_frame t
  have hadd : TinyWS.anyClock.guard a (.step (.addTimer t timeout interval)) :=
    ⟨hnull, hsets.heap ▸ hfresh⟩
  have hloop : TinyWS.anyClock.guard (a.addTimer t timeout interval) (.step (.addTimerInLoop t)) :=
    ⟨h.inUserCode hcode, List.mem_cons_self⟩
  refine h.of_run (.addTimer t timeout interval) ⟨hcode, hnull, hfresh⟩ hcode.1
    [.step (.addTimer t timeout interval), .step (.addTimerInLoop t)]
    ⟨hadd, hloop, trivial⟩ ?_ ?_ ?_ ?_ hsets' ?_
  · exact (hclock'.trans h.clock).trans hclock.symm
  · exact hadding'.trans h.adding
  · exact (hfired'.trans h.fired).trans hfired.symm
  · exact (hphase''.trans hphase).trans hphase'.symm
  · intro hcall
    exact (ha.trans (hmarks (hcalling.symm.trans hcall))).trans hq.symm

theorem Matches.cancel (h : Matches q a) {t : TimerPtr} (hguard : q.guard (.cancel t)) :
    TinyWS.anyClock.Valid a [.step (.cancelInLoop t)] ∧
      Matches (q.next (.cancel t)) (a.cancelInLoop t) := by
  obtain ⟨hcode, hknown⟩ := hguard
  obtain ⟨hphase, hsets, hmarks⟩ := h.outside hcode.1
  obtain ⟨hsets', hsame⟩ := hsets.cancel h.kept hknown
  obtain ⟨hclock, hfired, hphase'⟩ := cancel_rest hknown
  obtain ⟨-, -, hrest⟩ := a.cancelLocked_frame t (a.lock t)
  have hcancel : TinyWS.anyClock.guard a (.step (.cancelInLoop t)) :=
    ⟨h.inUserCode hcode, hsets.heap ▸ hknown⟩
  refine h.of_run (.cancel t) ⟨hcode, hknown⟩ hcode.1 [.step (.cancelInLoop t)] ⟨hcancel, trivial⟩
    ?_ ?_ ?_ ?_ hsets' ?_
  · exact (hrest.clock.trans h.clock).trans hclock.symm
  · exact hrest.adding.trans h.adding
  · exact (hrest.fired.trans h.fired).trans hfired.symm
  · exact (hrest.phase.trans hphase).trans hphase'.symm
  · intro hcall
    have hcall' := hrest.callingExpiredTimers_.symm.trans hcall
    exact hsame (hmarks hcall') hphase (h.adding.trans h.sound.adding.symm) hcall'

theorem Matches.handleRead (h : Matches q a) (hguard : q.guard .handleRead) :
    TinyWS.anyClock.Valid a [.step .handleRead] ∧
      Matches (q.next .handleRead) a.handleRead := by
  obtain ⟨hnone, hidle⟩ := hguard
  obtain ⟨hphase, hsets, -⟩ := h.outside hnone
  obtain ⟨hmarks, hphase'⟩ := sameMarks_handleRead hsets h.clock
  obtain ⟨-, -, hadding, hfired, -⟩ := a.handleRead_spec
  obtain ⟨-, -, -, hfired', -⟩ := q.toTimerQueue.handleRead_spec
  have hread : TinyWS.anyClock.guard a (.step .handleRead) := hphase.trans hidle
  refine h.of_run .handleRead ⟨hnone, hidle⟩ hnone [.step .handleRead] ⟨hread, trivial⟩ h.clock
    (hadding.trans h.adding) ?_ hphase' hmarks.sets fun _ => hmarks.cancelingTimers_
  exact (hfired.trans h.fired).trans hfired'.symm

theorem Matches.runTimer (h : Matches q a) (hguard : q.guard .runTimer) :
    TinyWS.anyClock.Valid a [.step .runTimer] ∧
      Matches (q.next .runTimer) (a.next .runTimer) := by
  have hsound := h.sound.next hguard
  obtain ⟨hnone, now, expired, e, rest, hphase⟩ := hguard
  obtain ⟨hphase', hsets, hmarks⟩ := h.outside hnone
  have hrun : TinyWS.anyClock.guard a (.step .runTimer) :=
    ⟨now, expired, e, rest, hphase'.trans hphase⟩
  have hnext : a.next .runTimer =
      { a with phase := .calling now expired rest, fired := a.fired ++ [(e.timer, now)] } :=
    TinyWS.TimerQueue.next_runTimer (hphase'.trans hphase)
  have hkept : (a.next .runTimer).Kept :=
    TinyWS.TimerQueue.kept_anyClock h.kept hrun
  rw [next_runTimer hphase] at hsound
  rw [hnext] at hkept
  refine ⟨⟨hrun, trivial⟩, ?_⟩
  rw [next_runTimer hphase, hnext]
  refine ⟨hsound, hkept, h.clock, h.adding, ?_, .outside hnone rfl
    ⟨hsets.numCreated, hsets.heap, hsets.timers_, hsets.activeTimers_⟩ hmarks⟩
  show a.fired ++ _ = q.fired ++ _
  rw [h.fired]

/-- The loop of `reset` is over, in `q` after its last turn. -/
theorem Matches.afterReset (h : Matches q a) {l : TimerStep} (hguard : q.guard l) {now : Int}
    {expired : List Entry} (hphase : a.phase = .calling now expired [])
    (hresetting : (q.next l).resetting = none) (hidle : (q.next l).phase = .idle)
    (hclock : (q.next l).clock = q.clock) (hfired : (q.next l).fired = q.fired)
    (hmarks : SameMarks (q.next l).toTimerQueue
      (expired.foldl (TinyWS.TimerQueue.resetEntry now) a)) :
    ∃ ks, TinyWS.anyClock.Valid a ks ∧ (∀ k ∈ ks, k ≠ .step .handleRead) ∧
      Matches (q.next l) (TinyWS.anyClock.run a ks) := by
  obtain ⟨ks, hvalid, hnone, hidle', hclock', hadding, hfired', hcalling, hsame⟩ :=
    exists_reset hphase
  have hboth := hmarks.trans hsame
  obtain ⟨-, hnext⟩ := h.of_run l hguard hresetting ks hvalid
    ((hclock'.trans h.clock).trans hclock.symm) (hadding.trans h.adding)
    ((hfired'.trans h.fired).trans hfired.symm) (hidle'.trans hidle.symm) hboth.sets
    fun _ => hboth.cancelingTimers_
  exact ⟨ks, hvalid, hnone, hnext⟩

theorem Matches.reset (h : Matches q a) (hguard : q.guard .reset) :
    ∃ ks, TinyWS.anyClock.Valid a ks ∧ (∀ k ∈ ks, k ≠ .step .handleRead) ∧
      Matches (q.next .reset) (TinyWS.anyClock.run a ks) := by
  have hsound := h.sound.next hguard
  obtain ⟨hnone, now, expired, hphase⟩ := hguard
  obtain ⟨hphase', hsets, hmarks⟩ := h.outside hnone
  have hcalling : a.callingExpiredTimers_ = true :=
    h.kept.phased.calling.mpr ⟨now, expired, [], hphase'.trans hphase⟩
  have hboth : SameMarks q.toTimerQueue a := ⟨hsets, hmarks hcalling⟩
  have hnext := next_reset hphase
  cases expired with
  | nil =>
    -- there was nothing to run
    rw [if_pos rfl] at hnext
    refine h.afterReset ⟨hnone, now, [], hphase⟩ (hphase'.trans hphase) ?_ ?_ ?_ ?_ ?_
    all_goals rw [hnext]
    · exact hnone
    · exact ⟨⟨hsets.numCreated, hsets.heap, hsets.timers_, hsets.activeTimers_⟩,
        hboth.cancelingTimers_⟩
  | cons e expired =>
    -- `a` waits
    rw [if_neg (by simp)] at hnext
    refine ⟨[], trivial, by simp, hsound, h.kept, ?_, h.adding, ?_, ?_⟩
    all_goals rw [hnext]
    · exact h.clock
    · exact h.fired
    · exact .inside [] rfl (hphase'.trans hphase) hphase'
        ⟨⟨hsets.numCreated, hsets.heap, hsets.timers_, hsets.activeTimers_⟩,
          hboth.cancelingTimers_⟩

theorem Matches.resetTurn (h : Matches q a) (hguard : q.guard .resetTurn) :
    ∃ ks, TinyWS.anyClock.Valid a ks ∧ (∀ k ∈ ks, k ≠ .step .handleRead) ∧
      Matches (q.next .resetTurn) (TinyWS.anyClock.run a ks) := by
  have hsound := h.sound.next hguard
  cases h.place with
  | outside resetting => exact absurd resetting hguard
  | @inside done now todo resetting phase same marks =>
    obtain ⟨hcons, -⟩ := h.sound.resetting todo resetting
    cases todo with
    | nil => exact absurd rfl hcons
    | cons e rest =>
      obtain ⟨fd, heq⟩ := resetTurn_eq now q.toTimerQueue e
      obtain ⟨hrest, -⟩ := TinyWS.TimerQueue.resetEntry_frame now q.toTimerQueue e
      have hnext := next_resetTurn (same.symm.trans phase) resetting
      rw [heq] at hnext
      have hturn : SameMarks (TinyWS.TimerQueue.resetEntry now q.toTimerQueue e)
          ((done ++ [e]).foldl (TinyWS.TimerQueue.resetEntry now) a) := by
        rw [List.foldl_append]
        exact marks.resetEntry now e
      cases rest with
      | nil =>
        -- the last turn
        rw [if_pos rfl] at hnext
        refine h.afterReset hguard phase ?_ ?_ ?_ ?_ ?_
        all_goals rw [hnext]
        · exact hrest.clock
        · exact hrest.fired
        · exact ⟨⟨hturn.sets.numCreated, hturn.sets.heap, hturn.sets.timers_,
            hturn.sets.activeTimers_⟩, hturn.cancelingTimers_⟩
      | cons e' rest =>
        rw [if_neg (by simp)] at hnext
        refine ⟨[], trivial, by simp, hsound, h.kept, ?_, h.adding, ?_, ?_⟩
        all_goals rw [hnext]
        · exact h.clock.trans hrest.clock.symm
        · exact h.fired.trans hrest.fired.symm
        · refine .inside (done ++ [e]) rfl ?_ (same.trans hrest.phase.symm)
            ⟨⟨hturn.sets.numCreated, hturn.sets.heap, hturn.sets.timers_,
              hturn.sets.activeTimers_⟩, hturn.cancelingTimers_⟩
          rw [List.append_assoc]
          exact phase

/-- A condition on the times of the `handleRead`s alone: one interval
    later there are still times of 64 bits. -/
def ReadsInTime (interval : Int) (q : TimerQueue) : ClockStep → Prop
  | .step .handleRead => q.clock + interval ≤ TimeType64.maxTime
  | _ => True

instance (interval : Int) (q : TimerQueue) : DecidablePred (q.ReadsInTime interval)
  | .step .handleRead =>
      inferInstanceAs (Decidable (q.clock + interval ≤ TimeType64.maxTime))
  | .step (.elapse _) | .step (.addTimer _ _ _) | .step (.cancel _) | .step .runTimer
  | .step .reset | .step .resetTurn | .clock _ => isTrue trivial

/-- **Step**: every step of the queue is a run of the multi-threaded one,
    which reads its timers when the queue does. -/
theorem Matches.next (h : Matches q a) {l : TimerStep} (hguard : q.guard l) :
    ∃ ks, TinyWS.anyClock.Valid a ks ∧
      (∀ interval, q.ReadsInTime interval (.step l) →
        TinyWS.anyClock.Along (TinyWS.TimerQueue.ReadsInTime interval) a ks) ∧
      Matches (q.next l) (TinyWS.anyClock.run a ks) := by
  have hnoRead : ∀ {ks : List TinyWS.ClockStep}, (∀ k ∈ ks, k ≠ .step .handleRead) →
      ∀ interval, q.ReadsInTime interval (.step l) →
        TinyWS.anyClock.Along (TinyWS.TimerQueue.ReadsInTime interval) a ks :=
    fun hks _ _ => TinyWS.TimerQueue.along_readsInTime hks a
  cases l with
  | elapse d =>
    have hclock := h.setClock (q.clock + d)
    refine ⟨[.clock (q.clock + d)], ⟨trivial, trivial⟩, hnoRead (by simp), h.sound.next hguard,
      hclock.kept, rfl, h.adding, h.fired, ?_⟩
    cases hclock.place with
    | outside resetting phase sets marks =>
      exact .outside resetting phase
        ⟨sets.numCreated, sets.heap, sets.timers_, sets.activeTimers_⟩ marks
    | inside done resetting phase same marks =>
      exact .inside done resetting phase same
        ⟨⟨marks.sets.numCreated, marks.sets.heap, marks.sets.timers_, marks.sets.activeTimers_⟩,
          marks.cancelingTimers_⟩
  | addTimer t timeout interval =>
    obtain ⟨hvalid, hnext⟩ := h.addTimer hguard
    exact ⟨_, hvalid, hnoRead (by simp), hnext⟩
  | cancel t =>
    obtain ⟨hvalid, hnext⟩ := h.cancel hguard
    exact ⟨_, hvalid, hnoRead (by simp), hnext⟩
  | handleRead =>
    -- at the same time
    obtain ⟨hvalid, hnext⟩ := h.handleRead hguard
    exact ⟨_, hvalid, fun interval hread => ⟨(congrArg (· + interval) h.clock).trans_le hread,
      trivial⟩, hnext⟩
  | runTimer =>
    obtain ⟨hvalid, hnext⟩ := h.runTimer hguard
    exact ⟨_, hvalid, hnoRead (by simp), hnext⟩
  | reset =>
    obtain ⟨ks, hvalid, hnone, hnext⟩ := h.reset hguard
    exact ⟨ks, hvalid, hnoRead hnone, hnext⟩
  | resetTurn =>
    obtain ⟨ks, hvalid, hnone, hnext⟩ := h.resetTurn hguard
    exact ⟨ks, hvalid, hnoRead hnone, hnext⟩

theorem Matches.clockStep (h : Matches q a) {l : ClockStep} (hguard : anyClock.guard q l) :
    ∃ ks, TinyWS.anyClock.Valid a ks ∧
      (∀ interval, q.ReadsInTime interval l →
        TinyWS.anyClock.Along (TinyWS.TimerQueue.ReadsInTime interval) a ks) ∧
      Matches (anyClock.next q l) (TinyWS.anyClock.run a ks) := by
  cases l with
  | clock now =>
    exact ⟨[.clock now], ⟨trivial, trivial⟩, fun _ _ => ⟨trivial, trivial⟩, h.setClock now⟩
  | step l => exact h.next hguard

/-- **Run**: every run of the queue is one of the multi-threaded one. -/
theorem Matches.run (h : Matches q a) {steps : List ClockStep}
    (hvalid : anyClock.Valid q steps) :
    ∃ ks, TinyWS.anyClock.Valid a ks ∧
      Matches (anyClock.run q steps) (TinyWS.anyClock.run a ks) := by
  refine anyClock.stuttering_run TinyWS.anyClock Matches (fun q a l h hguard => ?_) h hvalid
  obtain ⟨ks, hvalid, -, hnext⟩ := h.clockStep hguard
  exact ⟨ks, hvalid, hnext⟩

/-- **Run**: and one that reads its timers in time, if the queue does. -/
theorem Matches.run_readsInTime (h : Matches q a) {interval : Int} {steps : List ClockStep}
    (hvalid : anyClock.Valid q steps) (hreads : anyClock.Along (ReadsInTime interval) q steps) :
    ∃ ks, TinyWS.anyClock.Valid a ks ∧
      TinyWS.anyClock.Along (TinyWS.TimerQueue.ReadsInTime interval) a ks ∧
      Matches (anyClock.run q steps) (TinyWS.anyClock.run a ks) := by
  obtain ⟨ks, hboth, hend⟩ := anyClock.stuttering_run TinyWS.anyClock Matches
    (q := fun a k => TinyWS.anyClock.guard a k ∧ a.ReadsInTime interval k)
    (fun q a l h hl => by
      obtain ⟨ks, hvalid, hreads, hnext⟩ := h.clockStep hl.1
      exact ⟨ks, (TinyWS.anyClock.along_and a ks).mpr ⟨hvalid, hreads interval hl.2⟩, hnext⟩)
    h ((anyClock.along_and q steps).mpr ⟨hvalid, hreads⟩)
  obtain ⟨hvalid', hreads'⟩ := (TinyWS.anyClock.along_and a ks).mp hboth
  exact ⟨ks, hvalid', hreads', hend⟩

end Simulation

/-! ## What it gives -/

/-- **Refinement**: for every run of the queue there is one of the
    multi-threaded queue in which the same timers are created and the same
    callbacks are invoked, in the same order and at the same times; and
    outside of `reset` the two containers are the same ones. -/
theorem refines_multiThreaded (clock : Int) (steps : List ClockStep)
    (hvalid : anyClock.Valid (new clock) steps) :
    ∃ ks, TinyWS.anyClock.Valid (TinyWS.TimerQueue.new clock) ks ∧
      let q := anyClock.run (new clock) steps
      let a := TinyWS.anyClock.run (TinyWS.TimerQueue.new clock) ks
      a.fired = q.fired ∧ a.phase = q.phase ∧
        (q.resetting = none →
          a.heap = q.heap ∧ a.timers_ = q.timers_ ∧ a.activeTimers_ = q.activeTimers_) := by
  obtain ⟨ks, hks, h⟩ := (matches_new clock).run hvalid
  refine ⟨ks, hks, h.fired, ?_, fun hnone => ?_⟩
  · cases h.place with
    | outside _ phase => exact phase
    | inside _ _ _ same => exact same
  · obtain ⟨-, hsets, -⟩ := h.outside hnone
    exact ⟨hsets.heap, hsets.timers_, hsets.activeTimers_⟩

/-- A periodic timer that was put back, and one that was cancelled in its
    callback. -/
theorem refines_multiThreaded_turns :
    let steps : List ClockStep :=
      [.step (.addTimer 1 200 500), .step (.addTimer 2 200 300), .clock 250, .step .handleRead,
        .step .runTimer, .step (.cancel 1), .step .runTimer, .step .reset, .clock 240,
        .step .resetTurn, .step .resetTurn]
    ∃ ks, TinyWS.anyClock.Valid (TinyWS.TimerQueue.new 0) ks ∧
      let q := anyClock.run (new 0) steps
      let a := TinyWS.anyClock.run (TinyWS.TimerQueue.new 0) ks
      a.fired = q.fired ∧ a.phase = q.phase ∧
        (q.resetting = none →
          a.heap = q.heap ∧ a.timers_ = q.timers_ ∧ a.activeTimers_ = q.activeTimers_) :=
  refines_multiThreaded 0 _ (by decide +kernel)

/-! ## Firings -/

/-- **No early and no duplicate callback** in the multi-process libraries
    either: a one-shot timer runs at most once and not before its expiry,
    whatever the clock shows and whatever is cancelled, and the callbacks
    of a periodic timer are at least its interval apart if one interval
    after every `handleRead` there are still times of 64 bits. -/
theorem callbacks_spaced (clock : Int) (before after : List ClockStep) (t : TimerPtr)
    (timeout interval : Int)
    (hvalid : anyClock.Valid (new clock) (before ++ .step (.addTimer t timeout interval) :: after))
    (hreads : 0 < interval → anyClock.Along (ReadsInTime interval) (new clock)
      (before ++ .step (.addTimer t timeout interval) :: after)) :
    let f := (anyClock.run (new clock)
      (before ++ .step (.addTimer t timeout interval) :: after)).firings t
    (interval ≤ 0 → f.length ≤ 1) ∧ (∀ now ∈ f, timeout ≤ now) ∧
      (0 < interval → f.IsChain fun now now' => now + interval ≤ now') := by
  obtain ⟨hbefore, hadd, hafter⟩ := (anyClock.valid_append _ _ _).mp hvalid
  -- a run of the multi-threaded queue with the same timers
  obtain ⟨a, h, htime⟩ : ∃ a, Matches (anyClock.run (new clock) before) a ∧
      (0 < interval → a.InTime interval) := by
    by_cases hpos : 0 < interval
    · obtain ⟨ks, hks, hread, h⟩ := (matches_new clock).run_readsInTime hbefore
        ((anyClock.along_append _ _ _).mp (hreads hpos)).1
      refine ⟨_, h, fun _ => ?_⟩
      exact TinyWS.anyClock.invariant_run (TinyWS.TimerQueue.InTime interval)
        (fun _ _ ht hl => TinyWS.TimerQueue.inTime_anyClock ht hl.1 hl.2) (by rintro _ _ _ ⟨⟩)
        ((TinyWS.anyClock.along_and _ ks).mpr ⟨hks, hread⟩)
    · obtain ⟨ks, hks, h⟩ := (matches_new clock).run hbefore
      exact ⟨_, h, fun hpos' => absurd hpos' hpos⟩
  -- it adds the timer as well, and goes on
  obtain ⟨⟨hadd', hloop, -⟩, hadded⟩ := h.addTimer hadd
  obtain ⟨ks, hks, hread, hend⟩ : ∃ ks,
      TinyWS.anyClock.Valid ((a.addTimer t timeout interval).addTimerInLoop t) ks ∧
      (0 < interval → TinyWS.anyClock.Along (TinyWS.TimerQueue.ReadsInTime interval)
        ((a.addTimer t timeout interval).addTimerInLoop t) ks) ∧
      Matches (anyClock.run (anyClock.next (anyClock.run (new clock) before)
        (.step (.addTimer t timeout interval))) after)
        (TinyWS.anyClock.run ((a.addTimer t timeout interval).addTimerInLoop t) ks) := by
    by_cases hpos : 0 < interval
    · obtain ⟨ks, hks, hread, hend⟩ := hadded.run_readsInTime hafter
        ((anyClock.along_append _ _ _).mp (hreads hpos)).2.2
      exact ⟨ks, hks, fun _ => hread, hend⟩
    · obtain ⟨ks, hks, hend⟩ := hadded.run hafter
      exact ⟨ks, hks, fun hpos' => absurd hpos' hpos, hend⟩
  have hvalid : TinyWS.anyClock.Valid (a.addTimer t timeout interval)
      (.step (.addTimerInLoop t) :: ks) := ⟨hloop, hks⟩
  have hspaced := TinyWS.TimerQueue.spaced_run_readsInTime
    (TinyWS.TimerQueue.spaced_addTimer h.kept hadd'.2)
    (TinyWS.TimerQueue.kept_anyClock h.kept hadd') htime hvalid
    fun hpos => ⟨trivial, hread hpos⟩
  intro f
  have hf : f = (TinyWS.anyClock.run (a.addTimer t timeout interval)
      (.step (.addTimerInLoop t) :: ks)).firings t := by
    show TinyWS.TimerQueue.firings (anyClock.run (new clock) (before ++ _)).toTimerQueue t = _
    rw [anyClock.run_append]
    exact TinyWS.TimerQueue.firings_congr hend.fired.symm t
  rw [hf]
  exact ⟨hspaced.once, hspaced.late, fun _ => hspaced.chain⟩

/-- A periodic timer runs in two batches. -/
theorem callbacks_spaced_twice :
    let steps : List ClockStep :=
      [.clock 250, .step .handleRead, .step .runTimer, .step .reset, .step .resetTurn, .clock 800,
        .step .handleRead, .step .runTimer]
    let q := anyClock.run (new 0) ([] ++ .step (.addTimer 1 200 500) :: steps)
    q.firings 1 = [250, 800] ∧ (q.firings 1).IsChain fun now now' => now + 500 ≤ now' :=
  ⟨by decide +kernel,
    (callbacks_spaced 0 [] _ 1 200 500 (by decide +kernel) fun _ => by decide +kernel).2.2
      (by decide)⟩

/-! ## Cancelled timers -/

/-- No continuation of the run invokes the callback of `t`. -/
def NeverAgain (q : TimerQueue) (t : TimerPtr) : Prop :=
  ∀ after, anyClock.Valid q after → (anyClock.run q after).firings t = q.firings t

/-- A timer of the batch that is still to be run can be run. -/
theorem canRun_of_toRun {t : TimerPtr} (n : Nat) {now : Int} {expired : List Entry}
    (rest : List Entry) :
    ∀ {q : TimerQueue}, q.resetting = none → q.phase = .calling now expired rest →
      t ∈ rest.map Entry.timer → n ≤ (q.firings t).length →
      anyClock.CanReach (fun q' => n < (q'.firings t).length) q := by
  induction rest with
  | nil =>
    intro q _ _ hmem
    cases hmem
  | cons e rest ih =>
    intro q hnone hphase hmem hn
    have hguard : anyClock.guard q (.step .runTimer) := ⟨hnone, now, expired, e, rest, hphase⟩
    have hnext := next_runTimer hphase
    have hfirings : (q.next .runTimer).firings t =
        q.firings t ++ if e.timer = t then [now] else [] :=
      TinyWS.TimerQueue.firings_runTimer hphase t
    refine anyClock.canReach_step hguard ?_
    by_cases het : e.timer = t
    · apply anyClock.canReach_now
      show n < ((q.next .runTimer).firings t).length
      rw [hfirings, if_pos het, List.length_append, List.length_singleton]
      omega
    · -- another one runs first
      rw [if_neg het, List.append_nil] at hfirings
      refine ih (q := q.next .runTimer) ?_ ?_ ?_ ?_
      · rw [hnext]
        exact hnone
      · rw [hnext]
      · exact (List.mem_cons.mp hmem).resolve_left fun heq => het heq.symm
      · rw [hfirings]
        exact hn

/-- **When a cancelled timer never fires again** in the multi-process
    libraries: after any run, exactly when `cancel` does not find it among
    the timers of the batch that are still to be run. -/
theorem cancelled_iff (clock : Int) (before : List ClockStep) (t : TimerPtr)
    (hvalid : anyClock.Valid (new clock) (before ++ [.step (.cancel t)])) :
    (anyClock.run (new clock) (before ++ [.step (.cancel t)])).NeverAgain t ↔
      t ∉ (anyClock.run (new clock) before).toRun := by
  obtain ⟨hbefore, hcancel, -⟩ := (anyClock.valid_append _ _ _).mp hvalid
  obtain ⟨ks, hks, h⟩ := (matches_new clock).run hbefore
  rw [anyClock.run_append]
  generalize anyClock.run (new clock) before = q at hcancel h
  obtain ⟨⟨⟨hnone, hcode⟩, hknown⟩, hmatched⟩ := And.intro hcancel (h.cancel hcancel)
  obtain ⟨⟨hcancel', -⟩, hmatches⟩ := hmatched
  obtain ⟨hphase, -, -⟩ := h.outside hnone
  obtain ⟨-, hfired, hsame⟩ := cancel_rest hknown
  have htoRun : (TinyWS.anyClock.run (TinyWS.TimerQueue.new clock) ks).toRun = q.toRun := by
    rw [TinyWS.TimerQueue.toRun, TinyWS.TimerQueue.toRun, hphase]
  constructor
  · -- the loop in `handleRead` gets to it
    intro hnever hmem
    unfold TinyWS.TimerQueue.toRun at hmem
    split at hmem
    next now expired rest hcalling =>
      obtain ⟨after, hafter, hlt⟩ := canRun_of_toRun (q := q.next (.cancel t)) _ rest hnone
        (hsame.trans hcalling) hmem le_rfl
      have hagain := hnever after hafter
      exact absurd (congrArg List.length hagain) hlt.ne'
    next => cases hmem
    next => cases hmem
  · intro hrest after hafter
    obtain ⟨ks', hks', hend⟩ := hmatches.run hafter
    have hsilent := TinyWS.TimerQueue.silent_cancelInLoop h.kept hcancel'
      (by rw [h.adding]; exact List.not_mem_nil) (htoRun ▸ hrest)
    have hrun := TinyWS.TimerQueue.silent_run hsilent
      (TinyWS.TimerQueue.kept_anyClock h.kept hcancel') hks'
    -- the callbacks of the two are the same before and after
    have hbefore' := TinyWS.TimerQueue.firings_congr hmatches.fired t
    have hafter' := TinyWS.TimerQueue.firings_congr hend.fired t
    exact (hafter'.symm.trans hrun).trans hbefore'

/-- A periodic timer that cancels itself in its callback. -/
theorem cancelled_iff_itself :
    let steps : List ClockStep :=
      [.step (.addTimer 1 200 500), .clock 250, .step .handleRead, .step .runTimer]
    (anyClock.run (new 0) (steps ++ [.step (.cancel 1)])).NeverAgain 1 :=
  (cancelled_iff 0 _ 1 (by decide +kernel)).mpr (by decide +kernel)

end TimerQueue

end Process

end TinyWS
