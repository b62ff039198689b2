import TinyWS.Net.TimerLoop

/-! # A Functor Finds its Timer

    The run-level argument over the owners: what a step does not take is
    still owned after it, if only by another owner, and so a timer that is
    about to be cancelled lives until the functor has locked it. -/

namespace TinyWS

open Std

namespace EventLoop

variable {F : Type}

/-- The functors that are to be run. -/
def queued (s : EventLoop F) : List F := s.batch ++ s.pendingFunctors_

theorem queued_pushBack (s : EventLoop F) (f : F) : (s.pushBack f).queued = s.queued ++ [f] :=
  (List.append_assoc s.batch s.pendingFunctors_ [f]).symm

/-- With or without the wakeup. -/
theorem queueInLoop_frame (s : EventLoop F) (f : F) :
    (s.queueInLoop f).queued = s.queued ++ [f] ∧ (s.queueInLoop f).pushing = s.pushing := by
  unfold queueInLoop
  split
  · exact ⟨queued_pushBack s f, rfl⟩
  · exact ⟨queued_pushBack s f, rfl⟩

/-- A step that neither runs nor pushes a functor leaves all of them. -/
theorem queued_next {s : EventLoop F} (h : s.InOrder) {l : LoopStep F}
    (hguard : (eventLoop F).guard s l) (hexecuted : (s.next l).executed = s.executed)
    (hpushed : (s.next l).pushed = s.pushed) : (s.next l).queued = s.queued := by
  have h' := inOrder_next h hguard
  rw [InOrder, hexecuted, hpushed, ← show _ = s.pushed from h, List.append_assoc,
    List.append_assoc] at h'
  exact List.append_cancel_left h'

end EventLoop

namespace TimerLoop

open TimerQueue (Moves moves_of_eq moves_addTimer moves_addTimerInLoop moves_cancelLocked
  moves_reset)

/-! ## Owners from step to step -/

theorem alive_iff {s : TimerLoop} {t : TimerPtr} : s.Alive t ↔ ∃ o, s.Owns t o := by
  constructor
  · rintro ⟨o, -, h⟩
    exact ⟨o, h⟩
  · rintro ⟨o, h⟩
    refine ⟨o, ?_, h⟩
    cases o with
    | call thread =>
      obtain ⟨c, hc, rfl, -⟩ := h
      exact List.mem_append_right _ (List.mem_map_of_mem hc)
    | adding | sets | cancelingTimers | expiredTimers | ran => simp [owners]

/-- What a step does to the owners: what it does not take is owned after
    it, and what is owned after it is known. -/
structure StepOwners (s : TimerLoop) (l : TimerLoopStep) : Prop where
  heap : ∀ t ∈ s.timers.heap, t ∈ (s.next l).timers.heap
  known : ∀ t, (s.next l).Alive t → s.Alive t ∨ t ∈ (s.next l).timers.heap
  kept : ∀ t o, s.Owns t o → s.takes t l o = false → (s.next l).Alive t

section Around

variable {s : TimerLoop} {l : TimerLoopStep}

/-- The vector of `handleRead` stays as it is, or it is taken. -/
structure VectorKept (s : TimerLoop) (l : TimerLoopStep) : Prop where
  kept : ∀ t, s.takes t l .expiredTimers = true ∨ (s.next l).expiredTimers = s.expiredTimers
  known : ∀ es ∈ (s.next l).expiredTimers, es ∈ s.expiredTimers

/-- The functors of the batch that have run stay, or they are taken. -/
structure RanKept (s : TimerLoop) (l : TimerLoopStep) : Prop where
  kept : ∀ t, s.takes t l .ran = true ∨ ∀ f ∈ s.ran, f ∈ (s.next l).ran
  known : ∀ f ∈ (s.next l).ran, f ∈ s.ran ∨ ∀ t ∈ f.timer?, t ∈ (s.next l).timers.heap

/-- The calls of other threads stay, or they are taken. -/
structure CallsKept (s : TimerLoop) (l : TimerLoopStep) : Prop where
  kept : ∀ c ∈ s.calls, ∀ t, s.takes t l (.call c.1) = true ∨ c ∈ (s.next l).calls
  known : ∀ c ∈ (s.next l).calls, c ∈ s.calls ∨ ∀ t ∈ c.2.timer?, t ∈ (s.next l).timers.heap

theorem vectorKept_of_eq (h : (s.next l).expiredTimers = s.expiredTimers) : VectorKept s l :=
  ⟨fun _ => Or.inr h, fun _ hes => h ▸ hes⟩

theorem ranKept_of_eq (h : (s.next l).ran = s.ran) : RanKept s l :=
  ⟨fun _ => Or.inr fun _ hf => h ▸ hf, fun _ hf => Or.inl (h ▸ hf)⟩

theorem callsKept_of_eq (h : (s.next l).calls = s.calls) : CallsKept s l :=
  ⟨fun _ hc _ => Or.inr (h ▸ hc), fun _ hc => Or.inl (h ▸ hc)⟩

/-- A call that begins brings a functor whose timer is known. -/
theorem callsKept_of_begin {thread : ThreadId} {f : TimerFunctor}
    (h : (s.next l).calls = (thread, f) :: s.calls)
    (hf : ∀ t ∈ f.timer?, t ∈ (s.next l).timers.heap) : CallsKept s l := by
  refine ⟨fun c hc _ => ?_, fun c hc => ?_⟩
  · rw [h]
    exact Or.inr (List.mem_cons_of_mem _ hc)
  · rw [h] at hc
    rcases List.mem_cons.mp hc with rfl | hc
    · exact Or.inr hf
    · exact Or.inl hc

variable {P : TimerPtr → Prop}

/-- Whoever owns a timer after the step owned it before, or the timer is
    known. -/
theorem known_of_moves (hmoves : Moves s.timers (s.next l).timers P) (hvector : VectorKept s l)
    (hran : RanKept s l) (hcalls : CallsKept s l) {t : TimerPtr} {o : Owner}
    (ho : (s.next l).Owns t o) : s.Alive t ∨ t ∈ (s.next l).timers.heap := by
  have hqueue : (s.next l).timers.Holds t → s.Alive t ∨ t ∈ (s.next l).timers.heap := by
    intro hq
    rcases hmoves.known t hq with (hq | hq | hq) | hq
    · exact Or.inl (alive_iff.mpr ⟨.adding, hq⟩)
    · exact Or.inl (alive_iff.mpr ⟨.sets, hq⟩)
    · exact Or.inl (alive_iff.mpr ⟨.cancelingTimers, hq⟩)
    · exact Or.inr hq
  cases o with
  | adding => exact hqueue (Or.inl ho)
  | sets => exact hqueue (Or.inr (Or.inl ho))
  | cancelingTimers => exact hqueue (Or.inr (Or.inr ho))
  | expiredTimers =>
    obtain ⟨es, hes, ht⟩ := ho
    exact Or.inl (alive_iff.mpr ⟨.expiredTimers, es, hvector.known es hes, ht⟩)
  | ran =>
    rcases hran.known _ ho with h | h
    · exact Or.inl (alive_iff.mpr ⟨.ran, h⟩)
    · exact Or.inr (h t rfl)
  | call thread =>
    obtain ⟨c, hc, hthread, ht⟩ := ho
    rcases hcalls.known c hc with h | h
    · exact Or.inl (alive_iff.mpr ⟨.call thread, c, h, hthread, ht⟩)
    · exact Or.inr (h t ht)

/-- What a step does not take from an owner is owned after it. -/
theorem alive_of_moves (hmoves : Moves s.timers (s.next l).timers P)
    (hcancelled : ∀ t, P t → s.takes t l .sets = true) (hvector : VectorKept s l)
    (hran : RanKept s l) (hcalls : CallsKept s l) {t : TimerPtr} {o : Owner} (ho : s.Owns t o)
    (hnot : s.takes t l o = false) : (s.next l).Alive t := by
  rw [alive_iff]
  cases o with
  | adding =>
    rcases hmoves.adding t ho with h | h
    · exact ⟨.adding, h⟩
    · exact ⟨.sets, h⟩
  | sets =>
    refine ⟨.sets, hmoves.sets t ho fun hc => ?_⟩
    rw [hcancelled t hc] at hnot
    cases hnot
  | cancelingTimers => exact ⟨.cancelingTimers, hmoves.canceling t ho⟩
  | expiredTimers =>
    rcases hvector.kept t with h | h
    · rw [h] at hnot
      cases hnot
    · obtain ⟨es, hes, ht⟩ := ho
      exact ⟨.expiredTimers, es, h ▸ hes, ht⟩
  | ran =>
    rcases hran.kept t with h | h
    · rw [h] at hnot
      cases hnot
    · exact ⟨.ran, h _ ho⟩
  | call thread =>
    obtain ⟨c, hc, rfl, ht⟩ := ho
    rcases hcalls.kept c hc t with h | h
    · rw [h] at hnot
      cases hnot
    · exact ⟨.call c.1, c, h, rfl, ht⟩

/-- The owners of the queue move as the queue says, and those around it
    stay or are taken. -/
theorem stepOwners_of_moves (hmoves : Moves s.timers (s.next l).timers P)
    (hcancelled : ∀ t, P t → s.takes t l .sets = true) (hvector : VectorKept s l)
    (hran : RanKept s l) (hcalls : CallsKept s l) : s.StepOwners l := by
  refine ⟨hmoves.heap, fun t halive => ?_, fun t o ho hnot => ?_⟩
  · obtain ⟨o, ho⟩ := alive_iff.mp halive
    exact known_of_moves hmoves hvector hran hcalls ho
  · exact alive_of_moves hmoves hcancelled hvector hran hcalls ho hnot

end Around

theorem next_handleRead (s : TimerLoop) : s.next .handleRead =
    { s with
      timers := s.timers.handleRead
      expiredTimers := some (s.timers.expiredAt s.timers.clock) } := rfl

/-- `handleRead` makes no owner: what it collects was in the sets. -/
theorem alive_of_handleRead {s : TimerLoop} {t : TimerPtr} (h : (s.next .handleRead).Alive t) :
    s.Alive t := by
  obtain ⟨-, -, hadding, -, -⟩ := s.timers.handleRead_spec
  rw [next_handleRead] at h
  obtain ⟨o, ho⟩ := alive_iff.mp h
  rw [alive_iff]
  cases o with
  | adding =>
    change t ∈ s.timers.handleRead.adding at ho
    rw [hadding] at ho
    exact ⟨.adding, ho⟩
  | sets => exact ⟨.sets, s.timers.inSets_handleRead.1 ho⟩
  | cancelingTimers =>
    -- it was cleared
    obtain ⟨a, ha, -⟩ := ho
    exact absurd ha ExtTreeSet.not_mem_empty
  | expiredTimers =>
    obtain ⟨es, hes, ht⟩ := ho
    cases hes
    exact ⟨.sets, s.timers.inSets_of_expiredAt ht⟩
  | ran =>
    change .addTimerInLoop t ∈ s.ran at ho
    exact ⟨.ran, ho⟩
  | call thread =>
    change ∃ c ∈ s.calls, c.1 = thread ∧ c.2.timer? = some t at ho
    exact ⟨.call thread, ho⟩

/-- `handleRead` collects from the sets into its vector. -/
theorem stepOwners_handleRead (s : TimerLoop) (hreturned : s.expiredTimers = none) :
    s.StepOwners .handleRead := by
  obtain ⟨-, hheap, hadding, -, -⟩ := s.timers.handleRead_spec
  refine ⟨fun t h => ?_, fun t halive => .inl (alive_of_handleRead halive), fun t o ho hnot => ?_⟩
  · rw [next_handleRead]
    show t ∈ s.timers.handleRead.heap
    rw [hheap]
    exact h
  · rw [next_handleRead, alive_iff]
    cases o with
    | adding =>
      change t ∈ s.timers.adding at ho
      rw [← hadding] at ho
      exact ⟨.adding, ho⟩
    | sets =>
      rcases s.timers.inSets_handleRead.2 ho with h | h
      · exact ⟨.sets, h⟩
      · exact ⟨.expiredTimers, _, rfl, h⟩
    | cancelingTimers => cases hnot
    | expiredTimers =>
      -- the vector of the last call is gone
      obtain ⟨es, hes, -⟩ := ho
      rw [hreturned] at hes
      cases hes
    | ran =>
      change .addTimerInLoop t ∈ s.ran at ho
      exact ⟨.ran, ho⟩
    | call thread =>
      change ∃ c ∈ s.calls, c.1 = thread ∧ c.2.timer? = some t at ho
      exact ⟨.call thread, ho⟩

/-- Only the queue changes. -/
theorem stepOwners_of_timers {s : TimerLoop} {l : TimerLoopStep} {q : TimerQueue}
    (hnext : s.next l = { s with timers := q }) {P : TimerPtr → Prop}
    (hmoves : Moves s.timers q P)
    (hcancelled : ∀ t, P t → s.takes t l .sets = true) : s.StepOwners l := by
  have htimers : (s.next l).timers = q := by rw [hnext]
  refine stepOwners_of_moves (htimers ▸ hmoves) hcancelled (vectorKept_of_eq ?_)
    (ranKept_of_eq ?_) (callsKept_of_eq ?_)
  all_goals rw [hnext]

/-- Only the loop and the calls change. -/
theorem stepOwners_of_calls {s : TimerLoop} {l : TimerLoopStep} (loop : EventLoop TimerFunctor)
    (calls : List (ThreadId × TimerFunctor))
    (hnext : s.next l = { s with loop := loop, calls := calls }) (hcalls : CallsKept s l) :
    s.StepOwners l := by
  have hmoves : Moves s.timers (s.next l).timers fun _ => False := by
    rw [hnext]
    exact moves_of_eq rfl rfl rfl rfl rfl
  refine stepOwners_of_moves hmoves (fun _ h => h.elim) (vectorKept_of_eq ?_)
    (ranKept_of_eq ?_) hcalls
  all_goals rw [hnext]

/-- A call begins. -/
theorem stepOwners_of_begin {s : TimerLoop} {l : TimerLoopStep} {q : TimerQueue}
    (thread : ThreadId) (f : TimerFunctor)
    (hnext : s.next l = { s with timers := q, calls := (thread, f) :: s.calls })
    (hmoves : Moves s.timers q fun _ => False) (hf : ∀ t ∈ f.timer?, t ∈ q.heap) :
    s.StepOwners l := by
  have htimers : (s.next l).timers = q := by rw [hnext]
  have hcalls : (s.next l).calls = (thread, f) :: s.calls := by rw [hnext]
  refine stepOwners_of_moves (htimers ▸ hmoves) (fun _ h => h.elim) (vectorKept_of_eq ?_)
    (ranKept_of_eq ?_) (callsKept_of_begin hcalls (htimers ▸ hf))
  all_goals rw [hnext]

/-- What holds of the timers and their owners in every state, as long as
    the last owner is not taken from a timer that is about to be
    cancelled. -/
structure Owned (s : TimerLoop) : Prop where
  order : s.loop.InOrder
  known : ∀ t, s.Alive t → t ∈ s.timers.heap
  functors : ∀ f ∈ s.onTheWay, ∀ t ∈ f.timer?, t ∈ s.timers.heap
  alive : ∀ f ∈ s.onTheWay, ∀ t ∈ f.cancels, s.Alive t
  cancelTimer : .cancelTimer ∉ s.timers.failedAsserts

theorem lock_ne_none {s : TimerLoop} {t : TimerPtr} (h : s.lock t ≠ none) :
    t ∈ s.timers.heap := by
  rw [ExtTreeMap.mem_iff_isSome_getElem?, Option.isSome_iff_ne_none]
  intro hnone
  apply h
  rw [lock, hnone, ite_self]

/-- A functor that is called, with what it takes. -/
theorem moves_runFunctor {s : TimerLoop} {f : TimerFunctor}
    (hf : ∀ t ∈ f.timer?, t ∈ s.timers.heap) :
    Moves s.timers (s.runFunctor f) fun t => f = .cancelInLoop t := by
  cases f with
  | addTimerInLoop u => exact (moves_addTimerInLoop s.timers (hf u rfl)).weaken fun _ h => h.elim
  | cancelInLoop u =>
    refine (moves_cancelLocked s.timers lock_ne_none).weaken ?_
    rintro t rfl
    rfl
  | user => exact (moves_of_eq rfl rfl rfl rfl rfl).weaken fun _ h => h.elim

theorem next_runFunctor {s : TimerLoop} {f : TimerFunctor} {fs : List TimerFunctor}
    (hpc : s.loop.pc = .running (f :: fs)) :
    s.next (.loop .runFunctor) =
      { s with
        loop := s.loop.next .runFunctor
        timers := s.runFunctor f
        ran := s.ran ++ [f] } := by
  simp only [next, EventLoop.batch_running hpc]

theorem mem_onTheWay_of_queued {s : TimerLoop} {f : TimerFunctor} (h : f ∈ s.loop.queued) :
    f ∈ s.onTheWay :=
  List.mem_append_left _ h

theorem stepOwners_runFunctor {s : TimerLoop} (h : s.Owned) {f : TimerFunctor}
    {fs : List TimerFunctor} (hpc : s.loop.pc = .running (f :: fs)) :
    s.StepOwners (.loop .runFunctor) := by
  have hnext := next_runFunctor hpc
  have hbatch := EventLoop.batch_running hpc
  have hf : ∀ t ∈ f.timer?, t ∈ s.timers.heap := by
    refine h.functors f (mem_onTheWay_of_queued ?_)
    rw [EventLoop.queued, hbatch]
    simp
  have hmoves := moves_runFunctor hf
  have htimers : (s.next (.loop .runFunctor)).timers = s.runFunctor f := by rw [hnext]
  have hran : (s.next (.loop .runFunctor)).ran = s.ran ++ [f] := by rw [hnext]
  refine stepOwners_of_moves (htimers ▸ hmoves) ?_ (vectorKept_of_eq ?_) ⟨fun _ => ?_, ?_⟩
    (callsKept_of_eq ?_)
  · rintro t rfl
    simp [takes, hbatch]
  · rw [hnext]
  · rw [hran]
    exact Or.inr fun _ h => List.mem_append_left _ h
  · intro f' hf'
    rw [hran] at hf'
    rcases List.mem_append.mp hf' with hf' | hf'
    · exact Or.inl hf'
    · rw [List.mem_singleton.mp hf', htimers]
      exact Or.inr fun t ht => hmoves.heap t (hf t ht)
  · rw [hnext]

theorem stepOwners_loop {s : TimerLoop} (h : s.Owned) {l : LoopStep TimerFunctor}
    (hguard : s.guard (.loop l)) : s.StepOwners (.loop l) := by
  have hloop : ∀ l' loop, s.next l' = { s with loop := loop } → s.StepOwners l' := by
    intro l' loop hnext
    refine stepOwners_of_calls loop s.calls hnext (callsKept_of_eq ?_)
    rw [hnext]
  cases l with
  | runFunctor =>
    obtain ⟨f, fs, hpc⟩ := EventLoop.pc_of_runFunctor hguard.2.1
    exact stepOwners_runFunctor h hpc
  | batchReleased =>
    refine stepOwners_of_moves (moves_of_eq rfl rfl rfl rfl rfl) (fun _ h => h.elim)
      (vectorKept_of_eq rfl) ⟨fun _ => Or.inl rfl, fun f hf => ?_⟩ (callsKept_of_eq rfl)
    cases hf
  | push thread f | wakeup thread | quit thread | quitWakeup thread | queueInLoop f | quitInLoop
  | enterLoop | testQuit | pollReturn w | handleRead | handled | swapFunctors | batchDone =>
    exact hloop _ _ rfl

theorem stepOwners_next {s : TimerLoop} (h : s.Owned) {l : TimerLoopStep} (hguard : s.guard l) :
    s.StepOwners l := by
  cases l with
  | elapse d => exact stepOwners_of_timers rfl (moves_of_eq rfl rfl rfl rfl rfl) fun _ h => h.elim
  | addTimer thread t timeout interval =>
    refine stepOwners_of_begin thread (.addTimerInLoop t) rfl
      (moves_addTimer s.timers t timeout interval) fun u hu => ?_
    cases hu
    exact ExtTreeMap.mem_insert.mpr (Or.inl ReflCmp.compare_self)
  | cancel thread t =>
    refine stepOwners_of_begin thread (.cancelInLoop t) rfl (moves_of_eq rfl rfl rfl rfl rfl)
      fun u hu => ?_
    cases hu
    exact h.known t hguard.2
  | runInLoop thread =>
    refine stepOwners_of_begin thread .user rfl (moves_of_eq rfl rfl rfl rfl rfl) fun u hu => ?_
    cases hu
  | push thread f =>
    exact stepOwners_of_calls _ s.calls rfl (callsKept_of_eq rfl)
  | wakeup thread =>
    -- the call of this thread is over, the others go on
    refine stepOwners_of_calls _ _ rfl
      ⟨fun c hc t => ?_, fun _ hc => Or.inl (List.mem_of_mem_filter hc)⟩
    by_cases heq : c.1 = thread
    · exact Or.inl (beq_iff_eq.mpr heq)
    · exact Or.inr (List.mem_filter.mpr ⟨hc, bne_iff_ne.mpr heq⟩)
  | loop l => exact stepOwners_loop h hguard
  | handleRead => exact stepOwners_handleRead s hguard.2.1
  | runTimer =>
    obtain ⟨now, expired, e, rest, hphase⟩ := hguard
    refine stepOwners_of_timers rfl (P := fun _ => False) ?_ fun _ h => h.elim
    rw [TimerQueue.next_runTimer hphase]
    exact moves_of_eq rfl rfl rfl rfl rfl
  | reset =>
    obtain ⟨now, expired, hphase⟩ := hguard
    refine stepOwners_of_timers rfl (P := fun _ => False) ?_ fun _ h => h.elim
    rw [TimerQueue.next_reset hphase]
    exact moves_reset (fun t ht => h.known t (alive_iff.mpr ⟨.sets, ht⟩)) expired now
  | resetTimerfd =>
    obtain ⟨expired, when_, hphase⟩ := hguard
    refine stepOwners_of_timers rfl (P := fun _ => False) ?_ fun _ h => h.elim
    rw [TimerQueue.next_resetTimerfd hphase]
    exact moves_of_eq rfl rfl rfl rfl rfl
  | handleReadReturn =>
    -- the vector is destroyed
    refine stepOwners_of_moves (moves_of_eq rfl rfl rfl rfl rfl) (fun _ h => h.elim)
      ⟨fun _ => Or.inl rfl, fun _ h => ?_⟩ (ranKept_of_eq rfl) (callsKept_of_eq rfl)
    cases h
  | addTimerHere t timeout interval =>
    have hmem : t ∈ (s.timers.addTimer t timeout interval).heap :=
      ExtTreeMap.mem_insert.mpr (Or.inl ReflCmp.compare_self)
    exact stepOwners_of_timers rfl
      ((moves_addTimer s.timers t timeout interval).trans (moves_addTimerInLoop _ hmem))
      fun _ h => h.elim
  | cancelHere t =>
    refine stepOwners_of_timers rfl (moves_cancelLocked s.timers lock_ne_none) ?_
    rintro u rfl
    exact beq_self_eq_true _

/-! ## Functors on their way -/

theorem mem_onTheWay {s : TimerLoop} {f : TimerFunctor} :
    f ∈ s.onTheWay ↔
      f ∈ s.loop.queued ∨ ∃ c ∈ s.calls, c.1 ∉ s.loop.pushing ∧ c.2 = f := by
  simp [onTheWay, EventLoop.queued, or_assoc]

/-- A call that begins brings one functor. -/
theorem mem_onTheWay_call {s s' : TimerLoop} {thread : ThreadId} {f f' : TimerFunctor}
    (hloop : s'.loop = s.loop) (hcalls : s'.calls = (thread, f') :: s.calls)
    (h : f ∈ s'.onTheWay) : f ∈ s.onTheWay ∨ f = f' := by
  rw [mem_onTheWay, hloop, hcalls] at h
  rcases h with h | ⟨c, hc, hpushing, rfl⟩
  · exact Or.inl (mem_onTheWay_of_queued h)
  · rcases List.mem_cons.mp hc with rfl | hc
    · exact Or.inr rfl
    · exact Or.inl (mem_onTheWay.mpr (Or.inr ⟨c, hc, hpushing, rfl⟩))

theorem mem_onTheWay_push {s : TimerLoop} {thread : ThreadId} {f f' : TimerFunctor}
    (hguard : s.guard (.push thread f')) (h : f ∈ (s.next (.push thread f')).onTheWay) :
    f ∈ s.onTheWay := by
  obtain ⟨hcall, hpushing⟩ := hguard
  rcases mem_onTheWay.mp h with h | ⟨c, hc, hc', rfl⟩
  · change f ∈ (s.loop.pushBack f').queued at h
    rw [EventLoop.queued_pushBack] at h
    rcases List.mem_append.mp h with h | h
    · exact mem_onTheWay_of_queued h
    · -- it was with its thread
      rw [List.mem_singleton.mp h]
      exact mem_onTheWay.mpr (Or.inr ⟨(thread, f'), hcall, hpushing, rfl⟩)
  · refine mem_onTheWay.mpr (Or.inr ⟨c, hc, fun hp => hc' ?_, rfl⟩)
    exact List.mem_cons_of_mem _ hp

theorem mem_onTheWay_wakeup {s : TimerLoop} {thread : ThreadId} {f : TimerFunctor}
    (h : f ∈ (s.next (.wakeup thread)).onTheWay) : f ∈ s.onTheWay := by
  rcases mem_onTheWay.mp h with h | ⟨c, hc, hc', rfl⟩
  · exact mem_onTheWay_of_queued h
  · obtain ⟨hmem, hne⟩ := List.mem_filter.mp hc
    refine mem_onTheWay.mpr (Or.inr ⟨c, hmem, fun hp => hc' ?_, rfl⟩)
    exact (List.mem_erase_of_ne (bne_iff_ne.mp hne)).mpr hp

/-- The functor that is called is no longer on its way. -/
theorem mem_onTheWay_runFunctor {s : TimerLoop} {f f' : TimerFunctor} {fs : List TimerFunctor}
    (hpc : s.loop.pc = .running (f' :: fs)) (hf : f ∈ (s.next (.loop .runFunctor)).onTheWay) :
    f ∈ s.onTheWay.tail := by
  have hloop : s.loop.next .runFunctor =
      { s.loop with executed := s.loop.executed ++ [f'], pc := .running fs } := by
    simp [EventLoop.next, hpc]
  rw [next_runFunctor hpc, mem_onTheWay, hloop] at hf
  rw [onTheWay, EventLoop.batch_running hpc]
  rcases hf with hf | ⟨c, hc, hc', rfl⟩
  · exact List.mem_append_left _ hf
  · refine List.mem_append_right _ (List.mem_map_of_mem (List.mem_filter.mpr ⟨hc, ?_⟩))
    exact decide_eq_true hc'

/-- `queueInLoop` inside the loop brings its own functor. -/
theorem mem_onTheWay_queueInLoop {s : TimerLoop} {f f' : TimerFunctor}
    (hf : f ∈ (s.next (.loop (.queueInLoop f'))).onTheWay) : f ∈ s.onTheWay ∨ f = f' := by
  obtain ⟨hqueued, hpushing⟩ := s.loop.queueInLoop_frame f'
  rcases mem_onTheWay.mp hf with hf | ⟨c, hc, hc', rfl⟩
  · change f ∈ (s.loop.queueInLoop f').queued at hf
    rw [hqueued] at hf
    rcases List.mem_append.mp hf with hf | hf
    · exact Or.inl (mem_onTheWay_of_queued hf)
    · exact Or.inr (List.mem_singleton.mp hf)
  · left
    change c.1 ∉ (s.loop.queueInLoop f').pushing at hc'
    rw [hpushing] at hc'
    exact mem_onTheWay.mpr (Or.inr ⟨c, hc, hc', rfl⟩)

/-- A step of the loop brings nothing but the user's functors. -/
theorem mem_onTheWay_loop {s : TimerLoop} (h : s.Owned) {l : LoopStep TimerFunctor}
    (hguard : s.guard (.loop l)) {f : TimerFunctor} (hf : f ∈ (s.next (.loop l)).onTheWay) :
    f ∈ s.leftOnTheWay (.loop l) ∨ f = .user := by
  have hsame : (s.next (.loop l)).loop = s.loop.next l → (s.next (.loop l)).calls = s.calls →
      (s.loop.next l).pushing = s.loop.pushing → (s.loop.next l).executed = s.loop.executed →
      (s.loop.next l).pushed = s.loop.pushed → f ∈ s.onTheWay := by
    intro hloop hcalls hpushing hexecuted hpushed
    have hqueued := EventLoop.queued_next h.order hguard.2 hexecuted hpushed
    rw [mem_onTheWay, hloop, hcalls, hpushing, hqueued] at hf
    exact mem_onTheWay.mpr hf
  cases l with
  | push thread f => exact hguard.1.elim
  | wakeup thread => exact hguard.1.elim
  | runFunctor =>
    obtain ⟨f', fs, hpc⟩ := EventLoop.pc_of_runFunctor hguard.2.1
    exact Or.inl (mem_onTheWay_runFunctor hpc hf)
  | queueInLoop f' =>
    have huser : f' = .user := hguard.1
    exact (mem_onTheWay_queueInLoop hf).imp id fun heq => heq.trans huser
  | testQuit =>
    left
    have htest : (s.loop.next .testQuit).pushing = s.loop.pushing ∧
        (s.loop.next .testQuit).executed = s.loop.executed ∧
        (s.loop.next .testQuit).pushed = s.loop.pushed := by
      simp only [EventLoop.next]
      split
      · exact ⟨rfl, rfl, rfl⟩
      · exact ⟨rfl, rfl, rfl⟩
    exact hsame rfl rfl htest.1 htest.2.1 htest.2.2
  | quit thread | quitWakeup thread | quitInLoop | enterLoop | pollReturn w | handleRead
  | handled | swapFunctors | batchDone | batchReleased =>
    exact Or.inl (hsame rfl rfl rfl rfl rfl)

/-- What is on its way after a step was, or its timer belongs to the call
    that has just begun. -/
theorem onTheWay_next {s : TimerLoop} (h : s.Owned) {l : TimerLoopStep} (hguard : s.guard l)
    {f : TimerFunctor} (hf : f ∈ (s.next l).onTheWay) :
    f ∈ s.leftOnTheWay l ∨ ∀ t ∈ f.timer?, (s.next l).Alive t := by
  have hcall : ∀ (s' : TimerLoop) (thread : ThreadId) (f' : TimerFunctor),
      s'.loop = s.loop → s'.calls = (thread, f') :: s.calls → f ∈ s'.onTheWay →
        f ∈ s.onTheWay ∨ ∀ t ∈ f.timer?, s'.Alive t := by
    intro s' thread f' hloop hcalls hf
    refine (mem_onTheWay_call hloop hcalls hf).imp id ?_
    rintro rfl t ht
    refine alive_iff.mpr ⟨.call thread, (thread, f), ?_, rfl, ht⟩
    rw [hcalls]
    exact List.mem_cons_self
  cases l with
  | addTimer thread t timeout interval => exact hcall _ thread _ rfl rfl hf
  | cancel thread t => exact hcall _ thread _ rfl rfl hf
  | runInLoop thread => exact hcall _ thread _ rfl rfl hf
  | push thread f' => exact Or.inl (mem_onTheWay_push hguard hf)
  | wakeup thread => exact Or.inl (mem_onTheWay_wakeup hf)
  | loop l =>
    refine (mem_onTheWay_loop h hguard hf).imp id ?_
    rintro rfl t ht
    cases ht
  | elapse d | handleRead | runTimer | reset | resetTimerfd | handleReadReturn
  | addTimerHere t timeout interval | cancelHere t => exact Or.inl hf

/-! ## The lock -/

theorem lock_eq_some {s : TimerLoop} (h : s.Owned) {t : TimerPtr} (halive : s.Alive t) :
    ∃ timer, s.lock t = some timer := by
  obtain ⟨timer, htimer⟩ := mem_heap_iff.mp (h.known t halive)
  exact ⟨timer, by rw [lock, if_pos halive, htimer]⟩

/-- The timer that is cancelled is alive, so it is no null pointer. -/
theorem cancelTimer_lock {s : TimerLoop} (h : s.Owned) {t : TimerPtr} (halive : s.Alive t) :
    .cancelTimer ∉ (s.timers.cancelLocked t (s.lock t)).failedAsserts := by
  obtain ⟨timer, hlock⟩ := lock_eq_some h halive
  rw [hlock, TimerQueue.cancelTimer_cancelLocked]
  exact h.cancelTimer

/-- A functor that was on its way finds its timer. -/
theorem cancelTimer_runFunctor {s : TimerLoop} (h : s.Owned) {f : TimerFunctor}
    (hf : f ∈ s.onTheWay) : .cancelTimer ∉ (s.runFunctor f).failedAsserts := by
  cases f with
  | addTimerInLoop t =>
    show .cancelTimer ∉ (s.timers.addTimerInLoop t).failedAsserts
    rw [TimerQueue.cancelTimer_addTimerInLoop]
    exact h.cancelTimer
  | cancelInLoop t => exact cancelTimer_lock h (h.alive (.cancelInLoop t) hf t rfl)
  | user => exact h.cancelTimer

theorem cancelTimer_next {s : TimerLoop} (h : s.Owned) {l : TimerLoopStep} (hguard : s.guard l) :
    .cancelTimer ∉ (s.next l).timers.failedAsserts := by
  cases l with
  | loop l =>
    cases l with
    | runFunctor =>
      obtain ⟨f, fs, hpc⟩ := EventLoop.pc_of_runFunctor hguard.2.1
      have hf : f ∈ s.loop.queued := by
        rw [EventLoop.queued, EventLoop.batch_running hpc]
        exact List.mem_cons_self
      rw [next_runFunctor hpc]
      exact cancelTimer_runFunctor h (mem_onTheWay_of_queued hf)
    | push thread f | wakeup thread | quit thread | quitWakeup thread | queueInLoop f | quitInLoop
    | enterLoop | testQuit | pollReturn w | handleRead | handled | swapFunctors | batchDone
    | batchReleased => exact h.cancelTimer
  | handleRead =>
    show .cancelTimer ∉ s.timers.handleRead.failedAsserts
    rw [TimerQueue.cancelTimer_handleRead]
    exact h.cancelTimer
  | runTimer =>
    obtain ⟨now, expired, e, rest, hphase⟩ := hguard
    show .cancelTimer ∉ (s.timers.next .runTimer).failedAsserts
    rw [TimerQueue.next_runTimer hphase]
    exact h.cancelTimer
  | reset =>
    obtain ⟨now, expired, hphase⟩ := hguard
    obtain ⟨p, -, heq⟩ := s.timers.reset_eq expired now
    -- every timer in the sets exists
    have hsets : TimerQueue.SetsKnown { s.timers with callingExpiredTimers_ := false } :=
      fun t ht => h.known t (alive_iff.mpr ⟨.sets, ht⟩)
    show .cancelTimer ∉ (s.timers.next .reset).failedAsserts
    rw [TimerQueue.next_reset hphase, heq]
    show .cancelTimer ∉ (expired.foldl (TimerQueue.resetEntry now) _).failedAsserts
    rw [(TimerQueue.foldl_resetEntry_owners now 0 expired hsets).2.2.2]
    exact h.cancelTimer
  | resetTimerfd =>
    obtain ⟨expired, when_, hphase⟩ := hguard
    show .cancelTimer ∉ (s.timers.next .resetTimerfd).failedAsserts
    rw [TimerQueue.next_resetTimerfd hphase]
    exact h.cancelTimer
  | addTimerHere t timeout interval =>
    show .cancelTimer ∉ ((s.timers.addTimer t timeout interval).addTimerInLoop t).failedAsserts
    rw [TimerQueue.cancelTimer_addTimerInLoop]
    exact h.cancelTimer
  | cancelHere t => exact cancelTimer_lock h hguard.2
  | elapse d | addTimer thread t timeout interval | cancel thread t | runInLoop thread
  | push thread f | wakeup thread | handleReadReturn => exact h.cancelTimer

/-! ## Whole runs -/

theorem mem_of_mem_leftOnTheWay {s : TimerLoop} {l : TimerLoopStep} {f : TimerFunctor}
    (h : f ∈ s.leftOnTheWay l) : f ∈ s.onTheWay := by
  unfold leftOnTheWay at h
  split at h
  · exact List.mem_of_mem_tail h
  · exact h

theorem order_next {s : TimerLoop} (h : s.Owned) {l : TimerLoopStep} (hguard : s.guard l) :
    (s.next l).loop.InOrder := by
  cases l with
  | push thread f => exact (EventLoop.inOrder_pushBack h.order f).congr rfl rfl rfl rfl
  | wakeup thread => exact h.order.congr rfl rfl rfl rfl
  | loop l =>
    have hnext := EventLoop.inOrder_next h.order hguard.2
    cases l with
    | runFunctor =>
      obtain ⟨f, fs, hpc⟩ := EventLoop.pc_of_runFunctor hguard.2.1
      rw [next_runFunctor hpc]
      exact hnext
    | push thread f | wakeup thread | quit thread | quitWakeup thread | queueInLoop f | quitInLoop
    | enterLoop | testQuit | pollReturn w | handleRead | handled | swapFunctors | batchDone
    | batchReleased => exact hnext
  | elapse d | addTimer thread t timeout interval | cancel thread t | runInLoop thread | handleRead
  | runTimer | reset | resetTimerfd | handleReadReturn | addTimerHere t timeout interval
  | cancelHere t => exact h.order

theorem owned_new (clock : Int) : (new clock).Owned := by
  have hnone : ∀ t, ¬ (new clock).Alive t := by
    intro t halive
    obtain ⟨o, ho⟩ := alive_iff.mp halive
    cases o with
    | adding => cases ho
    | sets =>
      rcases ho with ⟨e, he, -⟩ | ⟨a, ha, -⟩
      · exact ExtTreeSet.not_mem_empty he
      · exact ExtTreeSet.not_mem_empty ha
    | cancelingTimers =>
      obtain ⟨a, ha, -⟩ := ho
      exact ExtTreeSet.not_mem_empty ha
    | expiredTimers =>
      obtain ⟨es, hes, -⟩ := ho
      cases hes
    | ran => cases ho
    | call thread =>
      obtain ⟨c, hc, -⟩ := ho
      cases hc
  refine ⟨EventLoop.inOrder_new, fun t halive => absurd halive (hnone t), fun f hf => ?_,
    fun f hf => ?_, fun ha => ?_⟩
  · cases hf
  · cases hf
  · cases ha

/-- **Step**: a step that leaves an owner to every timer that is about to
    be cancelled. -/
theorem owned_next {s : TimerLoop} (h : s.Owned) {l : TimerLoopStep} (hguard : s.guard l)
    (hkeeps : s.KeepsOwner l) : (s.next l).Owned := by
  have howners := stepOwners_next h hguard
  have hknown : ∀ t, (s.next l).Alive t → t ∈ (s.next l).timers.heap := by
    intro t halive
    rcases howners.known t halive with hbefore | hmem
    · exact howners.heap t (h.known t hbefore)
    · exact hmem
  refine ⟨order_next h hguard, hknown, fun f hf t ht => ?_, fun f hf t ht => ?_,
    cancelTimer_next h hguard⟩
  · rcases onTheWay_next h hguard hf with hleft | halive
    · exact howners.heap t (h.functors f (mem_of_mem_leftOnTheWay hleft) t ht)
    · exact hknown t (halive t ht)
  · rcases onTheWay_next h hguard hf with hleft | halive
    · -- an owner is left to it
      obtain ⟨o, -, ho, hnot⟩ := hkeeps t (List.mem_filterMap.mpr ⟨f, hleft, ht⟩)
      exact howners.kept t o ho hnot
    · cases f with
      | cancelInLoop u => exact halive t ht
      | addTimerInLoop u => cases ht
      | user => cases ht

/-- **Cross-thread cancel is safe while the timer is owned**: in every
    interleaving whose steps never take the last owner from a timer that
    is about to be cancelled, `assert(cancelTimer)` has not failed. -/
theorem cancelTimer_of_keepsOwner (clock : Int) (steps : List TimerLoopStep)
    (hvalid : timerLoop.Valid (new clock) steps)
    (hkeeps : timerLoop.Along KeepsOwner (new clock) steps) :
    .cancelTimer ∉ (timerLoop.run (new clock) steps).timers.failedAsserts := by
  have hboth := (timerLoop.along_and _ _).mpr ⟨hvalid, hkeeps⟩
  exact (timerLoop.invariant_run Owned (fun s l h hl => owned_next h hl.1 hl.2)
    (owned_new clock) hboth).cancelTimer

/-- Thread 7 adds a periodic timer and cancels it, the timer runs before
    `cancelInLoop` does. -/
theorem cancelTimer_of_keepsOwner_periodic :
    let steps : List TimerLoopStep :=
      [.addTimer 7 1 200 500, .push 7 (.addTimerInLoop 1), .wakeup 7, .loop .enterLoop,
        .loop .testQuit, .loop (.pollReturn true), .loop .handleRead, .loop .handled,
        .loop .swapFunctors, .loop .runFunctor, .loop .batchDone, .loop .batchReleased,
        .loop .testQuit, .cancel 7 1, .push 7 (.cancelInLoop 1), .wakeup 7, .elapse 300,
        .loop (.pollReturn true), .handleRead, .runTimer, .reset, .resetTimerfd,
        .handleReadReturn, .loop .handleRead, .loop .handled, .loop .swapFunctors,
        .loop .runFunctor]
    .cancelTimer ∉ (timerLoop.run (new 0) steps).timers.failedAsserts :=
  cancelTimer_of_keepsOwner 0 _ (by decide +kernel) (by decide +kernel)

/-- A one-shot timer is there when thread 7 looks, and was run and
    destroyed when `cancelInLoop` does. -/
theorem not_cancelTimer_oneShot :
    ¬ ∀ (clock : Int) (steps : List TimerLoopStep), timerLoop.Valid (new clock) steps →
      .cancelTimer ∉ (timerLoop.run (new clock) steps).timers.failedAsserts := by
  intro h
  have hfailed := h 0
    [.addTimerHere 1 200 0, .cancel 7 1, .push 7 (.cancelInLoop 1), .wakeup 7, .elapse 300,
      .loop .enterLoop, .loop .testQuit, .loop (.pollReturn true), .handleRead, .runTimer, .reset,
      .handleReadReturn, .loop .handleRead, .loop .handled, .loop .swapFunctors, .loop .runFunctor]
    (by decide +kernel)
  revert hfailed
  decide +kernel

end TimerLoop

end TinyWS
