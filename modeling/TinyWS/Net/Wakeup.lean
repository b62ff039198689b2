import TinyWS.Net.EventLoop

/-! # No Lost Wakeup

    A functor in the queue is *attended* when the loop thread cannot sleep
    through it: the eventfd is readable, or another thread is about to
    write to it.  Event callbacks may queue unattended functors, since
    `doPendingFunctors` follows; the test in `queueInLoop` takes every
    call of the loop thread while `callingPendingFuntors_` is off for such
    a callback, also one before or between two `loop()`s, or in the
    destructor of a functor that was run. -/

namespace TinyWS

universe u

namespace EventLoop

variable {F : Type u}

/-- A wakeup has been written, or is about to be. -/
def Awake (s : EventLoop F) : Prop := 0 < s.wakeupFd_ ∨ s.pushing ≠ []

instance (s : EventLoop F) : Decidable s.Awake := inferInstanceAs (Decidable (_ ∨ _))

/-- The loop thread does not go to sleep on a functor. -/
def NoLostWakeup (s : EventLoop F) : Prop :=
  s.pc = .poll → s.pendingFunctors_ ≠ [] → s.Awake

/-- The condition of the runs: outside `loop()`, and while a batch is
    destroyed, the loop thread queues a functor only while a wakeup is
    outstanding. -/
def QueuesAwake (s : EventLoop F) : LoopStep F → Prop
  | .queueInLoop _ => match s.pc with | .outside | .releasing => s.Awake | _ => True
  | _ => True

instance (s : EventLoop F) : DecidablePred s.QueuesAwake
  | .queueInLoop _ =>
      match h : s.pc with
      | .outside | .releasing => decidable_of_iff s.Awake (by simp [QueuesAwake, h])
      | .test | .poll | .handling _ | .swap | .running _ => isTrue (by simp [QueuesAwake, h])
  | .push _ _ | .wakeup _ | .quit _ | .quitWakeup _ | .quitInLoop | .enterLoop | .testQuit
  | .pollReturn _ | .handleRead | .handled | .swapFunctors | .runFunctor | .batchDone
  | .batchReleased => isTrue trivial

/-! ## The invariant -/

/-- Where the loop thread is on its way to `doPendingFunctors`, without a
    sleep in between. -/
def BeforeSwap : LoopPc F → Bool
  | .handling _ | .swap => true
  | .outside | .test | .poll | .running _ | .releasing => false

/-- Where `callingPendingFuntors_` is set. -/
def InDoPendingFunctors : LoopPc F → Bool
  | .swap | .running _ => true
  | .outside | .test | .poll | .handling _ | .releasing => false

/-- Every functor the next sleep could strand is attended. -/
structure Attended (s : EventLoop F) : Prop where
  awake : BeforeSwap s.pc = false → s.pendingFunctors_ ≠ [] → s.Awake
  calling : s.callingPendingFuntors_ = InDoPendingFunctors s.pc

theorem attended_new : (new : EventLoop F).Attended :=
  ⟨fun _ h => absurd rfl h, rfl⟩

theorem noLostWakeup_of_attended {s : EventLoop F} (h : s.Attended) : s.NoLostWakeup := by
  intro hpc
  exact h.awake (by rw [hpc]; rfl)

/-! ## Steps of the other threads -/

theorem attended_push {s : EventLoop F} (h : s.Attended) (t : ThreadId) (f : F) :
    (s.next (.push t f)).Attended := by
  refine ⟨fun _ _ => Or.inr ?_, h.calling⟩
  show t :: s.pushing ≠ []
  simp

theorem attended_wakeup {s : EventLoop F} (h : s.Attended) (t : ThreadId) :
    (s.next (.wakeup t)).Attended := by
  refine ⟨fun _ _ => Or.inl ?_, h.calling⟩
  show 0 < s.wakeupFd_ + 1
  omega

theorem attended_quitWakeup {s : EventLoop F} (h : s.Attended) (t : ThreadId) :
    (s.next (.quitWakeup t)).Attended := by
  refine ⟨fun _ _ => Or.inl ?_, h.calling⟩
  show 0 < s.wakeupFd_ + 1
  omega

/-! ## Steps of the loop thread -/

theorem attended_queueInLoop {s : EventLoop F} (h : s.Attended) {f : F}
    (hpc : allows s.pc (.queueInLoop f) = true) (hcond : s.QueuesAwake (.queueInLoop f)) :
    (s.queueInLoop f).Attended := by
  unfold queueInLoop
  by_cases hcall : s.callingPendingFuntors_ = true
  · -- in a functor: `wakeup()` is called
    rw [if_pos hcall]
    refine ⟨fun _ _ => Or.inl ?_, h.calling⟩
    show 0 < s.wakeupFd_ + 1
    omega
  · rw [if_neg hcall]
    refine ⟨fun hswap _ => ?_, h.calling⟩
    change BeforeSwap s.pc = false at hswap
    have hin := h.calling
    cases hs : s.pc with
    | outside =>
      -- here, and below, the caller has to see to it
      have hawake : s.Awake := by simpa [QueuesAwake, hs] using hcond
      exact hawake
    | releasing =>
      have hawake : s.Awake := by simpa [QueuesAwake, hs] using hcond
      exact hawake
    | handling w => rw [hs] at hswap; cases hswap
    | running fs => rw [hs] at hin; exact absurd hin hcall
    | test => rw [hs] at hpc; cases hpc
    | poll => rw [hs] at hpc; cases hpc
    | swap => rw [hs] at hswap; cases hswap

theorem attended_testQuit {s : EventLoop F} (h : s.Attended) (hpc : s.pc = .test) :
    (s.next .testQuit).Attended := by
  have hawake := h.awake (by rw [hpc]; rfl)
  have hcall : s.callingPendingFuntors_ = false := by rw [h.calling, hpc]; rfl
  show (if s.quit_ then { s with looping_ := false, pc := .outside }
    else { s with pc := .poll } : EventLoop F).Attended
  split
  · exact ⟨fun _ => hawake, hcall⟩
  · exact ⟨fun _ => hawake, hcall⟩

theorem attended_runFunctor {s : EventLoop F} (h : s.Attended) {f : F} {fs : List F}
    (hpc : s.pc = .running (f :: fs)) : (s.next .runFunctor).Attended := by
  have hawake := h.awake (by rw [hpc]; rfl)
  have hcall : s.callingPendingFuntors_ = true := by rw [h.calling, hpc]; rfl
  have hnext : s.next .runFunctor =
      { s with executed := s.executed ++ [f], pc := .running fs } := by
    simp [next, hpc]
  rw [hnext]
  exact ⟨fun _ => hawake, hcall⟩

/-- **Step**: every step that meets the condition keeps all functors
    attended. -/
theorem attended_next {s : EventLoop F} (h : s.Attended) {l : LoopStep F}
    (hguard : (eventLoop F).guard s l) (hcond : s.QueuesAwake l) : (s.next l).Attended := by
  obtain ⟨hpc, -⟩ := hguard
  cases l with
  | push t f => exact attended_push h t f
  | wakeup t => exact attended_wakeup h t
  | quit t => exact ⟨h.awake, h.calling⟩
  | quitWakeup t => exact attended_quitWakeup h t
  | queueInLoop f => exact attended_queueInLoop h hpc hcond
  | quitInLoop => exact ⟨h.awake, h.calling⟩
  | enterLoop =>
    have hs := pc_of_enterLoop hpc
    have hawake := h.awake (by rw [hs]; rfl)
    have hcall : s.callingPendingFuntors_ = false := by rw [h.calling, hs]; rfl
    exact ⟨fun _ => hawake, hcall⟩
  | testQuit => exact attended_testQuit h (pc_of_testQuit hpc)
  | pollReturn w =>
    have hcall : s.callingPendingFuntors_ = false := by
      rw [h.calling, pc_of_pollReturn hpc]; rfl
    -- from here to the swap there is no sleep
    exact ⟨fun hno => absurd hno (by simp [next, BeforeSwap]), hcall⟩
  | handleRead =>
    have hcall : s.callingPendingFuntors_ = false := by
      rw [h.calling, pc_of_handleRead hpc]; rfl
    exact ⟨fun hno => absurd hno (by simp [next, BeforeSwap]), hcall⟩
  | handled => exact ⟨fun hno => absurd hno (by simp [next, BeforeSwap]), rfl⟩
  | swapFunctors =>
    have hcall : s.callingPendingFuntors_ = true := by
      rw [h.calling, pc_of_swapFunctors hpc]; rfl
    exact ⟨fun _ hne => absurd rfl hne, hcall⟩
  | runFunctor =>
    obtain ⟨f, functors, hs⟩ := pc_of_runFunctor hpc
    exact attended_runFunctor h hs
  | batchDone =>
    have hawake := h.awake (by rw [pc_of_batchDone hpc]; rfl)
    exact ⟨fun _ => hawake, rfl⟩
  | batchReleased =>
    have hs := pc_of_batchReleased hpc
    have hawake := h.awake (by rw [hs]; rfl)
    have hcall : s.callingPendingFuntors_ = false := by rw [h.calling, hs]; rfl
    exact ⟨fun _ => hawake, hcall⟩

/-- **No lost wakeup**: in every interleaving in which the loop thread
    queues no functor outside `loop()`, or from the destructor of one that
    was run, without an outstanding wakeup, it never goes to sleep on a
    functor. -/
theorem noLostWakeup_of_queuesAwake (F : Type u) (steps : List (LoopStep F))
    (hvalid : (eventLoop F).Valid new steps)
    (hcond : (eventLoop F).Along QueuesAwake new steps) :
    ((eventLoop F).run new steps).NoLostWakeup := by
  refine noLostWakeup_of_attended ((eventLoop F).invariant_run Attended ?_ attended_new
    (((eventLoop F).along_and _ _).mpr ⟨hvalid, hcond⟩))
  intro s l h hl
  exact attended_next h hl.1 hl.2

/-- A functor from another thread, one from an event callback, one from a
    functor: the second sleep finds the queue attended. -/
theorem noLostWakeup_callback :
    let steps : List (LoopStep Nat) :=
      [.enterLoop, .testQuit, .push 7 1, .wakeup 7, .pollReturn true, .queueInLoop 2, .handleRead,
        .handled, .swapFunctors, .runFunctor, .queueInLoop 3, .runFunctor, .batchDone,
        .batchReleased, .testQuit]
    ((eventLoop Nat).run new steps).NoLostWakeup :=
  noLostWakeup_of_queuesAwake Nat _ (by decide) (by decide)

/-- A functor queued in front of `loop()`, and one queued while the batch
    is destroyed: the loop goes to sleep on them. -/
theorem lostWakeup_before_loop :
    let before : List (LoopStep Nat) := [.queueInLoop 1, .enterLoop, .testQuit]
    let released : List (LoopStep Nat) :=
      [.enterLoop, .testQuit, .push 7 1, .wakeup 7, .pollReturn true, .handleRead, .handled,
        .swapFunctors, .runFunctor, .batchDone, .queueInLoop 2, .batchReleased, .testQuit]
    ((eventLoop Nat).Valid new before ∧ ¬ ((eventLoop Nat).run new before).NoLostWakeup) ∧
      ((eventLoop Nat).Valid new released ∧
        ¬ ((eventLoop Nat).run new released).NoLostWakeup) := by
  refine ⟨⟨by decide, fun h => ?_⟩, ⟨by decide, fun h => ?_⟩⟩
  · have hawake := h rfl (by decide)
    revert hawake
    decide
  · have hawake := h rfl (by decide)
    revert hawake
    decide

end EventLoop

end TinyWS
