import TinyWS.Net.EventLoop

/-! # Pending Functors Run Once and in Order

    A functor is pushed into `pendingFunctors_` under `mutex_`, moves to
    the batch when the loop thread swaps the two vectors, and leaves the
    batch when it is run.  Laid end to end the three places hold, at every
    moment, exactly what was pushed.

    Only `queueInLoop` pushes: `runInLoop` in the loop thread is a plain
    call, and in any other thread it is `queueInLoop`. -/

namespace TinyWS

universe u

namespace EventLoop

variable {F : Type u}

/-- The functors of the current batch that were not run yet. -/
def batch (s : EventLoop F) : List F :=
  match s.pc with
  | .running functors => functors
  | .outside | .test | .poll | .handling _ | .swap | .releasing => []

/-- Nothing is lost, run twice or overtaken. -/
def InOrder (s : EventLoop F) : Prop :=
  s.executed ++ s.batch ++ s.pendingFunctors_ = s.pushed

instance [DecidableEq F] (s : EventLoop F) : Decidable s.InOrder :=
  inferInstanceAs (Decidable (_ = _))

theorem batch_running {s : EventLoop F} {fs : List F} (hpc : s.pc = .running fs) :
    s.batch = fs := by
  rw [batch, hpc]

theorem inOrder_new : (new : EventLoop F).InOrder := rfl

/-- A push, from whichever thread, comes last. -/
theorem inOrder_pushBack {s : EventLoop F} (h : s.InOrder) (f : F) : (s.pushBack f).InOrder := by
  show s.executed ++ s.batch ++ (s.pendingFunctors_ ++ [f]) = s.pushed ++ [f]
  rw [← List.append_assoc, show s.executed ++ s.batch ++ s.pendingFunctors_ = s.pushed from h]

/-- A step that touches no functor. -/
theorem InOrder.congr {s s' : EventLoop F} (h : s.InOrder) (hexecuted : s'.executed = s.executed)
    (hbatch : s'.batch = s.batch) (hpending : s'.pendingFunctors_ = s.pendingFunctors_)
    (hpushed : s'.pushed = s.pushed) : s'.InOrder := by
  rw [InOrder, hexecuted, hbatch, hpending, hpushed]
  exact h

theorem inOrder_queueInLoop {s : EventLoop F} (h : s.InOrder) (f : F) :
    (s.queueInLoop f).InOrder := by
  unfold queueInLoop
  split
  · exact inOrder_pushBack h f
  · exact inOrder_pushBack h f

/-- The whole of `pendingFunctors_` becomes the batch. -/
theorem inOrder_swapFunctors {s : EventLoop F} (h : s.InOrder) (hpc : s.pc = .swap) :
    (s.next .swapFunctors).InOrder := by
  have hbatch : s.batch = [] := by rw [batch, hpc]
  show s.executed ++ s.pendingFunctors_ ++ [] = s.pushed
  rw [InOrder, hbatch, List.append_nil] at h
  rw [List.append_nil, h]

/-- The first functor of the batch becomes the last one that was run. -/
theorem inOrder_runFunctor {s : EventLoop F} (h : s.InOrder) {f : F} {fs : List F}
    (hpc : s.pc = .running (f :: fs)) : (s.next .runFunctor).InOrder := by
  have hnext : s.next .runFunctor =
      { s with executed := s.executed ++ [f], pc := .running fs } := by
    simp [next, hpc]
  rw [InOrder, batch_running hpc] at h
  rw [hnext]
  show s.executed ++ [f] ++ fs ++ s.pendingFunctors_ = s.pushed
  rw [← h]
  simp

/-- **Step**: every step of every thread keeps the functors in order. -/
theorem inOrder_next {s : EventLoop F} (h : s.InOrder) {l : LoopStep F}
    (hguard : (eventLoop F).guard s l) : (s.next l).InOrder := by
  obtain ⟨hpc, -⟩ := hguard
  cases l with
  | push t f => exact (inOrder_pushBack h f).congr rfl rfl rfl rfl
  | queueInLoop f => exact inOrder_queueInLoop h f
  | wakeup t | quit t | quitWakeup t | quitInLoop => exact h.congr rfl rfl rfl rfl
  | swapFunctors => exact inOrder_swapFunctors h (pc_of_swapFunctors hpc)
  | runFunctor =>
    obtain ⟨f, fs, hrun⟩ := pc_of_runFunctor hpc
    exact inOrder_runFunctor h hrun
  | testQuit =>
    have hbatch : s.batch = [] := by rw [batch, pc_of_testQuit hpc]
    show (if s.quit_ then { s with looping_ := false, pc := .outside }
      else { s with pc := .poll } : EventLoop F).InOrder
    split
    · exact h.congr rfl hbatch.symm rfl rfl
    · exact h.congr rfl hbatch.symm rfl rfl
  -- no batch before the step and none after it
  | enterLoop => exact h.congr rfl (by rw [batch, batch, pc_of_enterLoop hpc]; rfl) rfl rfl
  | pollReturn w => exact h.congr rfl (by rw [batch, batch, pc_of_pollReturn hpc]; rfl) rfl rfl
  | handleRead => exact h.congr rfl (by rw [batch, batch, pc_of_handleRead hpc]; rfl) rfl rfl
  | handled =>
    have hbatch : s.batch = [] := by
      cases hs : s.pc with
      | running fs => rw [hs] at hpc; cases hpc
      | outside | test | poll | handling | swap | releasing => rw [batch, hs]
    exact h.congr rfl hbatch.symm rfl rfl
  | batchDone => exact h.congr rfl (by rw [batch, batch, pc_of_batchDone hpc]; rfl) rfl rfl
  | batchReleased =>
    exact h.congr rfl (by rw [batch, batch, pc_of_batchReleased hpc]; rfl) rfl rfl

theorem inOrder_run {s : EventLoop F} (h : s.InOrder) {steps : List (LoopStep F)}
    (hvalid : (eventLoop F).Valid s steps) : ((eventLoop F).run s steps).InOrder :=
  (eventLoop F).invariant_run InOrder (fun _ _ hs hl => inOrder_next hs hl) h hvalid

/-- **Pending functors run exactly once and in order**: in every
    interleaving, those executed, the rest of the batch and
    `pendingFunctors_` make up what was pushed. -/
theorem executed_append_batch_append_pending (F : Type u) (steps : List (LoopStep F))
    (hvalid : (eventLoop F).Valid new steps) :
    let s := (eventLoop F).run new steps
    s.executed ++ s.batch ++ s.pendingFunctors_ = s.pushed :=
  inOrder_run inOrder_new hvalid

/-- Two threads push around the swap, and a functor queues another. -/
theorem executed_append_batch_append_pending_swap :
    let steps : List (LoopStep Nat) :=
      [.enterLoop, .testQuit, .push 7 1, .push 8 2, .wakeup 7, .pollReturn true, .handleRead,
        .handled, .swapFunctors, .wakeup 8, .push 7 3, .runFunctor, .queueInLoop 4]
    let s := (eventLoop Nat).run new steps
    s.executed ++ s.batch ++ s.pendingFunctors_ = s.pushed :=
  executed_append_batch_append_pending Nat _ (by decide)

end EventLoop

end TinyWS
