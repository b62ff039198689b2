import TinyWS.Framework.Machine
import Mathlib.Data.List.Basic

/-! # EventLoop

    One loop thread and any number of other threads around a functor
    queue and an eventfd.  The loop thread's position in `loop()` is part
    of the state; a `queueInLoop` of another thread is two steps, the push
    under `mutex_` and the write to `wakeupFd_`.

    The functors are of any type: what they do when they run is told by
    the steps that follow. -/

namespace TinyWS

universe u

abbrev ThreadId : Type := Nat

/-- Where the loop thread is. -/
inductive LoopPc (F : Type u) where
  /-- Not in `loop()`: before the first call, or between two calls. -/
  | outside
  /-- At the test of `while (!quit_)`. -/
  | test
  /-- In front of or inside `epoll_->poll`. -/
  | poll
  /-- In the event callbacks; the flag says whether `wakeupChannel_` is
      active and `EventLoop::handleRead` still to be run. -/
  | handling (wakeup : Bool)
  /-- In `doPendingFunctors`, before the swap. -/
  | swap
  /-- Running the batch that was swapped out. -/
  | running (functors : List F)
  /-- At the end of `doPendingFunctors`, where the batch is destroyed and
      with it whatever the functors own. -/
  | releasing

/-- `class EventLoop`.  The last two fields are histories. -/
structure EventLoop (F : Type u) where
  looping_ : Bool
  quit_ : Bool
  callingPendingFuntors_ : Bool
  pendingFunctors_ : List F
  /-- The counter of the eventfd. -/
  wakeupFd_ : Nat
  pc : LoopPc F
  /-- Threads in `queueInLoop` between the push and `wakeup()`. -/
  pushing : List ThreadId
  /-- Threads in `quit` between the store and `wakeup()`. -/
  quitting : List ThreadId
  /-- All functors, in the order of their pushes. -/
  pushed : List F
  /-- The functors that were run. -/
  executed : List F

/-- The steps of the loop thread and of the others. -/
inductive LoopStep (F : Type u) where
  /-- Another thread pushes a functor. -/
  | push (t : ThreadId) (f : F)
  /-- That thread writes to `wakeupFd_`. -/
  | wakeup (t : ThreadId)
  /-- Another thread stores `quit_`. -/
  | quit (t : ThreadId)
  /-- That thread writes to `wakeupFd_`. -/
  | quitWakeup (t : ThreadId)
  /-- The loop thread calls `queueInLoop`, from wherever it is. -/
  | queueInLoop (f : F)
  /-- The loop thread calls `quit`. -/
  | quitInLoop
  | enterLoop
  | testQuit
  /-- `poll` returns, with `wakeupChannel_` among the active channels or not. -/
  | pollReturn (wakeup : Bool)
  | handleRead
  | handled
  | swapFunctors
  | runFunctor
  | batchDone
  | batchReleased

namespace EventLoop

variable {F : Type u}

/-- The constructor. -/
def new : EventLoop F where
  looping_ := false
  quit_ := false
  callingPendingFuntors_ := false
  pendingFunctors_ := []
  wakeupFd_ := 0
  pc := .outside
  pushing := []
  quitting := []
  pushed := []
  executed := []

/-- Add to `pendingFunctors_` under `mutex_`. -/
def pushBack (s : EventLoop F) (f : F) : EventLoop F :=
  { s with
    pendingFunctors_ := s.pendingFunctors_ ++ [f]
    pushed := s.pushed ++ [f] }

/-- Write to `wakeupFd_`. -/
def writeWakeup (s : EventLoop F) : EventLoop F := { s with wakeupFd_ := s.wakeupFd_ + 1 }

/-- `queueInLoop(cb)` in the loop thread. -/
def queueInLoop (s : EventLoop F) (f : F) : EventLoop F :=
  if s.callingPendingFuntors_ then (s.pushBack f).writeWakeup else s.pushBack f

/-- What the loop thread can do where it is.  User code, which may call
    `queueInLoop` and `quit`, runs outside `loop()`, in event callbacks, in
    functors and in their destructors. -/
def allows (pc : LoopPc F) : LoopStep F → Bool
  | .push _ _ | .wakeup _ | .quit _ | .quitWakeup _ => true
  | .queueInLoop _ | .quitInLoop =>
      match pc with | .outside | .handling _ | .running _ | .releasing => true | _ => false
  | .enterLoop => match pc with | .outside => true | _ => false
  | .testQuit => match pc with | .test => true | _ => false
  | .pollReturn _ => match pc with | .poll => true | _ => false
  | .handleRead => match pc with | .handling wakeup => wakeup | _ => false
  | .handled => match pc with | .handling wakeup => !wakeup | _ => false
  | .swapFunctors => match pc with | .swap => true | _ => false
  | .runFunctor => match pc with | .running functors => !functors.isEmpty | _ => false
  | .batchDone => match pc with | .running functors => functors.isEmpty | _ => false
  | .batchReleased => match pc with | .releasing => true | _ => false

/-- What a step needs besides. -/
def enabled (s : EventLoop F) : LoopStep F → Prop
  | .push t _ | .quit t => t ∉ s.pushing ∧ t ∉ s.quitting
  | .wakeup t => t ∈ s.pushing
  | .quitWakeup t => t ∈ s.quitting
  | .pollReturn wakeup => wakeup = true → 0 < s.wakeupFd_
  | _ => True

instance (s : EventLoop F) : DecidablePred s.enabled
  | .push t _ | .quit t => inferInstanceAs (Decidable (t ∉ s.pushing ∧ t ∉ s.quitting))
  | .wakeup t => inferInstanceAs (Decidable (t ∈ s.pushing))
  | .quitWakeup t => inferInstanceAs (Decidable (t ∈ s.quitting))
  | .pollReturn wakeup => inferInstanceAs (Decidable (wakeup = true → 0 < s.wakeupFd_))
  | .queueInLoop _ | .quitInLoop | .enterLoop | .testQuit | .handleRead | .handled
  | .swapFunctors | .runFunctor | .batchDone | .batchReleased => isTrue trivial

def next (s : EventLoop F) : LoopStep F → EventLoop F
  | .push t f => { s.pushBack f with pushing := t :: s.pushing }
  | .wakeup t => { s.writeWakeup with pushing := s.pushing.erase t }
  | .quit t => { s with quit_ := true, quitting := t :: s.quitting }
  | .quitWakeup t => { s.writeWakeup with quitting := s.quitting.erase t }
  | .queueInLoop f => s.queueInLoop f
  | .quitInLoop => { s with quit_ := true }
  | .enterLoop => { s with looping_ := true, quit_ := false, pc := .test }
  | .testQuit =>
      if s.quit_ then { s with looping_ := false, pc := .outside } else { s with pc := .poll }
  | .pollReturn wakeup => { s with pc := .handling wakeup }
  -- a read of an eventfd takes the whole counter
  | .handleRead => { s with wakeupFd_ := 0, pc := .handling false }
  | .handled => { s with callingPendingFuntors_ := true, pc := .swap }
  | .swapFunctors => { s with pendingFunctors_ := [], pc := .running s.pendingFunctors_ }
  | .runFunctor =>
      match s.pc with
      | .running (f :: functors) =>
          { s with executed := s.executed ++ [f], pc := .running functors }
      | _ => s
  | .batchDone => { s with callingPendingFuntors_ := false, pc := .releasing }
  | .batchReleased => { s with pc := .test }

/-! ## Where each step of the loop thread is taken -/

section Allows

variable {pc : LoopPc F}

/-- A step of the loop thread has one place. -/
theorem pc_of_allows {l : LoopStep F} (h : allows pc l = true) :
    match l with
    | .enterLoop => pc = .outside
    | .testQuit => pc = .test
    | .pollReturn _ => pc = .poll
    | .handleRead => pc = .handling true
    | .swapFunctors => pc = .swap
    | .runFunctor => ∃ f functors, pc = .running (f :: functors)
    | .batchDone => pc = .running []
    | .batchReleased => pc = .releasing
    | _ => True := by
  cases l with
  | enterLoop | testQuit | pollReturn _ | swapFunctors | batchReleased =>
    cases pc <;> simp [allows] at h ⊢
  | handleRead | batchDone =>
    cases pc <;> simp [allows] at h ⊢
    exact h
  | runFunctor =>
    cases pc <;> simp [allows] at h ⊢
    exact List.exists_cons_of_ne_nil h
  | _ => trivial

theorem pc_of_enterLoop (h : allows pc .enterLoop = true) : pc = .outside := pc_of_allows h

theorem pc_of_testQuit (h : allows pc .testQuit = true) : pc = .test := pc_of_allows h

theorem pc_of_pollReturn {w : Bool} (h : allows pc (.pollReturn w) = true) : pc = .poll :=
  pc_of_allows h

theorem pc_of_handleRead (h : allows pc .handleRead = true) : pc = .handling true :=
  pc_of_allows h

theorem pc_of_swapFunctors (h : allows pc .swapFunctors = true) : pc = .swap := pc_of_allows h

theorem pc_of_runFunctor (h : allows pc .runFunctor = true) :
    ∃ f functors, pc = .running (f :: functors) := pc_of_allows h

theorem pc_of_batchDone (h : allows pc .batchDone = true) : pc = .running [] := pc_of_allows h

theorem pc_of_batchReleased (h : allows pc .batchReleased = true) : pc = .releasing :=
  pc_of_allows h

end Allows

end EventLoop

/-- The interleavings of the loop thread with all others. -/
def eventLoop (F : Type u) : Machine (EventLoop F) (LoopStep F) where
  guard s l := EventLoop.allows s.pc l = true ∧ s.enabled l
  next := EventLoop.next

instance (F : Type u) (s : EventLoop F) (l : LoopStep F) :
    Decidable ((eventLoop F).guard s l) :=
  inferInstanceAs (Decidable (EventLoop.allows s.pc l = true ∧ s.enabled l))

end TinyWS
