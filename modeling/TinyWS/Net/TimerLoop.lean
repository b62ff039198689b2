import TinyWS.Net.PendingFunctors
import TinyWS.Net.TimerSets

/-! # Cancelling from Other Threads

    The timer queue in its loop thread, with other threads that call
    `addTimer` and `cancel`.  `cancel` looks at the weak pointer at once,
    and `cancelInLoop` locks it again when the functor is run.  In between
    the timer may expire, run and be destroyed.

    A timer lives as long as somebody owns it.  The owners are listed, and
    so is what each step takes from them: `cancelInLoop` always finds its
    timer if no step takes the last owner from a timer that a functor on
    its way is about to cancel. -/

namespace TinyWS

open Std

/-- The functors of the timer queue, and all others. -/
inductive TimerFunctor where
  | addTimerInLoop (timer : TimerPtr)
  | cancelInLoop (timer : TimerPtr)
  | user
  deriving DecidableEq, Repr

namespace TimerFunctor

/-- The timer a functor is about. -/
def timer? : TimerFunctor → Option TimerPtr
  | .addTimerInLoop t | .cancelInLoop t => some t
  | .user => none

/-- The timer a functor cancels. -/
def cancels : TimerFunctor → Option TimerPtr
  | .cancelInLoop t => some t
  | .addTimerInLoop _ | .user => none

end TimerFunctor

/-- The timer queue of an `EventLoop`, between the threads. -/
structure TimerLoop where
  loop : EventLoop TimerFunctor
  timers : TimerQueue
  /-- The other threads in `addTimer`, `cancel` or `runInLoop`, with the
      functor they pass on.  A local `shared_ptr` owns the timer until the
      call returns. -/
  calls : List (ThreadId × TimerFunctor)
  /-- The local vector of a `handleRead` that has not returned. -/
  expiredTimers : Option (List Entry)
  /-- The functors of the batch that were run: they are destroyed with it. -/
  ran : List TimerFunctor

/-- Who may hold a `shared_ptr` to a timer. -/
inductive Owner where
  /-- The functor that will add it. -/
  | adding
  /-- `timers_` and `activeTimers_`. -/
  | sets
  | cancelingTimers
  | expiredTimers
  /-- The functor that has added it. -/
  | ran
  /-- A call of this thread. -/
  | call (thread : ThreadId)
  deriving DecidableEq, Repr

inductive TimerLoopStep where
  | elapse (d : Nat)
  /-- Another thread calls `addTimer`. -/
  | addTimer (thread : ThreadId) (timer : TimerPtr) (timeout interval : Int)
  /-- Another thread calls `cancel`, and `lock()` finds the timer. -/
  | cancel (thread : ThreadId) (timer : TimerPtr)
  /-- Another thread calls `runInLoop` for something else. -/
  | runInLoop (thread : ThreadId)
  /-- The thread pushes its functor. -/
  | push (thread : ThreadId) (f : TimerFunctor)
  /-- The thread wakes the loop up and returns from its call. -/
  | wakeup (thread : ThreadId)
  /-- Any other step of the loop. -/
  | loop (l : LoopStep TimerFunctor)
  /-- The callback of `timerfdChannel_`, in its four parts. -/
  | handleRead
  | runTimer
  | reset
  | resetTimerfd
  /-- It returns, and the vector is destroyed. -/
  | handleReadReturn
  /-- The loop thread calls `addTimer`, which adds the timer at once. -/
  | addTimerHere (timer : TimerPtr) (timeout interval : Int)
  /-- The loop thread calls `cancel`, which cancels at once. -/
  | cancelHere (timer : TimerPtr)

namespace TimerQueue

/-- The timer is in one of the two sets. -/
def InSets (q : TimerQueue) (t : TimerPtr) : Prop :=
  (∃ e ∈ q.timers_, e.timer = t) ∨ ∃ a ∈ q.activeTimers_, a.timer = t

instance (q : TimerQueue) (t : TimerPtr) : Decidable (q.InSets t) :=
  decidable_of_iff
    ((∃ e ∈ q.timers_.toList, e.timer = t) ∨ ∃ a ∈ q.activeTimers_.toList, a.timer = t)
    (by simp only [InSets, ExtTreeSet.mem_toList])

/-- The timer is in `cancelingTimers_`. -/
def IsCanceling (q : TimerQueue) (t : TimerPtr) : Prop := ∃ a ∈ q.cancelingTimers_, a.timer = t

instance (q : TimerQueue) (t : TimerPtr) : Decidable (q.IsCanceling t) :=
  decidable_of_iff (∃ a ∈ q.cancelingTimers_.toList, a.timer = t)
    (by simp only [IsCanceling, ExtTreeSet.mem_toList])

end TimerQueue

namespace TimerLoop

def new (clock : Int) : TimerLoop where
  loop := .new
  timers := .new clock
  calls := []
  expiredTimers := none
  ran := []

/-! ## Owners -/

def Owns (s : TimerLoop) (t : TimerPtr) : Owner → Prop
  | .adding => t ∈ s.timers.adding
  | .sets => s.timers.InSets t
  | .cancelingTimers => s.timers.IsCanceling t
  | .expiredTimers => ∃ es ∈ s.expiredTimers, t ∈ es.map Entry.timer
  | .ran => .addTimerInLoop t ∈ s.ran
  | .call thread => ∃ c ∈ s.calls, c.1 = thread ∧ c.2.timer? = some t

instance (s : TimerLoop) (t : TimerPtr) : DecidablePred (s.Owns t)
  | .adding => inferInstanceAs (Decidable (t ∈ s.timers.adding))
  | .sets => inferInstanceAs (Decidable (s.timers.InSets t))
  | .cancelingTimers => inferInstanceAs (Decidable (s.timers.IsCanceling t))
  | .expiredTimers => inferInstanceAs (Decidable (∃ es ∈ s.expiredTimers, t ∈ es.map Entry.timer))
  | .ran => inferInstanceAs (Decidable (.addTimerInLoop t ∈ s.ran))
  | .call thread => inferInstanceAs (Decidable (∃ c ∈ s.calls, c.1 = thread ∧ c.2.timer? = some t))

/-- All who may own a timer now. -/
def owners (s : TimerLoop) : List Owner :=
  [.adding, .sets, .cancelingTimers, .expiredTimers, .ran] ++ s.calls.map fun c => .call c.1

def Alive (s : TimerLoop) (t : TimerPtr) : Prop := ∃ o ∈ s.owners, s.Owns t o

instance (s : TimerLoop) (t : TimerPtr) : Decidable (s.Alive t) :=
  inferInstanceAs (Decidable (∃ o ∈ s.owners, s.Owns t o))

/-- `timerId.timer_.lock()`. -/
def lock (s : TimerLoop) (t : TimerPtr) : Option Timer :=
  if s.Alive t then s.timers.heap[t]? else none

/-! ## Steps -/

/-- The functor is called in the loop thread. -/
def runFunctor (s : TimerLoop) : TimerFunctor → TimerQueue
  | .addTimerInLoop t => s.timers.addTimerInLoop t
  | .cancelInLoop t => s.timers.cancelLocked t (s.lock t)
  | .user => s.timers

def next (s : TimerLoop) : TimerLoopStep → TimerLoop
  | .elapse d => { s with timers := s.timers.elapse d }
  | .addTimer thread t timeout interval =>
      { s with
        timers := s.timers.addTimer t timeout interval
        calls := (thread, .addTimerInLoop t) :: s.calls }
  | .cancel thread t => { s with calls := (thread, .cancelInLoop t) :: s.calls }
  | .runInLoop thread => { s with calls := (thread, .user) :: s.calls }
  | .push thread f => { s with loop := s.loop.next (.push thread f) }
  | .wakeup thread =>
      { s with
        loop := s.loop.next (.wakeup thread)
        calls := s.calls.filter fun c => c.1 != thread }
  | .loop .runFunctor =>
      match s.loop.batch with
      | [] => s
      | f :: _ =>
          { s with
            loop := s.loop.next .runFunctor
            timers := s.runFunctor f
            ran := s.ran ++ [f] }
  | .loop .batchReleased => { s with loop := s.loop.next .batchReleased, ran := [] }
  | .loop l => { s with loop := s.loop.next l }
  | .handleRead =>
      { s with
        timers := s.timers.handleRead
        expiredTimers := some (s.timers.readTimerfd.getExpired s.timers.clock).2 }
  | .runTimer => { s with timers := s.timers.next .runTimer }
  | .reset => { s with timers := s.timers.next .reset }
  | .resetTimerfd => { s with timers := s.timers.next .resetTimerfd }
  | .handleReadReturn => { s with expiredTimers := none }
  | .addTimerHere t timeout interval =>
      { s with timers := (s.timers.addTimer t timeout interval).addTimerInLoop t }
  | .cancelHere t => { s with timers := s.timers.cancelLocked t (s.lock t) }

/-- A thread that is in no call. -/
def IsFree (s : TimerLoop) (thread : ThreadId) : Prop :=
  thread ∉ s.calls.map Prod.fst ∧ thread ∉ s.loop.quitting

instance (s : TimerLoop) (thread : ThreadId) : Decidable (s.IsFree thread) :=
  inferInstanceAs (Decidable (_ ∧ _))

/-- The loop thread is in user code: in an event callback, a functor, a
    destructor or outside `loop()`. -/
def InUserCode (s : TimerLoop) : Prop :=
  EventLoop.allows s.loop.pc .quitInLoop = true ∧ s.timers.InUserCode ∧
    (s.timers.phase = .idle → s.expiredTimers = none)

instance (s : TimerLoop) : Decidable s.InUserCode :=
  inferInstanceAs (Decidable (_ ∧ _ ∧ (_ → _)))

/-- The loop thread is in its event callbacks. -/
def InEvents (s : TimerLoop) : Prop :=
  match s.loop.pc with
  | .handling _ => True
  | .outside | .test | .poll | .swap | .running _ | .releasing => False

instance (s : TimerLoop) : Decidable s.InEvents :=
  match h : s.loop.pc with
  | .handling _ => isTrue (by simp [InEvents, h])
  | .outside | .test | .poll | .swap | .running _ | .releasing =>
      isFalse (by simp [InEvents, h])

/-- The steps of the loop that are taken as they are: the functors of the
    queue are pushed by calls, and no callback goes on in `handleRead`. -/
def OwnStep (s : TimerLoop) : LoopStep TimerFunctor → Prop
  | .push _ _ | .wakeup _ => False
  | .queueInLoop f => f = .user
  | .quit thread => s.IsFree thread
  | .quitWakeup _ | .quitInLoop => True
  | .enterLoop | .testQuit | .pollReturn _ | .handleRead | .handled | .swapFunctors
  | .runFunctor | .batchDone | .batchReleased => s.expiredTimers = none

instance (s : TimerLoop) : DecidablePred s.OwnStep
  | .push _ _ | .wakeup _ => isFalse id
  | .queueInLoop f => inferInstanceAs (Decidable (f = .user))
  | .quit thread => inferInstanceAs (Decidable (s.IsFree thread))
  | .quitWakeup _ | .quitInLoop => isTrue trivial
  | .enterLoop | .testQuit | .pollReturn _ | .handleRead | .handled | .swapFunctors
  | .runFunctor | .batchDone | .batchReleased =>
      inferInstanceAs (Decidable (s.expiredTimers = none))

def guard (s : TimerLoop) : TimerLoopStep → Prop
  | .elapse _ => True
  | .addTimer thread t _ _ => s.IsFree thread ∧ t ≠ 0 ∧ t ∉ s.timers.heap
  | .cancel thread t => s.IsFree thread ∧ s.Alive t
  | .runInLoop thread => s.IsFree thread
  | .push thread f => (thread, f) ∈ s.calls ∧ thread ∉ s.loop.pushing
  | .wakeup thread => thread ∈ s.loop.pushing
  | .loop l => s.OwnStep l ∧ (eventLoop TimerFunctor).guard s.loop l
  | .handleRead => s.InEvents ∧ s.expiredTimers = none ∧ s.timers.guard .handleRead
  | .runTimer => s.timers.guard .runTimer
  | .reset => s.timers.guard .reset
  | .resetTimerfd => s.timers.guard .resetTimerfd
  | .handleReadReturn => s.timers.phase = .idle
  | .addTimerHere t _ _ => s.InUserCode ∧ t ≠ 0 ∧ t ∉ s.timers.heap
  | .cancelHere t => s.InUserCode ∧ s.Alive t

instance (s : TimerLoop) : DecidablePred s.guard
  | .elapse _ => isTrue trivial
  | .addTimer thread t _ _ =>
      inferInstanceAs (Decidable (s.IsFree thread ∧ t ≠ 0 ∧ t ∉ s.timers.heap))
  | .cancel thread t => inferInstanceAs (Decidable (s.IsFree thread ∧ s.Alive t))
  | .runInLoop thread => inferInstanceAs (Decidable (s.IsFree thread))
  | .push thread f => inferInstanceAs (Decidable ((thread, f) ∈ s.calls ∧ thread ∉ s.loop.pushing))
  | .wakeup thread => inferInstanceAs (Decidable (thread ∈ s.loop.pushing))
  | .loop l => inferInstanceAs (Decidable (s.OwnStep l ∧ (eventLoop TimerFunctor).guard s.loop l))
  | .handleRead =>
      inferInstanceAs
        (Decidable (s.InEvents ∧ s.expiredTimers = none ∧ s.timers.guard .handleRead))
  | .runTimer => inferInstanceAs (Decidable (s.timers.guard .runTimer))
  | .reset => inferInstanceAs (Decidable (s.timers.guard .reset))
  | .resetTimerfd => inferInstanceAs (Decidable (s.timers.guard .resetTimerfd))
  | .handleReadReturn => inferInstanceAs (Decidable (s.timers.phase = .idle))
  | .addTimerHere t _ _ =>
      inferInstanceAs (Decidable (s.InUserCode ∧ t ≠ 0 ∧ t ∉ s.timers.heap))
  | .cancelHere t => inferInstanceAs (Decidable (s.InUserCode ∧ s.Alive t))

end TimerLoop

/-- Every interleaving of the loop thread with the threads that add and
    cancel timers. -/
def timerLoop : Machine TimerLoop TimerLoopStep where
  guard := TimerLoop.guard
  next := TimerLoop.next

instance (s : TimerLoop) (l : TimerLoopStep) : Decidable (timerLoop.guard s l) :=
  inferInstanceAs (Decidable (s.guard l))

namespace TimerLoop

/-! ## The condition -/

/-- The functors that are to be run: in the batch, in `pendingFunctors_`,
    and with a thread that has not pushed its own yet. -/
def onTheWay (s : TimerLoop) : List TimerFunctor :=
  s.loop.batch ++ s.loop.pendingFunctors_ ++
    (s.calls.filter fun c => c.1 ∉ s.loop.pushing).map Prod.snd

/-- Those that a step leaves on the way. -/
def leftOnTheWay (s : TimerLoop) : TimerLoopStep → List TimerFunctor
  | .loop .runFunctor => s.onTheWay.tail
  | _ => s.onTheWay

/-- What a step takes from the owners of a timer. -/
def takes (s : TimerLoop) (t : TimerPtr) : TimerLoopStep → Owner → Bool
  | .handleRead, .cancelingTimers => true
  | .handleReadReturn, .expiredTimers => true
  | .loop .batchReleased, .ran => true
  | .wakeup thread, .call caller => caller == thread
  | .loop .runFunctor, .sets => s.loop.batch.head? == some (.cancelInLoop t)
  | .cancelHere u, .sets => u == t
  | _, _ => false

/-- A timer that is about to be cancelled keeps an owner. -/
def KeepsOwner (s : TimerLoop) (l : TimerLoopStep) : Prop :=
  ∀ t ∈ (s.leftOnTheWay l).filterMap TimerFunctor.cancels,
    ∃ o ∈ s.owners, s.Owns t o ∧ s.takes t l o = false

instance (s : TimerLoop) : DecidablePred s.KeepsOwner := fun l =>
  inferInstanceAs (Decidable (∀ t ∈ (s.leftOnTheWay l).filterMap TimerFunctor.cancels,
    ∃ o ∈ s.owners, s.Owns t o ∧ s.takes t l o = false))

end TimerLoop

/-! ## What the queue does to the owners -/

namespace TimerQueue

theorem mem_check {q : TimerQueue} {a a' : TimerAssert} {b : Bool} :
    a' ∈ (q.check a b).failedAsserts ↔ a' ∈ q.failedAsserts ∨ b = false ∧ a' = a := by
  cases b with
  | true => simp [check]
  | false => simp [check]

section Owners

variable (q : TimerQueue) {t u : TimerPtr}

theorem inSets_congr {q q' : TimerQueue} (htimers : q'.timers_ = q.timers_)
    (hactive : q'.activeTimers_ = q.activeTimers_) : q'.InSets t ↔ q.InSets t := by
  rw [InSets, InSets, htimers, hactive]

theorem inSets_insert (timer : Timer) :
    (q.insert u timer).1.InSets t ↔ t = u ∨ q.InSets t := by
  show (∃ e ∈ q.timers_.insert ⟨timer.expiredTime_, u⟩, e.timer = t) ∨
    (∃ a ∈ q.activeTimers_.insert ⟨u, timer.sequence_⟩, a.timer = t) ↔ _
  simp only [mem_insert_iff, exists_eq_or_imp, InSets]
  grind

theorem cancelTimer_insert (timer : Timer) :
    .cancelTimer ∈ (q.insert u timer).1.failedAsserts ↔ .cancelTimer ∈ q.failedAsserts := by
  simp [insert, checkSizes, mem_check]

theorem inSets_addTimerInLoop (hu : u ∈ q.heap) :
    (q.addTimerInLoop u).InSets t ↔ t = u ∨ q.InSets t := by
  obtain ⟨timer, htimer⟩ := mem_heap_iff.mp hu
  obtain ⟨fd, heq, -⟩ := addTimerInLoop_spec htimer
  rw [← q.inSets_insert timer, heq]
  exact inSets_congr rfl rfl

theorem cancelTimer_addTimerInLoop :
    .cancelTimer ∈ (q.addTimerInLoop u).failedAsserts ↔ .cancelTimer ∈ q.failedAsserts := by
  cases hu : q.heap[u]? with
  | none => simp only [addTimerInLoop, hu]
  | some timer =>
    obtain ⟨fd, heq, -⟩ := addTimerInLoop_spec hu
    rw [heq, ← q.cancelTimer_insert timer]

/-- `cancelInLoop` takes only the timer it cancels from the sets. -/
theorem inSets_cancelLocked (c : Option Timer) :
    ((q.cancelLocked u c).InSets t → q.InSets t) ∧
      (t ≠ u → q.InSets t → (q.cancelLocked u c).InSets t) := by
  unfold cancelLocked
  dsimp only [checkSizes, check]
  split
  · exact ⟨fun h => h, fun _ h => h⟩
  · split
    · simp only [InSets, mem_erase_iff]
      grind
    · split
      · exact ⟨fun h => h, fun _ h => h⟩
      · exact ⟨fun h => h, fun _ h => h⟩

theorem isCanceling_cancelLocked (c : Option Timer) :
    ((q.cancelLocked u c).IsCanceling t → q.IsCanceling t ∨ t = u ∧ c ≠ none) ∧
      (q.IsCanceling t → (q.cancelLocked u c).IsCanceling t) := by
  unfold cancelLocked
  dsimp only [checkSizes, check]
  split
  · exact ⟨Or.inl, fun h => h⟩
  · split
    · exact ⟨Or.inl, fun h => h⟩
    · split
      · simp only [IsCanceling, mem_insert_iff]
        grind
      · exact ⟨Or.inl, fun h => h⟩

/-- A timer that was locked is no null pointer. -/
theorem cancelTimer_cancelLocked (timer : Timer) :
    .cancelTimer ∈ (q.cancelLocked u (some timer)).failedAsserts ↔
      .cancelTimer ∈ q.failedAsserts := by
  unfold cancelLocked
  dsimp only
  split
  · simp [checkSizes, mem_check]
  · split
    · simp [checkSizes, mem_check]
    · simp [checkSizes, mem_check]

/-- What the loop of `getExpired` erases was collected. -/
theorem mem_release (sequenceOf : TimerPtr → Int) (es : List Entry) {a : ActiveTimer} :
    ∀ {r : ExtTreeSet ActiveTimer ActiveTimer.cmp × Bool},
      (a ∈ (release sequenceOf es r).1 → a ∈ r.1) ∧
        (a ∈ r.1 → a ∈ (release sequenceOf es r).1 ∨ a.timer ∈ es.map Entry.timer) := by
  induction es with
  | nil => exact ⟨fun h => h, Or.inl⟩
  | cons e es ih =>
    intro r
    obtain ⟨hsub, hkeep⟩ := @ih (r.1.erase ⟨e.timer, sequenceOf e.timer⟩,
      r.2 && r.1.contains ⟨e.timer, sequenceOf e.timer⟩)
    refine ⟨fun h => (mem_erase_iff.mp (hsub h)).2, fun h => ?_⟩
    by_cases ha : a = ⟨e.timer, sequenceOf e.timer⟩
    · rw [ha]
      exact Or.inr List.mem_cons_self
    · rcases hkeep (mem_erase_iff.mpr ⟨ha, h⟩) with h | h
      · exact Or.inl h
      · exact Or.inr (List.mem_cons_of_mem _ h)

/-- `handleRead` moves timers from the sets to its vector. -/
theorem inSets_handleRead :
    (q.handleRead.InSets t → q.InSets t) ∧
      (q.InSets t → q.handleRead.InSets t ∨ t ∈ (q.expiredAt q.clock).map Entry.timer) := by
  have hactive : q.handleRead.activeTimers_ =
      (release q.sequenceOf (q.expiredAt q.clock) (q.activeTimers_, true)).1 := rfl
  constructor
  · rintro (⟨e, he, rfl⟩ | ⟨a, ha, rfl⟩)
    · exact Or.inl ⟨e, (mem_laterThan.mp he).1, rfl⟩
    · rw [hactive] at ha
      exact Or.inr ⟨a, (mem_release q.sequenceOf _).1 ha, rfl⟩
  · rintro (⟨e, he, rfl⟩ | ⟨a, ha, rfl⟩)
    · by_cases hbefore : beforeSentry q.clock e = true
      · exact Or.inr (List.mem_map_of_mem (mem_expiredAt.mpr ⟨he, hbefore⟩))
      · left
        exact Or.inl ⟨e, mem_laterThan.mpr ⟨he, Bool.eq_false_iff.mpr hbefore⟩, rfl⟩
    · rcases (mem_release q.sequenceOf (q.expiredAt q.clock) (r := (q.activeTimers_, true))).2 ha
        with h | h
      · exact Or.inl (Or.inr ⟨a, hactive ▸ h, rfl⟩)
      · exact Or.inr h

theorem inSets_of_expiredAt {now : Int} (h : t ∈ (q.expiredAt now).map Entry.timer) :
    q.InSets t := by
  obtain ⟨e, he, rfl⟩ := List.mem_map.mp h
  exact Or.inl ⟨e, (mem_expiredAt.mp he).1, rfl⟩

theorem cancelTimer_handleRead :
    .cancelTimer ∈ q.handleRead.failedAsserts ↔ .cancelTimer ∈ q.failedAsserts := by
  simp [handleRead, getExpired, checkSizes, readTimerfd, mem_check]

end Owners

/-- Everything the sets hold is an object. -/
def SetsKnown (q : TimerQueue) : Prop := ∀ t, q.InSets t → t ∈ q.heap

/-- The loop of `reset` only adds timers, and only known ones. -/
theorem foldl_resetEntry_owners (now : Int) (t : TimerPtr) (todo : List Entry) :
    ∀ {q : TimerQueue}, q.SetsKnown →
      (todo.foldl (resetEntry now) q).SetsKnown ∧
        (q.InSets t → (todo.foldl (resetEntry now) q).InSets t) ∧
        (t ∈ q.heap → t ∈ (todo.foldl (resetEntry now) q).heap) ∧
        (.cancelTimer ∈ (todo.foldl (resetEntry now) q).failedAsserts ↔
          .cancelTimer ∈ q.failedAsserts) := by
  induction todo with
  | nil => exact fun h => ⟨h, fun h => h, fun h => h, Iff.rfl⟩
  | cons e todo ih =>
    intro q h
    rcases resetEntry_cases now q e with ⟨-, heq⟩ | ⟨timer, q', hr, rfl, heq⟩
    · rw [List.foldl_cons, heq]
      exact ih h
    · obtain ⟨htimer, -⟩ := restarting_eq_some.mp hr
      have hheap : ∀ u ∈ q.heap, u ∈ q.heap.insert e.timer (timer.restart now) :=
        fun u hu => ExtTreeMap.mem_insert.mpr (Or.inr hu)
      rw [List.foldl_cons, heq]
      generalize hq' : { q with heap := q.heap.insert e.timer (timer.restart now) } = q'
      have hsets : ∀ u, q'.InSets u ↔ q.InSets u := by
        subst hq'
        exact fun _ => Iff.rfl
      have hknown : (q'.insert e.timer (timer.restart now)).1.SetsKnown := by
        intro u hu
        rw [heap_insert, ← hq']
        rcases (q'.inSets_insert _).mp hu with rfl | hu
        · exact ExtTreeMap.mem_insert.mpr (Or.inl ReflCmp.compare_self)
        · exact hheap u (h u ((hsets u).mp hu))
      obtain ⟨hk, hin, hmem, hassert⟩ := ih hknown
      refine ⟨hk, fun ht => hin ?_, fun ht => hmem ?_, hassert.trans ?_⟩
      · exact (q'.inSets_insert _).mpr (Or.inr ((hsets t).mpr ht))
      · rw [heap_insert, ← hq']
        exact hheap t ht
      · rw [cancelTimer_insert, ← hq']

/-- The queue owns the timer. -/
def Holds (q : TimerQueue) (t : TimerPtr) : Prop := t ∈ q.adding ∨ q.InSets t ∨ q.IsCanceling t

/-- What a step does to the owners in the queue: nothing is lost but by a
    cancellation, and what is new is known. -/
structure Moves (q q' : TimerQueue) (cancelled : TimerPtr → Prop) : Prop where
  heap : ∀ t ∈ q.heap, t ∈ q'.heap
  known : ∀ t, q'.Holds t → q.Holds t ∨ t ∈ q'.heap
  adding : ∀ t ∈ q.adding, t ∈ q'.adding ∨ q'.InSets t
  sets : ∀ t, q.InSets t → ¬ cancelled t → q'.InSets t
  canceling : ∀ t, q.IsCanceling t → q'.IsCanceling t

theorem moves_of_eq {q q' : TimerQueue} (hheap : q'.heap = q.heap) (hadding : q'.adding = q.adding)
    (htimers : q'.timers_ = q.timers_) (hactive : q'.activeTimers_ = q.activeTimers_)
    (hcanceling : q'.cancelingTimers_ = q.cancelingTimers_) : Moves q q' fun _ => False := by
  have hsets : ∀ t, q'.InSets t ↔ q.InSets t := by
    intro t
    rw [InSets, InSets, htimers, hactive]
  have hmarks : ∀ t, q'.IsCanceling t ↔ q.IsCanceling t := by
    intro t
    rw [IsCanceling, IsCanceling, hcanceling]
  refine ⟨fun t h => hheap ▸ h, fun t h => ?_, fun t h => ?_, fun t h _ => (hsets t).mpr h,
    fun t h => (hmarks t).mpr h⟩
  · rw [Holds, hadding, hsets, hmarks] at h
    exact Or.inl h
  · rw [hadding]
    exact Or.inl h

theorem moves_addTimer (q : TimerQueue) (u : TimerPtr) (timeout interval : Int) :
    Moves q (q.addTimer u timeout interval) fun _ => False := by
  refine ⟨fun t h => ?_, fun t h => ?_, fun t h => ?_, fun t h _ => h, fun t h => h⟩
  · exact ExtTreeMap.mem_insert.mpr (Or.inr h)
  · rcases h with h | h
    · rcases List.mem_cons.mp h with rfl | h
      · exact Or.inr (ExtTreeMap.mem_insert.mpr (Or.inl ReflCmp.compare_self))
      · exact Or.inl (Or.inl h)
    · exact Or.inl (Or.inr h)
  · exact Or.inl (List.mem_cons_of_mem _ h)

/-- The timer goes from the functor into the sets. -/
theorem moves_addTimerInLoop (q : TimerQueue) {u : TimerPtr} (hu : u ∈ q.heap) :
    Moves q (q.addTimerInLoop u) fun _ => False := by
  have hsets := fun t => q.inSets_addTimerInLoop (t := t) hu
  obtain ⟨timer, htimer⟩ := mem_heap_iff.mp hu
  obtain ⟨fd, heq, -⟩ := addTimerInLoop_spec htimer
  have hheap : (q.addTimerInLoop u).heap = q.heap := by
    rw [heq]
    rfl
  have hadding : (q.addTimerInLoop u).adding = q.adding.erase u := by
    rw [heq]
  have hmarks : (q.addTimerInLoop u).cancelingTimers_ = q.cancelingTimers_ := by
    rw [heq]
    rfl
  refine ⟨fun t h => hheap ▸ h, fun t h => ?_, fun t h => ?_, fun t h _ => ?_, fun t h => ?_⟩
  · rcases h with h | h | h
    · rw [hadding] at h
      exact Or.inl (Or.inl (List.mem_of_mem_erase h))
    · rcases (hsets t).mp h with rfl | h
      · right
        rw [hheap]
        exact hu
      · exact Or.inl (Or.inr (Or.inl h))
    · rw [IsCanceling, hmarks] at h
      exact Or.inl (Or.inr (Or.inr h))
  · by_cases ht : t = u
    · exact Or.inr ((hsets t).mpr (Or.inl ht))
    · rw [hadding]
      exact Or.inl ((List.mem_erase_of_ne ht).mpr h)
  · exact (hsets t).mpr (Or.inr h)
  · rw [IsCanceling, hmarks]
    exact h

theorem moves_cancelLocked (q : TimerQueue) {u : TimerPtr} {c : Option Timer}
    (hu : c ≠ none → u ∈ q.heap) : Moves q (q.cancelLocked u c) fun t => t = u := by
  obtain ⟨-, hheap, hrest⟩ := q.cancelLocked_frame u c
  refine ⟨fun t h => hheap ▸ h, fun t h => ?_, fun t h => ?_, fun t h hne => ?_, fun t h => ?_⟩
  · rcases h with h | h | h
    · exact Or.inl (Or.inl (hrest.adding ▸ h))
    · exact Or.inl (Or.inr (Or.inl ((q.inSets_cancelLocked c).1 h)))
    · rcases (q.isCanceling_cancelLocked c).1 h with h | ⟨rfl, hc⟩
      · exact Or.inl (Or.inr (Or.inr h))
      · rw [hheap]
        exact Or.inr (hu hc)
  · exact Or.inl (hrest.adding ▸ h)
  · exact (q.inSets_cancelLocked c).2 hne h
  · exact (q.isCanceling_cancelLocked c).2 h

theorem moves_reset {q : TimerQueue} (h : q.SetsKnown) (expired : List Entry) (now : Int) :
    Moves q (q.reset expired now) fun _ => False := by
  obtain ⟨p, -, heq⟩ := q.reset_eq expired now
  have hstart : SetsKnown { q with callingExpiredTimers_ := false } := h
  have howners := fun t => foldl_resetEntry_owners now t expired hstart
  obtain ⟨hrest, hmarks⟩ :=
    foldl_resetEntry_frame now expired { q with callingExpiredTimers_ := false }
  rw [heq]
  refine ⟨fun t ht => (howners t).2.2.1 ht, fun t ht => ?_, fun t ht => ?_,
    fun t ht _ => (howners t).2.1 ht, fun t ht => ?_⟩
  · rcases ht with ht | ht | ht
    · exact Or.inl (Or.inl (hrest.adding ▸ ht))
    · exact Or.inr ((howners t).1 t ht)
    · obtain ⟨a, ha, hat⟩ := ht
      exact Or.inl (Or.inr (Or.inr ⟨a, hmarks ▸ ha, hat⟩))
  · left
    show t ∈ (expired.foldl (resetEntry now) _).adding
    rw [hrest.adding]
    exact ht
  · obtain ⟨a, ha, hat⟩ := ht
    refine ⟨a, ?_, hat⟩
    show a ∈ (expired.foldl (resetEntry now) _).cancelingTimers_
    rw [hmarks]
    exact ha

theorem Moves.weaken {q q' : TimerQueue} {P Q : TimerPtr → Prop} (h : Moves q q' P)
    (hPQ : ∀ t, P t → Q t) : Moves q q' Q :=
  ⟨h.heap, h.known, h.adding, fun t ht hn => h.sets t ht fun hp => hn (hPQ t hp), h.canceling⟩

theorem Moves.trans {q q' q'' : TimerQueue} {P : TimerPtr → Prop} (h : Moves q q' P)
    (h' : Moves q' q'' fun _ => False) : Moves q q'' P := by
  refine ⟨fun t ht => h'.heap t (h.heap t ht), fun t ht => ?_, fun t ht => ?_,
    fun t ht hn => h'.sets t (h.sets t ht hn) id, fun t ht => h'.canceling t (h.canceling t ht)⟩
  · rcases h'.known t ht with ht | ht
    · exact (h.known t ht).imp id (h'.heap t)
    · exact Or.inr ht
  · rcases h.adding t ht with ht | ht
    · exact h'.adding t ht
    · exact Or.inr (h'.sets t ht id)

end TimerQueue

end TinyWS
