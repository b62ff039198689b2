import TinyWS.Net.EventLoop

/-! # EventLoopThread

    A thread with an `EventLoop` on its stack, and the owner that starts it
    and asks it to quit in the destructor.

    `startThread` returns as soon as `loop_` is published, and `loop()`
    begins with `quit_ = false`.  A request that arrives in between is
    overwritten: the loop goes on, and `join` waits for it.  A request that
    arrives later ends the loop at its next test.

    The steps inside the loop are those of `eventLoop`.  Its user may call
    `quit` as well; a loop that has returned for such a call is destroyed,
    and its owner has nothing left to call. -/

namespace TinyWS

universe u

/-- Where the new thread is in `threadFunction`. -/
inductive ThreadPhase where
  | notStarted
  /-- In the constructor of the loop. -/
  | constructing
  /-- In `callback_`. -/
  | callback
  /-- `loop_` is set, and `loop()` is not entered yet. -/
  | published
  /-- In `loop()`, after `quit_ = false`. -/
  | looping
  /-- `loop()` has returned, and the loop is destroyed. -/
  | returned
  deriving DecidableEq, Repr

/-- Where the owner is. -/
inductive OwnerPhase where
  | constructed
  /-- In `startThread`. -/
  | waiting
  | started
  /-- In `quit`, between the store and `wakeup()`. -/
  | quitting
  /-- `quit` has completed. -/
  | joining
  | joined
  deriving DecidableEq, Repr

/-- `class EventLoopThread`, with the object `loop_` points to. -/
structure EventLoopThread (F : Type u) where
  loop : EventLoop F
  /-- `loop_` is not null. -/
  loop_ : Bool
  exiting_ : Bool
  thread : ThreadPhase
  owner : OwnerPhase
  /-- History: the iterations begun since the owner's `quit` completed. -/
  iterations : Nat

inductive ThreadStep (F : Type u) where
  | startThread
  /-- `startThread` returns. -/
  | started
  /-- The destructor, up to the store in `quit`. -/
  | quit
  /-- The rest of `quit`. -/
  | wakeup
  | join
  | construct
  /-- `callback_` has returned: `loop_` is set under `mutex_`. -/
  | publish
  /-- A step of the loop thread in its loop, or of another thread on it. -/
  | loop (l : LoopStep F)

namespace EventLoopThread

variable {F : Type u}

def new : EventLoopThread F where
  loop := EventLoop.new
  loop_ := false
  exiting_ := false
  thread := .notStarted
  owner := .constructed
  iterations := 0

/-- The owner's `quit()` has completed. -/
def quitDone (s : EventLoopThread F) : Bool := s.owner = .joining || s.owner = .joined

/-- The test of `while (!quit_)`, from which the body or the end of
    `threadFunction` follows. -/
def testQuit (s : EventLoopThread F) : EventLoopThread F :=
  let loop := s.loop.next .testQuit
  if s.loop.quit_ then
    { s with loop := loop, thread := .returned }
  else
    { s with
      loop := loop
      iterations := if s.quitDone then s.iterations + 1 else s.iterations }

def next (s : EventLoopThread F) : ThreadStep F → EventLoopThread F
  | .startThread => { s with owner := .waiting, thread := .constructing }
  | .started => { s with owner := .started }
  | .quit =>
      { s with exiting_ := true, loop := { s.loop with quit_ := true }, owner := .quitting }
  | .wakeup => { s with loop := s.loop.writeWakeup, owner := .joining }
  | .join => { s with owner := .joined }
  | .construct => { s with loop := EventLoop.new, thread := .callback }
  | .publish => { s with loop_ := true, thread := .published }
  | .loop .enterLoop => { s with loop := s.loop.next .enterLoop, thread := .looping }
  | .loop .testQuit => s.testQuit
  | .loop l => { s with loop := s.loop.next l }

/-- The object is there. -/
def loopAlive (s : EventLoopThread F) : Bool :=
  match s.thread with
  | .notStarted | .constructing | .returned => false
  | .callback | .published | .looping => true

/-- Which steps of `eventLoop` the new thread is ready for. -/
def permits (s : EventLoopThread F) : LoopStep F → Bool
  | .push _ _ | .wakeup _ | .quit _ | .quitWakeup _ => s.loopAlive
  | .queueInLoop _ | .quitInLoop => s.thread = .callback || s.thread = .looping
  -- `threadFunction` calls `loop()` once
  | .enterLoop => s.thread = .published
  | .testQuit | .pollReturn _ | .handleRead | .handled | .swapFunctors | .runFunctor | .batchDone
  | .batchReleased => s.thread = .looping

def guard (s : EventLoopThread F) : ThreadStep F → Prop
  | .startThread => s.owner = .constructed
  | .started => s.owner = .waiting ∧ s.loop_ = true
  | .quit => s.owner = .started ∧ s.loopAlive = true
  | .wakeup => s.owner = .quitting
  | .join => s.owner = .joining ∧ s.thread = .returned
  | .construct => s.thread = .constructing
  | .publish => s.thread = .callback
  | .loop l => s.permits l = true ∧ (eventLoop F).guard s.loop l

instance (s : EventLoopThread F) : DecidablePred s.guard
  | .startThread => inferInstanceAs (Decidable (s.owner = .constructed))
  | .started => inferInstanceAs (Decidable (s.owner = .waiting ∧ s.loop_ = true))
  | .quit => inferInstanceAs (Decidable (s.owner = .started ∧ s.loopAlive = true))
  | .wakeup => inferInstanceAs (Decidable (s.owner = .quitting))
  | .join => inferInstanceAs (Decidable (s.owner = .joining ∧ s.thread = .returned))
  | .construct => inferInstanceAs (Decidable (s.thread = .constructing))
  | .publish => inferInstanceAs (Decidable (s.thread = .callback))
  | .loop l => inferInstanceAs (Decidable (s.permits l = true ∧ (eventLoop F).guard s.loop l))

end EventLoopThread

/-- The interleavings of the new thread with its owner and with the users
    of the loop. -/
def eventLoopThread (F : Type u) : Machine (EventLoopThread F) (ThreadStep F) where
  guard := EventLoopThread.guard
  next := EventLoopThread.next

instance (F : Type u) (s : EventLoopThread F) (l : ThreadStep F) :
    Decidable ((eventLoopThread F).guard s l) :=
  inferInstanceAs (Decidable (s.guard l))

namespace EventLoopThread

variable {F : Type u}

/-! ## The condition -/

/-- The condition of the runs: the request is stored after `loop()` has
    executed `quit_ = false`. -/
def QuitsInLoop (s : EventLoopThread F) : ThreadStep F → Prop
  | .quit => s.thread = .looping
  | _ => True

instance (s : EventLoopThread F) : DecidablePred s.QuitsInLoop
  | .quit => inferInstanceAs (Decidable (s.thread = .looping))
  | .startThread | .started | .wakeup | .join | .construct | .publish | .loop _ => isTrue trivial

/-- The owner has stored its request. -/
def asked (s : EventLoopThread F) : Bool :=
  match s.owner with
  | .constructed | .waiting | .started => false
  | .quitting | .joining | .joined => true

/-- A request that was made stands, and no iteration began since. -/
structure Heard (s : EventLoopThread F) : Prop where
  stands : s.asked = true → s.thread = .looping ∧ s.loop.quit_ = true ∨ s.thread = .returned
  iterations : s.iterations = 0

theorem heard_new : (new : EventLoopThread F).Heard := by
  refine ⟨fun hasked => ?_, rfl⟩
  cases hasked

/-- No step but `loop()` itself takes a request back. -/
theorem quit_next {s : EventLoop F} {l : LoopStep F} (hquit : s.quit_ = true)
    (hne : l ≠ .enterLoop) : (s.next l).quit_ = true := by
  cases l with
  | enterLoop => exact absurd rfl hne
  | queueInLoop f =>
    show (s.queueInLoop f).quit_ = true
    unfold EventLoop.queueInLoop
    split
    · exact hquit
    · exact hquit
  | testQuit =>
    show (if s.quit_ then { s with looping_ := false, pc := .outside }
      else { s with pc := .poll } : EventLoop F).quit_ = true
    rw [if_pos hquit]
    exact hquit
  | runFunctor =>
    simp only [EventLoop.next]
    split
    · exact hquit
    · exact hquit
  | quit t | quitInLoop => rfl
  | push t f | wakeup t | quitWakeup t | pollReturn w | handleRead | handled | swapFunctors
  | batchDone | batchReleased => exact hquit

theorem heard_testQuit {s : EventLoopThread F} (h : s.Heard) (hthread : s.thread = .looping) :
    s.testQuit.Heard := by
  unfold testQuit
  by_cases hquit : s.loop.quit_ = true
  · rw [if_pos hquit]
    exact ⟨fun _ => Or.inr rfl, h.iterations⟩
  · -- nothing was asked of this loop
    have hasked : s.asked = false := by
      rw [Bool.eq_false_iff]
      intro hasked
      rcases h.stands hasked with ⟨-, hstored⟩ | hreturned
      · exact hquit hstored
      · rw [hthread] at hreturned
        cases hreturned
    have hdone : s.quitDone = false := by
      unfold asked at hasked
      unfold quitDone
      cases howner : s.owner <;> rw [howner] at hasked <;> first | rfl | cases hasked
    rw [if_neg hquit, hdone]
    refine ⟨fun hafter => ?_, h.iterations⟩
    exact absurd hafter (by rw [Bool.not_eq_true]; exact hasked)

/-- A step in the loop, apart from its entry and its test. -/
theorem heard_loop {s : EventLoopThread F} (h : s.Heard) {l : LoopStep F} (hne : l ≠ .enterLoop) :
    { s with loop := s.loop.next l }.Heard := by
  refine ⟨fun hasked => ?_, h.iterations⟩
  rcases h.stands hasked with ⟨hthread, hquit⟩ | hreturned
  · exact Or.inl ⟨hthread, quit_next hquit hne⟩
  · exact Or.inr hreturned

/-- **Step**: every step that meets the condition keeps the request. -/
theorem heard_next {s : EventLoopThread F} (h : s.Heard) {l : ThreadStep F} (hguard : s.guard l)
    (hcond : s.QuitsInLoop l) : (s.next l).Heard := by
  cases l with
  | startThread | started =>
    refine ⟨fun hasked => ?_, h.iterations⟩
    cases hasked
  | quit => exact ⟨fun _ => Or.inl ⟨hcond, rfl⟩, h.iterations⟩
  | wakeup =>
    have hasked : s.asked = true := by rw [asked, show s.owner = .quitting from hguard]
    exact ⟨fun _ => h.stands hasked, h.iterations⟩
  | join =>
    have hasked : s.asked = true := by rw [asked, hguard.1]
    exact ⟨fun _ => h.stands hasked, h.iterations⟩
  | construct =>
    refine ⟨fun hasked => ?_, h.iterations⟩
    -- there is no loop yet that could have been asked
    rcases h.stands hasked with ⟨hthread, -⟩ | hthread
    · rw [show s.thread = .constructing from hguard] at hthread
      cases hthread
    · rw [show s.thread = .constructing from hguard] at hthread
      cases hthread
  | publish =>
    refine ⟨fun hasked => ?_, h.iterations⟩
    rcases h.stands hasked with ⟨hthread, -⟩ | hthread
    · rw [show s.thread = .callback from hguard] at hthread
      cases hthread
    · rw [show s.thread = .callback from hguard] at hthread
      cases hthread
  | loop l =>
    obtain ⟨hpermits, -⟩ := hguard
    cases l with
    | enterLoop =>
      have hthread : s.thread = .published := by simpa [permits] using hpermits
      refine ⟨fun hasked => ?_, h.iterations⟩
      rcases h.stands hasked with ⟨hin, -⟩ | hin
      · rw [hthread] at hin
        cases hin
      · rw [hthread] at hin
        cases hin
    | testQuit => exact heard_testQuit h (by simpa [permits] using hpermits)
    | push | wakeup | quit | quitWakeup | queueInLoop | quitInLoop | pollReturn | handleRead
    | handled | swapFunctors | runFunctor | batchDone | batchReleased =>
      exact heard_loop h (by simp)

theorem heard_run {steps : List (ThreadStep F)} (hvalid : (eventLoopThread F).Valid new steps)
    (hcond : (eventLoopThread F).Along QuitsInLoop new steps) :
    ((eventLoopThread F).run new steps).Heard := by
  refine (eventLoopThread F).invariant_run Heard ?_ heard_new
    (((eventLoopThread F).along_and _ _).mpr ⟨hvalid, hcond⟩)
  intro s l h hl
  exact heard_next h hl.1 hl.2

/-- **A quit request is heard**: in every interleaving in which it is
    stored after `loop()` has begun, at most one iteration starts after
    `quit()` has completed. -/
theorem iterations_le_one_of_quitsInLoop (F : Type u) (steps : List (ThreadStep F))
    (hvalid : (eventLoopThread F).Valid new steps)
    (hcond : (eventLoopThread F).Along QuitsInLoop new steps) :
    ((eventLoopThread F).run new steps).iterations ≤ 1 := by
  rw [(heard_run hvalid hcond).iterations]
  exact Nat.zero_le 1

/-- The loop is told to quit while it sleeps. -/
theorem iterations_le_one_asleep :
    let steps : List (ThreadStep Nat) :=
      [.startThread, .construct, .publish, .started, .loop .enterLoop, .loop .testQuit, .quit,
        .wakeup, .loop (.pollReturn true), .loop .handleRead, .loop .handled, .loop .swapFunctors,
        .loop .batchDone, .loop .batchReleased, .loop .testQuit, .join]
    ((eventLoopThread Nat).run new steps).iterations ≤ 1 :=
  iterations_le_one_of_quitsInLoop Nat _ (by decide) (by decide)

/-- The owner is faster than its thread: two iterations begin after
    `quit()` has completed, and nothing ends the loop. -/
theorem quit_lost_before_loop :
    let steps : List (ThreadStep Nat) :=
      [.startThread, .construct, .publish, .started, .quit, .wakeup, .loop .enterLoop,
        .loop .testQuit, .loop (.pollReturn true), .loop .handleRead, .loop .handled,
        .loop .swapFunctors, .loop .batchDone, .loop .batchReleased, .loop .testQuit]
    (eventLoopThread Nat).Valid new steps ∧
      ¬ ((eventLoopThread Nat).run new steps).iterations ≤ 1 := by
  decide

/-! ## The lost request -/

/-- The loop goes on although `quit()` has completed. -/
structure Missed (s : EventLoopThread F) : Prop where
  thread : s.thread = .looping
  owner : s.owner = .joining
  pc : s.loop.pc = .test
  quit : s.loop.quit_ = false

/-- A batch runs to its end. -/
theorem run_batch (fs : List F) : ∀ {s : EventLoopThread F}, s.thread = .looping →
    s.loop.pc = .running fs →
    (eventLoopThread F).Valid s (List.replicate fs.length (.loop .runFunctor)) ∧
      (eventLoopThread F).run s (List.replicate fs.length (.loop .runFunctor)) =
        { s with loop := { s.loop with executed := s.loop.executed ++ fs, pc := .running [] } } := by
  induction fs with
  | nil =>
    intro s hthread hpc
    refine ⟨trivial, ?_⟩
    simp [← hpc]
  | cons f fs ih =>
    intro s hthread hpc
    have hnext : (eventLoopThread F).next s (.loop .runFunctor) =
        { s with loop := { s.loop with executed := s.loop.executed ++ [f], pc := .running fs } } := by
      simp [eventLoopThread, next, EventLoop.next, hpc]
    have hguard : s.guard (.loop .runFunctor) := by
      refine ⟨by simp [permits, hthread], ?_, trivial⟩
      rw [hpc]
      rfl
    obtain ⟨hvalid, hrun⟩ := @ih ((eventLoopThread F).next s (.loop .runFunctor))
      (by rw [hnext]; exact hthread) (by rw [hnext])
    refine ⟨⟨hguard, hvalid⟩, ?_⟩
    show (eventLoopThread F).run _ (List.replicate fs.length _) = _
    rw [hrun, hnext]
    simp

/-- The iteration up to the batch. -/
theorem run_to_batch {s : EventLoopThread F} (h : s.Missed) :
    ∃ steps, (eventLoopThread F).Valid s steps ∧
      (eventLoopThread F).run s steps =
        { s with
          loop :=
            { s.loop with
              callingPendingFuntors_ := true
              pendingFunctors_ := []
              pc := .running s.loop.pendingFunctors_ }
          iterations := s.iterations + 1 } := by
  have htest : (eventLoopThread F).next s (.loop .testQuit) =
      { s with loop := { s.loop with pc := .poll }, iterations := s.iterations + 1 } := by
    simp [eventLoopThread, next, testQuit, EventLoop.next, h.quit, quitDone, h.owner]
  refine ⟨[.loop .testQuit, .loop (.pollReturn false), .loop .handled, .loop .swapFunctors],
    ⟨⟨by simp [permits, h.thread], by rw [h.pc]; rfl, trivial⟩, ?_⟩, ?_⟩
  · rw [htest]
    refine ⟨⟨?_, rfl, fun hno => by cases hno⟩, ⟨?_, rfl, trivial⟩, ⟨?_, rfl, trivial⟩, trivial⟩
    all_goals simp [permits, h.thread, eventLoopThread, next]
  · rw [Machine.run_cons, htest]
    rfl

/-- One more iteration: it begins, and comes back to the test. -/
theorem missed_iteration {s : EventLoopThread F} (h : s.Missed) :
    ∃ steps, (eventLoopThread F).Valid s steps ∧ ((eventLoopThread F).run s steps).Missed ∧
      ((eventLoopThread F).run s steps).iterations = s.iterations + 1 := by
  obtain ⟨start, hvalid, hrun⟩ := run_to_batch h
  obtain ⟨hvalid', hrun'⟩ := run_batch s.loop.pendingFunctors_
    (s := (eventLoopThread F).run s start) (by rw [hrun]; exact h.thread) (by rw [hrun])
  refine ⟨start ++ (List.replicate s.loop.pendingFunctors_.length (.loop .runFunctor) ++
    [.loop .batchDone, .loop .batchReleased]), ?_, ?_, ?_⟩
  · rw [Machine.valid_append, Machine.valid_append]
    refine ⟨hvalid, hvalid', ?_⟩
    rw [hrun', hrun]
    refine ⟨⟨?_, rfl, trivial⟩, ⟨?_, rfl, trivial⟩, trivial⟩
    all_goals simp [permits, h.thread, eventLoopThread, next]
  · rw [Machine.run_append, Machine.run_append, hrun', hrun]
    exact ⟨h.thread, h.owner, rfl, h.quit⟩
  · rw [Machine.run_append, Machine.run_append, hrun', hrun]
    rfl

theorem missed_iterations {s : EventLoopThread F} (h : s.Missed) (n : Nat) :
    ∃ steps, (eventLoopThread F).Valid s steps ∧ ((eventLoopThread F).run s steps).Missed ∧
      ((eventLoopThread F).run s steps).iterations = s.iterations + n := by
  induction n with
  | zero => exact ⟨[], trivial, h, rfl⟩
  | succ n ih =>
    obtain ⟨steps, hvalid, hmissed, hcount⟩ := ih
    obtain ⟨more, hvalid', hmissed', hcount'⟩ := missed_iteration hmissed
    refine ⟨steps ++ more, ?_, ?_, ?_⟩
    · rw [Machine.valid_append]
      exact ⟨hvalid, hvalid'⟩
    · rw [Machine.run_append]
      exact hmissed'
    · rw [Machine.run_append, hcount', hcount]
      rfl

/-- **A request in front of `loop()` is lost**: the thread can go on for
    any number of iterations. -/
theorem quit_lost {s : EventLoopThread F} (howner : s.owner = .started)
    (hthread : s.thread = .published) (hpc : s.loop.pc = .outside) (n : Nat) :
    ∃ steps, (eventLoopThread F).Valid s (.quit :: steps) ∧
      ((eventLoopThread F).run s (.quit :: steps)).iterations = s.iterations + n := by
  have hmissed : ((eventLoopThread F).run s [.quit, .wakeup, .loop .enterLoop]).Missed :=
    ⟨rfl, rfl, rfl, rfl⟩
  have hvalid : (eventLoopThread F).Valid s [.quit, .wakeup, .loop .enterLoop] := by
    refine ⟨⟨howner, by rw [loopAlive, hthread]⟩, rfl, ⟨?_, ?_, trivial⟩, trivial⟩
    · simp [permits, eventLoopThread, next, hthread]
    · show EventLoop.allows s.loop.pc .enterLoop = true
      rw [hpc]
      rfl
  obtain ⟨steps, hvalid', -, hcount⟩ := missed_iterations hmissed n
  refine ⟨.wakeup :: .loop .enterLoop :: steps, ?_, hcount⟩
  exact ((eventLoopThread F).valid_append s [.quit, .wakeup, .loop .enterLoop] steps).mpr
    ⟨hvalid, hvalid'⟩

/-! ## Where the owner finds the thread -/

/-- Where the thread is, seen from the loop, from `loop_` and from the
    owner. -/
structure Placed (s : EventLoopThread F) : Prop where
  pc : s.thread = .looping ∨ s.thread = .returned ∨ s.loop.pc = .outside
  published : s.loop_ = true →
    s.thread = .published ∨ s.thread = .looping ∨ s.thread = .returned
  constructed : s.owner = .constructed → s.thread = .notStarted
  started : s.owner = .started → s.loop_ = true

theorem placed_new : (new : EventLoopThread F).Placed := by
  refine ⟨Or.inr (Or.inr rfl), fun hloop => ?_, fun _ => rfl, fun howner => ?_⟩
  · cases hloop
  · cases howner

/-- Steps of the users of the loop leave its thread where it is. -/
theorem pc_next_of_outside {s : EventLoop F} {l : LoopStep F}
    (hguard : (eventLoop F).guard s l) (hpc : s.pc = .outside) (hne : l ≠ .enterLoop) :
    (s.next l).pc = .outside := by
  have hallows := hguard.1
  rw [hpc] at hallows
  cases l with
  | enterLoop => exact absurd rfl hne
  | queueInLoop f =>
    show (s.queueInLoop f).pc = .outside
    unfold EventLoop.queueInLoop
    split
    · exact hpc
    · exact hpc
  | push | wakeup | quit | quitWakeup | quitInLoop => exact hpc
  | testQuit | pollReturn | handleRead | handled | swapFunctors | runFunctor | batchDone
  | batchReleased => cases hallows

theorem placed_loop {s : EventLoopThread F} (h : s.Placed) {l : LoopStep F}
    (hguard : (eventLoop F).guard s.loop l) (hne : l ≠ .enterLoop) :
    { s with loop := s.loop.next l }.Placed := by
  refine ⟨?_, h.published, h.constructed, h.started⟩
  rcases h.pc with hthread | hthread | hpc
  · exact Or.inl hthread
  · exact Or.inr (Or.inl hthread)
  · exact Or.inr (Or.inr (pc_next_of_outside hguard hpc hne))

/-- The owner is in its destructor, and the thread where it was. -/
theorem Placed.asked {s s' : EventLoopThread F} (h : s.Placed) (hthread : s'.thread = s.thread)
    (hpc : s'.loop.pc = s.loop.pc) (hloop : s'.loop_ = s.loop_) (hasked : s'.asked = true) :
    s'.Placed := by
  refine ⟨?_, ?_, fun howner => ?_, fun howner => ?_⟩
  · rw [hthread, hpc]
    exact h.pc
  · rw [hthread, hloop]
    exact h.published
  · rw [EventLoopThread.asked, howner] at hasked
    cases hasked
  · rw [EventLoopThread.asked, howner] at hasked
    cases hasked

/-- A thread that runs was started. -/
theorem Placed.owner_ne {s : EventLoopThread F} (h : s.Placed) (hthread : s.thread ≠ .notStarted) :
    s.owner ≠ .constructed :=
  fun howner => hthread (h.constructed howner)

theorem placed_next {s : EventLoopThread F} (h : s.Placed) {l : ThreadStep F}
    (hguard : s.guard l) : (s.next l).Placed := by
  cases l with
  | startThread =>
    have hthread := h.constructed hguard
    have hpc : s.loop.pc = .outside := by simpa [hthread] using h.pc
    refine ⟨Or.inr (Or.inr hpc), fun hloop => ?_, fun howner => ?_, fun howner => ?_⟩
    · -- nothing is published before the thread runs
      have hpublished := h.published hloop
      simp [hthread] at hpublished
    · cases howner
    · cases howner
  | started =>
    refine ⟨h.pc, h.published, fun howner => ?_, fun _ => hguard.2⟩
    cases howner
  | quit | wakeup | join => exact h.asked rfl rfl rfl rfl
  | construct =>
    have hthread : s.thread = .constructing := hguard
    have howner := h.owner_ne (by simp [hthread])
    -- there is a loop now, and nobody has been told
    refine ⟨Or.inr (Or.inr rfl), fun hloop => ?_, fun hs => absurd hs howner, h.started⟩
    have hpublished := h.published hloop
    simp [hthread] at hpublished
  | publish =>
    have hthread : s.thread = .callback := hguard
    have hpc : s.loop.pc = .outside := by simpa [hthread] using h.pc
    have howner := h.owner_ne (by simp [hthread])
    exact ⟨Or.inr (Or.inr hpc), fun _ => Or.inl rfl, fun hs => absurd hs howner, fun _ => rfl⟩
  | loop l =>
    obtain ⟨hpermits, hloop⟩ := hguard
    cases l with
    | enterLoop =>
      have hthread : s.thread = .published := by simpa [permits] using hpermits
      have howner := h.owner_ne (by simp [hthread])
      exact ⟨Or.inl rfl, fun _ => Or.inr (Or.inl rfl), fun hs => absurd hs howner, h.started⟩
    | testQuit =>
      have hthread : s.thread = .looping := by simpa [permits] using hpermits
      have howner := h.owner_ne (by simp [hthread])
      -- `loop()` returns, or goes around once more
      show s.testQuit.Placed
      unfold testQuit
      split
      · exact ⟨Or.inr (Or.inl rfl), fun _ => Or.inr (Or.inr rfl), fun hs => absurd hs howner,
          h.started⟩
      · exact ⟨Or.inl hthread, h.published, h.constructed, h.started⟩
    | push | wakeup | quit | quitWakeup | queueInLoop | quitInLoop | pollReturn | handleRead
    | handled | swapFunctors | runFunctor | batchDone | batchReleased =>
      -- inside `loop()` the thread stays where it is
      exact placed_loop h hloop (by simp)

/-- A request is made once. -/
theorem asked_next {s : EventLoopThread F} (h : s.asked = true) {l : ThreadStep F}
    (hguard : s.guard l) : (s.next l).asked = true := by
  cases l with
  | startThread => rw [asked, show s.owner = .constructed from hguard] at h; cases h
  | started => rw [asked, hguard.1] at h; cases h
  | quit | wakeup | join => rfl
  | construct | publish => exact h
  | loop l =>
    cases l with
    | testQuit =>
      show s.testQuit.asked = true
      unfold testQuit
      split
      · exact h
      · exact h
    | enterLoop | push | wakeup | quit | quitWakeup | queueInLoop | quitInLoop | pollReturn
    | handleRead | handled | swapFunctors | runFunctor | batchDone | batchReleased => exact h

/-- A second request is not made, so the condition is met from the first
    one on. -/
theorem quitsInLoop_of_asked {s : EventLoopThread F} (h : s.asked = true)
    {steps : List (ThreadStep F)} (hvalid : (eventLoopThread F).Valid s steps) :
    (eventLoopThread F).Along QuitsInLoop s steps := by
  refine (eventLoopThread F).along_of_invariant (fun s => s.asked = true) ?_ ?_ h hvalid
  · intro s l hs hl
    exact asked_next hs hl
  · intro s l hs hl
    cases l with
    | quit => rw [asked, hl.1] at hs; cases hs
    | startThread | started | wakeup | join | construct | publish | loop => trivial

/-- Nor was one made before. -/
theorem quitsInLoop_of_not_asked {steps : List (ThreadStep F)} : ∀ {s : EventLoopThread F},
    (eventLoopThread F).Valid s steps → ((eventLoopThread F).run s steps).asked = false →
    (eventLoopThread F).Along QuitsInLoop s steps := by
  induction steps with
  | nil => exact fun _ _ => trivial
  | cons l steps ih =>
    intro s hvalid hnot
    refine ⟨?_, ih hvalid.2 hnot⟩
    cases l with
    | quit =>
      have hasked := (eventLoopThread F).invariant_run (fun s => s.asked = true)
        (fun s l hs hl => asked_next hs hl) (show (s.next .quit).asked = true from rfl) hvalid.2
      rw [show (eventLoopThread F).run (s.next .quit) steps =
        (eventLoopThread F).run s (.quit :: steps) from rfl, hnot] at hasked
      cases hasked
    | startThread | started | wakeup | join | construct | publish | loop => trivial

/-- **Exact condition**: whatever follows, the request of the owner is
    heard, exactly when `loop()` has begun by then. -/
theorem quit_heard_iff (F : Type u) (before : List (ThreadStep F))
    (hvalid : (eventLoopThread F).Valid new (before ++ [.quit])) :
    (∀ after, (eventLoopThread F).Valid new (before ++ .quit :: after) →
        ((eventLoopThread F).run new (before ++ .quit :: after)).iterations ≤ 1) ↔
      ((eventLoopThread F).run new before).thread = .looping := by
  obtain ⟨hbefore, hquit, -⟩ := ((eventLoopThread F).valid_append _ _ _).mp hvalid
  have hnot : ((eventLoopThread F).run new before).asked = false := by
    rw [asked, hquit.1]
  have hcond := quitsInLoop_of_not_asked hbefore hnot
  constructor
  · intro hall
    by_contra hthread
    -- the thread has published `loop_` and gone no further
    have hplaced : ((eventLoopThread F).run new before).Placed :=
      (eventLoopThread F).invariant_run Placed (fun s l hs hl => placed_next hs hl) placed_new
        hbefore
    have hpublished : ((eventLoopThread F).run new before).thread = .published := by
      rcases hplaced.published (hplaced.started hquit.1) with hp | hp | hp
      · exact hp
      · exact absurd hp hthread
      · have halive := hquit.2
        rw [loopAlive, hp] at halive
        cases halive
    have hpc : ((eventLoopThread F).run new before).loop.pc = .outside := by
      rcases hplaced.pc with hp | hp | hp
      · exact absurd hp hthread
      · rw [hpublished] at hp
        cases hp
      · exact hp
    obtain ⟨after, hafter, hcount⟩ := quit_lost hquit.1 hpublished hpc 2
    have hle := hall after (((eventLoopThread F).valid_append _ _ _).mpr ⟨hbefore, hafter⟩)
    rw [Machine.run_append, hcount] at hle
    omega
  · intro hthread after hafter
    obtain ⟨-, hsteps⟩ := ((eventLoopThread F).valid_append _ _ _).mp hafter
    have hmet : (eventLoopThread F).Along QuitsInLoop new (before ++ .quit :: after) :=
      ((eventLoopThread F).along_append _ _ _).mpr
        ⟨hcond, hthread, quitsInLoop_of_asked rfl hsteps.2⟩
    rw [(heard_run hafter hmet).iterations]
    exact Nat.zero_le 1

end EventLoopThread

end TinyWS
