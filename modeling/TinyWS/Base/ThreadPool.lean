import TinyWS.Framework.Machine
import TinyWS.Framework.Monitor
import Mathlib.Data.Fin.Basic
import Mathlib.Logic.Function.Basic

/-! # ThreadPool

    Workers take tasks from one queue under one mutex.  A worker tests
    `running_` without the mutex before it enters `take`; `run` signals
    once per task, and `stop` clears the flag and wakes everybody.

    A step is a critical section of `mutex_`, a test outside of it, or the
    start or end of a task; waiting splits `take` in two.  A task is known
    by the number of tasks enqueued before it. -/

namespace TinyWS

/-- Where a worker is in `runInThread` and `take`. -/
inductive Worker (Task : Type) where
  /-- In front of `while (running_)`. -/
  | loopHead
  /-- In `take`, without the mutex. -/
  | taking
  /-- Inside `cond_.wait()`. -/
  | waiting
  /-- `take` has returned a task from the queue, or an empty one. -/
  | holding (task : Option (Nat × Option Task))
  | executing (position : Nat)
  | exited

/-- `class ThreadPool` with its workers.  A `std::function` may be empty. -/
structure ThreadPool (n : Nat) (Task : Type) where
  running_ : Bool
  dequeue_ : List (Option Task)
  cond_ : CondVar (Fin n)
  worker : Fin n → Worker Task
  /-- The tasks `run` was called with. -/
  enqueued : List (Option Task)
  /-- The tasks taken from the front of the queue. -/
  dequeued : List (Option Task)
  /-- The calls of tasks. -/
  executed : List (Nat × Task)

namespace ThreadPool

variable {n : Nat} {Task : Type}

/-- After `start(n)`. -/
def started (n : Nat) (Task : Type) : ThreadPool n Task where
  running_ := true
  dequeue_ := []
  cond_ := CondVar.new
  worker := fun _ => .loopHead
  enqueued := []
  dequeued := []
  executed := []

def setWorker (s : ThreadPool n Task) (w : Fin n) (pc : Worker Task) : ThreadPool n Task :=
  { s with worker := Function.update s.worker w pc }

/-- `while (running_)`. -/
def testRunning (s : ThreadPool n Task) (w : Fin n) : ThreadPool n Task :=
  s.setWorker w (if s.running_ then .taking else .exited)

/-- `take()`, with the mutex: to the next `wait`, or to the end. -/
def take (s : ThreadPool n Task) (w : Fin n) : ThreadPool n Task :=
  match s.dequeue_ with
  | [] =>
      if s.running_ then { s with cond_ := s.cond_.wait w }.setWorker w .waiting
      else s.setWorker w (.holding none)
  | task :: rest =>
      { s with
        dequeue_ := rest
        dequeued := s.dequeued ++ [task] }.setWorker w (.holding (some (s.dequeued.length, task)))

/-- `if (task) task()`, up to the start of the call. -/
def call (s : ThreadPool n Task) (w : Fin n) : ThreadPool n Task :=
  match s.worker w with
  | .holding (some (position, some task)) =>
      { s with executed := s.executed ++ [(position, task)] }.setWorker w (.executing position)
  | _ => s.setWorker w .loopHead

/-- `run(task)`, with the worker its signal wakes. -/
def run (s : ThreadPool n Task) (task : Option Task) (woken : Option (Fin n)) :
    ThreadPool n Task :=
  { s with
    dequeue_ := s.dequeue_ ++ [task]
    cond_ := s.cond_.notify woken
    enqueued := s.enqueued ++ [task] }

/-- `stop()`, up to the joins. -/
def stop (s : ThreadPool n Task) : ThreadPool n Task :=
  { s with
    running_ := false
    cond_ := s.cond_.notifyAll }

/-- The steps of the pool and its users. -/
inductive Step (n : Nat) (Task : Type) where
  | testRunning (w : Fin n)
  | take (w : Fin n)
  /-- A woken worker has the mutex again. -/
  | resume (w : Fin n)
  | spurious (w : Fin n)
  | call (w : Fin n)
  /-- The task returns. -/
  | finish (w : Fin n)
  | run (task : Option Task) (woken : Option (Fin n))
  | stop

/-- The worker that takes a step by itself. -/
def Step.self : Step n Task → Option (Fin n)
  | .testRunning w | .take w | .resume w | .call w | .finish w => some w
  | .spurious _ | .run _ _ | .stop => none

def guard (s : ThreadPool n Task) : Step n Task → Prop
  | .testRunning w => s.worker w = .loopHead
  | .take w => s.worker w = .taking
  | .resume w => w ∈ s.cond_.woken
  | .spurious w => w ∈ s.cond_.sleeping
  | .call w => ∃ task, s.worker w = .holding task
  | .finish w => ∃ position, s.worker w = .executing position
  | .run _ woken => s.cond_.MayWake woken
  | .stop => s.running_ = true

def next (s : ThreadPool n Task) : Step n Task → ThreadPool n Task
  | .testRunning w => s.testRunning w
  | .take w => s.take w
  | .resume w => { s with cond_ := s.cond_.resume w }.take w
  | .spurious w => { s with cond_ := s.cond_.wake w }
  | .call w => s.call w
  | .finish w => s.setWorker w .loopHead
  | .run task woken => s.run task woken
  | .stop => s.stop

end ThreadPool

/-- A pool of `n` workers; `stop` is called once. -/
def threadPool (n : Nat) (Task : Type) : Machine (ThreadPool n Task) (ThreadPool.Step n Task) where
  guard := ThreadPool.guard
  next := ThreadPool.next

namespace ThreadPool

variable {n : Nat} {Task : Type}

/-! ## The invariant -/

/-- A task that was taken is in one pair of hands, or was called once. -/
structure Hands (worker : Fin n → Worker Task) (dequeued : List (Option Task))
    (executed : List (Nat × Task)) : Prop where
  once : (executed.map Prod.fst).Nodup
  called : ∀ p ∈ executed, dequeued[p.1]? = some (some p.2)
  held : ∀ w k task, worker w = .holding (some (k, task)) →
    dequeued[k]? = some task ∧ k ∉ executed.map Prod.fst
  apart : ∀ w v k task task', worker w = .holding (some (k, task)) →
    worker v = .holding (some (k, task')) → w = v

/-- What holds between the steps: the queue is what was enqueued and not
    yet taken, and enough workers are awake for it; after `stop` nobody
    sleeps. -/
structure Sound (s : ThreadPool n Task) : Prop where
  fifo : s.enqueued = s.dequeued ++ s.dequeue_
  hands : Hands s.worker s.dequeued s.executed
  waits : ∀ w, s.worker w = .waiting ↔ w ∈ s.cond_.waiting
  covered : s.cond_.Covered s.dequeue_.length
  stopped : s.running_ = false → s.cond_.sleeping = []

theorem sound_started : (started n Task).Sound := by
  refine ⟨rfl, ?_, ?_, CondVar.covered_new, fun _ => rfl⟩
  · constructor <;> simp [started]
  · simp [started]

/-! ## Tasks in hands -/

section Hands

variable {worker : Fin n → Worker Task} {dequeued : List (Option Task)}
  {executed : List (Nat × Task)}

/-- A worker whose hands stay empty adds nothing to what is held. -/
theorem holding_of_update {w v : Fin n} {pc : Worker Task}
    (hpc : ∀ task, pc ≠ .holding (some task)) {k : Nat} {task : Option Task}
    (hv : Function.update worker w pc v = .holding (some (k, task))) :
    v ≠ w ∧ worker v = .holding (some (k, task)) := by
  by_cases heq : v = w
  · subst heq
    rw [Function.update_self] at hv
    exact absurd hv (hpc _)
  · rw [Function.update_of_ne heq] at hv
    exact ⟨heq, hv⟩

theorem Hands.update (h : Hands worker dequeued executed) (w : Fin n) {pc : Worker Task}
    (hpc : ∀ task, pc ≠ .holding (some task)) :
    Hands (Function.update worker w pc) dequeued executed := by
  refine ⟨h.once, h.called, ?_, ?_⟩
  · intro v k task hv
    exact h.held v k task (holding_of_update hpc hv).2
  · intro v u k task task' hv hu
    exact h.apart v u k task task' (holding_of_update hpc hv).2 (holding_of_update hpc hu).2

/-- The position of a task that was taken. -/
theorem Hands.lt_length (h : Hands worker dequeued executed) {w : Fin n} {k : Nat}
    {task : Option Task} (hw : worker w = .holding (some (k, task))) : k < dequeued.length :=
  (List.getElem?_eq_some_iff.mp (h.held w k task hw).1).1

/-- A worker takes the next task. -/
theorem Hands.pop (h : Hands worker dequeued executed) (w : Fin n) (task : Option Task) :
    Hands (Function.update worker w (.holding (some (dequeued.length, task))))
      (dequeued ++ [task]) executed := by
  have hkeep : ∀ {k : Nat} {t : Option Task}, dequeued[k]? = some t →
      (dequeued ++ [task])[k]? = some t := by
    intro k t hk
    rw [List.getElem?_append_left (List.getElem?_eq_some_iff.mp hk).1]
    exact hk
  -- the position is new
  have hnew : dequeued.length ∉ executed.map Prod.fst := by
    intro hmem
    obtain ⟨p, hp, heq⟩ := List.mem_map.mp hmem
    have hlt := (List.getElem?_eq_some_iff.mp (h.called p hp)).1
    omega
  refine ⟨h.once, fun p hp => hkeep (h.called p hp), ?_, ?_⟩
  · intro v k t hv
    by_cases heq : v = w
    · subst heq
      rw [Function.update_self] at hv
      cases hv
      exact ⟨by simp, hnew⟩
    · rw [Function.update_of_ne heq] at hv
      obtain ⟨hk, hnot⟩ := h.held v k t hv
      exact ⟨hkeep hk, hnot⟩
  · intro v u k t t' hv hu
    by_cases hvw : v = w <;> by_cases huw : u = w
    · rw [hvw, huw]
    · subst hvw
      rw [Function.update_self] at hv
      rw [Function.update_of_ne huw] at hu
      cases hv
      exact absurd (h.lt_length hu) (Nat.lt_irrefl _)
    · subst huw
      rw [Function.update_self] at hu
      rw [Function.update_of_ne hvw] at hv
      cases hu
      exact absurd (h.lt_length hv) (Nat.lt_irrefl _)
    · rw [Function.update_of_ne hvw] at hv
      rw [Function.update_of_ne huw] at hu
      exact h.apart v u k t t' hv hu

/-- A worker calls the task in its hands. -/
theorem Hands.call (h : Hands worker dequeued executed) {w : Fin n} {k : Nat} {task : Task}
    (hw : worker w = .holding (some (k, some task))) :
    Hands (Function.update worker w (.executing k)) dequeued (executed ++ [(k, task)]) := by
  have hpc : ∀ t, (Worker.executing k : Worker Task) ≠ .holding (some t) := by simp
  obtain ⟨hk, hnot⟩ := h.held w k _ hw
  refine ⟨?_, ?_, ?_, ?_⟩
  · rw [List.map_append, List.map_singleton, List.nodup_append]
    refine ⟨h.once, List.nodup_singleton k, ?_⟩
    rintro j hj _ hj' rfl
    rw [List.mem_singleton.mp hj'] at hj
    exact hnot hj
  · intro p hp
    rcases List.mem_append.mp hp with hp | hp
    · exact h.called p hp
    · rw [List.mem_singleton.mp hp]
      exact hk
  · intro v j t hv
    obtain ⟨hne, hheld⟩ := holding_of_update hpc hv
    obtain ⟨hj, hnotj⟩ := h.held v j t hheld
    refine ⟨hj, fun hmem => ?_⟩
    rw [List.map_append, List.mem_append] at hmem
    rcases hmem with hmem | hmem
    · exact hnotj hmem
    · -- the called task is in the hands of `w` only
      have heq : j = k := List.mem_singleton.mp hmem
      subst heq
      exact hne (h.apart v w j t _ hheld hw)
  · intro v u j t t' hv hu
    exact h.apart v u j t t' (holding_of_update hpc hv).2 (holding_of_update hpc hu).2

end Hands

/-! ## The steps -/

/-- Who waits, when a worker moves that does not. -/
theorem waits_update {worker : Fin n → Worker Task} {cond : CondVar (Fin n)} {w : Fin n}
    {pc : Worker Task} (h : ∀ v, v ∈ cond.waiting ↔ v ≠ w ∧ worker v = .waiting)
    (hpc : pc ≠ .waiting) (v : Fin n) :
    Function.update worker w pc v = .waiting ↔ v ∈ cond.waiting := by
  rw [h v]
  by_cases heq : v = w
  · subst heq
    rw [Function.update_self]
    exact iff_of_false hpc fun hv => hv.1 rfl
  · rw [Function.update_of_ne heq]
    exact ⟨fun hv => ⟨heq, hv⟩, fun hv => hv.2⟩

/-- The other workers wait when they are in the wait set. -/
theorem Sound.others {s : ThreadPool n Task} (h : s.Sound) {w : Fin n}
    (hw : s.worker w ≠ .waiting) (v : Fin n) :
    v ∈ s.cond_.waiting ↔ v ≠ w ∧ s.worker v = .waiting := by
  rw [← h.waits v]
  refine ⟨fun hv => ⟨?_, hv⟩, fun hv => hv.2⟩
  rintro rfl
  exact hw hv

/-- A worker moves without a task, and neither from nor into a wait. -/
theorem Sound.setWorker {s : ThreadPool n Task} (h : s.Sound) {w : Fin n} {pc : Worker Task}
    (hfrom : s.worker w ≠ .waiting) (hto : pc ≠ .waiting)
    (hpc : ∀ task, pc ≠ .holding (some task)) : (s.setWorker w pc).Sound :=
  ⟨h.fifo, h.hands.update w hpc, waits_update (h.others hfrom) hto, h.covered, h.stopped⟩

/-- Worker `w` has the mutex in `take`, for the first time or after a
    wait: one unit of the queue is its own. -/
structure Entering (s : ThreadPool n Task) (w : Fin n) : Prop where
  fifo : s.enqueued = s.dequeued ++ s.dequeue_
  hands : Hands s.worker s.dequeued s.executed
  waits : ∀ v, v ∈ s.cond_.waiting ↔ v ≠ w ∧ s.worker v = .waiting
  covered : s.cond_.Covered (s.dequeue_.length - 1)
  stopped : s.running_ = false → s.cond_.sleeping = []

theorem Sound.entering {s : ThreadPool n Task} (h : s.Sound) {w : Fin n}
    (hw : s.worker w = .taking) : s.Entering w := by
  have hnot : s.worker w ≠ .waiting := by simp [hw]
  exact ⟨h.fifo, h.hands, h.others hnot, h.covered.mono (Nat.sub_le _ _), h.stopped⟩

theorem Sound.entering_resume {s : ThreadPool n Task} (h : s.Sound) {w : Fin n}
    (hw : w ∈ s.cond_.woken) : { s with cond_ := s.cond_.resume w }.Entering w := by
  refine ⟨h.fifo, h.hands, ?_, h.covered.resume, h.stopped⟩
  intro v
  rw [CondVar.mem_waiting_resume hw, h.waits v]

/-- The critical section of `take`. -/
theorem Entering.take {s : ThreadPool n Task} {w : Fin n} (h : s.Entering w) :
    (s.take w).Sound := by
  unfold ThreadPool.take
  split
  · next hq =>
    split
    · next hrun =>
      -- nothing to do: asleep
      refine ⟨h.fifo, h.hands.update w (by simp), ?_, ?_, fun hstop => ?_⟩
      · intro v
        show Function.update s.worker w .waiting v = .waiting ↔ v ∈ (s.cond_.wait w).waiting
        rw [CondVar.mem_waiting_wait, h.waits v]
        by_cases heq : v = w
        · subst heq
          simp
        · rw [Function.update_of_ne heq]
          simp [heq]
      · show (s.cond_.wait w).Covered s.dequeue_.length
        rw [hq]
        exact CondVar.covered_wait
      · exact absurd (hrun.symm.trans hstop) (by decide)
    · next hrun =>
      -- stopped, with nothing left
      have hstop : s.running_ = false := Bool.eq_false_iff.mpr hrun
      exact ⟨h.fifo, h.hands.update w (by simp), waits_update h.waits (by simp),
        Or.inl (h.stopped hstop), h.stopped⟩
  · next task rest hq =>
    -- the task in front
    have hlen : s.dequeue_.length - 1 = rest.length := by rw [hq]; rfl
    have hcovered := h.covered
    rw [hlen] at hcovered
    refine ⟨?_, h.hands.pop w task, waits_update h.waits (by simp), hcovered, h.stopped⟩
    show s.enqueued = s.dequeued ++ [task] ++ rest
    rw [h.fifo, hq, List.append_assoc]
    rfl

theorem Sound.call {s : ThreadPool n Task} (h : s.Sound) {w : Fin n}
    (hw : ∃ task, s.worker w = .holding task) : (s.call w).Sound := by
  have hnot : s.worker w ≠ .waiting := by
    obtain ⟨task, hw⟩ := hw
    simp [hw]
  unfold ThreadPool.call
  split
  · next position task hholding =>
    exact ⟨h.fifo, h.hands.call hholding, waits_update (h.others hnot) (by simp), h.covered,
      h.stopped⟩
  · exact h.setWorker hnot (by simp) (by simp)

/-- **Step lemma**. -/
theorem sound_next {s : ThreadPool n Task} (h : s.Sound) {l : Step n Task} (hl : s.guard l) :
    (s.next l).Sound := by
  cases l with
  | testRunning w =>
    have hw : s.worker w = .loopHead := hl
    apply h.setWorker
    · simp [hw]
    · split <;> simp
    · intro task
      split <;> simp
  | take w => exact (h.entering hl).take
  | resume w => exact (h.entering_resume hl).take
  | spurious w =>
    -- waking for no reason takes no signal
    refine ⟨h.fifo, h.hands, ?_, h.covered.wake, fun hstop => ?_⟩
    · intro v
      exact (h.waits v).trans CondVar.mem_waiting_wake.symm
    · -- nobody was asleep
      have hw : w ∈ s.cond_.sleeping := hl
      rw [h.stopped hstop] at hw
      exact absurd hw List.not_mem_nil
  | call w => exact h.call hl
  | finish w =>
    obtain ⟨position, hw⟩ : ∃ position, s.worker w = .executing position := hl
    apply h.setWorker
    · simp [hw]
    · simp
    · simp
  | run task woken =>
    refine ⟨?_, h.hands, ?_, ?_, fun hstop => ?_⟩
    · show s.enqueued ++ [task] = s.dequeued ++ (s.dequeue_ ++ [task])
      rw [h.fifo, List.append_assoc]
    · intro v
      exact (h.waits v).trans CondVar.mem_waiting_notify.symm
    · -- one task more, and one signal
      show (s.cond_.notify woken).Covered (s.dequeue_ ++ [task]).length
      rw [List.length_append]
      exact h.covered.signal hl
    · -- `notify` puts nobody to sleep
      refine List.eq_nil_iff_forall_not_mem.mpr fun v hv => ?_
      have hsleeping := CondVar.sleeping_notify_subset hv
      rw [h.stopped hstop] at hsleeping
      exact absurd hsleeping List.not_mem_nil
  | stop =>
    exact ⟨h.fifo, h.hands, h.waits, CondVar.covered_notifyAll, fun _ => rfl⟩

/-! ## Leaving after `stop` -/

/-- Worker `w` ends its thread by steps of its own. -/
def Leaves (s : ThreadPool n Task) (w : Fin n) : Prop :=
  ∃ ls, (threadPool n Task).Valid s ls ∧ (∀ l ∈ ls, l.self = some w) ∧
    ((threadPool n Task).run s ls).worker w = .exited

theorem leaves_of_next {s : ThreadPool n Task} {w : Fin n} {l : Step n Task} (hl : s.guard l)
    (hself : l.self = some w) (h : (s.next l).Leaves w) : s.Leaves w := by
  obtain ⟨ls, hvalid, hsteps, hend⟩ := h
  refine ⟨l :: ls, ⟨hl, hvalid⟩, ?_, hend⟩
  intro k hk
  rcases List.mem_cons.mp hk with rfl | hk
  · exact hself
  · exact hsteps k hk

@[simp] theorem setWorker_self (s : ThreadPool n Task) (w : Fin n) (pc : Worker Task) :
    (s.setWorker w pc).worker w = pc := by
  simp only [setWorker, Function.update_self]

theorem leaves_loopHead {s : ThreadPool n Task} (hstop : s.running_ = false) {w : Fin n}
    (hw : s.worker w = .loopHead) : s.Leaves w := by
  refine leaves_of_next (l := .testRunning w) hw rfl ⟨[], trivial, by simp, ?_⟩
  show (s.testRunning w).worker w = .exited
  rw [testRunning, hstop, setWorker_self]
  rfl

theorem leaves_executing {s : ThreadPool n Task} (hstop : s.running_ = false) {w : Fin n}
    {position : Nat} (hw : s.worker w = .executing position) : s.Leaves w := by
  refine leaves_of_next (l := .finish w) ⟨position, hw⟩ rfl ?_
  exact leaves_loopHead (s := s.setWorker w .loopHead) hstop (setWorker_self s w _)

theorem leaves_holding {s : ThreadPool n Task} (hstop : s.running_ = false) {w : Fin n}
    {task : Option (Nat × Option Task)} (hw : s.worker w = .holding task) : s.Leaves w := by
  refine leaves_of_next (l := .call w) ⟨task, hw⟩ rfl ?_
  show (s.call w).Leaves w
  unfold call
  split
  · refine leaves_executing ?_ (setWorker_self _ w _)
    exact hstop
  · refine leaves_loopHead ?_ (setWorker_self s w _)
    exact hstop

/-- In a stopped pool `take` returns. -/
theorem take_stopped {s : ThreadPool n Task} (hstop : s.running_ = false) (w : Fin n) :
    (s.take w).running_ = false ∧ ∃ task, (s.take w).worker w = .holding task := by
  unfold take
  split
  · rw [hstop]
    exact ⟨hstop, none, setWorker_self s w _⟩
  · exact ⟨hstop, _, setWorker_self _ w _⟩

/-- **No join blocks on an idle worker**: once the pool is stopped every
    worker that is still there can leave without anybody's help. -/
theorem Sound.leaves {s : ThreadPool n Task} (h : s.Sound) (hstop : s.running_ = false)
    (w : Fin n) : s.Leaves w := by
  cases hw : s.worker w with
  | loopHead => exact leaves_loopHead hstop hw
  | taking =>
    obtain ⟨hstop', task, htask⟩ := take_stopped hstop w
    exact leaves_of_next (l := .take w) hw rfl (leaves_holding hstop' htask)
  | waiting =>
    -- it was woken, since nobody sleeps
    have hwoken : w ∈ s.cond_.woken := by
      have hmem := (h.waits w).mp hw
      rw [CondVar.waiting, h.stopped hstop] at hmem
      exact hmem
    obtain ⟨hstop', task, htask⟩ :=
      take_stopped (s := { s with cond_ := s.cond_.resume w }) hstop w
    exact leaves_of_next (l := .resume w) hwoken rfl (leaves_holding hstop' htask)
  | holding task => exact leaves_holding hstop hw
  | executing position => exact leaves_executing hstop hw
  | exited => exact ⟨[], trivial, by simp, hw⟩

/-! ## Runs -/

theorem sound_run {ls : List (Step n Task)}
    (hvalid : (threadPool n Task).Valid (started n Task) ls) :
    ((threadPool n Task).run (started n Task) ls).Sound :=
  (threadPool n Task).invariant_run Sound (fun _ _ h hl => sound_next h hl) sound_started hvalid

/-- Nothing sets `running_` again. -/
theorem stopped_next {s : ThreadPool n Task} (hstop : s.running_ = false) (l : Step n Task) :
    (s.next l).running_ = false := by
  cases l with
  | testRunning w => exact hstop
  | take w => exact (take_stopped hstop w).1
  | resume w => exact (take_stopped (s := { s with cond_ := s.cond_.resume w }) hstop w).1
  | spurious w => exact hstop
  | call w =>
    show (s.call w).running_ = false
    unfold call
    split <;> exact hstop
  | finish w => exact hstop
  | run task woken => exact hstop
  | stop => rfl

/-- Behind `stop` the pool is stopped. -/
theorem stopped_run {ls : List (Step n Task)} :
    ∀ {s : ThreadPool n Task}, s.running_ = false ∨ Step.stop ∈ ls →
      ((threadPool n Task).run s ls).running_ = false := by
  induction ls with
  | nil =>
    intro s h
    exact h.resolve_right List.not_mem_nil
  | cons l ls ih =>
    intro s h
    refine ih ?_
    rcases h with hstop | hmem
    · exact Or.inl (stopped_next hstop l)
    · rcases List.mem_cons.mp hmem with rfl | hmem
      · exact Or.inl rfl
      · exact Or.inr hmem

/-- **The pool dispatches and stops**: in every run every call of `run`
    leads to at most one call of its task, tasks are dequeued in the order
    they were enqueued, a running pool with tasks in its queue has a worker
    that is not asleep, and behind `stop` nobody is asleep and every worker
    can leave. -/
theorem threadPool_run (hn : 0 < n) {ls : List (Step n Task)}
    (hvalid : (threadPool n Task).Valid (started n Task) ls) :
    let s := (threadPool n Task).run (started n Task) ls
    ((s.executed.map Prod.fst).Nodup ∧
      ∀ p ∈ s.executed, s.enqueued[p.1]? = some (some p.2)) ∧
      s.enqueued = s.dequeued ++ s.dequeue_ ∧
      (s.running_ = true → s.dequeue_ ≠ [] → ∃ w, w ∉ s.cond_.sleeping) ∧
      (Step.stop ∈ ls → s.cond_.sleeping = [] ∧ ∀ w, s.Leaves w) := by
  intro s
  have h : s.Sound := sound_run hvalid
  refine ⟨⟨h.hands.once, ?_⟩, h.fifo, ?_, ?_⟩
  · intro p hp
    have hpast := h.hands.called p hp
    rw [h.fifo, List.getElem?_append_left (List.getElem?_eq_some_iff.mp hpast).1]
    exact hpast
  · intro _ hqueue
    by_contra hall
    have hasleep : ∀ w, w ∈ s.cond_.sleeping := by simpa using hall
    have hsleeping : s.cond_.sleeping ≠ [] := List.ne_nil_of_mem (hasleep ⟨0, hn⟩)
    have hwoken : s.cond_.woken = [] :=
      List.eq_nil_iff_forall_not_mem.mpr fun w hw => CondVar.not_mem_woken (hasleep w) hw
    have hzero := h.covered.need_eq_zero hsleeping hwoken
    exact hqueue (List.length_eq_zero_iff.mp hzero)
  · intro hstop
    have hstopped : s.running_ = false := stopped_run (Or.inr hstop)
    exact ⟨h.stopped hstopped, h.leaves hstopped⟩

/-- Two workers, one task and one empty function; a worker that sleeps is
    woken by `run`, the other one takes the task, and `stop` comes while
    the first one sleeps again. -/
theorem threadPool_run_stolen :
    let ls : List (Step 2 String) := [.testRunning 0, .take 0, .run (some "a") (some 0),
      .testRunning 1, .take 1, .call 1, .resume 0, .run none (some 0), .stop, .resume 0, .call 0]
    let s := (threadPool 2 String).run (started 2 String) ls
    ((s.executed.map Prod.fst).Nodup ∧
      ∀ p ∈ s.executed, s.enqueued[p.1]? = some (some p.2)) ∧
      s.enqueued = s.dequeued ++ s.dequeue_ ∧
      (s.running_ = true → s.dequeue_ ≠ [] → ∃ w, w ∉ s.cond_.sleeping) ∧
      (Step.stop ∈ ls → s.cond_.sleeping = [] ∧ ∀ w, s.Leaves w) := by
  refine threadPool_run (by decide)
    ⟨rfl, rfl, ?_, rfl, rfl, ⟨_, rfl⟩, ?_, ?_, rfl, ?_, ⟨_, rfl⟩, trivial⟩
  · show (0 : Fin 2) ∈ _
    decide
  · show (0 : Fin 2) ∈ _
    decide
  · show (0 : Fin 2) ∈ _
    decide
  · show (0 : Fin 2) ∈ _
    decide

end ThreadPool

end TinyWS
