import TinyWS.Framework.Machine
import TinyWS.Framework.Monitor

/-! # BlockingQueue

    A monitor over a `deque`.  `put` signals once for each value, and `take`
    waits while there is none.

    A signal is for no value in particular: a thread from outside may take
    the value before the thread that was woken for it has the mutex again.
    That thread then finds the queue empty and sleeps on.  What holds all
    the same is that no value is left to sleepers only. -/

namespace TinyWS

/-- `class BlockingQueue` with the threads that wait in `take`.  The last
    two fields are histories. -/
structure BlockingQueue (Thread T : Type) where
  notEmpty_ : CondVar Thread
  queue_ : List T
  /-- The values put, in order. -/
  puts : List T
  /-- Who took what, in order. -/
  taken : List (Thread × T)

namespace BlockingQueue

variable {Thread T : Type}

def new : BlockingQueue Thread T where
  notEmpty_ := CondVar.new
  queue_ := []
  puts := []
  taken := []

variable [DecidableEq Thread]

/-- `put`, of either kind, with the thread that `notify` wakes. -/
def put (s : BlockingQueue Thread T) (value : T) (woken : Option Thread) :
    BlockingQueue Thread T :=
  { s with
    queue_ := s.queue_ ++ [value]
    notEmpty_ := s.notEmpty_.notify woken
    puts := s.puts ++ [value] }

/-- `take`, from its test of `empty()` to the next wait or to the end. -/
def take (s : BlockingQueue Thread T) (t : Thread) : BlockingQueue Thread T :=
  match s.queue_ with
  | [] => { s with notEmpty_ := s.notEmpty_.wait t }
  | front :: rest => { s with queue_ := rest, taken := s.taken ++ [(t, front)] }

inductive Step (Thread T : Type) where
  | put (t : Thread) (value : T) (woken : Option Thread)
  | take (t : Thread)
  /-- A woken thread has the mutex again, and goes on in `take`. -/
  | resume (t : Thread)
  | spurious (t : Thread)

/-- A thread that waits does nothing else. -/
def guard (s : BlockingQueue Thread T) : Step Thread T → Prop
  | .put t _ woken => t ∉ s.notEmpty_.waiting ∧ s.notEmpty_.MayWake woken
  | .take t => t ∉ s.notEmpty_.waiting
  | .resume t => t ∈ s.notEmpty_.woken
  | .spurious t => t ∈ s.notEmpty_.sleeping

def next (s : BlockingQueue Thread T) : Step Thread T → BlockingQueue Thread T
  | .put _ value woken => s.put value woken
  | .take t => s.take t
  | .resume t => { s with notEmpty_ := s.notEmpty_.resume t }.take t
  | .spurious t => { s with notEmpty_ := s.notEmpty_.wake t }

instance (s : BlockingQueue Thread T) : (l : Step Thread T) → Decidable (s.guard l)
  | .put t _ woken =>
      inferInstanceAs (Decidable (t ∉ s.notEmpty_.waiting ∧ s.notEmpty_.MayWake woken))
  | .take t => inferInstanceAs (Decidable (t ∉ s.notEmpty_.waiting))
  | .resume t => inferInstanceAs (Decidable (t ∈ s.notEmpty_.woken))
  | .spurious t => inferInstanceAs (Decidable (t ∈ s.notEmpty_.sleeping))

/-- Any number of threads, each with any calls. -/
def threads (Thread T : Type) [DecidableEq Thread] :
    Machine (BlockingQueue Thread T) (Step Thread T) where
  guard := guard
  next := next

instance (s : BlockingQueue Thread T) (l : Step Thread T) :
    Decidable ((threads Thread T).guard s l) :=
  inferInstanceAs (Decidable (s.guard l))

/-! ## The invariant -/

/-- The values come out as they went in, and every value that is still there
    has a thread on its way to it, unless nobody sleeps. -/
structure Sound (s : BlockingQueue Thread T) : Prop where
  fifo : s.taken.map Prod.snd ++ s.queue_ = s.puts
  covered : s.notEmpty_.Covered s.queue_.length

omit [DecidableEq Thread] in
theorem sound_new : (new : BlockingQueue Thread T).Sound := ⟨rfl, CondVar.covered_new⟩

variable {s : BlockingQueue Thread T}

theorem sound_put (h : s.Sound) (value : T) {woken : Option Thread}
    (hwoken : s.notEmpty_.MayWake woken) : (s.put value woken).Sound := by
  constructor
  · show s.taken.map Prod.snd ++ (s.queue_ ++ [value]) = s.puts ++ [value]
    rw [← List.append_assoc, h.fifo]
  · show (s.notEmpty_.notify woken).Covered (s.queue_ ++ [value]).length
    rw [List.length_append]
    exact h.covered.signal hwoken

/-- One value less needs one thread less. -/
theorem sound_take (hfifo : s.taken.map Prod.snd ++ s.queue_ = s.puts)
    (hcovered : s.notEmpty_.Covered (s.queue_.length - 1)) (t : Thread) : (s.take t).Sound := by
  cases hqueue : s.queue_ with
  | nil =>
    rw [hqueue] at hfifo
    rw [take, hqueue]
    exact ⟨hfifo, CondVar.covered_wait⟩
  | cons front rest =>
    rw [hqueue] at hfifo hcovered
    rw [take, hqueue]
    refine ⟨?_, hcovered⟩
    show (s.taken ++ [(t, front)]).map Prod.snd ++ rest = s.puts
    rw [← hfifo]
    simp

theorem sound_next (h : s.Sound) {l : Step Thread T} (hguard : s.guard l) : (s.next l).Sound := by
  cases l with
  | put t value woken => exact sound_put h value hguard.2
  | take t =>
    -- the value may have been meant for another thread
    apply sound_take h.fifo
    exact h.covered.mono (Nat.sub_le _ 1)
  | resume t =>
    apply sound_take (s := { s with notEmpty_ := s.notEmpty_.resume t }) h.fifo
    exact h.covered.resume
  | spurious t => exact ⟨h.fifo, h.covered.wake⟩

/-- **The queue**: over every interleaving of any threads, whomever the
    signals wake and whoever comes first: the values are taken in the order
    in which they were put, each once, and those that were not taken are
    there; threads sleep only while at least as many are awake as there are
    values; so a value that is there is taken by the next step of some
    thread, if any waits. -/
theorem blockingQueue_run {ls : List (Step Thread T)} (hls : (threads Thread T).Valid new ls) :
    let s := (threads Thread T).run new ls
    s.taken.map Prod.snd ++ s.queue_ = s.puts ∧
      (s.notEmpty_.sleeping ≠ [] → s.queue_.length ≤ s.notEmpty_.woken.length) ∧
      ∀ front ∈ s.queue_.head?, s.notEmpty_.waiting ≠ [] →
        ∃ t, s.guard (.resume t) ∧ (s.next (.resume t)).taken = s.taken ++ [(t, front)] := by
  intro s
  have h : s.Sound :=
    (threads Thread T).invariant_run Sound (fun _ _ h hguard => sound_next h hguard) sound_new hls
  have hcovered : s.notEmpty_.sleeping ≠ [] → s.queue_.length ≤ s.notEmpty_.woken.length :=
    fun hne => h.covered.resolve_left hne
  refine ⟨h.fifo, hcovered, ?_⟩
  intro front hfront hwaiting
  obtain ⟨rest, hqueue⟩ := List.head?_eq_some_iff.mp hfront
  have hwoken : s.notEmpty_.woken ≠ [] := by
    intro hnil
    have hsleeping : s.notEmpty_.sleeping ≠ [] := by
      intro hnone
      rw [CondVar.waiting, hnone, hnil] at hwaiting
      exact hwaiting rfl
    have hle := hcovered hsleeping
    rw [hnil, hqueue] at hle
    exact Nat.not_succ_le_zero _ hle
  obtain ⟨t, ht⟩ := List.exists_mem_of_ne_nil _ hwoken
  refine ⟨t, ht, ?_⟩
  show (take { s with notEmpty_ := s.notEmpty_.resume t } t).taken = _
  rw [take, hqueue]

/-- A sleeper is woken for a value that another thread takes first. -/
theorem blockingQueue_run_stolen :
    let s := (threads Nat Char).run new
      [.take 1, .take 2, .put 3 'a' (some 1), .take 3, .resume 1, .put 3 'b' (some 2)]
    s.taken.map Prod.snd ++ s.queue_ = s.puts ∧
      (s.notEmpty_.sleeping ≠ [] → s.queue_.length ≤ s.notEmpty_.woken.length) ∧
      ∀ front ∈ s.queue_.head?, s.notEmpty_.waiting ≠ [] →
        ∃ t, s.guard (.resume t) ∧ (s.next (.resume t)).taken = s.taken ++ [(t, front)] :=
  blockingQueue_run (by decide)

end BlockingQueue

end TinyWS
