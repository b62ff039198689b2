import TinyWS.Framework.Machine
import TinyWS.Framework.Monitor

/-! # CountDownLatch

    A monitor over a counter.  `wait` sleeps while the counter is positive,
    and `countDown` wakes all sleepers when it becomes 0.

    The test in `countDown` is for 0 and the one in `wait` for more than 0:
    a latch that has gone below 0 stays open without another signal, since
    nobody has fallen asleep in between.  It stays below 0 as long as the
    `int` does not overflow.

    Main result, `latch_run`: nobody passes too early, nobody sleeps in
    front of an open latch, and who waits can still return unless everybody
    waits. -/

namespace TinyWS

/-- `class CountDownLatch` with the threads inside `wait`.  The last field
    is a history. -/
structure CountDownLatch (Thread : Type) where
  condition_ : CondVar Thread
  count_ : Int32
  /-- Who has returned from `wait`, in order. -/
  returned : List Thread

namespace CountDownLatch

variable {Thread : Type}

def new (count : Int32) : CountDownLatch Thread where
  condition_ := CondVar.new
  count_ := count
  returned := []

/-- `countDown`. -/
def countDown (s : CountDownLatch Thread) : CountDownLatch Thread :=
  if s.count_ - 1 = 0 then
    { s with count_ := s.count_ - 1, condition_ := s.condition_.notifyAll }
  else { s with count_ := s.count_ - 1 }

variable [DecidableEq Thread]

/-- `wait`, from its test of `count_` to the next sleep or to the end. -/
def wait (s : CountDownLatch Thread) (t : Thread) : CountDownLatch Thread :=
  if 0 < s.count_ then { s with condition_ := s.condition_.wait t }
  else { s with returned := s.returned ++ [t] }

inductive Step (Thread : Type) where
  | wait (t : Thread)
  | countDown (t : Thread)
  /-- A woken thread has the mutex again, and goes on in `wait`. -/
  | resume (t : Thread)
  | spurious (t : Thread)

/-- A thread that waits does nothing else.  `--count_` is defined as long
    as it does not overflow. -/
def guard (s : CountDownLatch Thread) : Step Thread → Prop
  | .wait t => t ∉ s.condition_.waiting
  | .countDown t => t ∉ s.condition_.waiting ∧ s.count_ ≠ Int32.minValue
  | .resume t => t ∈ s.condition_.woken
  | .spurious t => t ∈ s.condition_.sleeping

def next (s : CountDownLatch Thread) : Step Thread → CountDownLatch Thread
  | .wait t => s.wait t
  | .countDown _ => s.countDown
  | .resume t => { s with condition_ := s.condition_.resume t }.wait t
  | .spurious t => { s with condition_ := s.condition_.wake t }

instance (s : CountDownLatch Thread) : (l : Step Thread) → Decidable (s.guard l)
  | .wait t => inferInstanceAs (Decidable (t ∉ s.condition_.waiting))
  | .countDown t =>
      inferInstanceAs (Decidable (t ∉ s.condition_.waiting ∧ s.count_ ≠ Int32.minValue))
  | .resume t => inferInstanceAs (Decidable (t ∈ s.condition_.woken))
  | .spurious t => inferInstanceAs (Decidable (t ∈ s.condition_.sleeping))

/-- Any number of threads, each with any calls. -/
def latch (Thread : Type) [DecidableEq Thread] :
    Machine (CountDownLatch Thread) (Step Thread) where
  guard := guard
  next := next

instance (s : CountDownLatch Thread) (l : Step Thread) :
    Decidable ((latch Thread).guard s l) :=
  inferInstanceAs (Decidable (s.guard l))

/-! ## The specification -/

/-- How often a run counts down. -/
def countDowns (ls : List (Step Thread)) : Nat :=
  ls.countP fun
    | .countDown _ => true
    | .wait _ | .resume _ | .spurious _ => false

/-- Nobody sleeps in front of an open latch, and nobody has passed a closed
    one. -/
structure Sound (s : CountDownLatch Thread) : Prop where
  closed : s.condition_.sleeping ≠ [] → 0 < s.count_.toInt
  opened : s.returned ≠ [] → s.count_.toInt ≤ 0

variable {s : CountDownLatch Thread} {t : Thread}

/-! ## The counter -/

/-- The counter goes down by one when it does not overflow. -/
theorem toInt_pred {count : Int32} (hcount : count ≠ Int32.minValue) :
    (count - 1).toInt = count.toInt - 1 := by
  have hmin : count.toInt ≠ Int32.minValue.toInt := fun h => hcount (Int32.toInt_inj.mp h)
  have hlow : Int32.minValue.toInt ≤ count.toInt := Int32.minValue_le_toInt count
  have hhigh : count.toInt < 2 ^ 31 := Int32.toInt_lt count
  have hvalue : Int32.minValue.toInt = -2 ^ 31 := by decide
  rw [Int32.toInt_sub]
  show (count.toInt - 1).bmod (2 ^ 32) = count.toInt - 1
  apply Int.bmod_eq_of_le
  · omega
  · omega

theorem pos_iff {count : Int32} : 0 < count ↔ 0 < count.toInt := Int32.lt_iff_toInt_lt

/-- The test of `countDown`. -/
theorem pred_eq_zero_iff {count : Int32} (hcount : count ≠ Int32.minValue) :
    count - 1 = 0 ↔ count.toInt = 1 := by
  rw [← Int32.toInt_inj, toInt_pred hcount]
  show count.toInt - 1 = 0 ↔ count.toInt = 1
  omega

omit [DecidableEq Thread] in
theorem count_countDown (s : CountDownLatch Thread) : s.countDown.count_ = s.count_ - 1 := by
  unfold countDown
  split
  · rfl
  · rfl

theorem count_wait (s : CountDownLatch Thread) (t : Thread) : (s.wait t).count_ = s.count_ := by
  unfold wait
  split
  · rfl
  · rfl

/-- **Step**: only `countDown` changes the counter. -/
theorem count_next {l : Step Thread} (hguard : s.guard l) :
    (s.next l).count_.toInt = s.count_.toInt - countDowns [l] := by
  cases l with
  | countDown t =>
    show s.countDown.count_.toInt = s.count_.toInt - 1
    rw [count_countDown, toInt_pred hguard.2]
  | wait t => exact (congrArg Int32.toInt (count_wait s t)).trans (Int.sub_zero _).symm
  | resume t => exact (congrArg Int32.toInt (count_wait _ t)).trans (Int.sub_zero _).symm
  | spurious t => exact (Int.sub_zero _).symm

/-- **Run**: the counter is what is left of the start. -/
theorem count_run {s : CountDownLatch Thread} {ls : List (Step Thread)}
    (hls : (latch Thread).Valid s ls) :
    ((latch Thread).run s ls).count_.toInt = s.count_.toInt - countDowns ls := by
  induction ls generalizing s with
  | nil => exact (Int.sub_zero _).symm
  | cons l ls ih =>
    obtain ⟨hguard, hls⟩ := hls
    have hrest : ((latch Thread).run s (l :: ls)).count_.toInt =
        (s.next l).count_.toInt - countDowns ls := ih hls
    have hcons : countDowns ([l] ++ ls) = countDowns [l] + countDowns ls := List.countP_append
    rw [← List.singleton_append] at hrest ⊢
    rw [hrest, count_next hguard, hcons]
    omega

/-! ## The invariant -/

omit [DecidableEq Thread] in
theorem sound_new (count : Int32) : (new count : CountDownLatch Thread).Sound :=
  ⟨fun h => absurd rfl h, fun h => absurd rfl h⟩

omit [DecidableEq Thread] in
theorem sound_countDown (h : s.Sound) (hcount : s.count_ ≠ Int32.minValue) :
    s.countDown.Sound := by
  have hpred := toInt_pred hcount
  unfold countDown
  by_cases hzero : s.count_ - 1 = 0
  · -- the sleepers are woken
    rw [if_pos hzero]
    refine ⟨fun hne => absurd rfl hne, fun _ => ?_⟩
    show (s.count_ - 1).toInt ≤ 0
    rw [hzero]
    exact Int.le_refl 0
  · rw [if_neg hzero]
    have hne_one := mt (pred_eq_zero_iff hcount).mpr hzero
    constructor
    · intro hne
      have hpos := h.closed hne
      show 0 < (s.count_ - 1).toInt
      omega
    · intro hne
      have hle := h.opened hne
      show (s.count_ - 1).toInt ≤ 0
      omega

theorem sound_wait (h : s.Sound) (t : Thread) : (s.wait t).Sound := by
  unfold wait
  by_cases hpos : 0 < s.count_
  · rw [if_pos hpos]
    exact ⟨fun _ => pos_iff.mp hpos, h.opened⟩
  · rw [if_neg hpos]
    exact ⟨h.closed, fun _ => Int.not_lt.mp (mt pos_iff.mpr hpos)⟩

/-- **Step**: the latch stays sound. -/
theorem sound_next (h : s.Sound) {l : Step Thread} (hguard : s.guard l) : (s.next l).Sound := by
  cases l with
  | wait t => exact sound_wait h t
  | countDown t => exact sound_countDown h hguard.2
  | resume t =>
    apply sound_wait (s := { s with condition_ := s.condition_.resume t })
    exact ⟨h.closed, h.opened⟩
  | spurious t =>
    refine ⟨?_, h.opened⟩
    intro hne
    -- who sleeps now slept before
    obtain ⟨u, hu⟩ := List.exists_mem_of_ne_nil _ hne
    exact h.closed (List.ne_nil_of_mem (CondVar.sleeping_wake_subset hu))

theorem sound_run (count : Int32) {ls : List (Step Thread)}
    (hls : (latch Thread).Valid (new count) ls) :
    ((latch Thread).run (new count) ls).Sound :=
  (latch Thread).invariant_run Sound (fun _ _ h hguard => sound_next h hguard) (sound_new count)
    hls

/-! ## Who is inside `wait` -/

omit [DecidableEq Thread] in
/-- In front of an open latch everybody is awake. -/
theorem Sound.woken (h : s.Sound) (hopen : s.count_.toInt ≤ 0) (ht : t ∈ s.condition_.waiting) :
    t ∈ s.condition_.woken := by
  rcases List.mem_append.mp ht with hsleeping | hwoken
  · exact absurd (h.closed (List.ne_nil_of_mem hsleeping)) (Int.not_lt.mpr hopen)
  · exact hwoken

omit [DecidableEq Thread] in
/-- Counting down leaves everybody inside. -/
theorem mem_waiting_countDown : t ∈ s.countDown.condition_.waiting ↔ t ∈ s.condition_.waiting := by
  unfold countDown
  split
  · show t ∈ [] ++ (s.condition_.sleeping ++ s.condition_.woken) ↔ _
    rw [List.nil_append]
    rfl
  · rfl

/-- An open latch lets the thread out. -/
theorem resume_eq (hopen : s.count_.toInt ≤ 0) : s.next (.resume t) =
    { s with condition_ := s.condition_.resume t, returned := s.returned ++ [t] } := by
  show wait _ t = _
  rw [wait, if_neg (mt pos_iff.mp (Int.not_lt.mpr hopen))]

/-! ## Who can still return -/

/-- Everybody waits, and the latch is closed. -/
def Stuck (s : CountDownLatch Thread) : Prop := 0 < s.count_ ∧ ∀ u, u ∈ s.condition_.waiting

/-- **Step**: from there, wakeups lead back to sleep. -/
theorem stuck_next (h : s.Stuck) {l : Step Thread} (hguard : s.guard l) : (s.next l).Stuck := by
  obtain ⟨hpos, hall⟩ := h
  cases l with
  | wait t => exact absurd (hall t) hguard
  | countDown t => exact absurd (hall t) hguard.1
  | resume t =>
    show (wait { s with condition_ := s.condition_.resume t } t).Stuck
    rw [wait, if_pos hpos]
    refine ⟨hpos, fun u => ?_⟩
    show u ∈ ((s.condition_.resume t).wait t).waiting
    rw [CondVar.mem_waiting_wait, CondVar.mem_waiting_resume hguard]
    by_cases hut : u = t
    · exact .inl hut
    · exact .inr ⟨hut, hall u⟩
  | spurious t =>
    refine ⟨hpos, fun u => ?_⟩
    show u ∈ (s.condition_.wake t).waiting
    rw [CondVar.mem_waiting_wake]
    exact hall u

/-- Through an open latch everybody can return. -/
theorem canReturn_open (h : s.Sound) (hopen : s.count_.toInt ≤ 0) (ht : t ∈ s.condition_.waiting) :
    (latch Thread).CanReach (fun s => t ∉ s.condition_.waiting) s := by
  have hwoken : t ∈ s.condition_.woken := h.woken hopen ht
  have hguard : (latch Thread).guard s (.resume t) := hwoken
  apply Machine.canReach_step _ hguard
  apply Machine.canReach_now
  show t ∉ (s.next (.resume t)).condition_.waiting
  rw [resume_eq hopen]
  exact fun hmem => ((CondVar.mem_waiting_resume hwoken).mp hmem).1 rfl

/-- **Somebody is outside**, and can count down until the latch is open. -/
theorem canReturn_outside {u : Thread} (h : s.Sound) (hu : u ∉ s.condition_.waiting)
    (ht : t ∈ s.condition_.waiting) :
    (latch Thread).CanReach (fun s => t ∉ s.condition_.waiting) s := by
  -- on what is left of the counter
  induction hn : s.count_.toInt.toNat generalizing s with
  | zero => exact canReturn_open h (by omega) ht
  | succ n ih =>
    have hcount : s.count_ ≠ Int32.minValue := by
      intro hmin
      rw [hmin] at hn
      cases hn
    have hguard : (latch Thread).guard s (.countDown u) := ⟨hu, hcount⟩
    apply Machine.canReach_step _ hguard
    apply ih (s := s.countDown) (sound_countDown h hcount)
    · rwa [mem_waiting_countDown]
    · rwa [mem_waiting_countDown]
    · rw [count_countDown, toInt_pred hcount]
      omega

/-- **The return**: a thread inside `wait` can still return if and only if
    the latch is open or some thread is outside `wait`. -/
theorem canReturn_iff (h : s.Sound) (ht : t ∈ s.condition_.waiting) :
    (latch Thread).CanReach (fun s => t ∉ s.condition_.waiting) s ↔
      s.count_.toInt ≤ 0 ∨ ∃ u, u ∉ s.condition_.waiting := by
  constructor
  · intro hreach
    by_contra hnot
    obtain ⟨hclosed, hall⟩ := not_or.mp hnot
    have hstuck : s.Stuck := ⟨pos_iff.mpr (Int.not_le.mp hclosed), fun u => not_not.mp (not_exists.mp hall u)⟩
    obtain ⟨ls, hls, hout⟩ := hreach
    have hrun : ((latch Thread).run s ls).Stuck :=
      (latch Thread).invariant_run Stuck (fun _ _ hs hguard => stuck_next hs hguard) hstuck hls
    exact hout (hrun.2 t)
  · rintro (hopen | ⟨u, hu⟩)
    · exact canReturn_open h hopen ht
    · exact canReturn_outside h hu ht

/-- Both threads of a program wait for a third one that it does not have. -/
example : ¬ (latch (Fin 2)).CanReach (fun s => 0 ∉ s.condition_.waiting)
    ((latch (Fin 2)).run (new 1) [.wait 0, .wait 1]) := by
  rw [canReturn_iff (sound_run 1 (by decide)) (by decide)]
  decide

/-! ## Whole runs -/

/-- **The latch**: over every interleaving of any threads, with wakeups for
    no reason, in which the counter does not overflow: a thread returns from
    `wait` only behind `count` calls of `countDown`; behind them nobody
    sleeps, and everybody inside `wait` returns as soon as it has the mutex;
    before them it can still return if and only if some thread is outside
    `wait`. -/
theorem latch_run (count : Int32) {ls : List (Step Thread)}
    (hls : (latch Thread).Valid (new count) ls) :
    let s := (latch Thread).run (new count) ls
    (s.returned ≠ [] → count.toInt ≤ countDowns ls) ∧
      (count.toInt ≤ countDowns ls → s.condition_.sleeping = [] ∧
        ∀ t ∈ s.condition_.waiting, s.guard (.resume t) ∧
          (s.next (.resume t)).returned = s.returned ++ [t]) ∧
      ∀ t ∈ s.condition_.waiting,
        (latch Thread).CanReach (fun s => t ∉ s.condition_.waiting) s ↔
          count.toInt ≤ countDowns ls ∨ ∃ u, u ∉ s.condition_.waiting := by
  intro s
  have h : s.Sound := sound_run count hls
  have hcount : s.count_.toInt = count.toInt - countDowns ls := count_run hls
  have hopen_iff : s.count_.toInt ≤ 0 ↔ count.toInt ≤ countDowns ls := by omega
  refine ⟨?_, ?_, ?_⟩
  · intro hne
    exact hopen_iff.mp (h.opened hne)
  · intro hle
    have hopen : s.count_.toInt ≤ 0 := hopen_iff.mpr hle
    constructor
    · by_contra hne
      exact Int.not_lt.mpr hopen (h.closed hne)
    · intro t ht
      refine ⟨h.woken hopen ht, ?_⟩
      rw [resume_eq hopen]
  · intro t ht
    rw [← hopen_iff]
    exact canReturn_iff h ht

/-- Two count down, and a third once more, before the sleepers have the
    mutex. -/
theorem latch_run_late :
    let s := (latch Nat).run (new 2)
      [.wait 1, .wait 2, .countDown 3, .spurious 1, .resume 1, .countDown 4, .countDown 5]
    s.condition_.sleeping = [] ∧ ∀ t ∈ s.condition_.waiting, s.guard (.resume t) ∧
      (s.next (.resume t)).returned = s.returned ++ [t] :=
  (latch_run 2 (by decide)).2.1 (by decide)

end CountDownLatch

end TinyWS
