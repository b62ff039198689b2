import TinyWS.Framework.Machine
import TinyWS.Framework.Monitor
import Mathlib.Logic.Function.Basic

/-! # BoundedBlockingQueue

    A monitor over a `circular_buffer`.  The two overloads of `put` wait on
    different conditions, and neither ever waits: `push_back` makes room by
    dropping the oldest value, so the buffer is never full when a call
    looks.  The indices run through `maxSize + 2` cells of an array that
    has `maxSize`.

    A step is a critical section of `mutex_`; waiting splits a call in
    two. -/

namespace TinyWS

/-! ## The buffer -/

/-- `detail::circular_buffer`.  A cell is empty until it is written. -/
structure CircularBuffer (T : Type) where
  capacity_ : Nat
  data_ : List (Option T)
  front_ : Nat
  rear_ : Nat

namespace CircularBuffer

variable {T : Type}

/-- The constructor: one place more than asked for, and no cell for it. -/
def new (capacity : Nat) : CircularBuffer T where
  capacity_ := capacity + 1
  data_ := List.replicate capacity none
  front_ := 0
  rear_ := 0

def full (q : CircularBuffer T) : Bool := q.front_ == (q.rear_ + 1) % (q.capacity_ + 1)

def empty (q : CircularBuffer T) : Bool := q.front_ == q.rear_

/-- `data_[i]`; nothing is known of what lies behind the array. -/
def cell (q : CircularBuffer T) (i : Nat) : Option T := (q.data_[i]?).join

/-- `front()`, behind its test of `empty()`. -/
def front (q : CircularBuffer T) : Option T := q.cell q.front_

/-- `pop_front()`, behind its test of `empty()`. -/
def popFront (q : CircularBuffer T) : CircularBuffer T :=
  { q with front_ := (q.front_ + 1) % (q.capacity_ + 1) }

/-- `push_back(value)`; a write behind the array is lost. -/
def pushBack (q : CircularBuffer T) (value : T) : CircularBuffer T :=
  let q := { q with
    data_ := q.data_.set q.rear_ (some value)
    rear_ := (q.rear_ + 1) % (q.capacity_ + 1) }
  if q.full then { q with front_ := (q.front_ + 1) % (q.capacity_ + 1) } else q

/-- The cells from `front_` up to `rear_`. -/
def contents (q : CircularBuffer T) : List (Option T) :=
  (List.range ((q.rear_ + (q.capacity_ + 1) - q.front_) % (q.capacity_ + 1))).map fun k =>
    q.cell ((q.front_ + k) % (q.capacity_ + 1))

end CircularBuffer

/-! ## The monitor -/

/-- `put(const T&)` and `put(T&&)`. -/
inductive Overload where
  | copy
  | move
  deriving DecidableEq

/-- Where a thread is: outside of the queue, or asleep in a call. -/
inductive Client (T : Type) where
  | outside
  | putting (overload : Overload) (value : T)
  | taking
  deriving DecidableEq

/-- `class BoundedBlockingQueue` with its threads. -/
structure BoundedBlockingQueue (Thread T : Type) where
  queue_ : CircularBuffer T
  notEmpty_ : CondVar Thread
  notFull_ : CondVar Thread
  client : Thread → Client T
  /-- The values put, in order. -/
  puts : List T
  /-- What `take` returned. -/
  taken : List (Option T)

namespace BoundedBlockingQueue

variable {Thread T : Type}

/-- The constructor, with every thread outside. -/
def new (maxSize : Nat) : BoundedBlockingQueue Thread T where
  queue_ := CircularBuffer.new maxSize
  notEmpty_ := CondVar.new
  notFull_ := CondVar.new
  client := fun _ => .outside
  puts := []
  taken := []

variable [DecidableEq Thread]

def setClient (s : BoundedBlockingQueue Thread T) (t : Thread) (c : Client T) :
    BoundedBlockingQueue Thread T :=
  { s with client := Function.update s.client t c }

/-- The critical section of `put`, with what waiting does and the thread
    that `notEmpty_.notify()` wakes. -/
def putWith (s : BoundedBlockingQueue Thread T) (wait : BoundedBlockingQueue Thread T)
    (t : Thread) (value : T) (woken : Option Thread) : BoundedBlockingQueue Thread T :=
  if s.queue_.full then wait
  else
    { s with
      queue_ := s.queue_.pushBack value
      notEmpty_ := s.notEmpty_.notify woken
      puts := s.puts ++ [value] }.setClient t .outside

/-- `put(const T &value)` waits on `notEmpty_`. -/
def putCopy (s : BoundedBlockingQueue Thread T) (t : Thread) (value : T) (woken : Option Thread) :
    BoundedBlockingQueue Thread T :=
  s.putWith ({ s with notEmpty_ := s.notEmpty_.wait t }.setClient t (.putting .copy value))
    t value woken

/-- `put(T &&value)` waits on `notFull_`. -/
def putMove (s : BoundedBlockingQueue Thread T) (t : Thread) (value : T) (woken : Option Thread) :
    BoundedBlockingQueue Thread T :=
  s.putWith ({ s with notFull_ := s.notFull_.wait t }.setClient t (.putting .move value))
    t value woken

def put (s : BoundedBlockingQueue Thread T) (t : Thread) (overload : Overload) (value : T)
    (woken : Option Thread) : BoundedBlockingQueue Thread T :=
  match overload with
  | .copy => s.putCopy t value woken
  | .move => s.putMove t value woken

/-- `take()`, with the thread that `notFull_.notify()` wakes. -/
def take (s : BoundedBlockingQueue Thread T) (t : Thread) (woken : Option Thread) :
    BoundedBlockingQueue Thread T :=
  if s.queue_.empty then { s with notEmpty_ := s.notEmpty_.wait t }.setClient t .taking
  else
    { s with
      queue_ := s.queue_.popFront
      notFull_ := s.notFull_.notify woken
      taken := s.taken ++ [s.queue_.front] }.setClient t .outside

/-- `t` leaves the wait it is in. -/
def leaveWait (s : BoundedBlockingQueue Thread T) (t : Thread) : BoundedBlockingQueue Thread T :=
  { s with
    notEmpty_ := s.notEmpty_.resume t
    notFull_ := s.notFull_.resume t }

/-- Go on with a call behind its wait. -/
def resume (s : BoundedBlockingQueue Thread T) (t : Thread) (woken : Option Thread) :
    BoundedBlockingQueue Thread T :=
  match s.client t with
  | .outside => s
  | .putting overload value => (s.leaveWait t).put t overload value woken
  | .taking => (s.leaveWait t).take t woken

/-- The steps of the threads. -/
inductive Step (Thread T : Type) where
  | put (t : Thread) (overload : Overload) (value : T) (woken : Option Thread)
  | take (t : Thread) (woken : Option Thread)
  /-- A woken thread has the mutex again. -/
  | resume (t : Thread) (woken : Option Thread)
  | spurious (t : Thread)

/-- The threads the signal at the end of a call may wake. -/
def MayWake (s : BoundedBlockingQueue Thread T) (woken : Option Thread) : Client T → Prop
  | .outside => True
  | .putting _ _ => s.queue_.full = false → s.notEmpty_.MayWake woken
  | .taking => s.queue_.empty = false → s.notFull_.MayWake woken

def guard (s : BoundedBlockingQueue Thread T) : Step Thread T → Prop
  | .put t overload value woken =>
      s.client t = .outside ∧ s.MayWake woken (.putting overload value)
  | .take t woken => s.client t = .outside ∧ s.MayWake woken .taking
  | .resume t woken =>
      (t ∈ s.notEmpty_.woken ∨ t ∈ s.notFull_.woken) ∧
        (s.leaveWait t).MayWake woken (s.client t)
  | .spurious t => t ∈ s.notEmpty_.sleeping ∨ t ∈ s.notFull_.sleeping

def next (s : BoundedBlockingQueue Thread T) : Step Thread T → BoundedBlockingQueue Thread T
  | .put t overload value woken => s.put t overload value woken
  | .take t woken => s.take t woken
  | .resume t woken => s.resume t woken
  | .spurious t =>
      { s with
        notEmpty_ := s.notEmpty_.wake t
        notFull_ := s.notFull_.wake t }

end BoundedBlockingQueue

namespace BoundedBlockingQueue

variable {Thread T : Type} [DecidableEq Thread]

instance (s : BoundedBlockingQueue Thread T) (woken : Option Thread) :
    ∀ c : Client T, Decidable (s.MayWake woken c)
  | .outside => inferInstanceAs (Decidable True)
  | .putting _ _ =>
      inferInstanceAs (Decidable (s.queue_.full = false → s.notEmpty_.MayWake woken))
  | .taking => inferInstanceAs (Decidable (s.queue_.empty = false → s.notFull_.MayWake woken))

instance [DecidableEq T] (s : BoundedBlockingQueue Thread T) :
    ∀ l : Step Thread T, Decidable (s.guard l)
  | .put t overload value woken =>
      inferInstanceAs
        (Decidable (s.client t = .outside ∧ s.MayWake woken (.putting overload value)))
  | .take t woken => inferInstanceAs (Decidable (s.client t = .outside ∧ s.MayWake woken .taking))
  | .resume t woken =>
      inferInstanceAs (Decidable ((t ∈ s.notEmpty_.woken ∨ t ∈ s.notFull_.woken) ∧
        (s.leaveWait t).MayWake woken (s.client t)))
  | .spurious t => inferInstanceAs (Decidable (t ∈ s.notEmpty_.sleeping ∨ t ∈ s.notFull_.sleeping))

end BoundedBlockingQueue

/-- Any number of threads, each with any calls. -/
def blockingQueue (Thread T : Type) [DecidableEq Thread] :
    Machine (BoundedBlockingQueue Thread T) (BoundedBlockingQueue.Step Thread T) where
  guard := BoundedBlockingQueue.guard
  next := BoundedBlockingQueue.next

instance (Thread T : Type) [DecidableEq Thread] [DecidableEq T]
    (s : BoundedBlockingQueue Thread T) (l : BoundedBlockingQueue.Step Thread T) :
    Decidable ((blockingQueue Thread T).guard s l) :=
  inferInstanceAs (Decidable (s.guard l))

namespace BoundedBlockingQueue

variable {Thread T : Type}

/-! ## The specification -/

/-- What was put is what was taken and what is still there. -/
def Lossless (s : BoundedBlockingQueue Thread T) : Prop :=
  s.taken ++ s.queue_.contents = s.puts.map some

instance [DecidableEq T] (s : BoundedBlockingQueue Thread T) : Decidable s.Lossless :=
  inferInstanceAs (Decidable (_ = _))

def Asleep (s : BoundedBlockingQueue Thread T) (t : Thread) : Prop :=
  t ∈ s.notEmpty_.sleeping ∨ t ∈ s.notFull_.sleeping

/-- No thread is about to run, and one sleeps although its call could go
    on. -/
def Stranded (s : BoundedBlockingQueue Thread T) : Prop :=
  s.notEmpty_.woken = [] ∧ s.notFull_.woken = [] ∧ ∃ t, s.Asleep t ∧
    ((s.queue_.full = false ∧ ∃ overload value, s.client t = .putting overload value) ∨
      (s.queue_.empty = false ∧ s.client t = .taking))

/-- Fewer than `maxSize` values were put before this one. -/
def FewPuts (maxSize : Nat) (s : BoundedBlockingQueue Thread T) : Step Thread T → Prop
  | .put _ _ _ _ => s.puts.length < maxSize
  | .take _ _ | .resume _ _ | .spurious _ => True

instance (maxSize : Nat) (s : BoundedBlockingQueue Thread T) :
    ∀ l : Step Thread T, Decidable (s.FewPuts maxSize l)
  | .put _ _ _ _ => inferInstanceAs (Decidable (s.puts.length < maxSize))
  | .take _ _ | .resume _ _ | .spurious _ => inferInstanceAs (Decidable True)

/-! ## The first lap of the buffer -/

/-- The buffer while its indices have not left the array: all values put
    are in it, and those taken lie in front of `front_`. -/
structure FirstLap (maxSize : Nat) (q : CircularBuffer T) (puts : List T)
    (taken : List (Option T)) : Prop where
  capacity_ : q.capacity_ = maxSize + 1
  data_length : q.data_.length = maxSize
  rear_ : q.rear_ = puts.length
  rear_le : q.rear_ ≤ maxSize
  front_ : q.front_ = taken.length
  front_le : q.front_ ≤ q.rear_
  data_ : q.data_.take q.rear_ = puts.map some
  taken : taken = (puts.map some).take q.front_

namespace FirstLap

variable {maxSize : Nat} {q : CircularBuffer T} {puts : List T} {taken : List (Option T)}

theorem start (maxSize : Nat) :
    FirstLap maxSize (CircularBuffer.new maxSize : CircularBuffer T) [] [] := by
  constructor <;> simp [CircularBuffer.new]

variable (h : FirstLap maxSize q puts taken)

include h

theorem cell_eq {i : Nat} (hi : i < q.rear_) : some (q.cell i) = (puts.map some)[i]? := by
  have hlt : i < q.data_.length := by
    have hle := h.rear_le
    rw [h.data_length]
    omega
  rw [← h.data_, List.getElem?_take_of_lt hi, List.getElem?_eq_getElem hlt, CircularBuffer.cell,
    List.getElem?_eq_getElem hlt]
  rfl

/-- Nothing wraps around. -/
theorem contents_eq : q.contents = (puts.map some).drop q.front_ := by
  have hfront := h.front_le
  have hrear := h.rear_le
  have hcount : (q.rear_ + (q.capacity_ + 1) - q.front_) % (q.capacity_ + 1) =
      q.rear_ - q.front_ := by
    have hsum : q.rear_ + (q.capacity_ + 1) - q.front_ =
        (q.rear_ - q.front_) + (q.capacity_ + 1) := by omega
    rw [hsum, Nat.add_mod_right, Nat.mod_eq_of_lt]
    rw [h.capacity_]
    omega
  apply List.ext_getElem?
  intro k
  rw [CircularBuffer.contents, hcount, List.getElem?_map, List.getElem?_drop]
  by_cases hk : k < q.rear_ - q.front_
  · have hmod : (q.front_ + k) % (q.capacity_ + 1) = q.front_ + k := by
      apply Nat.mod_eq_of_lt
      rw [h.capacity_]
      omega
    rw [List.getElem?_range hk, Option.map_some, hmod]
    exact h.cell_eq (by omega)
  · have hlen : (puts.map some).length = q.rear_ := by rw [List.length_map, h.rear_]
    rw [List.getElem?_eq_none (by simpa using hk), List.getElem?_eq_none (by omega)]
    rfl

/-- A put never finds the buffer full. -/
theorem full_eq : q.full = false := by
  have hfront := h.front_le
  have hrear := h.rear_le
  have hmod : (q.rear_ + 1) % (q.capacity_ + 1) = q.rear_ + 1 := by
    apply Nat.mod_eq_of_lt
    rw [h.capacity_]
    omega
  rw [CircularBuffer.full, hmod, beq_eq_false_iff_ne]
  omega

/-- One more value, while there is a cell for it. -/
theorem pushBack (hroom : puts.length < maxSize) (value : T) :
    FirstLap maxSize (q.pushBack value) (puts ++ [value]) taken := by
  have hrear := h.rear_
  have hfront := h.front_le
  have hcapacity := h.capacity_
  have hmod : (q.rear_ + 1) % (q.capacity_ + 1) = q.rear_ + 1 := Nat.mod_eq_of_lt (by omega)
  have hpush : q.pushBack value =
      { q with data_ := q.data_.set q.rear_ (some value), rear_ := q.rear_ + 1 } := by
    have hmod' : (q.rear_ + 1 + 1) % (q.capacity_ + 1) = q.rear_ + 1 + 1 :=
      Nat.mod_eq_of_lt (by omega)
    have hnot : (q.front_ == (q.rear_ + 1 + 1) % (q.capacity_ + 1)) = false := by
      rw [hmod', beq_eq_false_iff_ne]
      omega
    simp [CircularBuffer.pushBack, CircularBuffer.full, hmod, hnot]
  rw [hpush]
  refine ⟨hcapacity, ?_, ?_, ?_, h.front_, ?_, ?_, ?_⟩
  · simp [h.data_length]
  · simp [hrear]
  · show q.rear_ + 1 ≤ maxSize
    omega
  · show q.front_ ≤ q.rear_ + 1
    omega
  · have hlt : q.rear_ < q.data_.length := by
      rw [h.data_length, hrear]
      exact hroom
    show (q.data_.set q.rear_ (some value)).take (q.rear_ + 1) = (puts ++ [value]).map some
    rw [List.take_add_one, List.getElem?_set_self hlt, List.take_set_of_le (Nat.le_refl _), h.data_,
      List.map_append]
    rfl
  · show taken = ((puts ++ [value]).map some).take q.front_
    rw [List.map_append, List.take_append_of_le_length]
    · exact h.taken
    · rw [List.length_map, ← hrear]
      exact hfront

/-- A take of a value that is there. -/
theorem popFront (hfull : q.empty = false) :
    FirstLap maxSize q.popFront puts (taken ++ [q.front]) := by
  have hne : q.front_ ≠ q.rear_ := beq_eq_false_iff_ne.mp hfull
  have hfront := h.front_le
  have hrear := h.rear_le
  have hlt : q.front_ < q.rear_ := by omega
  have hmod : (q.front_ + 1) % (q.capacity_ + 1) = q.front_ + 1 := by
    apply Nat.mod_eq_of_lt
    rw [h.capacity_]
    omega
  have hpop : q.popFront = { q with front_ := q.front_ + 1 } := by
    rw [CircularBuffer.popFront, hmod]
  rw [hpop]
  refine ⟨h.capacity_, h.data_length, h.rear_, h.rear_le, ?_, hlt, h.data_, ?_⟩
  · rw [List.length_append, ← h.front_]
    rfl
  · show taken ++ [q.front] = (puts.map some).take (q.front_ + 1)
    rw [List.take_add_one, ← h.taken, ← h.cell_eq hlt]
    rfl

/-- **The value behind the array is lost**: once `maxSize` values were
    put, the next one goes to a cell that does not exist. -/
theorem none_mem_contents (hpos : 0 < maxSize) (hfull : puts.length = maxSize) (value : T) :
    none ∈ (q.pushBack value).contents := by
  have hrear : q.rear_ = maxSize := h.rear_.trans hfull
  have hfront := h.front_le
  have hcapacity := h.capacity_
  have hmod : (q.rear_ + 1) % (q.capacity_ + 1) = maxSize + 1 := by
    rw [hrear, Nat.mod_eq_of_lt]
    omega
  -- the oldest value may be dropped on the way
  obtain ⟨front, hle, hpush⟩ : ∃ front ≤ maxSize, q.pushBack value =
      { q with
        data_ := q.data_.set q.rear_ (some value)
        rear_ := maxSize + 1
        front_ := front } := by
    simp only [CircularBuffer.pushBack, hmod]
    split
    · refine ⟨(q.front_ + 1) % (q.capacity_ + 1), ?_, rfl⟩
      next hzero =>
      have hwrap : (maxSize + 1 + 1) % (q.capacity_ + 1) = 0 := by
        rw [hcapacity, Nat.mod_self]
      have hfirst : q.front_ = 0 := by simpa [CircularBuffer.full, hwrap] using hzero
      rw [hfirst, Nat.mod_eq_of_lt] <;> omega
    · exact ⟨q.front_, by omega, rfl⟩
  have hcount : (maxSize + 1 + (q.capacity_ + 1) - front) % (q.capacity_ + 1) =
      maxSize + 1 - front := by
    have hsum : maxSize + 1 + (q.capacity_ + 1) - front =
        (maxSize + 1 - front) + (q.capacity_ + 1) := by omega
    rw [hsum, Nat.add_mod_right, Nat.mod_eq_of_lt]
    omega
  have hindex : (front + (maxSize - front)) % (q.capacity_ + 1) = maxSize := by
    rw [Nat.add_sub_cancel' hle, Nat.mod_eq_of_lt]
    omega
  rw [hpush, CircularBuffer.contents, hcount]
  refine List.mem_map.mpr ⟨maxSize - front, List.mem_range.mpr (by omega), ?_⟩
  have hout : (q.data_.set q.rear_ (some value)).length ≤ maxSize := by
    simp [h.data_length]
  simp only [CircularBuffer.cell, hindex, List.getElem?_eq_none hout]
  rfl

end FirstLap

/-! ## The steps -/

/-- Nobody waits to put, and the threads that wait to take are enough for
    what is in the buffer. -/
structure Calm (s : BoundedBlockingQueue Thread T) : Prop where
  notFull_ : s.notFull_.waiting = []
  takers : ∀ t ∈ s.notEmpty_.waiting, s.client t = .taking
  covered : s.notEmpty_.Covered (s.queue_.rear_ - s.queue_.front_)

/-- The state while every value had its own cell. -/
structure Sound (maxSize : Nat) (s : BoundedBlockingQueue Thread T) : Prop where
  lap : FirstLap maxSize s.queue_ s.puts s.taken
  calm : s.Calm

theorem sound_new (maxSize : Nat) : (new maxSize : BoundedBlockingQueue Thread T).Sound maxSize :=
  ⟨FirstLap.start maxSize, rfl, by simp [new], CondVar.covered_new⟩

theorem Sound.lossless {maxSize : Nat} {s : BoundedBlockingQueue Thread T} (h : s.Sound maxSize) :
    s.Lossless := by
  rw [Lossless, h.lap.contents_eq]
  calc s.taken ++ (s.puts.map some).drop s.queue_.front_
      = (s.puts.map some).take s.queue_.front_ ++ (s.puts.map some).drop s.queue_.front_ := by
        rw [← h.lap.taken]
    _ = s.puts.map some := List.take_append_drop _ _

theorem Sound.not_stranded {maxSize : Nat} {s : BoundedBlockingQueue Thread T}
    (h : s.Sound maxSize) : ¬ s.Stranded := by
  rintro ⟨hwoken, -, t, hasleep, hcall⟩
  have hmem : t ∈ s.notEmpty_.sleeping := by
    refine hasleep.resolve_right fun hfull => ?_
    have hwaiting : t ∈ s.notFull_.waiting := List.mem_append_left _ hfull
    rw [h.calm.notFull_] at hwaiting
    exact absurd hwaiting List.not_mem_nil
  have htaker := h.calm.takers t (List.mem_append_left _ hmem)
  rcases hcall with ⟨-, overload, value, hput⟩ | ⟨hempty, -⟩
  · rw [htaker] at hput
    cases hput
  · -- a taker asleep, nobody woken: the buffer is empty
    have hzero := h.calm.covered.need_eq_zero (List.ne_nil_of_mem hmem) hwoken
    have hne : s.queue_.front_ ≠ s.queue_.rear_ := beq_eq_false_iff_ne.mp hempty
    have hle := h.lap.front_le
    omega

variable [DecidableEq Thread]

theorem put_eq {s : BoundedBlockingQueue Thread T} (hfull : s.queue_.full = false) (t : Thread)
    (overload : Overload) (value : T) (woken : Option Thread) :
    s.put t overload value woken =
      { s with
        queue_ := s.queue_.pushBack value
        notEmpty_ := s.notEmpty_.notify woken
        puts := s.puts ++ [value] }.setClient t .outside := by
  cases overload <;> simp [put, putCopy, putMove, putWith, hfull]

/-- A put while there is a cell for the value. -/
theorem Sound.put {maxSize : Nat} {s : BoundedBlockingQueue Thread T} (h : s.Sound maxSize)
    {t : Thread} {overload : Overload} {value : T} {woken : Option Thread}
    (hclient : s.client t = .outside) (hwoken : s.MayWake woken (.putting overload value))
    (hroom : s.puts.length < maxSize) : (s.put t overload value woken).Sound maxSize := by
  have hlap := h.lap.pushBack hroom value
  rw [put_eq h.lap.full_eq]
  refine ⟨hlap, h.calm.notFull_, ?_, ?_⟩
  · intro u hu
    have hu' := CondVar.mem_waiting_notify.mp hu
    have htaker := h.calm.takers u hu'
    have hne : u ≠ t := by
      rintro rfl
      rw [hclient] at htaker
      cases htaker
    simp only [setClient, Function.update_of_ne hne]
    exact htaker
  · -- one value more, and one signal
    have hsignal := h.calm.covered.signal (hwoken h.lap.full_eq)
    refine hsignal.mono ?_
    have hrear : (s.queue_.pushBack value).rear_ = s.queue_.rear_ + 1 := by
      rw [hlap.rear_, h.lap.rear_, List.length_append]
      rfl
    have hfront : (s.queue_.pushBack value).front_ = s.queue_.front_ := by
      rw [hlap.front_, h.lap.front_]
    show (s.queue_.pushBack value).rear_ - (s.queue_.pushBack value).front_ ≤ _
    rw [hrear, hfront]
    omega

/-- The put that has no cell loses its value. -/
theorem Sound.put_lossy {maxSize : Nat} (hpos : 0 < maxSize) {s : BoundedBlockingQueue Thread T}
    (h : s.Sound maxSize) (t : Thread) (overload : Overload) (value : T) (woken : Option Thread)
    (hroom : ¬ s.puts.length < maxSize) : ¬ (s.put t overload value woken).Lossless := by
  have hle := h.lap.rear_le
  have hrear := h.lap.rear_
  have hnone := h.lap.none_mem_contents hpos (by omega) value
  rw [put_eq h.lap.full_eq]
  intro hlossless
  have hmem : none ∈ (s.puts ++ [value]).map some := by
    have heq : s.taken ++ (s.queue_.pushBack value).contents = (s.puts ++ [value]).map some :=
      hlossless
    rw [← heq]
    exact List.mem_append_right _ hnone
  obtain ⟨v, -, hv⟩ := List.mem_map.mp hmem
  cases hv

/-- A take, by a thread that is in no wait: a unit of the need is its
    own. -/
theorem sound_take {maxSize : Nat} {s : BoundedBlockingQueue Thread T}
    (hlap : FirstLap maxSize s.queue_ s.puts s.taken) (hnotFull : s.notFull_.waiting = [])
    {t : Thread} (htakers : ∀ u ∈ s.notEmpty_.waiting, u ≠ t ∧ s.client u = .taking)
    (hcovered : s.notEmpty_.Covered (s.queue_.rear_ - s.queue_.front_ - 1))
    (woken : Option Thread) : (s.take t woken).Sound maxSize := by
  unfold take
  split
  · next hempty =>
    refine ⟨hlap, hnotFull, ?_, ?_⟩
    · intro u hu
      by_cases heq : u = t
      · simp [setClient, heq]
      · have hu' := (CondVar.mem_waiting_wait.mp hu).resolve_left heq
        simp only [setClient, Function.update_of_ne heq]
        exact (htakers u hu').2
    · -- nothing to take
      have hzero : s.queue_.rear_ - s.queue_.front_ = 0 := by
        have heq : s.queue_.front_ = s.queue_.rear_ := beq_iff_eq.mp hempty
        omega
      show (s.notEmpty_.wait t).Covered (s.queue_.rear_ - s.queue_.front_)
      rw [hzero]
      exact CondVar.covered_wait
  · next hempty =>
    have hfull : s.queue_.empty = false := Bool.eq_false_iff.mpr hempty
    have hpop := hlap.popFront hfull
    refine ⟨hpop, ?_, ?_, hcovered.mono ?_⟩
    · -- still nobody waits for a free place
      refine List.eq_nil_iff_forall_not_mem.mpr fun u hu => ?_
      have hu' : u ∈ s.notFull_.waiting := CondVar.mem_waiting_notify.mp hu
      rw [hnotFull] at hu'
      exact absurd hu' List.not_mem_nil
    · intro u hu
      obtain ⟨hne, htaker⟩ := htakers u hu
      simp only [setClient, Function.update_of_ne hne]
      exact htaker
    · -- one value less, as many as were covered without this taker
      have hfront : s.queue_.popFront.front_ = s.queue_.front_ + 1 := by
        rw [hpop.front_, hlap.front_, List.length_append]
        rfl
      show s.queue_.rear_ - s.queue_.popFront.front_ ≤ _
      rw [hfront]
      omega

/-- **Step lemma**: a step that finds a cell for its value keeps the state
    sound. -/
theorem sound_next {maxSize : Nat} {s : BoundedBlockingQueue Thread T} (h : s.Sound maxSize)
    {l : Step Thread T} (hl : s.guard l) (hroom : s.FewPuts maxSize l) :
    (s.next l).Sound maxSize := by
  cases l with
  | put t overload value woken => exact h.put hl.1 hl.2 hroom
  | take t woken =>
    refine sound_take h.lap h.calm.notFull_ (fun u hu => ?_) (h.calm.covered.mono (Nat.sub_le _ _))
      woken
    have htaker := h.calm.takers u hu
    refine ⟨?_, htaker⟩
    rintro rfl
    rw [hl.1] at htaker
    cases htaker
  | resume t woken =>
    -- only takers wait
    have hmem : t ∈ s.notEmpty_.woken := by
      refine hl.1.resolve_right fun hfull => ?_
      have hwaiting : t ∈ s.notFull_.waiting := List.mem_append_right _ hfull
      rw [h.calm.notFull_] at hwaiting
      exact absurd hwaiting List.not_mem_nil
    have htaker := h.calm.takers t (List.mem_append_right _ hmem)
    have hnext : s.next (.resume t woken) = (s.leaveWait t).take t woken := by
      simp only [next, resume, htaker]
    rw [hnext]
    refine sound_take (s := s.leaveWait t) h.lap ?_ ?_ h.calm.covered.resume woken
    · obtain ⟨hsleeping, hwoken⟩ := List.append_eq_nil_iff.mp h.calm.notFull_
      simp [leaveWait, CondVar.waiting, CondVar.resume, hsleeping, hwoken]
    · intro u hu
      obtain ⟨hne, hu'⟩ := (CondVar.mem_waiting_resume hmem).mp hu
      exact ⟨hne, h.calm.takers u hu'⟩
  | spurious t =>
    refine ⟨h.lap, ?_, ?_, h.calm.covered.wake⟩
    · refine List.eq_nil_iff_forall_not_mem.mpr fun u hu => ?_
      have hu' : u ∈ s.notFull_.waiting := CondVar.mem_waiting_wake.mp hu
      rw [h.calm.notFull_] at hu'
      exact absurd hu' List.not_mem_nil
    · intro u hu
      exact h.calm.takers u (CondVar.mem_waiting_wake.mp hu)

/-- **The queue keeps its values, and its threads awake, exactly for the
    first `maxSize` puts**: in every run of any number of threads no value
    is lost, reordered or taken twice and no thread is stranded, in any
    state, if and only if at most `maxSize` values are put. -/
theorem lossless_iff_fewPuts {maxSize : Nat} (hpos : 0 < maxSize) {ls : List (Step Thread T)}
    (hvalid : (blockingQueue Thread T).Valid (new maxSize) ls) :
    (∀ pre, pre <+: ls → ((blockingQueue Thread T).run (new maxSize) pre).Lossless ∧
        ¬ ((blockingQueue Thread T).run (new maxSize) pre).Stranded) ↔
      (blockingQueue Thread T).Along (FewPuts maxSize) (new maxSize) ls := by
  refine (blockingQueue Thread T).always_iff_along
    (fun s ls => s.Sound maxSize ∧ (blockingQueue Thread T).Valid s ls)
    (fun s => s.Lossless ∧ ¬ s.Stranded) ?_ ?_ ?_ ⟨sound_new maxSize, hvalid⟩
  · rintro s ls ⟨h, -⟩
    exact ⟨h.lossless, h.not_stranded⟩
  · rintro s l ls ⟨h, hl, hrest⟩ hroom
    exact ⟨sound_next h hl hroom, hrest⟩
  · rintro s l ls ⟨h, hl, -⟩ hroom ⟨hlossless, -⟩
    cases l with
    | put t overload value woken => exact h.put_lossy hpos t overload value woken hroom hlossless
    | take t woken => exact hroom trivial
    | resume t woken => exact hroom trivial
    | spurious t => exact hroom trivial

/-- A taker that sleeps, and two values for a queue of two. -/
theorem lossless_iff_two :
    let ls : List (Step Nat Char) :=
      [.take 1 none, .put 2 .copy 'a' (some 1), .put 3 .move 'b' none, .resume 1 none,
        .take 2 none]
    (∀ pre, pre <+: ls → ((blockingQueue Nat Char).run (new 2) pre).Lossless ∧
        ¬ ((blockingQueue Nat Char).run (new 2) pre).Stranded) ↔
      (blockingQueue Nat Char).Along (FewPuts 2) (new 2) ls := by
  exact lossless_iff_fewPuts (by decide) (by decide)

/-- A queue of one, two values and a take: the second put does not wait,
    and the first value is gone. -/
theorem not_lossless_second :
    let ls : List (Step Nat Char) := [.put 1 .copy 'a' none, .put 1 .copy 'b' none, .take 2 none]
    (blockingQueue Nat Char).Valid (new 1) ls ∧
      ((blockingQueue Nat Char).run (new 1) ls).puts = ['a', 'b'] ∧
      ((blockingQueue Nat Char).run (new 1) ls).taken = [none] ∧
      ¬ ∀ pre, pre <+: ls → ((blockingQueue Nat Char).run (new 1) pre).Lossless ∧
        ¬ ((blockingQueue Nat Char).run (new 1) pre).Stranded := by
  refine ⟨by decide, by decide, by decide, fun hall => ?_⟩
  have hlast := (hall _ (List.prefix_refl _)).1
  revert hlast
  decide

end BoundedBlockingQueue

end TinyWS
