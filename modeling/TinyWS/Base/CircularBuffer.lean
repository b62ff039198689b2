import TinyWS.Base.BoundedBlockingQueue

/-! # The Circular Buffer

    The buffer against the queue it stands for.  The constructor adds the
    spare place to `capacity_`, and every modulus adds it again: the indices
    run through `c + 2` places, of which the array has `c`.  `push_back`
    drops the oldest value when it has filled the place before the last, so
    the buffer stores up to `c` values in order and is never full. -/

namespace TinyWS

namespace CircularBuffer

variable {T : Type}

/-! ## The rest of the interface -/

def size (q : CircularBuffer T) : Nat :=
  if q.rear_ > q.front_ then q.rear_ - q.front_ else (q.capacity_ + 1) - (q.front_ - q.rear_)

def capacity (q : CircularBuffer T) : Nat := q.capacity_

def backIndex (q : CircularBuffer T) : Nat := if q.rear_ = 0 then q.capacity_ else q.rear_ - 1

/-- `back()`, behind its test of `empty()`. -/
def back (q : CircularBuffer T) : Option T := q.cell q.backIndex

/-- `push_back(value)` up to its test of `full()`. -/
def write (q : CircularBuffer T) (value : T) : CircularBuffer T :=
  { q with
    data_ := q.data_.set q.rear_ (some value)
    rear_ := (q.rear_ + 1) % (q.capacity_ + 1) }

theorem pushBack_eq (q : CircularBuffer T) (value : T) :
    q.pushBack value = if (q.write value).full then (q.write value).popFront else q.write value :=
  rfl

/-! ## The places of a lap -/

/-- An index that has gone around at most once. -/
theorem mod_lap {i m : Nat} (h : i < 2 * m) : i % m = if i < m then i else i - m := by
  split
  · next hlt => exact Nat.mod_eq_of_lt hlt
  · next hge => rw [Nat.mod_eq_sub_mod (by omega), Nat.mod_eq_of_lt (by omega)]

/-- The values `l` lie in the places from `front_` on, as far as these
    places are in the array of `c` cells. -/
structure Stores (c : Nat) (q : CircularBuffer T) (l : List T) : Prop where
  capacity_ : q.capacity_ = c + 1
  data_length : q.data_.length = c
  front_lt : q.front_ < c + 2
  rear_ : q.rear_ = (q.front_ + l.length) % (c + 2)
  length_le : l.length ≤ c + 1
  cell : ∀ k < l.length, (q.front_ + k) % (c + 2) < c →
    q.cell ((q.front_ + k) % (c + 2)) = l[k]?

theorem stores_new (c : Nat) : (new c : CircularBuffer T).Stores c [] := by
  constructor <;> simp [new]

namespace Stores

variable {c : Nat} {q : CircularBuffer T} {l : List T} (h : q.Stores c l)

include h

theorem rear_eq : q.rear_ =
    if q.front_ + l.length < c + 2 then q.front_ + l.length
    else q.front_ + l.length - (c + 2) := by
  have hfront := h.front_lt
  have hlen := h.length_le
  rw [h.rear_, mod_lap (by omega)]

theorem empty_iff : q.empty = true ↔ l = [] := by
  have hrear := h.rear_eq
  have hfront := h.front_lt
  have hlen := h.length_le
  rw [empty, beq_iff_eq, ← List.length_eq_zero_iff]
  split at hrear <;> omega

theorem full_iff : q.full = true ↔ l.length = c + 1 := by
  have hrear := h.rear_eq
  have hfront := h.front_lt
  have hlen := h.length_le
  rw [full, beq_iff_eq, h.capacity_, mod_lap (by split at hrear <;> omega)]
  split <;> split at hrear <;> omega

theorem size_eq : q.size = if l = [] then c + 2 else l.length := by
  have hrear := h.rear_eq
  have hfront := h.front_lt
  have hlen := h.length_le
  have hcapacity := h.capacity_
  by_cases hl : l = []
  · have hzero := List.length_eq_zero_iff.mpr hl
    rw [if_pos hl, size, if_neg (by split at hrear <;> omega)]
    split at hrear <;> omega
  · have hpos := List.length_pos_iff.mpr hl
    rw [if_neg hl, size]
    split <;> split at hrear <;> omega

theorem length_contents : q.contents.length = l.length := by
  have hrear := h.rear_eq
  have hfront := h.front_lt
  have hlen := h.length_le
  rw [contents, List.length_map, List.length_range, h.capacity_,
    mod_lap (by split at hrear <;> omega)]
  split <;> split at hrear <;> omega

theorem front_eq (hl : l ≠ []) (hindex : q.front_ < c) : q.front = l.head? := by
  have hmod : (q.front_ + 0) % (c + 2) = q.front_ := Nat.mod_eq_of_lt h.front_lt
  have hcell := h.cell 0 (List.length_pos_iff.mpr hl)
  rw [hmod] at hcell
  rw [front, hcell hindex, List.head?_eq_getElem?]

theorem backIndex_eq (hl : l ≠ []) : q.backIndex = (q.front_ + (l.length - 1)) % (c + 2) := by
  have hrear := h.rear_eq
  have hfront := h.front_lt
  have hlen := h.length_le
  have hcapacity := h.capacity_
  have hpos := List.length_pos_iff.mpr hl
  rw [backIndex, mod_lap (by omega)]
  split <;> split <;> split at hrear <;> omega

theorem back_eq (hl : l ≠ []) (hindex : q.backIndex < c) : q.back = l.getLast? := by
  have hpos := List.length_pos_iff.mpr hl
  rw [h.backIndex_eq hl] at hindex
  rw [back, h.backIndex_eq hl, h.cell (l.length - 1) (by omega) hindex,
    List.getLast?_eq_getElem?]

/-! ## Pushing and popping -/

/-- The oldest value goes. -/
theorem popFront (hl : l ≠ []) : q.popFront.Stores c l.tail := by
  have hpos := List.length_pos_iff.mpr hl
  have hstep (k : Nat) : ((q.front_ + 1) % (c + 2) + k) % (c + 2) =
      (q.front_ + (k + 1)) % (c + 2) := by
    rw [Nat.mod_add_mod, Nat.add_assoc, Nat.add_comm 1 k]
  have heq : q.popFront = { q with front_ := (q.front_ + 1) % (c + 2) } := by
    rw [CircularBuffer.popFront, h.capacity_]
  rw [heq]
  refine ⟨h.capacity_, h.data_length, Nat.mod_lt _ (by omega), ?_, ?_, fun k hk hindex => ?_⟩
  · show q.rear_ = ((q.front_ + 1) % (c + 2) + l.tail.length) % (c + 2)
    have hlen : l.tail.length + 1 = l.length := by
      rw [List.length_tail]
      omega
    rw [hstep, hlen, h.rear_]
  · have hlen := h.length_le
    rw [List.length_tail]
    omega
  · have hlen : k + 1 < l.length := by
      rw [List.length_tail] at hk
      omega
    have hindex' : ((q.front_ + 1) % (c + 2) + k) % (c + 2) < c := hindex
    show q.cell (((q.front_ + 1) % (c + 2) + k) % (c + 2)) = l.tail[k]?
    rw [hstep] at hindex' ⊢
    rw [h.cell (k + 1) hlen hindex', List.getElem?_tail]

/-- The new value lies where `rear_` was, if that is a cell. -/
theorem write (hroom : l.length ≤ c) (value : T) : (q.write value).Stores c (l ++ [value]) := by
  have hrear := h.rear_eq
  have hfront := h.front_lt
  have heq : q.write value =
      { q with
        data_ := q.data_.set q.rear_ (some value)
        rear_ := (q.rear_ + 1) % (c + 2) } := by
    rw [CircularBuffer.write, h.capacity_]
  rw [heq]
  refine ⟨h.capacity_, ?_, h.front_lt, ?_, ?_, fun k hk hindex => ?_⟩
  · show (q.data_.set q.rear_ (some value)).length = c
    rw [List.length_set, h.data_length]
  · show (q.rear_ + 1) % (c + 2) = (q.front_ + (l ++ [value]).length) % (c + 2)
    rw [h.rear_, Nat.mod_add_mod, List.length_append]
    rfl
  · rw [List.length_append]
    exact Nat.succ_le_succ hroom
  · have hindex' : (q.front_ + k) % (c + 2) < c := hindex
    show ((q.data_.set q.rear_ (some value))[(q.front_ + k) % (c + 2)]?).join =
      (l ++ [value])[k]?
    by_cases hlast : k = l.length
    · subst hlast
      rw [← h.rear_] at hindex' ⊢
      rw [List.getElem?_set_self (by rw [h.data_length]; exact hindex'),
        List.getElem?_append_right (Nat.le_refl _), Nat.sub_self]
      rfl
    · -- the values from before lie elsewhere
      have hlt : k < l.length := by
        rw [List.length_append] at hk
        have hone : [value].length = 1 := rfl
        omega
      have hne : q.rear_ ≠ (q.front_ + k) % (c + 2) := by
        rw [mod_lap (by omega)]
        split <;> split at hrear <;> omega
      rw [List.getElem?_set_ne hne, List.getElem?_append_left hlt]
      exact h.cell k hlt hindex'

end Stores

end CircularBuffer

/-! ## The queue it stands for -/

/-- A first-in-first-out queue for `c` values: the oldest one makes room. -/
def pushBounded {T : Type} (c : Nat) (l : List T) (value : T) : List T :=
  if l.length < c then l ++ [value] else (l ++ [value]).tail

/-- A buffer with the queue it stands for. -/
structure BoundedFifo (T : Type) where
  queue_ : CircularBuffer T
  stored : List T
  pushes : Nat

namespace BoundedFifo

variable {T : Type}

def start (c : Nat) : BoundedFifo T := ⟨CircularBuffer.new c, [], 0⟩

inductive Step (T : Type) where
  | pushBack (value : T)
  /-- `pop_front()` throws on an empty buffer. -/
  | popFront

def next (c : Nat) (s : BoundedFifo T) : Step T → BoundedFifo T
  | .pushBack value =>
      { queue_ := s.queue_.pushBack value
        stored := pushBounded c s.stored value
        pushes := s.pushes + 1 }
  | .popFront =>
      { s with
        queue_ := if s.queue_.empty then s.queue_ else s.queue_.popFront
        stored := s.stored.tail }

end BoundedFifo

/-- Any sequence of pushes and pops on a buffer made for `c` values. -/
def circularBuffer (T : Type) (c : Nat) : Machine (BoundedFifo T) (BoundedFifo.Step T) where
  guard := fun _ _ => True
  next := BoundedFifo.next c

namespace BoundedFifo

variable {T : Type}

/-- The buffer is a first-in-first-out queue for `c` values. -/
structure RefinesFifo (c : Nat) (s : BoundedFifo T) : Prop where
  pushIndex : s.queue_.rear_ < c
  frontIndex : s.stored ≠ [] → s.queue_.front_ < c
  backIndex : s.stored ≠ [] → s.queue_.backIndex < c
  empty : s.queue_.empty = true ↔ s.stored = []
  size : s.queue_.size = s.stored.length
  capacity : s.queue_.capacity = c
  full : s.queue_.full = true ↔ s.stored.length = c
  keeps : s.queue_.full = false → ∀ value : T,
    (s.queue_.pushBack value).contents.length = s.stored.length + 1
  front : s.stored ≠ [] → s.queue_.front = s.stored.head?
  back : s.stored ≠ [] → s.queue_.back = s.stored.getLast?

/-- What holds of the buffer instead. -/
structure Behind (c : Nat) (s : BoundedFifo T) : Prop where
  stores : s.queue_.Stores c s.stored
  length_le : s.stored.length ≤ c
  rear_ : s.queue_.rear_ = s.pushes % (c + 2)

theorem behind_start (c : Nat) : (start c : BoundedFifo T).Behind c :=
  ⟨CircularBuffer.stores_new c, Nat.zero_le _, (Nat.zero_mod _).symm⟩

/-- A value more, and the oldest one goes if there are `c` already. -/
theorem stores_pushBack {c : Nat} {q : CircularBuffer T} {l : List T} (h : q.Stores c l)
    (hlen : l.length ≤ c) (value : T) : (q.pushBack value).Stores c (pushBounded c l value) := by
  have hwrite := h.write hlen value
  have hfull := hwrite.full_iff
  rw [List.length_append] at hfull
  rw [CircularBuffer.pushBack_eq, pushBounded]
  by_cases hroom : l.length < c
  · have hnot : ¬ (q.write value).full = true := fun hf => by
      have heq := hfull.mp hf
      have hone : [value].length = 1 := rfl
      omega
    rw [if_pos hroom, if_neg hnot]
    exact hwrite
  · have hc : l.length = c := by omega
    rw [if_neg hroom, if_pos (hfull.mpr (by rw [hc]; rfl))]
    exact hwrite.popFront (by simp)

theorem length_pushBounded_le {c : Nat} {l : List T} (h : l.length ≤ c) (value : T) :
    (pushBounded c l value).length = min (l.length + 1) c := by
  unfold pushBounded
  split
  · rw [List.length_append]
    have hone : [value].length = 1 := rfl
    omega
  · rw [List.length_tail, List.length_append]
    have hone : [value].length = 1 := rfl
    omega

theorem rear_pushBack (q : CircularBuffer T) (value : T) :
    (q.pushBack value).rear_ = (q.rear_ + 1) % (q.capacity_ + 1) := by
  rw [CircularBuffer.pushBack_eq]
  split <;> rfl

theorem behind_next {c : Nat} {s : BoundedFifo T} (h : s.Behind c) (l : Step T) :
    (s.next c l).Behind c := by
  cases l with
  | pushBack value =>
    refine ⟨stores_pushBack h.stores h.length_le value, ?_, ?_⟩
    · show (pushBounded c s.stored value).length ≤ c
      rw [length_pushBounded_le h.length_le]
      exact Nat.min_le_right _ _
    · show (s.queue_.pushBack value).rear_ = (s.pushes + 1) % (c + 2)
      rw [rear_pushBack, h.stores.capacity_, h.rear_, Nat.mod_add_mod]
  | popFront =>
    have hlen := h.length_le
    by_cases hempty : s.queue_.empty = true
    · -- the exception leaves everything as it is
      have hnil := h.stores.empty_iff.mp hempty
      have hsame : s.next c .popFront = s := by
        have htail : s.stored.tail = s.stored := by
          rw [hnil]
          rfl
        rw [next, if_pos hempty, htail]
      rw [hsame]
      exact h
    · have hstores := h.stores.popFront fun hnil => hempty (h.stores.empty_iff.mpr hnil)
      have hnext : s.next c .popFront =
          { s with queue_ := s.queue_.popFront, stored := s.stored.tail } := by
        rw [next, if_neg hempty]
      rw [hnext]
      refine ⟨hstores, ?_, h.rear_⟩
      show s.stored.tail.length ≤ c
      rw [List.length_tail]
      omega

theorem behind_run (c : Nat) (ls : List (Step T)) :
    ((circularBuffer T c).run (start c) ls).Behind c :=
  (circularBuffer T c).invariant_run (Behind c) (fun _ _ h _ => behind_next h _)
    (behind_start c) ((circularBuffer T c).along_true _ ls)

theorem Behind.full_eq {c : Nat} {s : BoundedFifo T} (h : s.Behind c) :
    s.queue_.full = false := by
  have hlen := h.length_le
  rw [Bool.eq_false_iff]
  intro hfull
  have heq := h.stores.full_iff.mp hfull
  omega

/-- **The buffer is never a queue for the values it was made for**: for
    every capacity and after every sequence of pushes and pops, `capacity()`
    says one more.  What is stored is what a queue for `c` values stores,
    and `empty()` is right; but an empty buffer has size `c + 2`, a buffer
    with `c` values is not full and drops one when the next is pushed, the
    index of a push runs through `c + 2` places, and `front()` and `back()`
    are right where their index is in the array. -/
theorem circularBuffer_not_refines (T : Type) (c : Nat) (ls : List (Step T)) :
    let s := (circularBuffer T c).run (start c) ls
    ¬ s.RefinesFifo c ∧ s.queue_.capacity = c + 1 ∧
      (s.queue_.empty = true ↔ s.stored = []) ∧
      s.queue_.size = (if s.stored = [] then c + 2 else s.stored.length) ∧
      s.queue_.full = false ∧
      (∀ value : T, (s.queue_.pushBack value).contents.length = min (s.stored.length + 1) c) ∧
      s.queue_.rear_ = s.pushes % (c + 2) ∧
      (s.stored ≠ [] → s.queue_.front_ < c → s.queue_.front = s.stored.head?) ∧
      (s.stored ≠ [] → s.queue_.backIndex < c → s.queue_.back = s.stored.getLast?) := by
  have h := behind_run c ls
  refine ⟨fun hrefines => ?_, h.stores.capacity_, h.stores.empty_iff, h.stores.size_eq,
    h.full_eq, fun value => ?_, h.rear_, h.stores.front_eq, h.stores.back_eq⟩
  · have hcapacity := hrefines.capacity
    rw [CircularBuffer.capacity, h.stores.capacity_] at hcapacity
    omega
  · rw [(stores_pushBack h.stores h.length_le value).length_contents,
      length_pushBounded_le h.length_le]

/-- A buffer made for one value: empty, with that value, and with the next
    one pushed as well. -/
theorem not_circularBuffer_refines :
    let s (ls : List (Step Nat)) := (circularBuffer Nat 1).run (start 1) ls
    (s []).queue_.size = 3 ∧ (s []).queue_.capacity = 2 ∧
      ((s [.pushBack 7]).stored = [7] ∧ (s [.pushBack 7]).queue_.full = false ∧
        (s [.pushBack 7]).queue_.rear_ = 1) ∧
      ((s [.pushBack 7, .pushBack 8]).stored = [8] ∧
        (s [.pushBack 7, .pushBack 8]).queue_.front = none) ∧
      ¬ ∀ c > 0, ∀ ls : List (Step Nat),
        ((circularBuffer Nat c).run (start c) ls).RefinesFifo c := by
  refine ⟨by decide, by decide, by decide, by decide, fun h => ?_⟩
  have hcapacity := (h 1 Nat.one_pos []).capacity
  exact absurd hcapacity (by decide)

end BoundedFifo

end TinyWS
