import TinyWS.Framework.Machine
import TinyWS.Net.Buffer
import Mathlib.Logic.Function.Basic

/-! # Buffers are Byte Queues

    A client that keeps the documented bounds sees a byte queue: bytes go
    in at the back (or, with `prepend`, at the front) and come out at the
    front, whatever the buffer does with its indices.  The byte queue is
    stated here on its own, and the buffers are shown to refine it.

    Several buffers are watched at once, since `swap` exchanges two.  The
    asserts are kept as data.  Sizes are far below 2^64, so nothing wraps. -/

namespace TinyWS

universe u

/-- One call on one buffer, or on two. -/
inductive BufferStep (ι : Type u) where
  | append (i : ι) (data : Bytes)
  | prepend (i : ι) (data : Bytes)
  | retrieve (i : ι) (len : Nat)
  /-- `end` is an offset from `peek()`. -/
  | retrieveUntil (i : ι) (end_ : Nat)
  | retrieveAll (i : ι)
  | retrieveAsString (i : ι) (len : Nat)
  | ensureWritableBytes (i : ι) (len : Nat)
  /-- The client writes `data` to `beginWrite()` and calls `hasWritten`. -/
  | hasWritten (i : ι) (data : Bytes)
  | swap (i j : ι)
  | shrink (i : ι) (reserve : Nat)

/-! ## The abstract queues -/

/-- What the buffers are for. -/
structure ByteQueues (ι : Type u) where
  contents : ι → Bytes
  /-- History: the strings handed out. -/
  returned : List Bytes

namespace ByteQueues

variable {ι : Type u} [DecidableEq ι]

def new : ByteQueues ι where
  contents _ := []
  returned := []

def set (q : ByteQueues ι) (i : ι) (xs : Bytes) : ByteQueues ι :=
  { q with contents := Function.update q.contents i xs }

def next (q : ByteQueues ι) : BufferStep ι → ByteQueues ι
  | .append i data | .hasWritten i data => q.set i (q.contents i ++ data)
  | .prepend i data => q.set i (data ++ q.contents i)
  | .retrieve i len | .retrieveUntil i len => q.set i ((q.contents i).drop len)
  | .retrieveAll i | .shrink i _ => q.set i []
  | .retrieveAsString i len =>
      { q.set i ((q.contents i).drop len) with
        returned := q.returned ++ [(q.contents i).take len] }
  | .ensureWritableBytes _ _ => q
  | .swap i j => (q.set i (q.contents j)).set j (q.contents i)

/-- No more is taken out than is in. -/
def guard (q : ByteQueues ι) : BufferStep ι → Prop
  | .retrieve i len | .retrieveUntil i len | .retrieveAsString i len =>
      len ≤ (q.contents i).length
  | _ => True

end ByteQueues

def byteQueues (ι : Type u) [DecidableEq ι] : Machine (ByteQueues ι) (BufferStep ι) where
  guard := ByteQueues.guard
  next := ByteQueues.next

/-! ## The asserts -/

namespace Buffer

/-- The asserts of the constructor. -/
def newAsserts : Bool :=
  new.readableBytes == 0 && new.writableBytes == kInitialSize &&
    new.prependableBytes == kCheapPrepend

def retrieveAsserts (b : Buffer) (len : Nat) : Bool := len ≤ b.readableBytes

def retrieveUntilAsserts (b : Buffer) (end_ : Nat) : Bool :=
  end_ ≤ b.readableBytes && b.retrieveAsserts end_

def retrieveAsStringAsserts (b : Buffer) (len : Nat) : Bool :=
  len ≤ b.readableBytes && b.retrieveAsserts len

def prependAsserts (b : Buffer) (len : Nat) : Bool := len ≤ b.prependableBytes

/-- The asserts of the branch that moves the readable bytes. -/
def makeSpaceAsserts (b : Buffer) (len : Nat) (hfull : b.writableBytes < len) : Bool :=
  if b.writableBytes + b.prependableBytes < len + kCheapPrepend then true
  else kCheapPrepend < b.readerIndex_ && b.readableBytes == (b.makeSpace len hfull).readableBytes

def ensureWritableBytesAsserts (b : Buffer) (len : Nat) : Bool :=
  (if h : b.writableBytes < len then b.makeSpaceAsserts len h else true) &&
    len ≤ (b.ensureWritableBytes len).writableBytes

def shrinkAsserts (b : Buffer) (reserve : Nat) : Bool :=
  newAsserts && new.ensureWritableBytesAsserts (b.readableBytes + reserve)

/-- Bytes are moved only when some were read before: what is free and
    does not lie behind `writerIndex_` lies in front of `readerIndex_`. -/
theorem makeSpaceAsserts_eq_true (b : Buffer) (len : Nat) (hfull : b.writableBytes < len) :
    b.makeSpaceAsserts len hfull = true := by
  unfold makeSpaceAsserts
  split
  · rfl
  · next hfree =>
    have hread : kCheapPrepend < b.readerIndex_ := by
      unfold prependableBytes at hfree
      omega
    have hsame : b.readableBytes = (b.makeSpace len hfull).readableBytes := by
      rw [← length_toString, ← length_toString, (b.makeSpace_spec len hfull).1]
    rw [Bool.and_eq_true]
    exact ⟨decide_eq_true hread, beq_iff_eq.mpr hsame⟩

theorem ensureWritableBytesAsserts_eq_true (b : Buffer) (len : Nat) :
    b.ensureWritableBytesAsserts len = true := by
  unfold ensureWritableBytesAsserts
  rw [Bool.and_eq_true]
  refine ⟨?_, decide_eq_true (b.ensureWritableBytes_spec len).2⟩
  split
  · next h => exact b.makeSpaceAsserts_eq_true len h
  · rfl

theorem newAsserts_eq_true : newAsserts = true := by
  simp [newAsserts, readableBytes, writableBytes, prependableBytes, new]

end Buffer

/-! ## The buffers -/

/-- A family of buffers. -/
structure Buffers (ι : Type u) where
  buffer : ι → Buffer
  /-- History: the strings `retrieveAsString` returned. -/
  returned : List Bytes
  assertsHeld : Bool

namespace Buffers

variable {ι : Type u} [DecidableEq ι]

def new : Buffers ι where
  buffer _ := Buffer.new
  returned := []
  assertsHeld := true

/-- The buffer `i` after a call whose asserts are `asserts`. -/
def set (s : Buffers ι) (i : ι) (asserts : Bool) (b : Buffer) : Buffers ι :=
  { s with
    buffer := Function.update s.buffer i b
    assertsHeld := s.assertsHeld && asserts }

def next (s : Buffers ι) : BufferStep ι → Buffers ι
  | .append i data =>
      s.set i ((s.buffer i).ensureWritableBytesAsserts data.length) ((s.buffer i).append data)
  | .prepend i data =>
      if h : data.length ≤ (s.buffer i).prependableBytes then
        s.set i ((s.buffer i).prependAsserts data.length) ((s.buffer i).prepend data h)
      else
        { s with assertsHeld := false }
  | .retrieve i len => s.set i ((s.buffer i).retrieveAsserts len) ((s.buffer i).retrieve len)
  | .retrieveUntil i end_ =>
      s.set i ((s.buffer i).retrieveUntilAsserts end_) ((s.buffer i).retrieveUntil end_)
  | .retrieveAll i => s.set i true (s.buffer i).retrieveAll
  | .retrieveAsString i len =>
      let result := (s.buffer i).retrieveAsString len
      { s.set i ((s.buffer i).retrieveAsStringAsserts len) result.2 with
        returned := s.returned ++ [result.1] }
  | .ensureWritableBytes i len =>
      s.set i ((s.buffer i).ensureWritableBytesAsserts len) ((s.buffer i).ensureWritableBytes len)
  | .hasWritten i data =>
      if h : data.length ≤ (s.buffer i).writableBytes then
        s.set i true (((s.buffer i).fill data h).hasWritten data.length
          (by rw [Buffer.writableBytes_fill]; exact h))
      else
        s
  | .swap i j => (s.set i true (s.buffer j)).set j true (s.buffer i)
  | .shrink i reserve =>
      s.set i ((s.buffer i).shrinkAsserts reserve) ((s.buffer i).shrink reserve)

/-- The bounds a client has to keep. -/
def guard (s : Buffers ι) : BufferStep ι → Prop
  | .prepend i data => data.length ≤ (s.buffer i).prependableBytes
  | .retrieve i len | .retrieveUntil i len | .retrieveAsString i len =>
      len ≤ (s.buffer i).readableBytes
  | .hasWritten i data => data.length ≤ (s.buffer i).writableBytes
  | .append _ _ | .retrieveAll _ | .ensureWritableBytes _ _ | .swap _ _ | .shrink _ _ => True

instance (s : Buffers ι) : DecidablePred s.guard
  | .prepend i data => inferInstanceAs (Decidable (data.length ≤ (s.buffer i).prependableBytes))
  | .retrieve i len | .retrieveUntil i len | .retrieveAsString i len =>
      inferInstanceAs (Decidable (len ≤ (s.buffer i).readableBytes))
  | .hasWritten i data => inferInstanceAs (Decidable (data.length ≤ (s.buffer i).writableBytes))
  | .append _ _ | .retrieveAll _ | .ensureWritableBytes _ _ | .swap _ _ | .shrink _ _ =>
      isTrue trivial

end Buffers

/-- Any sequence of calls that keep the bounds. -/
def buffers (ι : Type u) [DecidableEq ι] : Machine (Buffers ι) (BufferStep ι) where
  guard := Buffers.guard
  next := Buffers.next

instance (ι : Type u) [DecidableEq ι] (s : Buffers ι) (l : BufferStep ι) :
    Decidable ((buffers ι).guard s l) :=
  inferInstanceAs (Decidable (s.guard l))

namespace Buffers

variable {ι : Type u} [DecidableEq ι]

/-! ## The refinement -/

/-- Every buffer holds what its queue holds, and no assert has failed. -/
structure Represents (s : Buffers ι) (q : ByteQueues ι) : Prop where
  contents : ∀ i, (s.buffer i).toString = q.contents i
  returned : s.returned = q.returned
  asserts : s.assertsHeld = true

omit [DecidableEq ι] in
theorem represents_new : (new : Buffers ι).Represents ByteQueues.new :=
  ⟨fun _ => Buffer.toString_new, rfl, rfl⟩

/-- One buffer and its queue change, in the same way. -/
theorem Represents.set {s : Buffers ι} {q : ByteQueues ι} (h : s.Represents q) (i : ι)
    {asserts : Bool} {b : Buffer} {xs : Bytes} (hasserts : asserts = true)
    (hxs : b.toString = xs) : (s.set i asserts b).Represents (q.set i xs) := by
  refine ⟨fun k => ?_, h.returned, ?_⟩
  · show (Function.update s.buffer i b k).toString = Function.update q.contents i xs k
    by_cases hk : k = i
    · subst hk
      rw [Function.update_self, Function.update_self, hxs]
    · rw [Function.update_of_ne hk, Function.update_of_ne hk, h.contents k]
  · show (s.assertsHeld && asserts) = true
    rw [h.asserts, hasserts]
    rfl

omit [DecidableEq ι] in
theorem length_contents {s : Buffers ι} {q : ByteQueues ι} (h : s.Represents q) (i : ι) :
    (q.contents i).length = (s.buffer i).readableBytes := by
  rw [← h.contents i, Buffer.length_toString]

/-- What an operation leaves as it is. -/
theorem Represents.refl_set {s : Buffers ι} {q : ByteQueues ι} (h : s.Represents q) (i : ι)
    {asserts : Bool} {b : Buffer} (hasserts : asserts = true)
    (hsame : b.toString = (s.buffer i).toString) : (s.set i asserts b).Represents q := by
  have hset := h.set i hasserts (hsame.trans (h.contents i))
  rw [ByteQueues.set, Function.update_eq_self] at hset
  exact hset

/-- **Step**: every call that keeps its bounds does to the buffers what it
    does to the queues. -/
theorem represents_next {s : Buffers ι} {q : ByteQueues ι} (h : s.Represents q)
    {l : BufferStep ι} (hguard : s.guard l) : (s.next l).Represents (q.next l) := by
  cases l with
  | append i data =>
    apply h.set i (Buffer.ensureWritableBytesAsserts_eq_true _ _)
    rw [Buffer.toString_append, h.contents i]
  | prepend i data =>
    -- the guard is the assertion of `prepend`
    have hroom : data.length ≤ (s.buffer i).prependableBytes := hguard
    have hnext : s.next (.prepend i data) =
        s.set i ((s.buffer i).prependAsserts data.length) ((s.buffer i).prepend data hroom) := by
      simp only [next, hroom, dite_true]
    rw [hnext]
    apply h.set i (decide_eq_true hroom)
    rw [Buffer.toString_prepend, h.contents i]
  | retrieve i len =>
    apply h.set i (decide_eq_true hguard)
    rw [Buffer.toString_retrieve, h.contents i]
  | retrieveUntil i end_ =>
    apply h.set i (Bool.and_eq_true_iff.mpr ⟨decide_eq_true hguard, decide_eq_true hguard⟩)
    rw [Buffer.toString_retrieveUntil, h.contents i]
  | retrieveAll i => exact h.set i rfl (Buffer.toString_retrieveAll _)
  | retrieveAsString i len =>
    -- what is returned is compared as well
    have hset := h.set i
      (Bool.and_eq_true_iff.mpr ⟨decide_eq_true hguard, decide_eq_true hguard⟩ :
        (s.buffer i).retrieveAsStringAsserts len = true)
      ((Buffer.toString_retrieve (s.buffer i) len).trans (by rw [h.contents i]))
    refine ⟨hset.contents, ?_, hset.asserts⟩
    show s.returned ++ [(s.buffer i).toString.take len] =
      q.returned ++ [(q.contents i).take len]
    rw [h.returned, h.contents i]
  | ensureWritableBytes i len =>
    exact h.refl_set i (Buffer.ensureWritableBytesAsserts_eq_true _ _)
      (Buffer.ensureWritableBytes_spec _ len).1
  | hasWritten i data =>
    have hroom : data.length ≤ (s.buffer i).writableBytes := hguard
    have hnext : s.next (.hasWritten i data) =
        s.set i true (((s.buffer i).fill data hroom).hasWritten data.length
          (by rw [Buffer.writableBytes_fill]; exact hroom)) := by
      simp only [next, hroom, dite_true]
    rw [hnext]
    apply h.set i rfl
    rw [Buffer.toString_hasWritten_fill, h.contents i]
  | swap i j => exact (h.set i rfl (h.contents j)).set j rfl (h.contents i)
  | shrink i reserve =>
    exact h.set i (Bool.and_eq_true_iff.mpr ⟨Buffer.newAsserts_eq_true,
      Buffer.ensureWritableBytesAsserts_eq_true _ _⟩) (Buffer.toString_shrink _ reserve)

omit [DecidableEq ι] in
/-- A call that keeps its bounds takes no more than there is. -/
theorem guard_of_represents {s : Buffers ι} {q : ByteQueues ι} (h : s.Represents q)
    {l : BufferStep ι} (hguard : s.guard l) : q.guard l := by
  cases l with
  | retrieve i len | retrieveUntil i len | retrieveAsString i len =>
    show len ≤ (q.contents i).length
    rw [length_contents h i]
    exact hguard
  | append | prepend | retrieveAll | ensureWritableBytes | hasWritten | swap | shrink => trivial

/-- **Buffers refine byte queues**: over every sequence of calls that keep
    their bounds, the indices stay in order, no assert fails, room asked
    for is there, and the readable bytes are those of the queues. -/
theorem buffers_refine_byteQueues (ι : Type u) [DecidableEq ι] (steps : List (BufferStep ι))
    (hvalid : (buffers ι).Valid new steps) :
    let s := (buffers ι).run new steps
    let q := (byteQueues ι).run ByteQueues.new steps
    (byteQueues ι).Valid ByteQueues.new steps ∧ s.assertsHeld = true ∧
      s.returned = q.returned ∧
      ∀ i, (s.buffer i).toString = q.contents i ∧
        (s.buffer i).readerIndex_ ≤ (s.buffer i).writerIndex_ ∧
        (s.buffer i).writerIndex_ ≤ (s.buffer i).buffer_.length ∧
        ∀ len, len ≤ ((s.buffer i).ensureWritableBytes len).writableBytes ∧
          ((s.buffer i).ensureWritableBytes len).toString = (s.buffer i).toString := by
  obtain ⟨hqueues, hend⟩ := (buffers ι).simulation_run (byteQueues ι) Represents
    (fun s q l h hl => ⟨guard_of_represents h hl, represents_next h hl⟩) represents_new hvalid
  refine ⟨hqueues, hend.asserts, hend.returned, fun i => ⟨hend.contents i, ?_, ?_, fun len => ?_⟩⟩
  · exact ((buffers ι).run new steps |>.buffer i).reader_le_writer
  · exact ((buffers ι).run new steps |>.buffer i).writer_le_size
  · exact And.comm.mp (Buffer.ensureWritableBytes_spec _ len)

/-- Two buffers change places after a `prepend` into the reserved bytes,
    and one byte in front of them is enough for the compaction. -/
theorem buffers_refine_byteQueues_swap :
    let steps : List (BufferStep Bool) :=
      [.append true [1, 2, 3], .prepend true [0], .swap true false, .retrieve false 2,
        .hasWritten false [4], .ensureWritableBytes false 1021, .retrieveAsString false 2,
        .shrink false 5]
    ((buffers Bool).run new steps).returned = [[2, 3]] := by
  intro steps
  rw [(buffers_refine_byteQueues Bool steps (by decide +kernel)).2.2.1]
  rfl

end Buffers

end TinyWS
