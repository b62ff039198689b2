import TinyWS.Net.Buffer
import Mathlib.Tactic.Common

/-! # Reading from a Descriptor

    `readFd` reads into the writable bytes and into an array on the stack.
    When both are full it calls itself and adds up what the calls return,
    and a call that failed returns -1.  So a chain of full reads that ends
    in an error is reported one byte short, and only the first call can
    report an error at all. -/

namespace TinyWS

/-- What a call of `readv` does: it stores bytes (none at the end of the
    stream), or it returns -1. -/
inductive Readv where
  | bytes (data : Bytes)
  | error (errno : Nat)
  deriving DecidableEq

namespace Readv

def data : Readv → Bytes
  | .bytes data => data
  | .error _ => []

def failed : Readv → Bool
  | .bytes _ => false
  | .error _ => true

/-- The bytes of a chain of calls, in order. -/
def received (outcomes : List Readv) : Bytes := outcomes.flatMap data

/-- The last call of the chain returns -1. -/
def endsInError (outcomes : List Readv) : Bool := outcomes.getLast?.any failed

@[simp] theorem received_nil : received [] = [] := rfl

@[simp] theorem received_cons (outcome : Readv) (outcomes : List Readv) :
    received (outcome :: outcomes) = outcome.data ++ received outcomes := rfl

@[simp] theorem endsInError_cons_cons (outcome next : Readv) (outcomes : List Readv) :
    endsInError (outcome :: next :: outcomes) = endsInError (next :: outcomes) := by
  simp [endsInError]

end Readv

/-- What `readFd` leaves behind: the buffer, the result, and the error
    number if it set one. -/
structure ReadFd where
  buffer : Buffer
  n : Int
  savedErrno : Option Nat

namespace Buffer

/-- `sizeof(extrabuf)`. -/
def kExtraSize : Nat := 65536

/-- `writerIndex_ = buffer_.size()`. -/
def writeAll (b : Buffer) : Buffer :=
  { b with
    writerIndex_ := b.buffer_.length
    reader_le_writer := Nat.le_trans b.reader_le_writer b.writer_le_size
    writer_le_size := Nat.le_refl _ }

/-- What one `readv` with these bytes does to the buffer. -/
def receive (b : Buffer) (data : Bytes) : Buffer :=
  if h : data.length ≤ b.writableBytes then
    (b.fill data h).hasWritten data.length (by rw [writableBytes_fill]; exact h)
  else
    -- what `readv` stored in `extrabuf` is appended
    (b.fill (data.take b.writableBytes) (by rw [List.length_take]; exact Nat.min_le_left _ _)
      ).writeAll.append (data.drop b.writableBytes)

/-- `readFd(fd, savedErrno)`, with what the calls of `readv` do; there is
    no result while one of them has not returned. -/
def readFd (b : Buffer) : List Readv → Option ReadFd
  | [] => none
  | .error errno :: _ => some ⟨b, -1, some errno⟩
  | .bytes data :: outcomes =>
      if data.length ≤ b.writableBytes then some ⟨b.receive data, data.length, none⟩
      else if data.length = b.writableBytes + kExtraSize then
        ((b.receive data).readFd outcomes).map fun r => { r with n := data.length + r.n }
      else some ⟨b.receive data, data.length, none⟩

/-- What the calls of `readv` in one `readFd` may do: none stores more than
    there is room for, and all but the last fill that room. -/
def Chain (b : Buffer) : List Readv → Prop
  | [] => False
  | .error _ :: outcomes => outcomes = []
  | .bytes data :: outcomes =>
      data.length ≤ b.writableBytes + kExtraSize ∧
        if data.length = b.writableBytes + kExtraSize then (b.receive data).Chain outcomes
        else outcomes = []

instance decidableChain : ∀ (b : Buffer) (outcomes : List Readv), Decidable (b.Chain outcomes)
  | _, [] => inferInstanceAs (Decidable False)
  | _, .error _ :: outcomes => inferInstanceAs (Decidable (outcomes = []))
  | b, .bytes data :: outcomes =>
      have := decidableChain (b.receive data) outcomes
      inferInstanceAs (Decidable (data.length ≤ b.writableBytes + kExtraSize ∧
        if data.length = b.writableBytes + kExtraSize then (b.receive data).Chain outcomes
        else outcomes = []))

/-! ## The specification -/

/-- `readFd` reports what it read: -1 only if it read nothing, otherwise
    the number of bytes, and these are behind what was readable. -/
structure Reports (b : Buffer) (outcomes : List Readv) (r : ReadFd) : Prop where
  error : r.n = -1 → Readv.received outcomes = []
  count : r.n ≠ -1 → r.n = (Readv.received outcomes).length
  readable : r.buffer.toString = b.toString ++ Readv.received outcomes

/-! ## One read -/

theorem toString_writeAll_fill (b : Buffer) (data : Bytes) (h : data.length ≤ b.writableBytes)
    (hfull : data.length = b.writableBytes) :
    (b.fill data h).writeAll.toString = b.toString ++ data := by
  have hroom : data.length ≤ (b.fill data h).writableBytes := by
    rw [writableBytes_fill]
    exact h
  have hlast : (b.fill data h).buffer_.length = b.writerIndex_ + data.length := by
    have hsize := (b.fill data h).writer_le_size
    have heq := b.writableBytes_fill data h
    have hwriter : (b.fill data h).writerIndex_ = b.writerIndex_ := rfl
    unfold writableBytes at heq hfull
    omega
  have hsame : (b.fill data h).writeAll.toString =
      ((b.fill data h).hasWritten data.length hroom).toString := by
    simp only [toString, writeAll, hasWritten, hlast]
    rfl
  rw [hsame, toString_hasWritten_fill]

/-- Wherever `readv` stored them, the bytes come last. -/
@[simp] theorem toString_receive (b : Buffer) (data : Bytes) :
    (b.receive data).toString = b.toString ++ data := by
  unfold receive
  split
  · exact toString_hasWritten_fill b data _ _
  · next h =>
    have hlen : (data.take b.writableBytes).length = b.writableBytes := by
      rw [List.length_take]
      omega
    rw [toString_append, toString_writeAll_fill b _ (Nat.le_of_eq hlen) hlen, List.append_assoc,
      List.take_append_drop]

/-! ## A chain of reads -/

/-- An answer that does not fill the room is the last one. -/
theorem readFd_last (b : Buffer) (data : Bytes) (outcomes : List Readv)
    (hlast : data.length ≠ b.writableBytes + kExtraSize) :
    b.readFd (.bytes data :: outcomes) = some ⟨b.receive data, data.length, none⟩ := by
  simp only [readFd, if_neg hlast, ite_self]

theorem readFd_full (b : Buffer) (data : Bytes) (outcomes : List Readv)
    (hfull : data.length = b.writableBytes + kExtraSize) :
    b.readFd (.bytes data :: outcomes) =
      ((b.receive data).readFd outcomes).map fun r => { r with n := data.length + r.n } := by
  have hextra : ¬ data.length ≤ b.writableBytes := by
    unfold kExtraSize at hfull
    omega
  simp only [readFd, if_neg hextra, if_pos hfull]

/-- The result of every chain: the number of bytes, less one if the last
    call failed. -/
theorem readFd_spec {b : Buffer} {outcomes : List Readv} (h : b.Chain outcomes) :
    ∃ r, b.readFd outcomes = some r ∧
      r.buffer.toString = b.toString ++ Readv.received outcomes ∧
      r.n = (Readv.received outcomes).length - if Readv.endsInError outcomes then 1 else 0 := by
  -- induction on the calls, each with the buffer the one before it left
  induction outcomes generalizing b with
  | nil => exact h.elim
  | cons outcome outcomes ih =>
    cases outcome with
    | error errno =>
      have hlast : outcomes = [] := h
      subst hlast
      exact ⟨⟨b, -1, some errno⟩, rfl, by simp [Readv.data], by
        simp [Readv.data, Readv.endsInError, Readv.failed]⟩
    | bytes data =>
      obtain ⟨-, hrest⟩ := h
      by_cases hfull : data.length = b.writableBytes + kExtraSize
      · rw [if_pos hfull] at hrest
        obtain ⟨r, hr, hbuffer, hn⟩ := ih hrest
        refine ⟨{ r with n := data.length + r.n }, ?_, ?_, ?_⟩
        · rw [readFd_full b data outcomes hfull, hr]
          rfl
        · rw [hbuffer, toString_receive, Readv.received_cons, List.append_assoc]
          rfl
        · -- the chain goes on, so its last call is that of the rest
          cases outcomes with
          | nil => exact hrest.elim
          | cons next outcomes =>
            rw [Readv.endsInError_cons_cons, hn, Readv.received_cons (.bytes data)]
            simp only [Readv.data, List.length_append]
            omega
      · rw [if_neg hfull] at hrest
        subst hrest
        refine ⟨_, readFd_last b data [] hfull, ?_, ?_⟩
        · simp [Readv.data]
        · simp [Readv.data, Readv.endsInError, Readv.failed]

/-- A chain of more than one call has read something. -/
theorem Chain.received_pos {b : Buffer} {outcomes : List Readv} (h : b.Chain outcomes)
    (hlong : outcomes.length ≠ 1) : 0 < (Readv.received outcomes).length := by
  cases outcomes with
  | nil => exact h.elim
  | cons outcome outcomes =>
    cases outcome with
    | error errno =>
      have hlast : outcomes = [] := h
      exact absurd (by rw [hlast]; rfl) hlong
    | bytes data =>
      obtain ⟨-, hrest⟩ := h
      have hfull : data.length = b.writableBytes + kExtraSize := by
        by_contra hne
        rw [if_neg hne] at hrest
        exact hlong (by rw [hrest]; rfl)
      rw [Readv.received_cons, List.length_append]
      simp only [Readv.data, hfull, kExtraSize]
      omega

/-- A short read behind a full one. -/
theorem chain_full_bytes {b : Buffer} {data more : Bytes}
    (hfull : data.length = b.writableBytes + kExtraSize) (hmore : more.length < kExtraSize) :
    b.Chain [.bytes data, .bytes more] := by
  refine ⟨Nat.le_of_eq hfull, ?_⟩
  rw [if_pos hfull]
  refine ⟨by omega, ?_⟩
  rw [if_neg (by omega)]

theorem chain_full_error {b : Buffer} {data : Bytes}
    (hfull : data.length = b.writableBytes + kExtraSize) (errno : Nat) :
    b.Chain [.bytes data, .error errno] := by
  refine ⟨Nat.le_of_eq hfull, ?_⟩
  rw [if_pos hfull]
  rfl

/-- **What `readFd` reports is right exactly when it does not end in an
    error behind a full read**: it returns for every buffer and every chain
    of calls of `readv`, and what it returns is right if and only if the
    last call of the chain does not fail, or is the only one. -/
theorem readFd_reports_iff (b : Buffer) (outcomes : List Readv) (h : b.Chain outcomes) :
    ∃ r, b.readFd outcomes = some r ∧
      (b.Reports outcomes r ↔ (Readv.endsInError outcomes = true → outcomes.length = 1)) := by
  obtain ⟨r, hr, hbuffer, hn⟩ := readFd_spec h
  refine ⟨r, hr, fun hreports herror => ?_, fun hends => ?_⟩
  · by_contra hlong
    have hpos := h.received_pos hlong
    rw [herror, if_pos rfl] at hn
    have hcount := hreports.count (by omega)
    omega
  · by_cases herror : Readv.endsInError outcomes = true
    · -- a single call, which failed
      have hone : Readv.received outcomes = [] := by
        obtain ⟨outcome, heq⟩ := List.length_eq_one_iff.mp (hends herror)
        subst heq
        cases outcome with
        | bytes data => exact absurd herror (by simp [Readv.endsInError, Readv.failed])
        | error errno => rfl
      refine ⟨fun _ => hone, fun hne => ?_, hbuffer⟩
      rw [herror, hone] at hn
      exact absurd hn hne
    · rw [if_neg herror] at hn
      refine ⟨fun hneg => ?_, fun _ => by omega, hbuffer⟩
      omega

/-- The room is filled, and seven bytes come behind it. -/
theorem readFd_reports_iff_full :
    let b := new.append (bytes "GET / HTTP/1.1")
    let outcomes : List Readv :=
      [.bytes (List.replicate (b.writableBytes + kExtraSize) 97), .bytes (bytes "Host: a")]
    ∃ r, b.readFd outcomes = some r ∧
      (b.Reports outcomes r ↔ (Readv.endsInError outcomes = true → outcomes.length = 1)) :=
  readFd_reports_iff _ _ (chain_full_bytes List.length_replicate (by decide))

/-- The room of a new buffer is filled, and the next `readv` would block:
    one byte is missing from the count. -/
theorem not_readFd_reports :
    ¬ ∀ (b : Buffer) (outcomes : List Readv), b.Chain outcomes →
      ∃ r, b.readFd outcomes = some r ∧ b.Reports outcomes r := by
  intro h
  obtain ⟨data, hfull⟩ : ∃ data : Bytes, data.length = new.writableBytes + kExtraSize :=
    ⟨List.replicate _ 7, List.length_replicate⟩
  obtain ⟨r, hr, hreports⟩ := h new _ (chain_full_error hfull 11)
  rw [readFd_full new _ _ hfull] at hr
  obtain rfl := Option.some.inj hr
  have hmany : 0 < data.length := by
    rw [hfull, kExtraSize]
    omega
  have hcount := hreports.count (by
    show (data.length : Int) + -1 ≠ -1
    omega)
  simp only [Readv.received_cons, Readv.data, Readv.received_nil, List.append_nil] at hcount
  omega

end Buffer

end TinyWS
