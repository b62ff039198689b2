import TinyWS.Framework.Lines

/-! # Buffer

    The byte buffer behind every connection:

    ```
    +-------------------+------------------+------------------+
    | prependable bytes |  readable bytes  |  writable bytes  |
    +-------------------+------------------+------------------+
    0      <=      readerIndex_   <=   writerIndex_    <=    size
    ```

    The index order is a field of the structure, so every operation
    proves that it keeps it.  A client sees only the readable bytes
    (`toString`); the second half of the file states each operation in
    those terms, and no later module looks at the indices. -/

namespace TinyWS

/-- A byte string (`std::string`, `std::vector<char>`). -/
abbrev Bytes : Type := List UInt8

/-- The bytes of a string literal. -/
def bytes (s : String) : Bytes := s.toList.map fun c => UInt8.ofNat c.toNat

/-- Carriage return and line feed, the two bytes of `Buffer::kCRLF`. -/
def cr : UInt8 := 13

def lf : UInt8 := 10

theorem cr_ne_lf : cr ≠ lf := by decide

/-! ## Vector operations -/

/-- `std::vector::resize`: new elements are zero. -/
def resize (xs : Bytes) (n : Nat) : Bytes :=
  xs.take n ++ List.replicate (n - xs.length) 0

/-- `std::copy` of `ys` into `xs` from index `i` on. -/
def copyTo (xs : Bytes) (i : Nat) (ys : Bytes) : Bytes :=
  xs.take i ++ ys ++ xs.drop (i + ys.length)

@[simp] theorem length_resize (xs : Bytes) (n : Nat) : (resize xs n).length = n := by
  simp [resize]; omega

theorem length_copyTo {xs ys : Bytes} {i : Nat} (h : i + ys.length ≤ xs.length) :
    (copyTo xs i ys).length = xs.length := by
  simp [copyTo]; omega

theorem take_resize {xs : Bytes} {k n : Nat} (hk : k ≤ n) (hx : k ≤ xs.length) :
    (resize xs n).take k = xs.take k := by
  have hlen : k - (xs.take n).length = 0 := by rw [List.length_take]; omega
  rw [resize, List.take_append, List.take_take, hlen]
  simp [Nat.min_eq_left hk]

theorem take_copyTo {xs ys : Bytes} {i : Nat} (h : i ≤ xs.length) :
    (copyTo xs i ys).take (i + ys.length) = xs.take i ++ ys := by
  have hlen : (xs.take i ++ ys).length = i + ys.length := by
    simp [Nat.min_eq_left h]
  rw [copyTo, ← hlen, List.take_left']
  rfl

/-! ## The buffer -/

namespace Buffer

def kCheapPrepend : Nat := 8

def kInitialSize : Nat := 1024

end Buffer

open Buffer in
/-- `class Buffer`. -/
structure Buffer where
  buffer_ : Bytes
  /-- Start of the readable bytes. -/
  readerIndex_ : Nat
  /-- Start of the writable bytes. -/
  writerIndex_ : Nat
  reader_le_writer : readerIndex_ ≤ writerIndex_
  writer_le_size : writerIndex_ ≤ buffer_.length
  prepend_le_size : kCheapPrepend ≤ buffer_.length

namespace Buffer

/-- The constructor. -/
def new : Buffer where
  buffer_ := List.replicate (kCheapPrepend + kInitialSize) 0
  readerIndex_ := kCheapPrepend
  writerIndex_ := kCheapPrepend
  reader_le_writer := Nat.le_refl _
  writer_le_size := by simp
  prepend_le_size := by simp

def readableBytes (b : Buffer) : Nat := b.writerIndex_ - b.readerIndex_

def writableBytes (b : Buffer) : Nat := b.buffer_.length - b.writerIndex_

def prependableBytes (b : Buffer) : Nat := b.readerIndex_

/-- The readable bytes. -/
def toString (b : Buffer) : Bytes := (b.buffer_.take b.writerIndex_).drop b.readerIndex_

/-- `findCRLF()`, as an offset from `peek()`; `none` is `nullptr`. -/
def findCRLF (b : Buffer) : Option Nat := Lines.findPair cr lf b.toString

def retrieveAll (b : Buffer) : Buffer :=
  { b with
    readerIndex_ := kCheapPrepend
    writerIndex_ := kCheapPrepend
    reader_le_writer := Nat.le_refl _
    writer_le_size := b.prepend_le_size }

/-- A release build takes a `len` beyond the readable bytes as `retrieveAll`. -/
def retrieve (b : Buffer) (len : Nat) : Buffer :=
  if h : len < b.readableBytes then
    { b with
      readerIndex_ := b.readerIndex_ + len
      reader_le_writer := by
        have := b.reader_le_writer
        unfold readableBytes at h
        omega }
  else
    b.retrieveAll

/-- `retrieveUntil(end)`, with `end` as an offset from `peek()`. -/
def retrieveUntil (b : Buffer) (end_ : Nat) : Buffer := b.retrieve end_

/-- `makeSpace(len)`, called when `len` bytes do not fit behind `writerIndex_`. -/
def makeSpace (b : Buffer) (len : Nat) (hfull : b.writableBytes < len) : Buffer :=
  if h : b.writableBytes + b.prependableBytes < len + kCheapPrepend then
    { b with
      buffer_ := resize b.buffer_ (b.writerIndex_ + len)
      writer_le_size := by simp
      prepend_le_size := by
        have h1 := b.prepend_le_size
        have h2 := b.writer_le_size
        unfold writableBytes at hfull
        rw [length_resize]
        omega }
  else
    have hfit : kCheapPrepend + b.toString.length ≤ b.buffer_.length := by
      have h1 := b.reader_le_writer
      have h2 := b.writer_le_size
      unfold writableBytes prependableBytes at h
      simp only [toString, List.length_drop, List.length_take]
      omega
    { buffer_ := copyTo b.buffer_ kCheapPrepend b.toString
      readerIndex_ := kCheapPrepend
      writerIndex_ := kCheapPrepend + b.toString.length
      reader_le_writer := Nat.le_add_right _ _
      writer_le_size := by rw [length_copyTo hfit]; exact hfit
      prepend_le_size := by rw [length_copyTo hfit]; exact b.prepend_le_size }

def ensureWritableBytes (b : Buffer) (len : Nat) : Buffer :=
  if h : b.writableBytes < len then b.makeSpace len h else b

/-! ## What the operations do to the readable bytes -/

@[simp] theorem length_toString (b : Buffer) : b.toString.length = b.readableBytes := by
  have := b.writer_le_size
  simp only [toString, readableBytes, List.length_drop, List.length_take]
  omega

@[simp] theorem toString_new : new.toString = [] := by
  simp [toString, new]

@[simp] theorem toString_retrieveAll (b : Buffer) : b.retrieveAll.toString = [] := by
  have := b.prepend_le_size
  simp [toString, retrieveAll]

@[simp] theorem toString_retrieve (b : Buffer) (len : Nat) :
    (b.retrieve len).toString = b.toString.drop len := by
  unfold retrieve
  split
  · simp [toString, List.drop_drop]
  · next h =>
    rw [toString_retrieveAll, List.drop_eq_nil_of_le]
    rw [length_toString]; omega

@[simp] theorem toString_retrieveUntil (b : Buffer) (end_ : Nat) :
    (b.retrieveUntil end_).toString = b.toString.drop end_ := toString_retrieve b end_

theorem makeSpace_spec (b : Buffer) (len : Nat) (hfull : b.writableBytes < len) :
    (b.makeSpace len hfull).toString = b.toString ∧
      len ≤ (b.makeSpace len hfull).writableBytes := by
  have h1 := b.reader_le_writer
  have h2 := b.writer_le_size
  unfold makeSpace
  split
  · refine ⟨?_, ?_⟩
    · simp only [toString]
      rw [take_resize (by omega) h2]
    · simp [writableBytes]
  · next h =>
    have hlen : b.toString.length = b.readableBytes := length_toString b
    have hfit : kCheapPrepend + b.toString.length ≤ b.buffer_.length := by
      rw [hlen]
      unfold writableBytes prependableBytes readableBytes at *
      omega
    refine ⟨?_, ?_⟩
    · have h8 := b.prepend_le_size
      simp only [toString] at hfit ⊢
      rw [take_copyTo h8]
      simp [Nat.min_eq_left h8]
    · simp only [writableBytes, length_copyTo hfit, hlen]
      unfold writableBytes prependableBytes readableBytes at *
      omega

theorem ensureWritableBytes_spec (b : Buffer) (len : Nat) :
    (b.ensureWritableBytes len).toString = b.toString ∧
      len ≤ (b.ensureWritableBytes len).writableBytes := by
  unfold ensureWritableBytes
  split
  · exact b.makeSpace_spec len _
  · next h => exact ⟨rfl, Nat.le_of_not_lt h⟩

/-- `append(data, len)`: make room, copy to `beginWrite()`, `hasWritten(len)`. -/
def append (b : Buffer) (data : Bytes) : Buffer :=
  let room := b.ensureWritableBytes data.length
  have hroom : room.writerIndex_ + data.length ≤ room.buffer_.length := by
    have h1 : data.length ≤ room.writableBytes := (b.ensureWritableBytes_spec data.length).2
    have h2 := room.writer_le_size
    unfold writableBytes at h1
    omega
  { buffer_ := copyTo room.buffer_ room.writerIndex_ data
    readerIndex_ := room.readerIndex_
    writerIndex_ := room.writerIndex_ + data.length
    reader_le_writer := Nat.le_trans room.reader_le_writer (Nat.le_add_right _ _)
    writer_le_size := by rw [length_copyTo hroom]; exact hroom
    prepend_le_size := by rw [length_copyTo hroom]; exact room.prepend_le_size }

/-- Appended bytes come last. -/
@[simp] theorem toString_append (b : Buffer) (data : Bytes) :
    (b.append data).toString = b.toString ++ data := by
  have hspec := (b.ensureWritableBytes_spec data.length).1
  have hle := (b.ensureWritableBytes data.length).reader_le_writer
  have hsize := (b.ensureWritableBytes data.length).writer_le_size
  rw [← hspec]
  simp only [append, toString]
  rw [take_copyTo hsize, List.drop_append_of_le_length]
  rw [List.length_take]
  omega

/-- `hasWritten(len)`, after the client wrote to `beginWrite()`. -/
def hasWritten (b : Buffer) (len : Nat) (h : len ≤ b.writableBytes) : Buffer :=
  { b with
    writerIndex_ := b.writerIndex_ + len
    reader_le_writer := Nat.le_trans b.reader_le_writer (Nat.le_add_right _ _)
    writer_le_size := by
      have hsize := b.writer_le_size
      unfold writableBytes at h
      omega }

/-- The client's write to `beginWrite()`, behind the back of the buffer. -/
def fill (b : Buffer) (data : Bytes) (h : data.length ≤ b.writableBytes) : Buffer :=
  have hroom : b.writerIndex_ + data.length ≤ b.buffer_.length := by
    have hsize := b.writer_le_size
    unfold writableBytes at h
    omega
  { b with
    buffer_ := copyTo b.buffer_ b.writerIndex_ data
    writer_le_size := by rw [length_copyTo hroom]; exact b.writer_le_size
    prepend_le_size := by rw [length_copyTo hroom]; exact b.prepend_le_size }

theorem writableBytes_fill (b : Buffer) (data : Bytes) (h : data.length ≤ b.writableBytes) :
    (b.fill data h).writableBytes = b.writableBytes := by
  have hsize := b.writer_le_size
  show (copyTo b.buffer_ b.writerIndex_ data).length - b.writerIndex_ = b.writableBytes
  rw [length_copyTo]
  · rfl
  · unfold writableBytes at h
    omega

/-- Filled and announced, the bytes are readable and come last. -/
theorem toString_hasWritten_fill (b : Buffer) (data : Bytes)
    (h : data.length ≤ b.writableBytes) (h' : data.length ≤ (b.fill data h).writableBytes) :
    ((b.fill data h).hasWritten data.length h').toString = b.toString ++ data := by
  have horder := b.reader_le_writer
  have hsize := b.writer_le_size
  simp only [hasWritten, fill, toString]
  rw [take_copyTo hsize, List.drop_append_of_le_length]
  rw [List.length_take]
  omega

/-- `prepend(data, len)`; without the room `readerIndex_` would wrap. -/
def prepend (b : Buffer) (data : Bytes) (h : data.length ≤ b.prependableBytes) : Buffer :=
  have hroom : b.readerIndex_ - data.length + data.length ≤ b.buffer_.length := by
    have horder := b.reader_le_writer
    have hsize := b.writer_le_size
    unfold prependableBytes at h
    omega
  { buffer_ := copyTo b.buffer_ (b.readerIndex_ - data.length) data
    readerIndex_ := b.readerIndex_ - data.length
    writerIndex_ := b.writerIndex_
    reader_le_writer := Nat.le_trans (Nat.sub_le _ _) b.reader_le_writer
    writer_le_size := by rw [length_copyTo hroom]; exact b.writer_le_size
    prepend_le_size := by rw [length_copyTo hroom]; exact b.prepend_le_size }

/-- Prepended bytes come first. -/
theorem toString_prepend (b : Buffer) (data : Bytes) (h : data.length ≤ b.prependableBytes) :
    (b.prepend data h).toString = data ++ b.toString := by
  have horder := b.reader_le_writer
  have hsize := b.writer_le_size
  unfold prependableBytes at h
  have hi : (b.buffer_.take (b.readerIndex_ - data.length)).length =
      b.readerIndex_ - data.length := by
    rw [List.length_take]
    omega
  simp only [prepend, toString, copyTo]
  -- in front of the data is what is prependable now, behind it what was readable
  rw [List.drop_take, List.append_assoc, List.drop_left' hi, List.take_append, List.drop_take]
  congr 1
  · rw [List.take_of_length_le]
    omega
  · congr 1
    · omega
    · congr 1
      omega

/-- `retrieveAsString(len)`: the string, and what is left. -/
def retrieveAsString (b : Buffer) (len : Nat) : Bytes × Buffer :=
  (b.toString.take len, b.retrieve len)

/-- `shrink(reserve)`: a new buffer takes the place of this one, and the
    readable bytes go with the old one. -/
def shrink (b : Buffer) (reserve : Nat) : Buffer :=
  new.ensureWritableBytes (b.readableBytes + reserve)

@[simp] theorem toString_shrink (b : Buffer) (reserve : Nat) : (b.shrink reserve).toString = [] := by
  rw [shrink, (new.ensureWritableBytes_spec _).1, toString_new]

theorem readableBytes_eq_zero (b : Buffer) : b.readableBytes = 0 ↔ b.toString = [] := by
  rw [← length_toString, List.length_eq_zero_iff]

/-- The delimiter a search found lies inside the readable bytes, so the
    assertion of `retrieveUntil(crlf + 2)` holds. -/
theorem findCRLF_le (b : Buffer) {crlf : Nat} (h : b.findCRLF = some crlf) :
    crlf + 2 ≤ b.readableBytes := by
  rw [← length_toString]
  exact Lines.findPair_lt h

end Buffer

end TinyWS
