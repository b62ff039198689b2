import TinyWS.Framework.ByteOrder
import TinyWS.Framework.Machine
import TinyWS.Net.Buffer

/-! # Integers in a Buffer

    Integers of one, two and four bytes are written and read in the byte
    order of the network, on a host of either order.  A reader that asks
    for the types that were written gets the values that were written,
    wherever the reads fall between the writes. -/

namespace TinyWS

/-! ## The integers -/

/-- `int8_t`, `int16_t` and `int32_t`. -/
inductive IntType where
  | int8
  | int16
  | int32
  deriving DecidableEq

namespace IntType

def Value : IntType → Type
  | .int8 => Int8
  | .int16 => Int16
  | .int32 => Int32

/-- `sizeof`. -/
def size : IntType → Nat
  | .int8 => 1
  | .int16 => 2
  | .int32 => 4

/-- The cast to the unsigned type of this size. -/
def toUnsigned : (t : IntType) → t.Value → Nat
  | .int8, x => (Int8.toUInt8 x).toNat
  | .int16, x => (Int16.toUInt16 x).toNat
  | .int32, x => (Int32.toUInt32 x).toNat

/-- The cast from the unsigned type of this size. -/
def ofUnsigned : (t : IntType) → Nat → t.Value
  | .int8, x => (UInt8.ofNat x).toInt8
  | .int16, x => (UInt16.ofNat x).toInt16
  | .int32, x => (UInt32.ofNat x).toInt32

@[simp] theorem ofUnsigned_toUnsigned (t : IntType) (x : t.Value) :
    t.ofUnsigned (t.toUnsigned x) = x := by
  cases t with
  | int8 => exact congrArg UInt8.toInt8 (UInt8.ofNat_toNat (x := Int8.toUInt8 x))
  | int16 => exact congrArg UInt16.toInt16 (UInt16.ofNat_toNat (x := Int16.toUInt16 x))
  | int32 => exact congrArg UInt32.toInt32 (UInt32.ofNat_toNat (x := Int32.toUInt32 x))

theorem toUnsigned_ofUnsigned {t : IntType} {x : Nat} (h : x < 256 ^ t.size) :
    t.toUnsigned (t.ofUnsigned x) = x := by
  cases t with
  | int8 => exact UInt8.toNat_ofNat_of_lt h
  | int16 => exact UInt16.toNat_ofNat_of_lt h
  | int32 => exact UInt32.toNat_ofNat_of_lt h

theorem toUnsigned_lt (t : IntType) (x : t.Value) : t.toUnsigned x < 256 ^ t.size := by
  cases t with
  | int8 => exact (Int8.toUInt8 x).toNat_lt
  | int16 => exact (Int16.toUInt16 x).toNat_lt
  | int32 => exact (Int32.toUInt32 x).toNat_lt

/-- The bytes of a value in the order of the network. -/
def bigEndian : (t : IntType) → t.Value → Bytes
  | .int8, x => [Int8.toUInt8 x]
  | .int16, x =>
      let u := Int16.toUInt16 x
      [(u >>> 8).toUInt8, u.toUInt8]
  | .int32, x =>
      let u := Int32.toUInt32 x
      [(u >>> 24).toUInt8, (u >>> 16).toUInt8, (u >>> 8).toUInt8, u.toUInt8]

@[simp] theorem length_bigEndian (t : IntType) (x : t.Value) :
    (t.bigEndian x).length = t.size := by
  cases t <;> rfl

theorem bytes_toUnsigned (t : IntType) (x : t.Value) :
    ByteOrder.bytes t.size (t.toUnsigned x) = t.bigEndian x := by
  cases t with
  | int8 => simp [ByteOrder.bytes, size, toUnsigned, bigEndian]
  | int16 =>
    simp only [ByteOrder.bytes, size, toUnsigned, bigEndian, List.cons.injEq, and_true,
      ← UInt8.toNat_inj]
    simp [Nat.shiftRight_eq_div_pow]
  | int32 =>
    simp only [ByteOrder.bytes, size, toUnsigned, bigEndian, List.cons.injEq, and_true,
      ← UInt8.toNat_inj]
    simp [Nat.shiftRight_eq_div_pow]

end IntType

/-! ## Reading and writing -/

namespace Buffer

variable (host : ByteOrder)

/-- `appendInt16` and `appendInt32`: the bytes of `be` in memory. -/
def appendBig (b : Buffer) (t : IntType) (x : t.Value) : Buffer :=
  let be := t.ofUnsigned (host.toBig t.size (t.toUnsigned x))
  b.append (host.store t.size (t.toUnsigned be))

def appendInt32 (b : Buffer) (x : Int32) : Buffer := b.appendBig host .int32 x

def appendInt16 (b : Buffer) (x : Int16) : Buffer := b.appendBig host .int16 x

/-- A byte has no order. -/
def appendInt8 (b : Buffer) (x : Int8) : Buffer :=
  b.append (host.store 1 (IntType.int8.toUnsigned x))

/-- `peekInt16` and `peekInt32`; `none` is the failed assertion. -/
def peekBig (b : Buffer) (t : IntType) : Option t.Value :=
  if t.size ≤ b.readableBytes then
    let be := t.ofUnsigned (host.load (b.toString.take t.size))
    some (t.ofUnsigned (host.toBig t.size (t.toUnsigned be)))
  else none

def peekInt32 (b : Buffer) : Option Int32 := b.peekBig host .int32

def peekInt16 (b : Buffer) : Option Int16 := b.peekBig host .int16

def peekInt8 (b : Buffer) : Option Int8 := b.toString.head?.map UInt8.toInt8

def retrieveInt32 (b : Buffer) : Buffer := b.retrieve 4

def retrieveInt16 (b : Buffer) : Buffer := b.retrieve 2

def retrieveInt8 (b : Buffer) : Buffer := b.retrieve 1

def readInt32 (b : Buffer) : Option (Int32 × Buffer) :=
  (b.peekInt32 host).map fun result => (result, b.retrieveInt32)

def readInt16 (b : Buffer) : Option (Int16 × Buffer) :=
  (b.peekInt16 host).map fun result => (result, b.retrieveInt16)

def readInt8 (b : Buffer) : Option (Int8 × Buffer) :=
  b.peekInt8.map fun result => (result, b.retrieveInt8)

/-- `prepend(data, len)` behind its assertion. -/
def prependBytes (b : Buffer) (data : Bytes) : Option Buffer :=
  if h : data.length ≤ b.prependableBytes then some (b.prepend data h) else none

/-- `prependInt16` and `prependInt32`. -/
def prependBig (b : Buffer) (t : IntType) (x : t.Value) : Option Buffer :=
  let be := t.ofUnsigned (host.toBig t.size (t.toUnsigned x))
  b.prependBytes (host.store t.size (t.toUnsigned be))

def prependInt32 (b : Buffer) (x : Int32) : Option Buffer := b.prependBig host .int32 x

def prependInt16 (b : Buffer) (x : Int16) : Option Buffer := b.prependBig host .int16 x

def prependInt8 (b : Buffer) (x : Int8) : Option Buffer :=
  b.prependBytes (host.store 1 (IntType.int8.toUnsigned x))

/-- The call of `append` for a type. -/
def appendInt (b : Buffer) : (t : IntType) → t.Value → Buffer
  | .int8, x => b.appendInt8 host x
  | .int16, x => b.appendInt16 host x
  | .int32, x => b.appendInt32 host x

/-- The call of `read` for a type. -/
def readInt (b : Buffer) : (t : IntType) → Option (t.Value × Buffer)
  | .int8 => b.readInt8
  | .int16 => b.readInt16 host
  | .int32 => b.readInt32 host

/-- The call of `prepend` for a type. -/
def prependInt (b : Buffer) : (t : IntType) → t.Value → Option Buffer
  | .int8, x => b.prependInt8 host x
  | .int16, x => b.prependInt16 host x
  | .int32, x => b.prependInt32 host x

/-! ## What the calls do -/

/-- What is stored of a value that was turned around. -/
theorem store_toBig (t : IntType) (x : t.Value) :
    host.store t.size (t.toUnsigned (t.ofUnsigned (host.toBig t.size (t.toUnsigned x)))) =
      t.bigEndian x := by
  rw [IntType.toUnsigned_ofUnsigned (host.toBig_lt _ _), host.store_toBig,
    IntType.bytes_toUnsigned]

theorem store_int8 (x : IntType.int8.Value) : host.store 1 (IntType.int8.toUnsigned x) =
    IntType.int8.bigEndian x := by
  have h := IntType.bytes_toUnsigned .int8 x
  cases host with
  | big => exact h
  | little => exact congrArg List.reverse h

@[simp] theorem toString_appendInt (b : Buffer) (t : IntType) (x : t.Value) :
    (b.appendInt host t x).toString = b.toString ++ t.bigEndian x := by
  cases t with
  | int8 => exact (toString_append b _).trans (by rw [store_int8])
  | int16 => exact (toString_append b _).trans (by rw [store_toBig])
  | int32 => exact (toString_append b _).trans (by rw [store_toBig])

theorem peekBig_bigEndian {b : Buffer} {t : IntType} {x : t.Value} {rest : Bytes}
    (h : b.toString = t.bigEndian x ++ rest) : b.peekBig host t = some x := by
  have hlen : t.size ≤ b.readableBytes := by
    rw [← length_toString, h, List.length_append, t.length_bigEndian]
    exact Nat.le_add_right _ _
  have htake : b.toString.take t.size = ByteOrder.bytes t.size (t.toUnsigned x) := by
    rw [h, ← t.length_bigEndian x, List.take_left, t.length_bigEndian, t.bytes_toUnsigned]
  have hload : host.load (b.toString.take t.size) < 256 ^ t.size := by
    rw [htake]
    exact host.toBig_lt _ _
  have hback := host.toBig_load (ByteOrder.bytes t.size (t.toUnsigned x))
  rw [ByteOrder.length_bytes, ByteOrder.value_bytes_of_lt (t.toUnsigned_lt x)] at hback
  simp only [peekBig, if_pos hlen, IntType.toUnsigned_ofUnsigned hload]
  rw [htake, hback, t.ofUnsigned_toUnsigned]

/-- A read takes the value that comes first. -/
theorem readInt_bigEndian {b : Buffer} {t : IntType} {x : t.Value} {rest : Bytes}
    (h : b.toString = t.bigEndian x ++ rest) :
    b.readInt host t = some (x, b.retrieve t.size) ∧ (b.retrieve t.size).toString = rest := by
  constructor
  · cases t with
    | int8 =>
      have hpeek : b.peekInt8 = some x := by
        rw [peekInt8, h]
        rfl
      rw [readInt, readInt8, hpeek]
      rfl
    | int16 =>
      have hpeek : b.peekInt16 host = some x := peekBig_bigEndian host h
      rw [readInt, readInt16, hpeek]
      rfl
    | int32 =>
      have hpeek : b.peekInt32 host = some x := peekBig_bigEndian host h
      rw [readInt, readInt32, hpeek]
      rfl
  · rw [toString_retrieve, h, ← t.length_bigEndian x, List.drop_left]

theorem prependBytes_spec {b : Buffer} {data : Bytes} (h : data.length ≤ b.prependableBytes) :
    ∃ c, b.prependBytes data = some c ∧ c.toString = data ++ b.toString := by
  refine ⟨b.prepend data h, ?_, toString_prepend b data h⟩
  rw [prependBytes, dif_pos h]

theorem prependInt_spec {b : Buffer} {t : IntType} (x : t.Value)
    (h : t.size ≤ b.prependableBytes) :
    ∃ c, b.prependInt host t x = some c ∧ c.toString = t.bigEndian x ++ b.toString := by
  obtain ⟨c, hc, hstring⟩ := prependBytes_spec ((t.length_bigEndian x).trans_le h)
  refine ⟨c, ?_, hstring⟩
  cases t with
  | int8 => exact (congrArg b.prependBytes (store_int8 host x)).trans hc
  | int16 => exact (congrArg b.prependBytes (store_toBig host .int16 x)).trans hc
  | int32 => exact (congrArg b.prependBytes (store_toBig host .int32 x)).trans hc

end Buffer

/-! ## Writers and readers -/

/-- An integer with its type. -/
structure TypedInt where
  type : IntType
  value : type.Value

def TypedInt.bigEndian (item : TypedInt) : Bytes := item.type.bigEndian item.value

/-- A buffer with what was written to it and what was read from it. -/
structure IntStream where
  buffer : Buffer
  written : List TypedInt
  returned : List TypedInt
  assertsHeld : Bool

namespace IntStream

def start (b : Buffer) : IntStream := ⟨b, [], [], true⟩

inductive Step where
  | append (item : TypedInt)
  | read (type : IntType)

def next (host : ByteOrder) (s : IntStream) : Step → IntStream
  | .append item =>
      { s with
        buffer := s.buffer.appendInt host item.type item.value
        written := s.written ++ [item] }
  | .read type =>
      match s.buffer.readInt host type with
      | some (result, b) => { s with buffer := b, returned := s.returned ++ [⟨type, result⟩] }
      | none => { s with assertsHeld := false }

/-- The items that were not read yet. -/
def unread (s : IntStream) : List TypedInt := s.written.drop s.returned.length

/-- A reader asks for the type of the first item that was not read yet. -/
def guard (s : IntStream) : Step → Prop
  | .append _ => True
  | .read type => s.unread.head?.map TypedInt.type = some type

instance (s : IntStream) : DecidablePred s.guard
  | .append _ => isTrue trivial
  | .read type => inferInstanceAs (Decidable (s.unread.head?.map TypedInt.type = some type))

end IntStream

/-- Any interleaving of writes with reads of what was written. -/
def intStream (host : ByteOrder) : Machine IntStream IntStream.Step where
  guard := IntStream.guard
  next := IntStream.next host

instance (host : ByteOrder) (s : IntStream) (l : IntStream.Step) :
    Decidable ((intStream host).guard s l) :=
  inferInstanceAs (Decidable (s.guard l))

namespace IntStream

/-- The reads returned the first items written, and the others are in the
    buffer. -/
structure InOrder (s : IntStream) : Prop where
  returned : s.returned ++ s.unread = s.written
  readable : s.buffer.toString = s.unread.flatMap TypedInt.bigEndian
  asserts : s.assertsHeld = true

theorem inOrder_start {b : Buffer} (hempty : b.toString = []) : (start b).InOrder :=
  ⟨rfl, hempty, rfl⟩

theorem InOrder.append {s : IntStream} (h : s.InOrder) (host : ByteOrder) (item : TypedInt) :
    (s.next host (.append item)).InOrder := by
  have hlen : s.returned.length ≤ s.written.length := by
    rw [← h.returned, List.length_append]
    exact Nat.le_add_right _ _
  have hunread : (s.next host (.append item)).unread = s.unread ++ [item] :=
    List.drop_append_of_le_length hlen
  refine ⟨?_, ?_, h.asserts⟩
  · rw [hunread, ← List.append_assoc]
    exact congrArg (· ++ [item]) h.returned
  · rw [hunread, List.flatMap_append, ← h.readable]
    simp [next, TypedInt.bigEndian]

theorem InOrder.read {s : IntStream} (h : s.InOrder) (host : ByteOrder) {type : IntType}
    (hguard : s.guard (.read type)) : (s.next host (.read type)).InOrder := by
  obtain ⟨item, hitem, rfl⟩ := Option.map_eq_some_iff.mp hguard
  obtain ⟨rest, hrest⟩ := List.head?_eq_some_iff.mp hitem
  have hreadable := h.readable
  rw [hrest, List.flatMap_cons] at hreadable
  obtain ⟨hread, hleft⟩ := Buffer.readInt_bigEndian host hreadable
  have hnext : s.next host (.read item.type) =
      { s with
        buffer := s.buffer.retrieve item.type.size
        returned := s.returned ++ [item] } := by
    simp only [next, hread]
  have hunread : (s.next host (.read item.type)).unread = rest := by
    rw [hnext, unread]
    show s.written.drop (s.returned ++ [item]).length = rest
    rw [List.length_append, ← List.drop_drop]
    exact congrArg (List.drop 1) hrest
  refine ⟨?_, ?_, ?_⟩
  · rw [hunread, hnext]
    show (s.returned ++ [item]) ++ rest = s.written
    rw [List.append_assoc, ← h.returned, hrest]
    rfl
  · rw [hunread, hnext]
    exact hleft
  · rw [hnext]
    exact h.asserts

theorem inOrder_run {host : ByteOrder} {b : Buffer} (hempty : b.toString = [])
    {steps : List Step} (hvalid : (intStream host).Valid (start b) steps) :
    ((intStream host).run (start b) steps).InOrder := by
  refine (intStream host).invariant_run InOrder (fun s l h hl => ?_) (inOrder_start hempty) hvalid
  cases l with
  | append item => exact h.append host item
  | read type => exact h.read host hl

/-- **Integers come back as they were written**: on a host of either byte
    order, whatever the indices of the empty buffer are and wherever the
    reads fall between the writes, no assertion fails, the values read are
    the first ones written, and the buffer holds the others, in the order
    of the network and nothing else.  What is prepended is read back. -/
theorem ints_round_trip (host : ByteOrder) (b : Buffer) (hempty : b.toString = [])
    (steps : List Step) (hvalid : (intStream host).Valid (start b) steps) :
    let s := (intStream host).run (start b) steps
    s.assertsHeld = true ∧ s.returned ++ s.unread = s.written ∧
      s.buffer.toString = s.unread.flatMap TypedInt.bigEndian ∧
      (s.returned.length = s.written.length →
        s.returned = s.written ∧ s.buffer.readableBytes = 0) ∧
      (∀ (c : Buffer) (t : IntType) (x : t.Value),
        (c.appendInt host t x).toString = c.toString ++ t.bigEndian x ∧
          (t.bigEndian x).length = t.size) ∧
      ∀ (c : Buffer) (t : IntType) (x : t.Value), t.size ≤ c.prependableBytes →
        ∃ d e, c.prependInt host t x = some d ∧ d.readInt host t = some (x, e) ∧
          e.toString = c.toString := by
  have h := inOrder_run hempty hvalid
  refine ⟨h.asserts, h.returned, h.readable, fun hall => ?_, fun c t x =>
    ⟨c.toString_appendInt host t x, t.length_bigEndian x⟩, fun c t x hroom => ?_⟩
  · have hnone : ((intStream host).run (start b) steps).unread = [] := by
      rw [unread, hall, List.drop_length]
    have hreturned := h.returned
    rw [hnone, List.append_nil] at hreturned
    refine ⟨hreturned, ?_⟩
    rw [Buffer.readableBytes_eq_zero, h.readable, hnone]
    rfl
  · obtain ⟨d, hd, hstring⟩ := c.prependInt_spec host x hroom
    obtain ⟨hread, hleft⟩ := Buffer.readInt_bigEndian host hstring
    exact ⟨d, _, hd, hread, hleft⟩

/-- A negative number is read before the next one is written. -/
theorem ints_round_trip_negative :
    let steps : List Step := [.append ⟨.int32, (-2 : Int32)⟩, .append ⟨.int8, (-1 : Int8)⟩,
      .read .int32, .append ⟨.int16, (258 : Int16)⟩, .read .int8]
    let s := (intStream .little).run (start Buffer.new) steps
    s.buffer.toString = s.unread.flatMap TypedInt.bigEndian := by
  intro steps
  exact (ints_round_trip .little Buffer.new Buffer.toString_new steps
    (by decide +kernel)).2.2.1

end IntStream

end TinyWS
