import TinyWS.Framework.Decimal
import TinyWS.Net.Buffer
import Mathlib.Tactic.IntervalCases

/-! # LogStream

    How a `LogStream` formats integers.  `convert` divides the value by ten
    until nothing is left, and turns the digits around at the end.  A
    negative value stays negative: its remainders are negative too and
    find their digits in the first half of the table `digits`, so the
    smallest value of a type needs no magnitude.

    A read or a write outside of its array makes the whole call `none`. -/

namespace TinyWS

/-! ## Arrays -/

/-- `std::reverse`, of the characters from `first` up to `last`. -/
def reverseRange (xs : Bytes) (first last : Nat) : Bytes :=
  xs.take first ++ ((xs.take last).drop first).reverse ++ xs.drop last

theorem length_reverseRange {xs : Bytes} {first last : Nat} (hfirst : first ≤ last)
    (hlast : last ≤ xs.length) : (reverseRange xs first last).length = xs.length := by
  simp [reverseRange]
  omega

/-- `char data_[SIZE]`. -/
structure CharArray (SIZE : Nat) where
  chars : Bytes
  size : chars.length = SIZE

namespace CharArray

variable {SIZE : Nat}

/-- `*p = c`. -/
def write (data : CharArray SIZE) (p : Nat) (c : UInt8) : Option (CharArray SIZE) :=
  if p < SIZE then some ⟨data.chars.set p c, by rw [List.length_set, data.size]⟩ else none

/-- `std::reverse(first, last)`. -/
def reverse (data : CharArray SIZE) (first last : Nat) : Option (CharArray SIZE) :=
  if h : first ≤ last ∧ last ≤ SIZE then
    some ⟨reverseRange data.chars first last, by
      rw [length_reverseRange h.1 (by rw [data.size]; exact h.2), data.size]⟩
  else none

/-- The array with `cs` from `p` on, if they have room there. -/
def patch (data : CharArray SIZE) (p : Nat) (cs : Bytes) : CharArray SIZE :=
  if h : p + cs.length ≤ SIZE then
    ⟨copyTo data.chars p cs, by rw [length_copyTo (by rw [data.size]; exact h), data.size]⟩
  else data

theorem ext {a b : CharArray SIZE} (h : a.chars = b.chars) : a = b := by
  cases a
  cases b
  cases h
  rfl

variable {data : CharArray SIZE} {p : Nat} {cs : Bytes}

theorem chars_patch (h : p + cs.length ≤ SIZE) :
    (data.patch p cs).chars = copyTo data.chars p cs := by
  rw [patch, dif_pos h]

theorem patch_nil (h : p ≤ SIZE) : data.patch p [] = data := by
  apply ext
  rw [chars_patch h]
  simp [copyTo]

theorem set_copyTo {xs : Bytes} (c : UInt8) (h : p + cs.length < xs.length) :
    (copyTo xs p cs).set (p + cs.length) c = copyTo xs p (cs ++ [c]) := by
  have hlen : (xs.take p ++ cs).length = p + cs.length := by simp; omega
  rw [copyTo, List.set_append_right _ _ (by omega), hlen, Nat.sub_self,
    List.drop_eq_getElem_cons h]
  simp [copyTo, Nat.add_assoc]

/-- Writing goes on where it stopped. -/
theorem write_patch (c : UInt8) (h : p + cs.length < SIZE) :
    (data.patch p cs).write (p + cs.length) c = some (data.patch p (cs ++ [c])) := by
  have hroom : p + (cs ++ [c]).length ≤ SIZE := by simp; omega
  have hcell : p + cs.length < data.chars.length := by rw [data.size]; exact h
  rw [write, if_pos h]
  refine congrArg some (ext ?_)
  calc (data.patch p cs).chars.set (p + cs.length) c
      = (copyTo data.chars p cs).set (p + cs.length) c := by rw [chars_patch (Nat.le_of_lt h)]
    _ = copyTo data.chars p (cs ++ [c]) := set_copyTo c hcell
    _ = (data.patch p (cs ++ [c])).chars := (chars_patch hroom).symm

theorem take_copyTo_append {xs : Bytes} {tail : Bytes} (h : p ≤ xs.length) :
    (copyTo xs p (cs ++ tail)).take (p + cs.length) = xs.take p ++ cs := by
  have hlen : (xs.take p ++ cs).length = p + cs.length := by
    rw [List.length_append, List.length_take_of_le h]
  rw [copyTo, ← List.append_assoc, List.append_assoc]
  exact List.take_left' hlen

theorem reverseRange_copyTo {xs : Bytes} {tail : Bytes} (h : p ≤ xs.length) :
    reverseRange (copyTo xs p (cs ++ tail)) p (p + cs.length) =
      copyTo xs p (cs.reverse ++ tail) := by
  have hp : (xs.take p).length = p := List.length_take_of_le h
  have hcs : (xs.take p ++ cs).length = p + cs.length := by rw [List.length_append, hp]
  have hsplit : copyTo xs p (cs ++ tail) =
      (xs.take p ++ cs) ++ (tail ++ xs.drop (p + (cs ++ tail).length)) := by simp [copyTo]
  have hfront : (copyTo xs p (cs ++ tail)).take p = xs.take p := by
    rw [hsplit, List.append_assoc]
    exact List.take_left' hp
  have hmid : ((copyTo xs p (cs ++ tail)).take (p + cs.length)).drop p = cs := by
    rw [take_copyTo_append h]
    exact List.drop_left' hp
  have hback : (copyTo xs p (cs ++ tail)).drop (p + cs.length) =
      tail ++ xs.drop (p + (cs ++ tail).length) := by
    rw [hsplit]
    exact List.drop_left' hcs
  rw [reverseRange, hfront, hmid, hback]
  simp [copyTo]

/-- What was written is turned around, up to what stands behind it. -/
theorem reverse_patch {tail : Bytes} (h : p + (cs ++ tail).length ≤ SIZE) :
    (data.patch p (cs ++ tail)).reverse p (p + cs.length) =
      some (data.patch p (cs.reverse ++ tail)) := by
  have hlen : (cs ++ tail).length = cs.length + tail.length := List.length_append
  have hroom : p + (cs.reverse ++ tail).length ≤ SIZE := by simp; omega
  rw [reverse, dif_pos ⟨by omega, by omega⟩]
  refine congrArg some (ext ?_)
  calc reverseRange (data.patch p (cs ++ tail)).chars p (p + cs.length)
      = reverseRange (copyTo data.chars p (cs ++ tail)) p (p + cs.length) := by
        rw [chars_patch h]
    _ = copyTo data.chars p (cs.reverse ++ tail) :=
        reverseRange_copyTo (by rw [data.size]; omega)
    _ = (data.patch p (cs.reverse ++ tail)).chars := (chars_patch hroom).symm

theorem take_patch {tail : Bytes} (h : p + (cs ++ tail).length ≤ SIZE) :
    (data.patch p (cs ++ tail)).chars.take (p + cs.length) = data.chars.take p ++ cs := by
  rw [chars_patch h, take_copyTo_append (by rw [data.size]; omega)]

end CharArray

/-! ## Integer types -/

/-- A built-in integer type: the number that a value is, and that `/` and
    `%` truncate. -/
class CInt (T : Type) [Div T] [Mod T] [LT T] [OfNat T 0] [OfNat T 10] where
  value : T → Int
  eq_zero_iff : ∀ i : T, i = 0 ↔ value i = 0
  lt_zero_iff : ∀ i : T, i < 0 ↔ value i < 0
  value_div : ∀ i : T, value (i / 10) = (value i).tdiv 10
  value_mod : ∀ i : T, value (i % 10) = (value i).tmod 10
  bounds : ∀ i : T, -2 ^ 63 ≤ value i ∧ value i < 2 ^ 64

namespace CInt

variable {T : Type} [Div T] [Mod T] [LT T] [OfNat T 0] [OfNat T 10] [CInt T] (i : T)

/-- The number without its sign. -/
def magnitude : Nat := (value i).natAbs

theorem eq_zero_iff_magnitude : i = 0 ↔ magnitude i = 0 := by
  rw [eq_zero_iff, magnitude, Int.natAbs_eq_zero]

/-- Truncation keeps to the digits of the magnitude. -/
theorem magnitude_div : magnitude (i / 10) = magnitude i / 10 := by
  rw [magnitude, value_div]
  exact Int.natAbs_tdiv _ 10

theorem magnitude_mod : magnitude (i % 10) = magnitude i % 10 := by
  rw [magnitude, value_mod]
  exact Int.natAbs_tmod _ 10

end CInt

instance : CInt Int32 where
  value := Int32.toInt
  eq_zero_iff := fun i => (Int32.toInt_inj (x := i) (y := 0)).symm
  lt_zero_iff := fun _ => Int32.lt_iff_toInt_lt
  value_div := fun i => Int32.toInt_div_of_ne_right i 10 (by decide)
  value_mod := fun i => Int32.toInt_mod i 10
  bounds := by
    intro i
    have hlo := i.le_toInt
    have hhi := i.toInt_lt
    omega

instance : CInt UInt32 where
  value := fun i => i.toNat
  eq_zero_iff := by
    intro i
    rw [Int.natCast_eq_zero]
    exact (UInt32.toNat_inj (a := i) (b := 0)).symm
  lt_zero_iff := by
    intro i
    refine iff_of_false (fun h => ?_) (by omega)
    exact absurd (UInt32.lt_iff_toNat_lt.mp h) (Nat.not_lt_zero _)
  value_div := fun i => congrArg Int.ofNat (UInt32.toNat_div i 10)
  value_mod := fun i => congrArg Int.ofNat (UInt32.toNat_mod i 10)
  bounds := by
    intro i
    have hlt := i.toNat_lt
    omega

instance : CInt Int64 where
  value := Int64.toInt
  eq_zero_iff := fun i => (Int64.toInt_inj (x := i) (y := 0)).symm
  lt_zero_iff := fun _ => Int64.lt_iff_toInt_lt
  value_div := fun i => Int64.toInt_div_of_ne_right i 10 (by decide)
  value_mod := fun i => Int64.toInt_mod i 10
  bounds := by
    intro i
    have hlo := i.le_toInt
    have hhi := i.toInt_lt
    omega

instance : CInt UInt64 where
  value := fun i => i.toNat
  eq_zero_iff := by
    intro i
    rw [Int.natCast_eq_zero]
    exact (UInt64.toNat_inj (a := i) (b := 0)).symm
  lt_zero_iff := by
    intro i
    refine iff_of_false (fun h => ?_) (by omega)
    exact absurd (UInt64.lt_iff_toNat_lt.mp h) (Nat.not_lt_zero _)
  value_div := fun i => congrArg Int.ofNat (UInt64.toNat_div i 10)
  value_mod := fun i => congrArg Int.ofNat (UInt64.toNat_mod i 10)
  bounds := by
    intro i
    have hlt := i.toNat_lt
    omega

namespace LogStream

/-! ## convert -/

/-- `digits[]`, with its terminator. -/
def digits : Bytes := bytes "9876543210123456789" ++ [0]

/-- `zero[lsd]`, where `zero` is `digits + 9`. -/
def zero (lsd : Int) : Option UInt8 := if 0 ≤ 9 + lsd then digits[(9 + lsd).toNat]? else none

section Convert

variable {T : Type} [Div T] [Mod T] [LT T] [OfNat T 0] [OfNat T 10] [CInt T] {SIZE : Nat}

/-- The loop of `convert`, for so many turns at most.  The remainder fits
    in the `int lsd`, whatever the type. -/
def convertLoop [DecidableEq T] :
    (turns : Nat) → CharArray SIZE → T → Nat → Option (CharArray SIZE × Nat)
  | 0, _, _, _ => none
  | turns + 1, data, i, p => do
    let lsd := CInt.value (i % 10)
    let i := i / 10
    let c ← zero lsd
    let data ← data.write p c
    if i ≠ 0 then convertLoop turns data i (p + 1) else some (data, p + 1)

/-- `if (value < 0) { *p++ = '-'; }`. -/
def writeSign [DecidableLT T] (data : CharArray SIZE) (p : Nat) (value : T) :
    Option (CharArray SIZE × Nat) :=
  if value < 0 then (data.write p 45).map fun data => (data, p + 1) else some (data, p)

/-- `convert(buffer, value)`: the array, and `p - buffer`. -/
def convert [DecidableEq T] [DecidableLT T] (data : CharArray SIZE) (buffer : Nat) (value : T) :
    Option (CharArray SIZE × Nat) := do
  let (data, p) ← convertLoop (CInt.magnitude value + 1) data value buffer
  let (data, p) ← writeSign data p value
  let data ← data.write p 0
  let data ← data.reverse buffer p
  some (data, p - buffer)

variable {data : CharArray SIZE} {i : T} {turns p : Nat} {cs : Bytes}

/-- The table is mirrored: a remainder finds its digit from both ends. -/
theorem zero_eq {lsd : Int} (h : lsd.natAbs < 10) : zero lsd = some (Decimal.digit lsd.natAbs) := by
  have hlo : -9 ≤ lsd := by omega
  have hhi : lsd ≤ 9 := by omega
  interval_cases lsd <;> rfl

/-- The sign, if there is one. -/
theorem writeSign_patch [DecidableLT T] (data : CharArray SIZE) (value : T)
    (hroom : p + cs.length < SIZE) :
    writeSign (data.patch p cs) (p + cs.length) value =
      some (data.patch p (cs ++ if CInt.value value < 0 then [Decimal.minus] else []),
        p + (cs ++ if CInt.value value < 0 then [Decimal.minus] else []).length) := by
  by_cases hneg : CInt.value value < 0
  · rw [writeSign, if_pos ((CInt.lt_zero_iff value).mpr hneg), if_pos hneg,
      CharArray.write_patch 45 hroom, List.length_append]
    rfl
  · rw [writeSign, if_neg (fun h => hneg ((CInt.lt_zero_iff value).mp h)), if_neg hneg,
      List.append_nil]

variable [DecidableEq T]

/-- One turn writes the last digit of what is left. -/
theorem convertLoop_succ (hroom : p + cs.length < SIZE) :
    convertLoop (turns + 1) (data.patch p cs) i (p + cs.length) =
      if CInt.magnitude i / 10 = 0 then
        some (data.patch p (cs ++ [Decimal.digit (CInt.magnitude i % 10)]), p + cs.length + 1)
      else
        convertLoop turns (data.patch p (cs ++ [Decimal.digit (CInt.magnitude i % 10)])) (i / 10)
          (p + cs.length + 1) := by
  have hlsd : zero (CInt.value (i % 10)) = some (Decimal.digit (CInt.magnitude i % 10)) := by
    have hmod : (CInt.value (i % 10)).natAbs = CInt.magnitude i % 10 := CInt.magnitude_mod i
    rw [zero_eq (by omega), hmod]
  have hrest : i / 10 = 0 ↔ CInt.magnitude i / 10 = 0 := by
    rw [CInt.eq_zero_iff_magnitude, CInt.magnitude_div]
  rw [convertLoop, hlsd]
  simp only [Option.bind_eq_bind, Option.bind_some, CharArray.write_patch _ hroom, ne_eq, hrest,
    ite_not]

/-- **The loop** writes the digits of the magnitude, the last one first. -/
theorem convertLoop_eq (hturns : CInt.magnitude i < turns)
    (hroom : p + cs.length + (Decimal.backwards (CInt.magnitude i)).length ≤ SIZE) :
    convertLoop turns (data.patch p cs) i (p + cs.length) =
      some (data.patch p (cs ++ Decimal.backwards (CInt.magnitude i)),
        p + cs.length + (Decimal.backwards (CInt.magnitude i)).length) := by
  induction turns generalizing i cs with
  | zero => omega
  | succ turns ih =>
    -- a turn leaves a tenth, so one turn less is enough for it
    have hrest := CInt.magnitude_div i
    rw [Decimal.backwards_eq, List.length_cons] at hroom ⊢
    rw [convertLoop_succ (by omega)]
    by_cases hdone : CInt.magnitude i / 10 = 0
    · simp [hdone]
    · rw [if_neg hdone, if_neg hdone] at *
      have hlen : (cs ++ [Decimal.digit (CInt.magnitude i % 10)]).length = cs.length + 1 := by
        simp
      have hnext := @ih (i / 10) (cs ++ [Decimal.digit (CInt.magnitude i % 10)]) (by omega)
        (by rw [hlen, hrest]; omega)
      rw [hlen, hrest, ← Nat.add_assoc] at hnext
      rw [hnext, List.append_assoc, List.singleton_append, Nat.add_right_comm, Nat.add_assoc _ _ 1]

/-- The loop, from the start. -/
theorem convertLoop_start (data : CharArray SIZE) (buffer : Nat) (value : T)
    (hroom : buffer + (Decimal.backwards (CInt.magnitude value)).length ≤ SIZE) :
    convertLoop (CInt.magnitude value + 1) data value buffer =
      some (data.patch buffer (Decimal.backwards (CInt.magnitude value)),
        buffer + (Decimal.backwards (CInt.magnitude value)).length) := by
  have hloop : convertLoop (CInt.magnitude value + 1) (data.patch buffer []) value
      (buffer + 0) = _ :=
    convertLoop_eq (Nat.lt_succ_self _) hroom
  rw [CharArray.patch_nil (by omega), List.nil_append] at hloop
  exact hloop

/-- **`convert`** writes the decimal text and its terminator, if they have
    room, and returns the length of the text. -/
theorem convert_eq [DecidableLT T] (data : CharArray SIZE) (buffer : Nat) (value : T)
    (hroom : buffer + (Decimal.text (CInt.value value)).length < SIZE) :
    convert data buffer value =
      some (data.patch buffer (Decimal.text (CInt.value value) ++ [0]),
        (Decimal.text (CInt.value value)).length) := by
  have htext : (Decimal.text (CInt.value value)).reverse =
      Decimal.backwards (CInt.magnitude value) ++
        if CInt.value value < 0 then [Decimal.minus] else [] :=
    Decimal.reverse_text (CInt.value value)
  have hlen := congrArg List.length htext
  rw [List.length_reverse, List.length_append] at hlen
  have hback : buffer + (Decimal.text (CInt.value value)).reverse.length < SIZE := by
    rw [List.length_reverse]
    exact hroom
  -- the digits, the sign and the terminator, and then turned around
  have hloop := convertLoop_start data buffer value (by omega)
  have hsign : writeSign (data.patch buffer (Decimal.backwards (CInt.magnitude value)))
      (buffer + (Decimal.backwards (CInt.magnitude value)).length) value = _ :=
    writeSign_patch data value (by omega)
  rw [← htext] at hsign
  have hzero : (data.patch buffer (Decimal.text (CInt.value value)).reverse).write
      (buffer + (Decimal.text (CInt.value value)).reverse.length) 0 = _ :=
    CharArray.write_patch 0 hback
  have hreverse : (data.patch buffer ((Decimal.text (CInt.value value)).reverse ++ [0])).reverse
      buffer (buffer + (Decimal.text (CInt.value value)).reverse.length) = _ :=
    CharArray.reverse_patch (by rw [List.length_append]; exact hback)
  simp only [convert, hloop, hsign, hzero, hreverse, Option.bind_eq_bind, Option.bind_some]
  rw [List.reverse_reverse, List.length_reverse, Nat.add_sub_cancel_left]

example : (convert ⟨List.replicate 24 7, List.length_replicate⟩ 2 Int64.minValue).map
    (fun r => (r.1.chars, r.2)) =
      some ([7, 7] ++ bytes "-9223372036854775808" ++ [0, 7], 20) := by decide +kernel

end Convert

end LogStream

/-! ## The stream -/

namespace LogStream

def kSmallBuffer : Nat := 4000

def kMaxNumericSize : Int := 32

/-- `class FixedBuffer<SIZE>`; `cur_` counts from `data_`. -/
structure FixedBuffer (SIZE : Nat) where
  data_ : CharArray SIZE
  cur_ : Nat

namespace FixedBuffer

variable {SIZE : Nat}

/-- The constructor: `data_` has whatever the memory had. -/
def new (memory : CharArray SIZE) : FixedBuffer SIZE := ⟨memory, 0⟩

def current (b : FixedBuffer SIZE) : Nat := b.cur_

def avail (b : FixedBuffer SIZE) : Int := SIZE - b.cur_

def add (b : FixedBuffer SIZE) (len : Nat) : FixedBuffer SIZE := { b with cur_ := b.cur_ + len }

/-- The characters in front of `cur_`. -/
def contents (b : FixedBuffer SIZE) : Bytes := b.data_.chars.take b.cur_

end FixedBuffer

end LogStream

/-- `class LogStream`. -/
structure LogStream where
  buffer_ : LogStream.FixedBuffer LogStream.kSmallBuffer

namespace LogStream

/-- The constructor. -/
def new (memory : CharArray kSmallBuffer) : LogStream := ⟨FixedBuffer.new memory⟩

/-- `formatInteger(data)`. -/
def formatInteger {T : Type} [Div T] [Mod T] [LT T] [OfNat T 0] [OfNat T 10] [CInt T]
    [DecidableEq T] [DecidableLT T] (s : LogStream) (data : T) : Option LogStream :=
  if s.buffer_.avail ≥ kMaxNumericSize then do
    let (data_, len) ← convert s.buffer_.data_ s.buffer_.current data
    some ⟨{ s.buffer_ with data_ := data_ }.add len⟩
  else some s

/-- The insertion of an integer, by its type. -/
inductive Insertion where
  | short (n : Int16)
  | unsignedShort (n : UInt16)
  | int (n : Int32)
  | unsignedInt (n : UInt32)
  | long (n : Int64)
  | unsignedLong (n : UInt64)
  | longLong (n : Int64)
  | unsignedLongLong (n : UInt64)

namespace Insertion

/-- The number. -/
def value : Insertion → Int
  | .short n => n.toInt
  | .unsignedShort n => n.toNat
  | .int n => n.toInt
  | .unsignedInt n => n.toNat
  | .long n => n.toInt
  | .unsignedLong n => n.toNat
  | .longLong n => n.toInt
  | .unsignedLongLong n => n.toNat

end Insertion

/-- `operator<<`. -/
def insert (s : LogStream) : Insertion → Option LogStream
  | .short n => s.formatInteger n.toInt32
  | .unsignedShort n => s.formatInteger n.toUInt32
  | .int n => s.formatInteger n
  | .unsignedInt n => s.formatInteger n
  | .long n => s.formatInteger n
  | .unsignedLong n => s.formatInteger n
  | .longLong n => s.formatInteger n
  | .unsignedLongLong n => s.formatInteger n

/-- One insertion after the other. -/
def insertAll : LogStream → List Insertion → Option LogStream
  | s, [] => some s
  | s, l :: ls => do
    let s ← s.insert l
    insertAll s ls

/-! ## The specification -/

/-- `convert` on a type: it writes the only decimal text there is of the
    value, with its terminator, and the rest of the array stays as it was. -/
def Converts (T : Type) [Div T] [Mod T] [LT T] [OfNat T 0] [OfNat T 10] [CInt T]
    [DecidableEq T] [DecidableLT T] : Prop :=
  ∀ (SIZE : Nat) (data : CharArray SIZE) (buffer : Nat) (value : T),
    ∃ text, (∀ t, Decimal.IsInt t (CInt.value value) ↔ t = text) ∧ text.length ≤ 20 ∧
      (buffer + text.length < SIZE →
        convert data buffer value = some (data.patch buffer (text ++ [0]), text.length))

/-- One more number is appended while 32 places are left. -/
def appendNumber (text : Bytes) (v : Int) : Bytes :=
  if text.length + 32 ≤ kSmallBuffer then text ++ Decimal.text v else text

/-- The stream has this text in front of `cur_`. -/
structure Has (s : LogStream) (text : Bytes) : Prop where
  contents : s.buffer_.contents = text
  cur_ : s.buffer_.cur_ = text.length
  inside : text.length ≤ kSmallBuffer

theorem has_contents {s : LogStream} (h : s.buffer_.cur_ ≤ kSmallBuffer) :
    s.Has s.buffer_.contents := by
  have hlen : s.buffer_.contents.length = s.buffer_.cur_ :=
    List.length_take_of_le (by rw [s.buffer_.data_.size]; exact h)
  refine ⟨rfl, hlen.symm, ?_⟩
  rw [hlen]
  exact h

/-! ## One insertion -/

section Insert

variable {T : Type} [Div T] [Mod T] [LT T] [OfNat T 0] [OfNat T 10] [CInt T]

/-- The longest texts are those of the smallest `long` and of the largest
    `unsigned long`. -/
theorem length_text_le (value : T) : (Decimal.text (CInt.value value)).length ≤ 20 := by
  have hbounds := CInt.bounds value
  apply (Decimal.length_text_le_iff (by omega)).mpr
  omega

variable [DecidableEq T] [DecidableLT T] {s : LogStream} {text : Bytes}

theorem converts : Converts T := fun _ data buffer value =>
  ⟨Decimal.text (CInt.value value), fun _ => Decimal.isInt_iff, length_text_le value,
    convert_eq data buffer value⟩

theorem Has.formatInteger (h : s.Has text) (data : T) :
    ∃ s', s.formatInteger data = some s' ∧ s'.Has (appendNumber text (CInt.value data)) := by
  have hlen := length_text_le data
  have hinside := h.inside
  have hcur := h.cur_
  have hsize := s.buffer_.data_.size
  have havail : s.buffer_.avail ≥ kMaxNumericSize ↔ text.length + 32 ≤ kSmallBuffer := by
    rw [FixedBuffer.avail, kMaxNumericSize, hcur]
    omega
  by_cases hroom : text.length + 32 ≤ kSmallBuffer
  · have hconvert := convert_eq s.buffer_.data_ s.buffer_.current data
      (by rw [FixedBuffer.current, hcur]; omega)
    rw [LogStream.formatInteger, if_pos (havail.mpr hroom), hconvert, appendNumber, if_pos hroom]
    refine ⟨_, rfl, ?_, ?_, ?_⟩
    · have hcontents := h.contents
      rw [FixedBuffer.contents] at hcontents
      change ((s.buffer_.data_.patch s.buffer_.cur_ _).chars.take (s.buffer_.cur_ + _)) = _
      rw [CharArray.take_patch (by simp; omega), hcontents]
    · rw [List.length_append, ← hcur]
      rfl
    · rw [List.length_append]
      omega
  · refine ⟨s, ?_, ?_⟩
    · rw [LogStream.formatInteger, if_neg (fun hge => hroom (havail.mp hge))]
    · rw [appendNumber, if_neg hroom]
      exact h

end Insert

variable {s : LogStream} {text : Bytes}

theorem Has.insert (h : s.Has text) (l : Insertion) :
    ∃ s', s.insert l = some s' ∧ s'.Has (appendNumber text l.value) := by
  cases l with
  | short n =>
    have hvalue : CInt.value n.toInt32 = n.toInt := n.toInt_toInt32
    have hinsert := h.formatInteger n.toInt32
    rwa [hvalue] at hinsert
  | unsignedShort n =>
    have hvalue : CInt.value n.toUInt32 = n.toNat := congrArg Int.ofNat n.toNat_toUInt32
    have hinsert := h.formatInteger n.toUInt32
    rwa [hvalue] at hinsert
  | int n => exact h.formatInteger n
  | unsignedInt n => exact h.formatInteger n
  | long n => exact h.formatInteger n
  | unsignedLong n => exact h.formatInteger n
  | longLong n => exact h.formatInteger n
  | unsignedLongLong n => exact h.formatInteger n

/-! ## All insertions -/

theorem Has.insertAll (h : s.Has text) (ls : List Insertion) :
    ∃ s', s.insertAll ls = some s' ∧ s'.Has ((ls.map Insertion.value).foldl appendNumber text) := by
  induction ls generalizing s text with
  | nil => exact ⟨s, rfl, h⟩
  | cons l ls ih =>
    obtain ⟨s₁, hinsert, hhas⟩ := h.insert l
    obtain ⟨s₂, hall, hend⟩ := ih hhas
    refine ⟨s₂, ?_, hend⟩
    rw [LogStream.insertAll, hinsert]
    exact hall

/-- **Integers in a LogStream**: the text of each is its decimal text, with
    at most 20 characters, and however many are inserted, nothing is read
    or written outside, and the stream has the texts of those for which
    there was room. -/
theorem formats_integers :
    (Converts Int32 ∧ Converts UInt32 ∧ Converts Int64 ∧ Converts UInt64) ∧
      ∀ (s : LogStream) (ls : List Insertion), s.buffer_.cur_ ≤ kSmallBuffer →
        ∃ s', s.insertAll ls = some s' ∧ s'.buffer_.cur_ ≤ kSmallBuffer ∧
          s'.buffer_.contents = (ls.map Insertion.value).foldl appendNumber s.buffer_.contents := by
  refine ⟨⟨converts, converts, converts, converts⟩, fun s ls h => ?_⟩
  obtain ⟨s', hall, hhas⟩ := (has_contents h).insertAll ls
  refine ⟨s', hall, ?_, hhas.contents⟩
  rw [hhas.cur_]
  exact hhas.inside

/-- The constructor leaves `cur_` at the start, and the longest texts fit. -/
theorem formats_integers_new :
    ∃ s', (new ⟨List.replicate kSmallBuffer 7, List.length_replicate⟩).insertAll
        [.long Int64.minValue, .unsignedLong 18446744073709551615, .short 0] = some s' ∧
      s'.buffer_.cur_ ≤ kSmallBuffer ∧
      s'.buffer_.contents = bytes "-9223372036854775808184467440737095516150" := by
  obtain ⟨s', hall, hcur, hcontents⟩ :=
    formats_integers.2 (new ⟨List.replicate kSmallBuffer 7, List.length_replicate⟩)
      [.long Int64.minValue, .unsignedLong 18446744073709551615, .short 0] (Nat.zero_le _)
  refine ⟨s', hall, hcur, ?_⟩
  rw [hcontents]
  decide +kernel

end LogStream

end TinyWS
