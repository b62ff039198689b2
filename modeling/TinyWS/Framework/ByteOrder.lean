import Mathlib.Tactic.Common
import Mathlib.Tactic.Ring

/-! # Byte Orders

    An unsigned number of `n` bytes in the memory of a machine, with the
    most significant byte first or last.  `toBig` is the number whose bytes
    in memory stand in the order of the network: the number itself on one
    kind of machine, the number with its bytes swapped on the other. -/

/-- The order of the bytes of a number in memory. -/
inductive ByteOrder where
  | big
  | little
  deriving DecidableEq

namespace ByteOrder

/-! ## The most significant byte first -/

/-- The last `n` bytes of `x`, the most significant one first. -/
def bytes : Nat → Nat → List UInt8
  | 0, _ => []
  | n + 1, x => UInt8.ofNat (x / 256 ^ n) :: bytes n x

/-- The number with these bytes. -/
def value : List UInt8 → Nat
  | [] => 0
  | b :: bs => b.toNat * 256 ^ bs.length + value bs

@[simp] theorem length_bytes (n x : Nat) : (bytes n x).length = n := by
  induction n with
  | zero => rfl
  | succ n ih => rw [bytes, List.length_cons, ih]

theorem value_bytes (n x : Nat) : value (bytes n x) = x % 256 ^ n := by
  induction n with
  | zero => rw [bytes, value, Nat.pow_zero, Nat.mod_one]
  | succ n ih =>
    have hfirst : (UInt8.ofNat (x / 256 ^ n)).toNat = x / 256 ^ n % 256 := rfl
    rw [bytes, value, length_bytes, ih, hfirst, Nat.pow_succ, Nat.mod_mul]
    ring

theorem value_bytes_of_lt {n x : Nat} (h : x < 256 ^ n) : value (bytes n x) = x := by
  rw [value_bytes, Nat.mod_eq_of_lt h]

theorem value_lt (bs : List UInt8) : value bs < 256 ^ bs.length := by
  induction bs with
  | nil => exact Nat.one_pos
  | cons b bs ih =>
    have hb : b.toNat + 1 ≤ 256 := b.toNat_lt
    calc value (b :: bs) < b.toNat * 256 ^ bs.length + 256 ^ bs.length := by
          rw [value]
          exact Nat.add_lt_add_left ih _
      _ = (b.toNat + 1) * 256 ^ bs.length := (Nat.succ_mul _ _).symm
      _ ≤ 256 * 256 ^ bs.length := Nat.mul_le_mul_right _ hb
      _ = 256 ^ (b :: bs).length := (Nat.pow_succ').symm

/-- The bytes of a number are the only ones, for their length. -/
theorem value_inj {bs cs : List UInt8} (hlen : bs.length = cs.length)
    (h : value bs = value cs) : bs = cs := by
  induction bs generalizing cs with
  | nil => exact (List.length_eq_zero_iff.mp hlen.symm).symm
  | cons b bs ih =>
    cases cs with
    | nil => exact absurd hlen (by simp)
    | cons c cs =>
      have hlen' : bs.length = cs.length := Nat.succ.inj hlen
      have hpos : 0 < 256 ^ cs.length := Nat.pow_pos (by decide)
      have hbs : value bs < 256 ^ cs.length := hlen' ▸ value_lt bs
      have hcs := value_lt cs
      simp only [value, hlen'] at h
      -- what is behind the first byte is too small to reach into it
      have hfirst : b.toNat = c.toNat := by
        have hdiv := congrArg (· / 256 ^ cs.length) h
        simp only [Nat.mul_comm _ (256 ^ cs.length), Nat.mul_add_div hpos,
          Nat.div_eq_of_lt hbs, Nat.div_eq_of_lt hcs, Nat.add_zero] at hdiv
        exact hdiv
      have hrest : value bs = value cs := by
        rw [hfirst] at h
        exact Nat.add_left_cancel h
      rw [UInt8.toNat_inj.mp hfirst, ih hlen' hrest]

theorem bytes_value (bs : List UInt8) : bytes bs.length (value bs) = bs := by
  apply value_inj (length_bytes _ _)
  exact value_bytes_of_lt (value_lt bs)

/-! ## Numbers in memory -/

/-- The bytes of a number of `n` bytes, by their address. -/
def store (o : ByteOrder) (n x : Nat) : List UInt8 :=
  match o with
  | .big => bytes n x
  | .little => (bytes n x).reverse

/-- The number with these bytes, by their address. -/
def load (o : ByteOrder) (bs : List UInt8) : Nat :=
  match o with
  | .big => value bs
  | .little => value bs.reverse

/-- The number of `n` bytes that is stored with the most significant byte of
    `x` first. -/
def toBig (o : ByteOrder) (n x : Nat) : Nat := o.load (bytes n x)

theorem load_lt (o : ByteOrder) (bs : List UInt8) : o.load bs < 256 ^ bs.length := by
  cases o with
  | big => exact value_lt bs
  | little =>
    have h := value_lt bs.reverse
    rw [List.length_reverse] at h
    exact h

theorem toBig_lt (o : ByteOrder) (n x : Nat) : o.toBig n x < 256 ^ n := by
  have h := o.load_lt (bytes n x)
  rw [length_bytes] at h
  exact h

theorem store_load (o : ByteOrder) (bs : List UInt8) : o.store bs.length (o.load bs) = bs := by
  cases o with
  | big => exact bytes_value bs
  | little =>
    have h := bytes_value bs.reverse
    rw [List.length_reverse] at h
    rw [store, load, h, List.reverse_reverse]

/-- Stored, the most significant byte comes first. -/
theorem store_toBig (o : ByteOrder) (n x : Nat) : o.store n (o.toBig n x) = bytes n x := by
  have h := o.store_load (bytes n x)
  rw [length_bytes] at h
  exact h

/-- Loaded from where the most significant byte comes first, and turned
    around. -/
theorem toBig_load (o : ByteOrder) (bs : List UInt8) :
    o.toBig bs.length (o.load bs) = value bs := by
  cases o with
  | big => rw [toBig, load, load, bytes_value]
  | little =>
    have h := bytes_value bs.reverse
    rw [List.length_reverse] at h
    rw [toBig, load, load, h, List.reverse_reverse]

end ByteOrder
