import Mathlib.Data.List.Basic
import Mathlib.Data.Nat.ModEq

/-! # Round Robin

    Cards numbered in the order in which they are dealt go to `n` hands in
    turn.  A dealer keeps the hand that is next and steps it in a circle;
    what each hand has got depends on the number of cards only.

    * `dealt`: the cards of a hand.
    * `next_hand`, `next_hand_wrap`: the two usual ways to step the hand.
    * `length_dealt_le`: no hand has two cards more than another. -/

namespace RoundRobin

/-- The cards of the hand `i` when `m` cards were dealt to `n` hands. -/
def dealt (n i m : Nat) : List Nat := (List.range m).filter fun k => k % n = i

variable {n i j m k : Nat}

@[simp] theorem dealt_zero : dealt n i 0 = [] := rfl

theorem mem_dealt : k ∈ dealt n i m ↔ k < m ∧ k % n = i := by
  simp [dealt]

/-- The next card goes to one hand, -/
theorem dealt_succ_self (h : m % n = i) : dealt n i (m + 1) = dealt n i m ++ [m] := by
  simp [dealt, List.range_succ, h]

/-- and to no other. -/
theorem dealt_succ_ne (h : m % n ≠ i) : dealt n i (m + 1) = dealt n i m := by
  simp [dealt, List.range_succ, h]

theorem nodup_dealt : (dealt n i m).Nodup := List.nodup_range.filter _

/-! ## The hand that is next -/

/-- A hand that is stepped modulo `n`. -/
theorem next_hand : (m % n + 1) % n = (m + 1) % n := Nat.mod_add_mod m n 1

/-- A hand that is set back when it gets to `n`. -/
theorem next_hand_wrap (hn : 0 < n) :
    (if n ≤ m % n + 1 then 0 else m % n + 1) = (m + 1) % n := by
  have hlt := Nat.mod_lt m hn
  rw [← next_hand]
  split
  · next hle =>
    have heq : m % n + 1 = n := by omega
    rw [heq, Nat.mod_self]
  · next hle => exact (Nat.mod_eq_of_lt (by omega)).symm

/-! ## Balance -/

/-- The hands before and behind this one. -/
theorem dvd_iff_hand (hi : i < n) : n ∣ m + (n - i) ↔ m % n = i := by
  have hsum : n - i + i = n := by omega
  have hself : i + (n - i) ≡ 0 [MOD n] := by
    rw [Nat.ModEq, Nat.add_comm i, hsum, Nat.mod_self, Nat.zero_mod]
  rw [Nat.dvd_iff_mod_eq_zero]
  constructor
  · intro h
    have hmod : m + (n - i) ≡ i + (n - i) [MOD n] :=
      Nat.ModEq.trans (by rw [Nat.ModEq, h, Nat.zero_mod]) hself.symm
    have hcancel : m ≡ i [MOD n] := Nat.ModEq.add_right_cancel' _ hmod
    rw [Nat.ModEq, Nat.mod_eq_of_lt hi] at hcancel
    exact hcancel
  · intro h
    have hmod : m ≡ i [MOD n] := by rw [Nat.ModEq, h, Nat.mod_eq_of_lt hi]
    have hadd : m + (n - i) ≡ 0 [MOD n] := (hmod.add_right _).trans hself
    rw [Nat.ModEq, Nat.zero_mod] at hadd
    exact hadd

/-- How many cards a hand has. -/
theorem length_dealt (hi : i < n) : (dealt n i m).length = (m + (n - 1 - i)) / n := by
  induction m with
  | zero =>
    rw [dealt_zero, List.length_nil, Nat.div_eq_of_lt]
    omega
  | succ m ih =>
    have hsum : m + 1 + (n - 1 - i) = m + (n - 1 - i) + 1 := by omega
    have hturn : n ∣ m + (n - 1 - i) + 1 ↔ m % n = i := by
      have heq : m + (n - 1 - i) + 1 = m + (n - i) := by omega
      rw [heq]
      exact dvd_iff_hand hi
    rw [hsum, Nat.succ_div]
    by_cases h : m % n = i
    · rw [dealt_succ_self h, List.length_append, ih, if_pos (hturn.mpr h)]
      rfl
    · rw [dealt_succ_ne h, ih, if_neg fun hdvd => h (hturn.mp hdvd)]
      rfl

/-- **Balance**: no hand has two cards more than another. -/
theorem length_dealt_le (hi : i < n) (hj : j < n) :
    (dealt n i m).length ≤ (dealt n j m).length + 1 := by
  have hn : 0 < n := by omega
  rw [length_dealt hi, length_dealt hj, ← Nat.add_div_right _ hn]
  exact Nat.div_le_div_right (by omega)

end RoundRobin
