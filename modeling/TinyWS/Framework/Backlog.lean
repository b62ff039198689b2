import Mathlib.Data.List.Induction

/-! # One at a Time

    A server that serves at most one customer a tick.  The customers are
    counted: `cs` has, for every tick, how many of them have come by then.

    * `served`: how many were served in the end.
    * `le_served_iff`: that number without the recursion.
    * `served_replicate`: what was left behind is served when nobody comes
      any more, one a tick. -/

namespace Backlog

/-- How many customers were served, one a tick at most. -/
def served (cs : List Nat) : Nat := cs.foldl (fun served come => min (served + 1) come) 0

variable {cs : List Nat} {n c : Nat}

@[simp] theorem served_nil : served [] = 0 := rfl

theorem served_append (cs : List Nat) (c : Nat) :
    served (cs ++ [c]) = min (served cs + 1) c := by
  rw [served, List.foldl_append]
  rfl

/-- **The number served**: the `n`th customer is served unless there were
    too few ticks, or at some tick too few customers for the ticks that
    were left. -/
theorem le_served_iff (cs : List Nat) (n : Nat) :
    n ≤ served cs ↔
      n ≤ cs.length ∧ ∀ i c, cs[i]? = some c → n ≤ c + (cs.length - (i + 1)) := by
  induction cs using List.reverseRecOn generalizing n with
  | nil => simp
  | append_singleton cs c ih =>
    have hprev := ih (n - 1)
    rw [served_append, Nat.le_min, List.length_append, List.length_singleton]
    constructor
    · intro ⟨hserved, hcome⟩
      obtain ⟨hticks, hearlier⟩ := hprev.mp (by omega)
      refine ⟨by omega, fun i d hi => ?_⟩
      by_cases hlast : i < cs.length
      · rw [List.getElem?_append_left hlast] at hi
        have hd := hearlier i d hi
        omega
      · rw [List.getElem?_append_right (by omega), List.getElem?_singleton] at hi
        split at hi
        · rw [← Option.some.inj hi]
          omega
        · cases hi
    · intro ⟨hticks, hall⟩
      have hcome := hall cs.length c (by simp)
      have hearlier := hprev.mpr ⟨by omega, fun i d hi => ?_⟩
      · omega
      · have hlt := (List.getElem?_eq_some_iff.mp hi).1
        have hd := hall i d (by rw [List.getElem?_append_left hlt, hi])
        omega

/-- Nobody is served who has not come. -/
theorem served_le (h : ∀ d ∈ cs, d ≤ c) : served cs ≤ c := by
  induction cs using List.reverseRecOn with
  | nil => exact Nat.zero_le c
  | append_singleton cs d _ =>
    rw [served_append]
    have hd := h d (by simp)
    omega

/-- **Catching up**: while nobody comes, one more is served every tick. -/
theorem served_replicate (h : ∀ d ∈ cs, d ≤ c) (k : Nat) :
    served (cs ++ List.replicate k c) = min (served cs + k) c := by
  have hle := served_le h
  induction k with
  | zero => simp [hle]
  | succ k ih =>
    rw [List.replicate_succ', ← List.append_assoc, served_append, ih]
    omega

end Backlog
