import TinyWS.Base.AsyncLogging
import Mathlib

/-! # Partial Writes

    `FileUtil::append` against what it is for: the bytes of the line, once
    and in order.  The loop behind the first write does not move on in the
    line, so each of its writes starts at the same byte.  One of them is
    right; a second one is right only if the line repeats itself there. -/

namespace TinyWS

namespace FileUtil

/-- What the writes of the loop may return while `remain` bytes are left:
    no more than that, and nothing once a write has returned 0. -/
def LoopWrites : Nat → List Nat → Prop
  | remain, [] => remain = 0
  | remain, tmp :: tmps =>
      0 < remain ∧ tmp ≤ remain ∧ if tmp = 0 then tmps = [] else LoopWrites (remain - tmp) tmps

/-- What the writes of one `append` of `len` bytes may return. -/
def Writes (len : Nat) : List Nat → Prop
  | [] => False
  | n :: tmps => n ≤ len ∧ LoopWrites (len - n) tmps

instance decidableLoopWrites : ∀ (remain : Nat) (tmps : List Nat),
    Decidable (LoopWrites remain tmps)
  | remain, [] => inferInstanceAs (Decidable (remain = 0))
  | remain, tmp :: tmps =>
      have := decidableLoopWrites (remain - tmp) tmps
      inferInstanceAs (Decidable (0 < remain ∧ tmp ≤ remain ∧
        if tmp = 0 then tmps = [] else LoopWrites (remain - tmp) tmps))

instance (len : Nat) : ∀ fwrite : List Nat, Decidable (Writes len fwrite)
  | [] => inferInstanceAs (Decidable False)
  | n :: tmps => inferInstanceAs (Decidable (n ≤ len ∧ LoopWrites (len - n) tmps))

/-! ## The specification -/

/-- The line is written once and in order: what is written is a prefix of
    it, and all of it unless a write after the first returned 0. -/
def WritesOnce (file logline : Bytes) (fwrite : List Nat) : Prop :=
  ∃ written, append file logline fwrite = file ++ written ∧ written <+: logline ∧
    (0 ∉ fwrite.tail → written = logline)

/-- Behind its first `done` bytes the rest of a line begins anew, again and
    again, as far as the writes of the loop go. -/
def Repeats (rest : Bytes) : Nat → List Nat → Prop
  | _, [] => True
  | done, tmp :: tmps => (∀ j < tmp, rest[j]? = rest[done + j]?) ∧ Repeats rest (done + tmp) tmps

/-! ## The loop -/

/-- Every write of the loop takes its bytes from the same place. -/
theorem retry_eq {logline : Bytes} {n : Nat} {file : Bytes} {remain : Nat} {tmps : List Nat}
    (h : LoopWrites remain tmps) :
    retry logline n file remain tmps =
      file ++ tmps.flatMap fun tmp => (logline.drop n).take tmp := by
  induction tmps generalizing file remain with
  | nil => simp [retry]
  | cons tmp tmps ih =>
    obtain ⟨hremain, htmp, hrest⟩ := h
    by_cases hzero : tmp = 0
    · rw [if_pos hzero] at hrest
      subst hzero hrest
      simp [retry]
    · rw [if_neg hzero] at hrest
      have hgo : ¬ (remain = 0 ∨ tmp = 0) := by omega
      rw [retry, if_neg hgo, Nat.min_eq_left htmp, ih hrest, List.append_assoc]
      rfl

theorem sum_loopWrites {remain : Nat} {tmps : List Nat} (h : LoopWrites remain tmps) :
    tmps.sum ≤ remain ∧ (0 ∉ tmps → tmps.sum = remain) := by
  induction tmps generalizing remain with
  | nil => exact ⟨Nat.zero_le _, fun _ => Eq.symm h⟩
  | cons tmp tmps ih =>
    obtain ⟨-, htmp, hrest⟩ := h
    by_cases hzero : tmp = 0
    · rw [if_pos hzero] at hrest
      subst hzero hrest
      exact ⟨Nat.zero_le _, fun hmem => absurd List.mem_cons_self hmem⟩
    · rw [if_neg hzero] at hrest
      obtain ⟨hle, hall⟩ := ih hrest
      rw [List.sum_cons]
      refine ⟨by omega, fun hmem => ?_⟩
      have heq := hall fun hin => hmem (List.mem_cons_of_mem _ hin)
      omega

/-- What the loop writes is what it should write exactly if the rest of the
    line repeats itself. -/
theorem flatMap_take_iff {rest : Bytes} {done : Nat} {tmps : List Nat}
    (hlen : done + tmps.sum ≤ rest.length) :
    (tmps.flatMap fun tmp => rest.take tmp) = (rest.drop done).take tmps.sum ↔
      Repeats rest done tmps := by
  -- one write at a time, with `done` bytes written before it
  induction tmps generalizing done with
  | nil => simp [Repeats]
  | cons tmp tmps ih =>
    rw [List.sum_cons] at hlen ⊢
    have hsplit : (rest.drop done).take (tmp + tmps.sum) =
        (rest.drop done).take tmp ++ (rest.drop (done + tmp)).take tmps.sum := by
      rw [List.take_add, List.drop_drop]
    have hsame : (rest.take tmp).length = ((rest.drop done).take tmp).length := by
      rw [List.length_take, List.length_take, List.length_drop]
      omega
    have hfirst : rest.take tmp = (rest.drop done).take tmp ↔
        ∀ j < tmp, rest[j]? = rest[done + j]? := by
      constructor
      · intro heq j hj
        have hget := congrArg (·[j]?) heq
        simp only [List.getElem?_take_of_lt hj, List.getElem?_drop] at hget
        exact hget
      · intro heq
        apply List.ext_getElem?
        intro j
        by_cases hj : j < tmp
        · rw [List.getElem?_take_of_lt hj, List.getElem?_take_of_lt hj, List.getElem?_drop]
          exact heq j hj
        · rw [List.getElem?_take_eq_none (by omega), List.getElem?_take_eq_none (by omega)]
    rw [List.flatMap_cons, hsplit, Repeats, ← hfirst, ← ih (by omega)]
    constructor
    · exact fun heq => List.append_inj heq hsame
    · intro heq
      rw [heq.1, heq.2]

theorem repeats_of_zeros (rest : Bytes) {done : Nat} {tmps : List Nat}
    (h : ∀ tmp ∈ tmps, tmp = 0) : Repeats rest done tmps := by
  induction tmps generalizing done with
  | nil => trivial
  | cons tmp tmps ih =>
    have hzero : tmp = 0 := h tmp List.mem_cons_self
    refine ⟨fun j hj => ?_, ih fun t ht => h t (List.mem_cons_of_mem _ ht)⟩
    omega

/-! ## The line -/

theorem append_eq {len : Nat} {n : Nat} {tmps : List Nat} (h : Writes len (n :: tmps))
    (file : Bytes) {logline : Bytes} (hlen : logline.length = len) :
    append file logline (n :: tmps) =
      file ++ (logline.take n ++ tmps.flatMap fun tmp => (logline.drop n).take tmp) := by
  obtain ⟨hn, hloop⟩ := h
  subst hlen
  simp only [append, List.headD_cons, List.tail_cons, Nat.min_eq_left hn]
  rw [retry_eq hloop, List.append_assoc]

theorem length_flatMap_take {rest : Bytes} {tmps : List Nat} (h : tmps.sum ≤ rest.length) :
    (tmps.flatMap fun tmp => rest.take tmp).length = tmps.sum := by
  induction tmps with
  | nil => rfl
  | cons tmp tmps ih =>
    rw [List.sum_cons] at h
    rw [List.flatMap_cons, List.length_append, List.length_take, List.sum_cons, ih (by omega)]
    omega

/-- The line is written once exactly if what is left of it behind the first
    write repeats itself. -/
theorem writesOnce_iff {len n : Nat} {tmps : List Nat} (h : Writes len (n :: tmps)) (file : Bytes)
    {logline : Bytes} (hlen : logline.length = len) :
    WritesOnce file logline (n :: tmps) ↔ Repeats (logline.drop n) 0 tmps := by
  have happend := append_eq h file hlen
  obtain ⟨hn, hloop⟩ := h
  obtain ⟨hsum, hall⟩ := sum_loopWrites hloop
  have hdrop : 0 + tmps.sum ≤ (logline.drop n).length := by
    rw [List.length_drop]
    omega
  have htake : logline.take (n + tmps.sum) =
      logline.take n ++ (logline.drop n).take tmps.sum := List.take_add
  rw [← flatMap_take_iff hdrop, List.drop_zero]
  constructor
  · rintro ⟨written, heq, hpre, -⟩
    rw [happend] at heq
    have hwritten := List.append_cancel_left heq
    have hlength : written.length = n + tmps.sum := by
      rw [← hwritten, List.length_append, List.length_take, length_flatMap_take (by omega)]
      omega
    have htaken := List.prefix_iff_eq_take.mp hpre
    rw [hlength, htake, ← hwritten] at htaken
    exact List.append_cancel_left htaken
  · intro heq
    refine ⟨logline.take n ++ (logline.drop n).take tmps.sum, ?_, ?_, fun hzero => ?_⟩
    · rw [happend, heq]
    · rw [← htake]
      exact List.take_prefix _ _
    · have hend : n + tmps.sum = logline.length := by
        have hrest := hall hzero
        omega
      rw [← htake, hend, List.take_length]

/-- A line on which a second write of the loop shows: its first byte behind
    the first write comes only once. -/
theorem exists_not_repeats {len n tmp next : Nat} {tmps : List Nat}
    (h : Writes len (n :: tmp :: next :: tmps)) (hnext : next ≠ 0) :
    ∃ logline : Bytes, logline.length = len ∧
      ¬ Repeats (logline.drop n) 0 (tmp :: next :: tmps) := by
  obtain ⟨hn, hremain, htmp, hrest⟩ := h
  have hpos : tmp ≠ 0 := by
    intro hzero
    rw [if_pos hzero] at hrest
    exact absurd hrest (List.cons_ne_nil _ _)
  rw [if_neg hpos] at hrest
  obtain ⟨hmore, -, -⟩ := hrest
  refine ⟨List.replicate n 0 ++ 1 :: List.replicate (len - n - 1) 0, ?_, fun hrepeats => ?_⟩
  · rw [List.length_append, List.length_replicate, List.length_cons, List.length_replicate]
    omega
  · rw [List.drop_left' List.length_replicate] at hrepeats
    have hfirst := hrepeats.2.1 0 (Nat.pos_of_ne_zero hnext)
    rw [Nat.zero_add, Nat.add_zero] at hfirst
    -- the second write should begin at a zero
    obtain ⟨t, ht⟩ := Nat.exists_eq_succ_of_ne_zero hpos
    rw [ht, List.getElem?_cons_zero, List.getElem?_cons_succ, List.getElem?_replicate,
      if_pos (by omega)] at hfirst
    exact absurd (Option.some.inj hfirst) (by decide)

/-- **The line is written once exactly if the loop writes at most once, or
    the line repeats itself**: for every line and everything the writes may
    return, what is written is right if and only if each byte the loop
    writes is the one that should stand there although it comes from the
    start of the rest; and it is right for every line of that length if and
    only if no write of the loop but the first one stores anything. -/
theorem append_writesOnce_iff (file : Bytes) (len : Nat) (fwrite : List Nat)
    (h : Writes len fwrite) :
    (∀ logline : Bytes, logline.length = len →
      (WritesOnce file logline fwrite ↔
        Repeats (logline.drop (fwrite.headD 0)) 0 fwrite.tail)) ∧
      ((∀ logline : Bytes, logline.length = len → WritesOnce file logline fwrite) ↔
        ∀ tmp ∈ fwrite.drop 2, tmp = 0) := by
  match fwrite, h with
  | n :: tmps, h =>
    refine ⟨fun logline hlen => writesOnce_iff h file hlen, fun hall => ?_, fun hzeros => ?_⟩
    · match tmps, h with
      | [], _ => simp
      | [tmp], _ => simp
      | tmp :: next :: tmps, h =>
        by_cases hnext : next = 0
        · -- that write was the last one
          obtain ⟨-, -, -, hrest⟩ := h
          split at hrest
          · exact absurd hrest (List.cons_ne_nil _ _)
          · obtain ⟨-, -, hlast⟩ := hrest
            rw [if_pos hnext] at hlast
            simp [hnext, hlast]
        · obtain ⟨logline, hlen, hnot⟩ := exists_not_repeats h hnext
          exact absurd ((writesOnce_iff h file hlen).mp (hall logline hlen)) hnot
    · intro logline hlen
      rw [writesOnce_iff h file hlen]
      cases tmps with
      | nil => trivial
      | cons tmp tmps =>
        refine ⟨fun j _ => ?_, repeats_of_zeros _ hzeros⟩
        rw [Nat.zero_add]

/-- The first write stores nothing, and the two of the loop store `ab` each:
    `abab` does not show it. -/
theorem append_writesOnce_iff_repeats :
    WritesOnce [] (bytes "abab") [0, 2, 2] ↔ Repeats (bytes "abab") 0 [2, 2] :=
  (append_writesOnce_iff [] 4 [0, 2, 2] (by decide)).1 (bytes "abab") (by decide)

/-- Three short writes: the line `abc` is logged as `abb`. -/
theorem not_append_writesOnce :
    append [] (bytes "abc") [1, 1, 1] = bytes "abb" ∧
      ¬ ∀ (file logline : Bytes) (fwrite : List Nat), Writes logline.length fwrite →
        WritesOnce file logline fwrite := by
  have hwritten : append [] (bytes "abc") [1, 1, 1] = bytes "abb" := by decide
  refine ⟨hwritten, fun h => ?_⟩
  obtain ⟨written, heq, -, hall⟩ := h [] (bytes "abc") [1, 1, 1] (by decide)
  rw [hwritten, hall (by decide), List.nil_append] at heq
  exact absurd heq (by decide)

end FileUtil

end TinyWS
