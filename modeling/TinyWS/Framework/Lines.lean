import Mathlib.Data.List.Basic

/-! # Streams Cut Into Lines

    A stream over any alphabet is cut at every occurrence of a
    two-symbol delimiter `a b` with `a ≠ b`.  Such a delimiter cannot
    overlap itself, so the lines of a stream do not depend on how the
    stream arrived:

    * `findPair`: the index of the first delimiter, if any.
    * `splitLines`: the complete lines and the unfinished remainder.
    * `splitLines_append`: appending to a stream only continues its
      remainder; the lines already complete stay as they are.
-/

universe u

namespace Lines

variable {α : Type u}

/-- Write lines back, each one followed by the delimiter. -/
def unlines (a b : α) (ls : List (List α)) : List α :=
  ls.flatMap (· ++ [a, b])

@[simp] theorem unlines_nil {a b : α} : unlines a b [] = [] := rfl

@[simp] theorem unlines_cons {a b : α} (l : List α) (ls : List (List α)) :
    unlines a b (l :: ls) = l ++ a :: b :: unlines a b ls := by
  simp [unlines]

@[simp] theorem unlines_append {a b : α} (ls ks : List (List α)) :
    unlines a b (ls ++ ks) = unlines a b ls ++ unlines a b ks := by
  simp [unlines]

variable [DecidableEq α]

/-- The index of the first occurrence of `a b`. -/
def findPair (a b : α) : List α → Option Nat
  | x :: y :: xs =>
      if x = a ∧ y = b then some 0 else (findPair a b (y :: xs)).map (· + 1)
  | _ => none

/-- The complete lines of a stream and what is left after the last delimiter. -/
def splitLines (a b : α) : List α → List (List α) × List α
  | [] => ([], [])
  | [x] => ([], [x])
  | x :: y :: xs =>
      if x = a ∧ y = b then
        ([] :: (splitLines a b xs).1, (splitLines a b xs).2)
      else
        match splitLines a b (y :: xs) with
        | ([], r) => ([], x :: r)
        | (l :: ls, r) => ((x :: l) :: ls, r)

variable {a b : α}

@[simp] theorem findPair_nil : findPair a b ([] : List α) = none := rfl

@[simp] theorem findPair_singleton {x : α} : findPair a b [x] = none := rfl

@[simp] theorem findPair_delimiter {xs : List α} : findPair a b (a :: b :: xs) = some 0 :=
  if_pos ⟨rfl, rfl⟩

theorem findPair_later {x y : α} (hxy : ¬ (x = a ∧ y = b)) (xs : List α) :
    findPair a b (x :: y :: xs) = (findPair a b (y :: xs)).map (· + 1) :=
  if_neg hxy

theorem findPair_later_eq_none {x y : α} (hxy : ¬ (x = a ∧ y = b)) {xs : List α} :
    findPair a b (x :: y :: xs) = none ↔ findPair a b (y :: xs) = none := by
  rw [findPair_later hxy, Option.map_eq_none_iff]

/-- A stream is at its end, or at a delimiter, or the delimiter is later. -/
@[elab_as_elim]
theorem pair_induction (a b : α) {motive : List α → Prop} (nil : motive [])
    (singleton : ∀ x, motive [x]) (delimiter : ∀ xs, motive (a :: b :: xs))
    (later : ∀ x y xs, ¬ (x = a ∧ y = b) → motive (y :: xs) → motive (x :: y :: xs))
    (xs : List α) : motive xs := by
  induction xs with
  | nil => exact nil
  | cons x xs ih =>
    cases xs with
    | nil => exact singleton x
    | cons y xs =>
      by_cases hxy : x = a ∧ y = b
      · obtain ⟨rfl, rfl⟩ := hxy
        exact delimiter xs
      · exact later x y xs hxy ih

/-! ## The first delimiter -/

/-- A delimiter that was found ends inside the stream. -/
theorem findPair_lt {xs : List α} {i : Nat} (h : findPair a b xs = some i) :
    i + 2 ≤ xs.length := by
  induction xs using pair_induction a b generalizing i with
  | nil => cases h
  | singleton x => cases h
  | delimiter xs =>
    rw [findPair_delimiter] at h
    cases h
    simp
  | later x y xs hxy ih =>
    rw [findPair_later hxy, Option.map_eq_some_iff] at h
    obtain ⟨j, hj, rfl⟩ := h
    have := ih hj
    simp only [List.length_cons] at this ⊢
    omega

/-- What stands before, at and after the first delimiter. -/
theorem findPair_eq_some {xs : List α} {i : Nat} (h : findPair a b xs = some i) :
    xs = xs.take i ++ a :: b :: xs.drop (i + 2) ∧ findPair a b (xs.take i) = none := by
  induction xs using pair_induction a b generalizing i with
  | nil => cases h
  | singleton x => cases h
  | delimiter xs =>
    rw [findPair_delimiter] at h
    cases h
    exact ⟨rfl, rfl⟩
  | later x y xs hxy ih =>
    rw [findPair_later hxy, Option.map_eq_some_iff] at h
    obtain ⟨j, hj, rfl⟩ := h
    obtain ⟨hsplit, hnone⟩ := ih hj
    refine ⟨?_, ?_⟩
    · simpa using hsplit
    · cases j with
      | zero => rfl
      | succ j =>
        rw [List.take_succ_cons] at hnone
        rw [List.take_succ_cons, List.take_succ_cons, findPair_later_eq_none hxy]
        exact hnone

/-- A symbol outside the delimiter cannot complete or begin one. -/
theorem findPair_append_cons {c : α} (ha : c ≠ a) (hb : c ≠ b) {xs ys : List α}
    (hxs : findPair a b xs = none) (hys : findPair a b ys = none) :
    findPair a b (xs ++ c :: ys) = none := by
  have hcons : findPair a b (c :: ys) = none := by
    cases ys with
    | nil => rfl
    | cons y ys => exact (findPair_later_eq_none fun h => ha h.1).mpr hys
  induction xs using pair_induction a b with
  | nil => exact hcons
  | singleton x => exact (findPair_later_eq_none fun h => hb h.2).mpr hcons
  | delimiter xs => simp at hxs
  | later x y xs hxy ih =>
    exact (findPair_later_eq_none hxy).mpr (ih ((findPair_later_eq_none hxy).mp hxs))

/-- No delimiter in a stream, none in its parts. -/
theorem findPair_append {xs ys : List α} (h : findPair a b (xs ++ ys) = none) :
    findPair a b xs = none ∧ findPair a b ys = none := by
  induction xs using pair_induction a b with
  | nil => exact ⟨rfl, h⟩
  | singleton x =>
    refine ⟨rfl, ?_⟩
    cases ys with
    | nil => rfl
    | cons y ys =>
      by_cases hxy : x = a ∧ y = b
      · obtain ⟨rfl, rfl⟩ := hxy
        simp at h
      · exact (findPair_later_eq_none hxy).mp h
  | delimiter xs => simp at h
  | later x y xs hxy ih =>
    obtain ⟨hxs, hys⟩ := ih ((findPair_later_eq_none hxy).mp h)
    exact ⟨(findPair_later_eq_none hxy).mpr hxs, hys⟩

/-! ## Cutting and writing back -/

@[simp] theorem splitLines_delimiter {xs : List α} :
    splitLines a b (a :: b :: xs) = ([] :: (splitLines a b xs).1, (splitLines a b xs).2) :=
  if_pos ⟨rfl, rfl⟩

/-- A symbol before the delimiter goes to the front of the line. -/
theorem splitLines_later {x y : α} (hxy : ¬ (x = a ∧ y = b)) (xs : List α) :
    splitLines a b (x :: y :: xs) =
      match splitLines a b (y :: xs) with
      | ([], r) => ([], x :: r)
      | (l :: ls, r) => ((x :: l) :: ls, r) :=
  if_neg hxy

theorem splitLines_of_none {xs : List α} (h : findPair a b xs = none) :
    splitLines a b xs = ([], xs) := by
  induction xs using pair_induction a b with
  | nil => rfl
  | singleton x => rfl
  | delimiter xs => simp at h
  | later x y xs hxy ih => rw [splitLines_later hxy, ih ((findPair_later_eq_none hxy).mp h)]

/-- Cutting at the first delimiter and going on after it. -/
theorem splitLines_line (hab : a ≠ b) {l : List α} (hl : findPair a b l = none)
    (rest : List α) :
    splitLines a b (l ++ a :: b :: rest) =
      (l :: (splitLines a b rest).1, (splitLines a b rest).2) := by
  induction l using pair_induction a b with
  | nil => exact splitLines_delimiter
  | singleton x =>
    show splitLines a b (x :: a :: b :: rest) = _
    rw [splitLines_later fun h => hab h.2, splitLines_delimiter]
  | delimiter xs => simp at hl
  | later x y xs hxy ih =>
    have hrest := ih ((findPair_later_eq_none hxy).mp hl)
    rw [List.cons_append] at hrest
    rw [List.cons_append, List.cons_append, splitLines_later hxy, hrest]

theorem splitLines_of_some (hab : a ≠ b) {xs : List α} {i : Nat}
    (h : findPair a b xs = some i) :
    splitLines a b xs =
      (xs.take i :: (splitLines a b (xs.drop (i + 2))).1,
        (splitLines a b (xs.drop (i + 2))).2) := by
  obtain ⟨hsplit, hnone⟩ := findPair_eq_some h
  conv_lhs => rw [hsplit]
  exact splitLines_line hab hnone _

/-- The lines of a text that was written line by line. -/
theorem splitLines_unlines (hab : a ≠ b) {ls : List (List α)} {r : List α}
    (hls : ∀ l ∈ ls, findPair a b l = none) :
    splitLines a b (unlines a b ls ++ r) =
      (ls ++ (splitLines a b r).1, (splitLines a b r).2) := by
  induction ls with
  | nil => simp
  | cons l ls ih =>
    have hl := hls l (by simp)
    have ih' := ih fun k hk => hls k (by simp [hk])
    simp only [unlines_cons, List.append_assoc, List.cons_append]
    rw [splitLines_line hab hl, ih']

/-- Cutting loses nothing, and no piece contains a delimiter. -/
theorem splitLines_spec (hab : a ≠ b) (xs : List α) :
    xs = unlines a b (splitLines a b xs).1 ++ (splitLines a b xs).2 ∧
      (∀ l ∈ (splitLines a b xs).1, findPair a b l = none) ∧
      findPair a b (splitLines a b xs).2 = none := by
  induction h : xs.length using Nat.strongRecOn generalizing xs with
  | ind n ih =>
    cases hf : findPair a b xs with
    | none => simp [splitLines_of_none hf, hf]
    | some i =>
      have hlt := findPair_lt hf
      obtain ⟨hsplit, hnone⟩ := findPair_eq_some hf
      have hlen : (xs.drop (i + 2)).length < n := by
        rw [List.length_drop]; omega
      obtain ⟨hback, hlines, hrest⟩ := ih _ hlen (xs.drop (i + 2)) rfl
      rw [splitLines_of_some hab hf]
      refine ⟨?_, ?_, hrest⟩
      · rw [unlines_cons, List.append_assoc, List.cons_append, List.cons_append, ← hback]
        exact hsplit
      · intro l hl
        rcases List.mem_cons.mp hl with rfl | hl
        · exact hnone
        · exact hlines l hl

/-- Appending to a stream only continues its remainder. -/
theorem splitLines_append (hab : a ≠ b) (xs ys : List α) :
    splitLines a b (xs ++ ys) =
      ((splitLines a b xs).1 ++ (splitLines a b ((splitLines a b xs).2 ++ ys)).1,
        (splitLines a b ((splitLines a b xs).2 ++ ys)).2) := by
  obtain ⟨hback, hlines, -⟩ := splitLines_spec hab xs
  conv_lhs => rw [hback, List.append_assoc]
  exact splitLines_unlines hab hlines

end Lines
