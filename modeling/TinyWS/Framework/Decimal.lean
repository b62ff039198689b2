import Mathlib.Data.Nat.Digits.Lemmas

/-! # Decimal Text

    The decimal text of an integer in ASCII: a minus sign if it is
    negative, and the digits without leading zeros.

    * **Specification**: what it takes for a text to be the decimal text of
      a number, and that there is only one.
    * **Construction**: the text, from the digits of the number.
    * **Division**: the digits in the order in which dividing by ten yields
      them.
    * **Length**: how many digits a number below a power of ten has. -/

namespace Decimal

/-- `-` in ASCII. -/
def minus : UInt8 := 45

/-- A digit in ASCII. -/
def digit (d : Nat) : UInt8 := UInt8.ofNat (48 + d)

/-- What a character counts as a digit. -/
def digitValue (c : UInt8) : Nat := c.toNat - 48

/-- The number a text of digits reads as. -/
def natValue (text : List UInt8) : Nat := text.foldl (fun v c => digitValue c + 10 * v) 0

/-! ## The specification -/

/-- `text` is the decimal text of `n`. -/
structure IsNat (text : List UInt8) (n : Nat) : Prop where
  nonempty : text ≠ []
  digits : ∀ c ∈ text, 48 ≤ c.toNat ∧ c.toNat ≤ 57
  leading : text.head? = some (digit 0) → text = [digit 0]
  value : natValue text = n

/-- `text` is the decimal text of `v`. -/
def IsInt (text : List UInt8) (v : Int) : Prop :=
  ∃ digits, IsNat digits v.natAbs ∧ text = if v < 0 then minus :: digits else digits

/-! ## The construction -/

/-- The digits of a number, the last one first, and one of 0. -/
def lastFirst (n : Nat) : List Nat := if n = 0 then [0] else Nat.digits 10 n

/-- The digits in ASCII, the last one first. -/
def backwards (n : Nat) : List UInt8 := (lastFirst n).map digit

def natText (n : Nat) : List UInt8 := (backwards n).reverse

def text (v : Int) : List UInt8 :=
  if v < 0 then minus :: natText v.natAbs else natText v.natAbs

/-! ## Division -/

theorem lastFirst_eq (n : Nat) :
    lastFirst n = n % 10 :: if n / 10 = 0 then [] else lastFirst (n / 10) := by
  by_cases hzero : n = 0
  · subst hzero
    rfl
  · rw [lastFirst, if_neg hzero, Nat.digits_def' (by omega) (Nat.pos_of_ne_zero hzero)]
    split
    · next hdone => rw [hdone, Nat.digits_zero]
    · next hmore => rw [lastFirst, if_neg hmore]

/-- **A division by ten** gives the last digit, and the others unless
    nothing is left. -/
theorem backwards_eq (n : Nat) :
    backwards n = digit (n % 10) :: if n / 10 = 0 then [] else backwards (n / 10) := by
  rw [backwards, lastFirst_eq, List.map_cons]
  split
  · rfl
  · rfl

/-- Turned around, the sign stands behind the digits. -/
theorem reverse_text (v : Int) :
    (text v).reverse = backwards v.natAbs ++ if v < 0 then [minus] else [] := by
  rw [text]
  split
  · rw [List.reverse_cons, natText, List.reverse_reverse]
  · rw [natText, List.reverse_reverse, List.append_nil]

theorem lt_ten_of_mem_lastFirst {n d : Nat} (h : d ∈ lastFirst n) : d < 10 := by
  rw [lastFirst] at h
  split at h
  · have hd : d = 0 := List.mem_singleton.mp h
    omega
  · exact Nat.digits_lt_base (by omega) h

/-! ## Digits -/

theorem toNat_digit {d : Nat} (h : d < 10) : (digit d).toNat = 48 + d := by
  rw [digit, UInt8.toNat_ofNat']
  omega

theorem digitValue_digit {d : Nat} (h : d < 10) : digitValue (digit d) = d := by
  rw [digitValue, toNat_digit h]
  omega

theorem digit_digitValue {c : UInt8} (h : 48 ≤ c.toNat ∧ c.toNat ≤ 57) :
    digit (digitValue c) = c := by
  apply UInt8.toNat_inj.mp
  rw [toNat_digit (by rw [digitValue]; omega), digitValue]
  omega

/-- The first digit read is the one that weighs most. -/
theorem natValue_eq_ofDigits (text : List UInt8) :
    natValue text = Nat.ofDigits 10 (text.map digitValue).reverse := by
  rw [Nat.ofDigits_eq_foldr, List.foldr_reverse, List.foldl_map]
  rfl

/-! ## Existence -/

theorem natValue_natText (n : Nat) : natValue (natText n) = n := by
  have hback : (lastFirst n).map (digitValue ∘ digit) = lastFirst n := by
    conv_rhs => rw [← List.map_id (lastFirst n)]
    exact List.map_congr_left fun d hd => digitValue_digit (lt_ten_of_mem_lastFirst hd)
  rw [natValue_eq_ofDigits, natText, backwards, List.map_reverse, List.reverse_reverse, List.map_map,
    hback, lastFirst]
  split
  · next hzero => rw [hzero]; rfl
  · exact Nat.ofDigits_digits 10 n

theorem natText_zero : natText 0 = [digit 0] := rfl

/-- The first digit is not 0. -/
theorem head?_natText_ne {n : Nat} (h : n ≠ 0) : (natText n).head? ≠ some (digit 0) := by
  have hne : Nat.digits 10 n ≠ [] := Nat.digits_ne_nil_iff_ne_zero.mpr h
  have hlast := Nat.getLast_digit_ne_zero 10 h
  have hlt := Nat.digits_lt_base (by omega) (List.getLast_mem hne)
  rw [natText, backwards, lastFirst, if_neg h, List.head?_reverse, List.getLast?_map,
    List.getLast?_eq_some_getLast hne, Option.map_some]
  intro heq
  have hvalue := congrArg digitValue (Option.some.inj heq)
  rw [digitValue_digit hlt, digitValue_digit (by omega)] at hvalue
  exact hlast hvalue

theorem isNat_natText (n : Nat) : IsNat (natText n) n where
  nonempty := by
    rw [natText, Ne, List.reverse_eq_nil_iff, backwards_eq]
    exact List.cons_ne_nil _ _
  digits := by
    intro c hc
    rw [natText, backwards, List.mem_reverse, List.mem_map] at hc
    obtain ⟨d, hd, rfl⟩ := hc
    have hlt := lt_ten_of_mem_lastFirst hd
    rw [toNat_digit hlt]
    omega
  leading := by
    intro hzero
    by_cases hn : n = 0
    · rw [hn, natText_zero]
    · exact absurd hzero (head?_natText_ne hn)
  value := natValue_natText n

/-- **Existence**: every number has a decimal text. -/
theorem isInt_text (v : Int) : IsInt (text v) v := ⟨natText v.natAbs, isNat_natText _, rfl⟩

/-! ## Uniqueness -/

variable {t : List UInt8} {n : Nat} {v : Int}

/-- A text without a leading 0 has the digits of its number. -/
theorem IsNat.digits_eq (h : IsNat t n) (hlead : t.head? ≠ some (digit 0)) :
    Nat.digits 10 n = (t.map digitValue).reverse := by
  have hlt : ∀ d ∈ (t.map digitValue).reverse, d < 10 := by
    intro d hd
    rw [List.mem_reverse, List.mem_map] at hd
    obtain ⟨c, hc, rfl⟩ := hd
    have hdigit := h.digits c hc
    rw [digitValue]
    omega
  -- the first digit of the text is the last one of the list
  have hlast : ∀ hne : (t.map digitValue).reverse ≠ [],
      (t.map digitValue).reverse.getLast hne ≠ 0 := by
    intro hne hzero
    obtain ⟨c, cs, rfl⟩ := List.exists_cons_of_ne_nil h.nonempty
    have hfirst : ((c :: cs).map digitValue).reverse.getLast hne = digitValue c := by simp
    have hc := digit_digitValue (h.digits c List.mem_cons_self)
    rw [← hfirst, hzero] at hc
    exact hlead (by rw [List.head?_cons, hc])
  rw [← h.value, natValue_eq_ofDigits]
  exact Nat.digits_ofDigits 10 (by omega) _ hlt hlast

theorem IsNat.eq_natText (h : IsNat t n) : t = natText n := by
  by_cases hlead : t.head? = some (digit 0)
  · -- the text of 0
    have ht := h.leading hlead
    have hn : n = 0 := by
      rw [← h.value, ht]
      rfl
    rw [ht, hn, natText_zero]
  · have hdigits := h.digits_eq hlead
    have hn : n ≠ 0 := by
      intro hzero
      rw [hzero, Nat.digits_zero] at hdigits
      have hnil := List.reverse_eq_nil_iff.mp hdigits.symm
      exact h.nonempty (List.map_eq_nil_iff.mp hnil)
    have hback : t.map (digit ∘ digitValue) = t := by
      conv_rhs => rw [← List.map_id t]
      exact List.map_congr_left fun c hc => digit_digitValue (h.digits c hc)
    rw [natText, backwards, lastFirst, if_neg hn, hdigits, List.map_reverse, List.reverse_reverse,
      List.map_map, hback]

/-- **Uniqueness**: a number has one decimal text. -/
theorem IsInt.eq_text (h : IsInt t v) : t = text v := by
  obtain ⟨digits, hdigits, ht⟩ := h
  rw [ht, hdigits.eq_natText, text]

/-- `text` is the one that meets the specification. -/
theorem isInt_iff : IsInt t v ↔ t = text v := by
  constructor
  · exact IsInt.eq_text
  · intro ht
    rw [ht]
    exact isInt_text v

/-! ## Length -/

/-- `n` has at most `k` digits. -/
theorem length_natText_le_iff {k : Nat} (hk : 0 < k) : (natText n).length ≤ k ↔ n < 10 ^ k := by
  rw [natText, backwards, List.length_reverse, List.length_map, lastFirst]
  split
  · next hzero =>
    rw [hzero]
    exact iff_of_true hk (Nat.pow_pos (by omega))
  · exact Nat.digits_length_le_iff (by omega) n

/-- The sign takes the place of a digit. -/
theorem length_text_le_iff {k : Nat} (hk : 0 < k) :
    (text v).length ≤ k + 1 ↔ -10 ^ k < v ∧ v < 10 ^ (k + 1) := by
  have hpos0 : 0 < 10 ^ k := Nat.pow_pos (by omega)
  have hpos1 : 0 < 10 ^ (k + 1) := Nat.pow_pos (by omega)
  have hcast0 : ((10 ^ k : Nat) : Int) = 10 ^ k := Int.natCast_pow 10 k
  have hcast1 : ((10 ^ (k + 1) : Nat) : Int) = 10 ^ (k + 1) := Int.natCast_pow 10 (k + 1)
  rw [text]
  split
  · rw [List.length_cons, Nat.add_le_add_iff_right, length_natText_le_iff hk]
    omega
  · rw [length_natText_le_iff (by omega)]
    omega

end Decimal
