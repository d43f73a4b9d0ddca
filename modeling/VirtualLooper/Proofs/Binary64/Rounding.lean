import Mathlib.Tactic.Ring
import VirtualLooper.Binary64.Basic

/-!
# Rounding to 53 significant bits

A quotient is rounded to the multiple of some unit that is nearest to it, and of two that are as near
to the one with an even factor.  `roundEven_eq` is the test for that: a number that differs from
`q * den` by less than half of `den`, or by half of it where `q` is even, is rounded to `q`.

The unit is the power of two that leaves 53 bits to a number.  `nearest_eq_finite` rounds a number by
the power of two it lies above, and `nearest_of_le` says that whole numbers up to `2 ^ 53` are not
changed by rounding, whatever the power of two is that they are counted in.  So integers up to
`2 ^ 53` are themselves as binary64 numbers, and their products too.
-/

namespace VirtualLooper.Binary64

section RoundEven

variable {num den q r : Nat}

theorem roundEven_add (hr : r < den) (q : Nat) :
    roundEven (q * den + r) den =
      if 2 * r < den then q else if den < 2 * r then q + 1 else if q % 2 = 0 then q else q + 1 := by
  have hPos : 0 < den := Nat.zero_lt_of_lt hr
  obtain ⟨hDiv, hMod⟩ := (Nat.div_mod_unique hPos (a := q * den + r)).2
    ⟨show r + den * q = q * den + r by ring, hr⟩
  simp only [roundEven, hDiv, hMod]

/-- **A number is rounded to what it is nearest to**, and from the middle to what is even. -/
theorem roundEven_eq {e : Int} (hDen : 0 < den) (h : (num : Int) = q * den + e)
    (hNear : 2 * e.natAbs < den ∨ 2 * e.natAbs = den ∧ q % 2 = 0) : roundEven num den = q := by
  obtain ⟨r, rfl | rfl⟩ := e.eq_nat_or_neg
  · simp only [Int.natAbs_natCast] at hNear
    obtain rfl : num = q * den + r := by exact_mod_cast h
    rw [roundEven_add (by omega) q]
    rcases hNear with hLess | ⟨hHalf, hEven⟩
    · rw [if_pos hLess]
    · rw [if_neg (by omega), if_neg (by omega), if_pos hEven]
  · simp only [Int.natAbs_neg, Int.natAbs_natCast] at hNear
    have hSum : num + r = q * den := by
      have : ((num + r : Nat) : Int) = ((q * den : Nat) : Int) := by push_cast; omega
      exact_mod_cast this
    cases q with
    | zero =>
      have hZero : num = 0 ∧ r = 0 := by omega
      simp [hZero, roundEven]
    | succ p =>
      -- the number lies above `p * den`, by more than half of `den`
      rw [Nat.succ_mul] at hSum
      by_cases hr : r = 0
      · obtain rfl : num = (p + 1) * den + 0 := by rw [Nat.succ_mul]; omega
        rw [roundEven_add hDen, if_pos (by omega)]
      · obtain rfl : num = p * den + (den - r) := by omega
        rw [roundEven_add (by omega) p, if_neg (by omega)]
        rcases hNear with hLess | ⟨hHalf, hEven⟩
        · rw [if_pos (by omega)]
        · rw [if_neg (by omega), if_neg (by omega)]

theorem roundEven_mul (hDen : 0 < den) (q : Nat) : roundEven (q * den) den = q :=
  roundEven_eq (e := 0) hDen (by push_cast; ring) (Or.inl (by simpa using hDen))

theorem roundEven_le (hDen : 0 < den) (h : num ≤ q * den) : roundEven num den ≤ q := by
  rcases Nat.lt_or_eq_of_le h with hLess | rfl
  · have hFloor : num / den < q := (Nat.div_lt_iff_lt_mul hDen).2 hLess
    have hNext : roundEven num den ≤ num / den + 1 := by
      simp only [roundEven]
      split_ifs <;> omega
    omega
  · exact (roundEven_mul hDen q).le

theorem roundEven_scale {c : Nat} (hc : 0 < c) (num den : Nat) :
    roundEven (c * num) (c * den) = roundEven num den := by
  have hTwice : 2 * (c * (num % den)) = c * (2 * (num % den)) := by ring
  simp only [roundEven, Nat.mul_div_mul_left _ _ hc, Nat.mul_mod_mul_left, hTwice,
    Nat.mul_lt_mul_left hc]

end RoundEven

section Nearest

variable {num den m e q : Nat}

theorem two_pow_eq_stepsPerUnit (h : e = 1074) : 2 ^ e = stepsPerUnit := by
  unfold stepsPerUnit
  generalize 1074 = bits at h ⊢
  exact congrArg (2 ^ ·) h

theorem two_pow_lt_overflowSteps (h : e < 2098) : 2 ^ e < overflowSteps := by
  unfold overflowSteps
  generalize 2098 = bits at h ⊢
  exact Nat.pow_lt_pow_right Nat.one_lt_two h

/-- No number of 53 bits in steps of a moderate size is infinite. -/
theorem lt_overflowSteps (hm : m ≤ 2 ^ 53) (he : e ≤ 2044) : m * 2 ^ e < overflowSteps :=
  calc m * 2 ^ e ≤ 2 ^ 53 * 2 ^ e := Nat.mul_le_mul_right _ hm
    _ = 2 ^ (53 + e) := (Nat.pow_add 2 53 e).symm
    _ < overflowSteps := two_pow_lt_overflowSteps (by omega)

theorem nearest_scale {c : Nat} (hc : 0 < c) (negative : Bool) (num den : Nat) :
    nearest negative (c * num) (c * den) = nearest negative num den := by
  simp only [nearest, Nat.mul_div_mul_left _ _ hc, Nat.mul_assoc c, roundEven_scale hc]

/-- A number of 53 bits is rounded to a multiple of the power of two that stands for its last
bit. -/
theorem nearest_eq_finite (negative : Bool) (hLow : den * 2 ^ (e + 52) ≤ num)
    (hHigh : num < den * 2 ^ (e + 53)) (hRound : roundEven num (den * 2 ^ e) = q)
    (hFinite : q * 2 ^ e < overflowSteps) : nearest negative num den = finite negative (q * 2 ^ e) := by
  have hDen : 0 < den := by
    rcases Nat.eq_zero_or_pos den with rfl | hPos
    · omega
    · exact hPos
  have hAbove : 2 ^ (e + 52) ≤ num / den := by
    rw [Nat.le_div_iff_mul_le hDen, Nat.mul_comm]
    exact hLow
  have hBelow : num / den < 2 ^ (e + 52 + 1) := by
    rw [Nat.div_lt_iff_lt_mul hDen, Nat.mul_comm]
    exact hHigh
  have hSize : num / den ≠ 0 := by
    have := Nat.two_pow_pos (e + 52)
    omega
  have hExcess : excessBits (num / den) = e := by
    rw [excessBits, (Nat.log2_eq_iff hSize).2 ⟨hAbove, hBelow⟩, Nat.add_sub_cancel]
  simp only [nearest, hExcess, Nat.pow_eq, hRound]
  exact if_neg (Nat.not_le.2 hFinite)

/-- The bits that a number of at most 53 bits loses are not set. -/
theorem two_pow_excessBits_dvd (hm : m ≤ 2 ^ 53) (e : Nat) :
    2 ^ excessBits (m * 2 ^ e) ∣ m * 2 ^ e := by
  rcases Nat.eq_or_lt_of_le hm with rfl | hLess
  · rw [← Nat.pow_add, excessBits, Nat.log2_two_pow]
    exact Nat.pow_dvd_pow 2 (Nat.sub_le _ _)
  · rcases Nat.eq_zero_or_pos m with rfl | hPos
    · simp
    · have hBits : (m * 2 ^ e).log2 < 53 + e := by
        rw [Nat.log2_lt (Nat.mul_pos hPos (Nat.two_pow_pos e)).ne', Nat.pow_add]
        exact Nat.mul_lt_mul_of_pos_right hLess (Nat.two_pow_pos e)
      exact Nat.dvd_mul_left_of_dvd (Nat.pow_dvd_pow 2 (by rw [excessBits]; omega)) m

/-- **A number of at most 53 bits is not changed by rounding.** -/
theorem nearest_of_le (negative : Bool) (hm : m ≤ 2 ^ 53) (he : e ≤ 2044) (hDen : 0 < den) :
    nearest negative (m * 2 ^ e * den) den = finite negative (m * 2 ^ e) := by
  obtain ⟨c, hc⟩ := two_pow_excessBits_dvd hm e
  have hMultiple : m * 2 ^ e * den = c * (den * 2 ^ excessBits (m * 2 ^ e)) := by
    conv_lhs => rw [hc]
    ring
  have hRound : roundEven (m * 2 ^ e * den) (den * 2 ^ excessBits (m * 2 ^ e)) = c := by
    rw [hMultiple]
    exact roundEven_mul (Nat.mul_pos hDen (Nat.two_pow_pos _)) c
  simp only [nearest, Nat.mul_div_cancel _ hDen, Nat.pow_eq, hRound]
  rw [Nat.mul_comm c, ← hc]
  exact if_neg (Nat.not_le.2 (lt_overflowSteps hm he))

/-! ### Integers -/

theorem nearest_of_int (negative : Bool) (hm : m ≤ 2 ^ 53) (hDen : 0 < den) :
    nearest negative (m * stepsPerUnit * den) den = finite negative (m * stepsPerUnit) := by
  obtain ⟨e, he⟩ : ∃ e, e = 1074 := ⟨_, rfl⟩
  rw [← two_pow_eq_stepsPerUnit he]
  exact nearest_of_le negative hm (by omega) hDen

theorem nearest_zero (negative : Bool) (hDen : 0 < den) :
    nearest negative 0 den = finite negative 0 := by
  simpa using nearest_of_int negative (Nat.zero_le _) hDen

theorem ofQuotient_of_le (negative : Bool) (hm : m ≤ 2 ^ 53) :
    ofQuotient negative m 1 = finite negative (m * stepsPerUnit) := by
  rw [ofQuotient, ← nearest_of_int negative hm Nat.one_pos, Nat.mul_one]

/-- The product of two integers is exact if it has no more than 53 bits. -/
theorem mul_of_le {n : Nat} (s t : Bool) (h : m * n ≤ 2 ^ 53) :
    mul (finite s (m * stepsPerUnit)) (finite t (n * stepsPerUnit)) =
      finite (s != t) (m * n * stepsPerUnit) := by
  rw [mul, show m * stepsPerUnit * (n * stepsPerUnit) = m * n * stepsPerUnit * stepsPerUnit by ring]
  exact nearest_of_int _ h stepsPerUnit_pos

theorem place?_ofInt {n : Int} (h : n.natAbs ≤ 2 ^ 53) : (ofInt n).place? = some (.ofInt n) := by
  rw [ofInt, ofQuotient_of_le _ h, place?, Place.ofInt, signed]
  congr 2
  by_cases hNegative : n < 0
  · rw [if_pos (by simpa using hNegative)]
    push_cast
    rw [abs_of_neg hNegative]
    ring
  · rw [if_neg (by simpa using hNegative)]
    push_cast
    rw [abs_of_nonneg (by omega)]

end Nearest

end VirtualLooper.Binary64
