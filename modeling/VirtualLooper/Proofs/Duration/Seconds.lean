import VirtualLooper.Proofs.Duration.Spelling

/-!
# Seconds with a fraction

A number of seconds with up to three digits behind the point is a whole number of milliseconds, but
it is no binary64 number: it is rounded when it is read, and again when it is multiplied by 1000.
Let the seconds lie between `2 ^ k` and `2 ^ (k + 1)`.  They are read as a multiple of
`2 ^ (k - 52)`, so that in units of this size the product differs from the milliseconds by what the
milliseconds differ from a multiple of 1000 (`distance`).  Then the product is rounded to a multiple
of 1024 units, or of 512 where it lies below `2 ^ (k + 10)`.  The milliseconds are such a multiple,
and since the difference is less than 500 units, they are what comes out in the first case.  In the
second case they do only if the difference is at most 256 units.

Where they do not, the result is off by 512 units.  As long as this is no more than the tolerance,
nothing is lost; from `k = 14` on it is more, and the duration is refused, or, for `k = 43`, where
512 units are a millisecond, read as another one.  `Slips` says exactly which durations these
are.
-/

namespace VirtualLooper.Duration

open Text Binary64

/-! ### Rounding twice -/

def distance (w : Nat) : Nat := min (w % 1000) (1000 - w % 1000)

section Product

variable {w y q e f : Nat}

/-- A multiple of 512 never lies in the middle between two multiples of 1000. -/
theorem exists_deviation (hw : w = y * 512) :
    ∃ d : Int, ((1000 * roundEven w 1000 : Nat) : Int) = w + d ∧ d.natAbs = distance w ∧
      d.natAbs < 500 := by
  have hMiddle : w % 1000 ≠ 500 := by omega
  have hSplit : (w : Int) = (w / 1000 : Nat) * 1000 + (w % 1000 : Nat) := by omega
  rw [distance]
  generalize w % 1000 = r at hMiddle hSplit
  by_cases hBelow : r < 500
  · have hRound : roundEven w 1000 = w / 1000 :=
      roundEven_eq (e := r) (by decide) hSplit (Or.inl (by omega))
    refine ⟨-(r : Int), ?_, ?_, ?_⟩
    · rw [hRound, hSplit]
      push_cast
      ring
    · rw [Int.natAbs_neg, Int.natAbs_natCast]
      omega
    · rwa [Int.natAbs_neg, Int.natAbs_natCast]
  · have hRound : roundEven w 1000 = w / 1000 + 1 :=
      roundEven_eq (e := r - 1000) (by decide) (by push_cast; omega) (Or.inl (by omega))
    rw [hRound]
    exact ⟨1000 - r, by push_cast; omega, by omega, by omega⟩

/-- Where the product is rounded to multiples of 1024, what was lost before comes back. -/
theorem roundEven_wide (hw : w = y * 1024) : roundEven (1000 * roundEven w 1000) 1024 = y := by
  obtain ⟨d, hd, -, hSmall⟩ := exists_deviation (y := y * 2) (hw.trans (by ring))
  generalize 1000 * roundEven w 1000 = product at hd ⊢
  exact roundEven_eq (e := d) (by decide) (by omega) (Or.inl (by omega))

/-- Is so much lost that it does not come back where the product is rounded to multiples of 512? -/
def IsFar (w : Nat) : Prop := 256 < distance w ∨ distance w = 256 ∧ w / 512 % 2 = 1

instance (w : Nat) : Decidable (IsFar w) := inferInstanceAs (Decidable (_ ∨ _))

theorem roundEven_near (hw : w = y * 512) (hNear : ¬ IsFar w) :
    roundEven (1000 * roundEven w 1000) 512 = y := by
  obtain ⟨d, hd, hDistance, hSmall⟩ := exists_deviation hw
  rw [IsFar, ← hDistance] at hNear
  generalize 1000 * roundEven w 1000 = product at hd ⊢
  exact roundEven_eq (e := d) (by decide) (by omega) (by omega)

/-- Otherwise the product is rounded to one of the neighbouring multiples. -/
theorem roundEven_far (hw : w = y * 512) (hFar : IsFar w) :
    ∃ y', roundEven (1000 * roundEven w 1000) 512 = y' ∧ (y' = y + 1 ∨ y' + 1 = y) := by
  obtain ⟨d, hd, hDistance, hSmall⟩ := exists_deviation hw
  rw [IsFar, ← hDistance] at hFar
  generalize 1000 * roundEven w 1000 = product at hd ⊢
  rcases lt_or_ge d 0 with hNegative | hPositive
  · refine ⟨y - 1, roundEven_eq (e := d + 512) (by decide) (by omega) (by omega), by omega⟩
  · refine ⟨y + 1, roundEven_eq (e := d - 512) (by decide) (by omega) (by omega), by omega⟩

/-- The product lies above `2 ^ 62` if the milliseconds do: those seconds are rounded up. -/
theorem two_pow_le_product (hw : w = y * 512) (hLow : 2 ^ 62 ≤ w) :
    2 ^ 62 ≤ 1000 * roundEven w 1000 := by
  rcases Nat.eq_or_lt_of_le hLow with rfl | hLess
  · decide
  · obtain ⟨d, hd, -, hSmall⟩ := exists_deviation hw
    omega

end Product

section Scaled

variable {a i e f q y : Nat}

/-- A number of thousandths that is moderate in units of `2 ^ e` steps is rounded to such units. -/
theorem nearest_thousandths (negative : Bool) (hUnit : e + i = 1074)
    (hLow : 1000 * 2 ^ 52 ≤ a * 2 ^ i) (hHigh : a * 2 ^ i < 1000 * 2 ^ 53) :
    nearest negative (a * stepsPerUnit) 1000 =
      finite negative (roundEven (a * 2 ^ i) 1000 * 2 ^ e) := by
  have hSteps : a * stepsPerUnit = 2 ^ e * (a * 2 ^ i) := by
    rw [← two_pow_eq_stepsPerUnit hUnit, pow_add]
    ring
  have hBits : roundEven (a * 2 ^ i) 1000 ≤ 2 ^ 53 := roundEven_le (by decide) (by omega)
  refine nearest_eq_finite negative ?_ ?_ ?_ (lt_overflowSteps hBits (by omega))
  · calc 1000 * 2 ^ (e + 52) = 2 ^ e * (1000 * 2 ^ 52) := by rw [pow_add]; ring
      _ ≤ 2 ^ e * (a * 2 ^ i) := Nat.mul_le_mul_left _ hLow
      _ = a * stepsPerUnit := hSteps.symm
  · calc a * stepsPerUnit = 2 ^ e * (a * 2 ^ i) := hSteps
      _ < 2 ^ e * (1000 * 2 ^ 53) := Nat.mul_lt_mul_of_pos_left hHigh (Nat.two_pow_pos e)
      _ = 1000 * 2 ^ (e + 53) := by rw [pow_add]; ring
  · rw [hSteps, Nat.mul_comm 1000, roundEven_scale (Nat.two_pow_pos e)]

/-- The product of a number of seconds and 1000 is rounded to 53 bits. -/
theorem mul_perSecond (negative : Bool) (hLow : 2 ^ (52 + f) ≤ 1000 * q)
    (hHigh : 1000 * q < 2 ^ (53 + f)) (hRound : roundEven (1000 * q) (2 ^ f) = y)
    (hBits : y ≤ 2 ^ 53) (hExponent : e + f ≤ 2044) :
    mul (finite negative (q * 2 ^ e)) perSecond = finite negative (y * 2 ^ (e + f)) := by
  have hProduct : q * 2 ^ e * (1000 * stepsPerUnit) = stepsPerUnit * (2 ^ e * (1000 * q)) := by ring
  have hScale := nearest_scale stepsPerUnit_pos negative (2 ^ e * (1000 * q)) 1
  rw [Nat.mul_one] at hScale
  rw [perSecond_eq, mul, Bool.bne_false, hProduct, hScale]
  refine nearest_eq_finite negative ?_ ?_ ?_ (lt_overflowSteps hBits hExponent)
  · calc 1 * 2 ^ (e + f + 52) = 2 ^ e * 2 ^ (52 + f) := by rw [← pow_add]; ring
      _ ≤ 2 ^ e * (1000 * q) := Nat.mul_le_mul_left _ hLow
  · calc 2 ^ e * (1000 * q) < 2 ^ e * 2 ^ (53 + f) :=
          Nat.mul_lt_mul_of_pos_left hHigh (Nat.two_pow_pos e)
      _ = 1 * 2 ^ (e + f + 53) := by rw [← pow_add]; ring
  · rw [Nat.one_mul, pow_add, roundEven_scale (Nat.two_pow_pos e), hRound]

/-- The binary64 number of milliseconds that is read from so many thousandths of a second. -/
def ofThousandths (negative : Bool) (a : Nat) : Binary64 :=
  mul (nearest negative (a * stepsPerUnit) 1000) perSecond

theorem lt_of_moderate {b : Nat} (ha : a < 2 ^ 53) (hLow : 2 ^ (53 + b) ≤ a * 2 ^ i) : b < i := by
  have hLess : 2 ^ (53 + b) < 2 ^ (53 + i) := by
    refine hLow.trans_lt ?_
    rw [pow_add]
    exact Nat.mul_lt_mul_of_pos_right ha (Nat.two_pow_pos i)
  have := (Nat.pow_lt_pow_iff_right Nat.one_lt_two).1 hLess
  omega

/-- The number of units is then a multiple of the last bit of the product. -/
theorem exists_add_nine (ha : a < 2 ^ 53) (hLow : 1000 * 2 ^ 52 ≤ a * 2 ^ i) : ∃ j, i = j + 9 :=
  have hGreater : 8 < i := lt_of_moderate ha (by omega)
  Nat.exists_eq_add_of_le' hGreater

theorem mul_two_pow_add_nine (a j : Nat) : a * 2 ^ (j + 9) = a * 2 ^ j * 512 := by
  rw [pow_add]
  ring

theorem ofThousandths_zero (negative : Bool) :
    ofThousandths negative 0 = finite negative (0 * stepsPerUnit) := by
  have hProduct := mul_of_le (m := 0) (n := 1000) negative false (by decide)
  simp only [Bool.bne_false, Nat.zero_mul] at hProduct
  simp only [ofThousandths, Nat.zero_mul, nearest_zero negative (by decide : 0 < 1000),
    perSecond_eq, hProduct]

/-- From `2 ^ 62` units on, the milliseconds come out as they were written. -/
theorem ofThousandths_wide (negative : Bool) (hUnit : e + i = 1074) (ha : a < 2 ^ 53)
    (hLow : 2 ^ 62 ≤ a * 2 ^ i) (hHigh : a * 2 ^ i < 1000 * 2 ^ 53) :
    ofThousandths negative a = finite negative (a * stepsPerUnit) := by
  obtain ⟨j, rfl⟩ : ∃ j, i = j + 10 := ⟨i - 10, by have : 9 < i := lt_of_moderate ha hLow; omega⟩
  have hw : a * 2 ^ (j + 10) = a * 2 ^ j * 1024 := by
    rw [pow_add]
    ring
  have hHalf : a * 2 ^ (j + 10) = a * 2 ^ j * 2 * 512 := hw.trans (by ring)
  obtain ⟨d, hd, -, hSmall⟩ := exists_deviation hHalf
  have hSteps : a * 2 ^ j * 2 ^ (e + 10) = a * stepsPerUnit := by
    rw [← two_pow_eq_stepsPerUnit hUnit]
    ring
  rw [ofThousandths, nearest_thousandths negative hUnit (by omega) hHigh, ← hSteps]
  exact mul_perSecond negative (f := 10) (two_pow_le_product hHalf hLow) (by omega)
    (roundEven_wide hw) (by omega) (by omega)

theorem ofThousandths_narrow (negative : Bool) (hUnit : e + i = 1074) (ha : a < 2 ^ 53)
    (hLow : 1000 * 2 ^ 52 ≤ a * 2 ^ i) (hHigh : a * 2 ^ i < 2 ^ 62)
    (hRound : roundEven (1000 * roundEven (a * 2 ^ i) 1000) 512 = y) :
    ofThousandths negative a = finite negative (y * 2 ^ (e + 9)) := by
  obtain ⟨j, rfl⟩ := exists_add_nine ha hLow
  have hw := mul_two_pow_add_nine a j
  obtain ⟨d, hd, -, hSmall⟩ := exists_deviation hw
  have hProduct : 1000 * roundEven (a * 2 ^ (j + 9)) 1000 < 2 ^ 62 := by omega
  have hBits : y ≤ 2 ^ 53 := hRound ▸ roundEven_le (by decide) (by omega)
  rw [ofThousandths, nearest_thousandths negative hUnit hLow (by omega)]
  exact mul_perSecond negative (f := 9) (by omega) hProduct hRound hBits (by omega)

end Scaled

/-! ### The tolerance -/

section Tolerance

variable {b c d : Nat}

theorem ofDecimal_places (negative : Bool) {digits places : Nat} (hDigits : digits ≠ 0)
    (hSome : 1 ≤ places) (hFew : places ≤ 400) :
    ofDecimal negative digits (-places) = nearest negative (digits * stepsPerUnit) (10 ^ places) := by
  have hPlaces : (-(-(places : Int))).toNat = places := by omega
  rw [ofDecimal, if_neg hDigits, if_neg (by rw [hugeExponent]; omega),
    if_neg (by rw [hugeExponent]; omega), if_neg (by omega), hPlaces, ofQuotient, Nat.pow_eq]

theorem tolerance_eq (hc : c = 992) : tolerance = finite false (4835703278458517 * 2 ^ c) := by
  have hUnit : c + 82 = 1074 := by omega
  have hSteps : 1 * stepsPerUnit = 2 ^ c * 2 ^ 82 := by
    rw [Nat.one_mul, ← two_pow_eq_stepsPerUnit hUnit, pow_add]
  have hDecimal : tolerance = nearest false (1 * stepsPerUnit) (10 ^ 9) :=
    ofDecimal_places false (by decide) (by decide) (by decide)
  rw [hDecimal, hSteps]
  refine nearest_eq_finite false ?_ ?_ ?_ (lt_overflowSteps (by decide) (by omega))
  · calc 10 ^ 9 * 2 ^ (c + 52) = 2 ^ c * (10 ^ 9 * 2 ^ 52) := by rw [pow_add]; ring
      _ ≤ 2 ^ c * 2 ^ 82 := Nat.mul_le_mul_left _ (by decide)
  · calc 2 ^ c * 2 ^ 82 < 2 ^ c * (10 ^ 9 * 2 ^ 53) :=
          Nat.mul_lt_mul_of_pos_left (by decide) (Nat.two_pow_pos c)
      _ = 10 ^ 9 * 2 ^ (c + 53) := by rw [pow_add]; ring
  · rw [Nat.mul_comm (10 ^ 9), roundEven_scale (Nat.two_pow_pos c)]
    decide

theorem exceeds_of_le (hb : 1045 ≤ b) (hd : 2 ^ b ≤ d) : exceeds d tolerance = true := by
  obtain ⟨c, hc⟩ : ∃ c, c = 992 := ⟨_, rfl⟩
  have hLess : 4835703278458517 * 2 ^ c < 2 ^ (53 + c) := by
    rw [pow_add]
    exact Nat.mul_lt_mul_of_pos_right (by decide) (Nat.two_pow_pos c)
  have hPow : 2 ^ (53 + c) ≤ 2 ^ b := Nat.pow_le_pow_right (by decide) (by omega)
  rw [tolerance_eq hc, exceeds, decide_eq_true_eq]
  omega

theorem exceeds_two_pow (hb : b ≤ 1044) : exceeds (2 ^ b) tolerance = false := by
  obtain ⟨c, hc⟩ : ∃ c, c = 992 := ⟨_, rfl⟩
  have hLess : 2 ^ (52 + c) ≤ 4835703278458517 * 2 ^ c := by
    rw [pow_add]
    exact Nat.mul_le_mul_right _ (by decide)
  have hPow : 2 ^ b ≤ 2 ^ (52 + c) := Nat.pow_le_pow_right (by decide) (by omega)
  rw [tolerance_eq hc, exceeds, decide_eq_false_iff_not]
  omega

end Tolerance

section Off

variable {a b g y : Nat}

theorem offset_mul_two_pow (hUnit : b + g = 1074) (y n : Nat) :
    offset (y * 2 ^ b) n = ((y : Int) - n * 2 ^ g).natAbs * 2 ^ b := by
  rw [offset, ← two_pow_eq_stepsPerUnit hUnit, pow_add]
  push_cast
  rw [show (y : Int) * 2 ^ b - n * (2 ^ b * 2 ^ g) = (y - n * 2 ^ g) * 2 ^ b by ring,
    Int.natAbs_mul, Int.natAbs_pow]
  rfl

/-- Next to a number of milliseconds and off by more than the tolerance, there is no other one. -/
theorem whole_refused (given : Value) (negative : Bool) (hUnit : b + g = 1074) (hg : 1 ≤ g)
    (hb : 1045 ≤ b) (hy : y = a * 2 ^ g + 1 ∨ y + 1 = a * 2 ^ g) :
    whole given (finite negative (y * 2 ^ b)) = .error (.fractionalDuration given) := by
  have hOffset : ∀ n, 2 ^ b ≤ offset (y * 2 ^ b) n := by
    intro n
    obtain ⟨h, rfl⟩ : ∃ h, g = h + 1 := ⟨g - 1, by omega⟩
    -- what lies next to an even number is odd
    have hDiffer : (y : Int) ≠ n * 2 ^ (h + 1) := by
      intro hEqual
      have hNat : y = n * 2 ^ (h + 1) := by exact_mod_cast hEqual
      rw [pow_succ, ← Nat.mul_assoc] at hNat hy
      omega
    rw [offset_mul_two_pow hUnit]
    exact Nat.le_mul_of_pos_left _ (Int.natAbs_pos.2 (sub_ne_zero.2 hDiffer))
  simp only [whole, exceeds_of_le hb (hOffset _), if_true]

/-- Next to a number of milliseconds and within the tolerance, it is that number. -/
theorem whole_tolerated (given : Value) (negative : Bool) (hUnit : b + g = 1074) (hg : 2 ≤ g)
    (hb : b ≤ 1044) (hy : y = a * 2 ^ g + 1 ∨ y + 1 = a * 2 ^ g) :
    whole given (finite negative (y * 2 ^ b)) = .ok (if negative then -(a : Int) else a) := by
  obtain ⟨d, hd, hOne⟩ : ∃ d : Int, (y : Int) = a * 2 ^ g + d ∧ d.natAbs = 1 := by
    rcases hy with hAbove | hBelow
    · exact ⟨1, by exact_mod_cast hAbove, rfl⟩
    · have hCast : (y : Int) + 1 = a * 2 ^ g := by exact_mod_cast hBelow
      exact ⟨-1, by omega, rfl⟩
  have hRound : roundEven (y * 2 ^ b) stepsPerUnit = a := by
    have hFour : 2 ^ 2 ≤ 2 ^ g := Nat.pow_le_pow_right (by decide) hg
    refine roundEven_eq (e := d * 2 ^ b) stepsPerUnit_pos ?_ (Or.inl ?_)
    · rw [← two_pow_eq_stepsPerUnit hUnit, pow_add]
      push_cast
      rw [hd]
      ring
    · rw [Int.natAbs_mul, hOne, Int.natAbs_pow, ← two_pow_eq_stepsPerUnit hUnit, pow_add,
        Nat.one_mul, Nat.mul_comm]
      exact Nat.mul_lt_mul_of_pos_left (by omega) (Nat.two_pow_pos b)
  have hOffset : offset (y * 2 ^ b) a = 2 ^ b := by
    rw [offset_mul_two_pow hUnit, hd, add_sub_cancel_left, hOne, Nat.one_mul]
  simp only [whole, hRound, hOffset, exceeds_two_pow hb, Bool.false_eq_true, if_false]

end Off

/-! ### Which durations are read -/

/-- A number of thousandths of a second, of 53 bits, that does not come out of the two roundings.
The seconds lie above `2 ^ k`, by less than a fortieth of it, and are too far from what they are
read as. -/
structure Slips (a k : Nat) : Prop where
  ge : 14 ≤ k
  low : 1000 * 2 ^ k ≤ a
  high : a < 1024 * 2 ^ k
  far : IsFar (a * 2 ^ (52 - k))

section Slips

variable {a i k : Nat}

theorem exists_moderate (hPos : 0 < a) (ha : a < 2 ^ 53) :
    ∃ i ≤ 62, 1000 * 2 ^ 52 ≤ a * 2 ^ i ∧ a * 2 ^ i < 1000 * 2 ^ 53 := by
  have hLog : a.log2 < 53 := (Nat.log2_lt hPos.ne').2 ha
  have hBelow : 2 ^ a.log2 * 2 ^ (61 - a.log2) ≤ a * 2 ^ (61 - a.log2) :=
    Nat.mul_le_mul_right _ (Nat.log2_self_le hPos.ne')
  have hAbove : a * 2 ^ (61 - a.log2) < 2 ^ (a.log2 + 1) * 2 ^ (61 - a.log2) :=
    Nat.mul_lt_mul_of_pos_right Nat.lt_log2_self (Nat.two_pow_pos _)
  rw [← pow_add, show a.log2 + (61 - a.log2) = 61 by omega] at hBelow
  rw [← pow_add, show a.log2 + 1 + (61 - a.log2) = 62 by omega] at hAbove
  by_cases hEnough : 1000 * 2 ^ 52 ≤ a * 2 ^ (61 - a.log2)
  · exact ⟨61 - a.log2, by omega, hEnough, by omega⟩
  · have hTwice : a * 2 ^ (62 - a.log2) = a * 2 ^ (61 - a.log2) * 2 := by
      rw [show 62 - a.log2 = 61 - a.log2 + 1 by omega, pow_succ, Nat.mul_assoc]
    exact ⟨62 - a.log2, by omega, by omega, by omega⟩

/-- The condition in the unit that the milliseconds are moderate in. -/
theorem slips_iff (h : k + i = 52) :
    Slips a k ↔
      14 ≤ k ∧ 1000 * 2 ^ 52 ≤ a * 2 ^ i ∧ a * 2 ^ i < 2 ^ 62 ∧ IsFar (a * 2 ^ i) := by
  have hUnit : 2 ^ k * 2 ^ i = 2 ^ 52 := by rw [← pow_add, h]
  have hLow : 1000 * 2 ^ k ≤ a ↔ 1000 * 2 ^ 52 ≤ a * 2 ^ i := by
    rw [← hUnit, ← Nat.mul_assoc, Nat.mul_le_mul_right_iff (Nat.two_pow_pos i)]
  have hHigh : a < 1024 * 2 ^ k ↔ a * 2 ^ i < 2 ^ 62 := by
    rw [show 2 ^ 62 = 1024 * 2 ^ k * 2 ^ i by rw [Nat.mul_assoc, hUnit]; decide,
      Nat.mul_lt_mul_right (Nat.two_pow_pos i)]
  have hFar : 52 - k = i := by omega
  rw [← hLow, ← hHigh]
  exact ⟨fun hSlips => ⟨hSlips.ge, hSlips.low, hSlips.high, hFar ▸ hSlips.far⟩,
    fun ⟨hGe, hLow, hHigh, hIsFar⟩ => ⟨hGe, hLow, hHigh, hFar.symm ▸ hIsFar⟩⟩

/-- Less than `2 ^ 14` seconds never slip. -/
theorem not_slips_of_lt (h : a < 16384000) : ¬ ∃ k, Slips a k := by
  rintro ⟨k, hk⟩
  have hPow : 2 ^ 14 ≤ 2 ^ k := Nat.pow_le_pow_right (by decide) hk.ge
  have hLow := hk.low
  omega

theorem whole_of_not_slips (given : Value) (negative : Bool) (ha : a < 2 ^ 53)
    (h : ¬ ∃ k, Slips a k) :
    whole given (ofThousandths negative a) = .ok (if negative then -(a : Int) else a) := by
  rcases Nat.eq_zero_or_pos a with rfl | hPos
  · rw [ofThousandths_zero, whole_mul]
  · obtain ⟨i, hi, hLow, hHigh⟩ := exists_moderate hPos ha
    obtain ⟨e, hUnit⟩ : ∃ e, e + i = 1074 := ⟨1074 - i, by omega⟩
    rcases Nat.lt_or_ge (a * 2 ^ i) (2 ^ 62) with hNarrow | hWide
    · obtain ⟨j, rfl⟩ := exists_add_nine ha hLow
      have hw := mul_two_pow_add_nine a j
      by_cases hFar : IsFar (a * 2 ^ (j + 9))
      · -- the seconds are small enough for the tolerance, as the milliseconds would slip otherwise
        have hSmall : 39 ≤ j + 9 := by
          by_contra hLarge
          have hSum : 52 - (j + 9) + (j + 9) = 52 := by omega
          exact h ⟨_, (slips_iff hSum).2 ⟨by omega, hLow, hNarrow, hFar⟩⟩
        obtain ⟨y, hRound, hy⟩ := roundEven_far hw hFar
        rw [ofThousandths_narrow negative hUnit ha hLow hNarrow hRound]
        exact whole_tolerated given negative (by omega) (by omega) (by omega) hy
      · have hSteps : a * 2 ^ j * 2 ^ (e + 9) = a * stepsPerUnit := by
          rw [← two_pow_eq_stepsPerUnit hUnit]
          ring
        rw [ofThousandths_narrow negative hUnit ha hLow hNarrow (roundEven_near hw hFar), hSteps,
          whole_mul]
    · rw [ofThousandths_wide negative hUnit ha hWide hHigh, whole_mul]

theorem whole_of_slips (given : Value) (negative : Bool) (ha : a < 2 ^ 53) (h : Slips a k) :
    (k < 43 → whole given (ofThousandths negative a) = .error (.fractionalDuration given)) ∧
      (43 ≤ k → ∃ n : Nat, (n = a + 1 ∨ n + 1 = a) ∧
        whole given (ofThousandths negative a) = .ok (if negative then -(n : Int) else n)) := by
  -- `2 ^ 44` seconds are too many for 53 bits of milliseconds
  have hk : k ≤ 43 := by
    by_contra hGreater
    have hPow : 2 ^ 44 ≤ 2 ^ k := Nat.pow_le_pow_right (by decide) (by omega)
    have := h.low
    omega
  obtain ⟨i, hi⟩ : ∃ i, k + i = 52 := ⟨52 - k, by omega⟩
  obtain ⟨hGe, hLow, hNarrow, hFar⟩ := (slips_iff hi).1 h
  obtain ⟨e, hUnit⟩ : ∃ e, e + i = 1074 := ⟨1074 - i, by omega⟩
  obtain ⟨j, rfl⟩ := exists_add_nine ha hLow
  obtain ⟨y, hRound, hy⟩ := roundEven_far (mul_two_pow_add_nine a j) hFar
  rw [ofThousandths_narrow negative hUnit ha hLow hNarrow hRound]
  constructor
  · intro hLess
    exact whole_refused given negative (by omega) (by omega) (by omega) hy
  · intro hLast
    -- the product is then rounded to whole milliseconds
    obtain rfl : j = 0 := by omega
    rw [two_pow_eq_stepsPerUnit (by omega), whole_mul]
    exact ⟨y, by omega, rfl⟩

end Slips

/-! ### Seconds in writing -/

/-- A number of seconds with one to three digits behind the point. -/
structure Seconds extends Numeral where
  fraction_ne_nil : fraction ≠ []
  length_fraction_le : fraction.length ≤ 3

namespace Seconds

def text (x : Seconds) : Text := ofChars (x.chars ++ ['s'])

def thousandths (x : Seconds) : Nat := x.digits * 10 ^ (3 - x.fraction.length)

def millis (x : Seconds) : Int :=
  if x.negative then -(x.thousandths : Int) else x.thousandths

theorem ofDecimal_thousandths (x : Seconds) :
    ofDecimal x.negative x.digits (-x.fraction.length) =
      nearest x.negative (x.thousandths * stepsPerUnit) 1000 := by
  have hSome : 1 ≤ x.fraction.length := List.length_pos_iff.2 x.fraction_ne_nil
  have hFew : x.fraction.length ≤ 3 := x.length_fraction_le
  rw [thousandths]
  by_cases hZero : x.digits = 0
  · rw [ofDecimal, if_pos hZero, hZero, Nat.zero_mul, Nat.zero_mul, nearest_zero _ (by decide)]
  · have hShift := nearest_scale (Nat.pow_pos (by decide : 0 < 10) (n := 3 - x.fraction.length))
      x.negative (x.digits * stepsPerUnit) (10 ^ x.fraction.length)
    rw [← pow_add, Nat.sub_add_cancel hFew, (by decide : 10 ^ 3 = 1000)] at hShift
    rw [ofDecimal_places x.negative hZero hSome (by omega), ← hShift, Nat.mul_right_comm,
      Nat.mul_comm _ (10 ^ _)]

theorem parse_eq_whole (x : Seconds) :
    parse (.str x.text) = whole (.str x.text) (ofThousandths x.negative x.thousandths) := by
  let w : Written := ⟨[], x.toNumeral, [], .seconds, [], by simp, by simp, by simp⟩
  have hText : w.text = x.text := by simp [w, Written.text, text, Measure.suffix]
  rw [← hText, parse_text, Written.amount, Measure.convert, ofDecimal_thousandths]
  rfl

/-- Less than `2 ^ 14` seconds, some four and a half hours, are read exactly. -/
theorem parse_of_lt (x : Seconds) (h : x.thousandths < 16384000) :
    parse (.str x.text) = .ok x.millis := by
  rw [parse_eq_whole]
  exact whole_of_not_slips (.str x.text) x.negative (by omega) (not_slips_of_lt h)

/-- **Which seconds are read exactly.**  Seconds with up to three digits behind the point are read as
the milliseconds that they are, unless these slip; then they are refused for not being a whole number
of milliseconds, or, if there are `2 ^ 43` seconds, read as a millisecond more or less. -/
theorem parse_seconds (x : Seconds) (h : x.thousandths < 2 ^ 53) :
    (parse (.str x.text) = .ok x.millis ↔ ¬ ∃ k, Slips x.thousandths k) ∧
      ∀ k, Slips x.thousandths k →
        (k < 43 → parse (.str x.text) = .error (.fractionalDuration (.str x.text))) ∧
          (43 ≤ k → ∃ n, parse (.str x.text) = .ok n ∧ (n - x.millis).natAbs = 1) := by
  rw [parse_eq_whole]
  have hSlips : ∀ k, Slips x.thousandths k →
      (k < 43 → whole (.str x.text) (ofThousandths x.negative x.thousandths) =
          .error (.fractionalDuration (.str x.text))) ∧
        (43 ≤ k → ∃ n, whole (.str x.text) (ofThousandths x.negative x.thousandths) = .ok n ∧
          (n - x.millis).natAbs = 1) := by
    intro k hk
    obtain ⟨hRefused, hNeighbour⟩ := whole_of_slips (.str x.text) x.negative h hk
    refine ⟨hRefused, fun hLast => ?_⟩
    obtain ⟨n, hn, hWhole⟩ := hNeighbour hLast
    refine ⟨_, hWhole, ?_⟩
    rw [millis]
    split <;> omega
  refine ⟨⟨?_, whole_of_not_slips (.str x.text) x.negative h⟩, hSlips⟩
  rintro hExact ⟨k, hk⟩
  obtain ⟨hRefused, hNeighbour⟩ := hSlips k hk
  rcases Nat.lt_or_ge k 43 with hLess | hLast
  · rw [hRefused hLess] at hExact
    cases hExact
  · obtain ⟨n, hn, hOne⟩ := hNeighbour hLast
    rw [hExact] at hn
    cases hn
    omega

/-- Minus two and a half seconds are read exactly. -/
theorem parse_two_and_a_half : parse (.str (Text.ofString "-2.5s")) = .ok (-2500) := by
  let x : Seconds :=
    ⟨⟨true, ['2'], ['5'], List.all_eq_true.1 (by decide +kernel), by decide⟩, by decide, by decide⟩
  have hAmount : x.thousandths = 2500 := by decide +kernel
  have hExact := (parse_seconds x (by rw [hAmount]; decide)).1.2
    (not_slips_of_lt (by rw [hAmount]; decide))
  rw [millis, hAmount] at hExact
  exact hExact

/-- Some seconds are refused, and some are read as others. -/
theorem slipping_seconds :
    (parse (.str (Text.ofString "16384.005s"))).toOption = none ∧
      (parse (.str (Text.ofString "8796093022208.001s"))).toOption = some 8796093022208002 := by
  decide +kernel

end Seconds

end VirtualLooper.Duration
