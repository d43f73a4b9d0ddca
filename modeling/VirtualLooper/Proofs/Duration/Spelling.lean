import VirtualLooper.Duration
import VirtualLooper.Proofs.Binary64.Numeral
import VirtualLooper.Proofs.Binary64.Rounding

/-!
# Spellings of a duration

A written duration is a numeral and a unit, with blanks around the two and between them.  It is read
as the binary64 number of the numeral, turned into milliseconds (`parse_text`): blanks and units
never get in the way of one another, since a numeral ends with a digit.

A whole number of milliseconds can be given as an integer, as a float, and in writing with any of the
units, in seconds if it is divisible by 1000.  As long as it has no more than 53 bits, all of these
spellings are read as that very number (`parse_of_spells`): neither the reading of the numeral nor
the multiplication by 1000 rounds anything.
-/

namespace VirtualLooper.Duration

open Text Binary64

/-- What a written duration counts; a number without a unit counts milliseconds too. -/
inductive Measure
  | bare
  | millis
  | seconds
  deriving DecidableEq, Repr

namespace Measure

def suffix : Measure → String
  | bare => ""
  | millis => "ms"
  | seconds => "s"

def size : Measure → Nat
  | bare | millis => 1
  | seconds => 1000

def convert : Measure → Binary64 → Binary64
  | bare | millis => id
  | seconds => (·.mul perSecond)

end Measure

structure Written where
  lead : List Char
  numeral : Numeral
  gap : List Char
  measure : Measure
  trail : List Char
  isBlank_lead : ∀ c ∈ lead, isBlank c = true
  isNumberBlank_gap : ∀ c ∈ gap, isNumberBlank c = true
  isBlank_trail : ∀ c ∈ trail, isBlank c = true

namespace Written

def text (w : Written) : Text :=
  ofChars (w.lead ++ w.numeral.chars ++ w.gap ++ w.measure.suffix.toList ++ w.trail)

def amount (w : Written) : Binary64 :=
  ofDecimal w.numeral.negative w.numeral.digits (-w.numeral.fraction.length)

end Written

/-! ### Reading a written duration -/

section Reading

variable {gap : List Char}

theorem number_chars (x : Numeral) (hGap : ∀ c ∈ gap, isNumberBlank c = true) :
    number (ofChars (x.chars ++ gap)) =
      .ok (ofDecimal x.negative x.digits (-x.fraction.length)) := by
  have hRead : read? 0 (x.chars ++ gap) =
      some (ofDecimal x.negative x.digits (-x.fraction.length)) := by
    simpa using x.read?_chars 0 (List.forall_mem_nil _) hGap
  rw [number, chars_ofChars, hRead]

theorem exists_last (x : Numeral) (hGap : ∀ c ∈ gap, isNumberBlank c = true) :
    ∃ front c, x.chars ++ gap = front ++ [c] ∧ c ≠ 'm' ∧ c ≠ 's' := by
  rcases List.eq_nil_or_concat gap with rfl | ⟨front, c, rfl⟩
  · obtain ⟨front, c, d, hChars, hd⟩ := x.exists_getLast?_chars
    refine ⟨front, c, by rw [List.append_nil, hChars], ?_, ?_⟩
    · rintro rfl
      exact absurd hd (by simp [show decimalDigit? 'm' = none by decide +kernel])
    · rintro rfl
      exact absurd hd (by simp [show decimalDigit? 's' = none by decide +kernel])
  · rw [List.concat_eq_append] at hGap ⊢
    have hBlank := hGap c (by simp)
    refine ⟨x.chars ++ front, c, (List.append_assoc _ _ _).symm, ?_, ?_⟩
    · rintro rfl
      exact absurd hBlank (by decide)
    · rintro rfl
      exact absurd hBlank (by decide)

/-- A numeral with a unit is read as the numeral, and then turned into milliseconds. -/
theorem ofText_chars (x : Numeral) (hGap : ∀ c ∈ gap, isNumberBlank c = true) (m : Measure) :
    ofText (ofChars (x.chars ++ gap ++ m.suffix.toList)) =
      .ok (m.convert (ofDecimal x.negative x.digits (-x.fraction.length))) := by
  obtain ⟨front, c, hLast, hM, hS⟩ := exists_last x hGap
  have hNumber := number_chars x hGap
  cases m with
  | bare =>
    have hNoMillis : ¬ "ms".toList <:+ front ++ [c] := fun h =>
      hS (last_of_suffix ['m'] h).1.symm
    have hNoSeconds : ¬ "s".toList <:+ front ++ [c] := fun h =>
      hS (last_of_suffix [] h).1.symm
    rw [show Measure.bare.suffix.toList = [] from rfl, List.append_nil, ofText, hLast,
      before?_eq_none hNoMillis, before?_eq_none hNoSeconds, ← hLast]
    exact hNumber
  | millis =>
    rw [ofText, show Measure.millis.suffix = "ms" from rfl, before?_append]
    exact hNumber
  | seconds =>
    have hNoMillis : ¬ "ms".toList <:+ x.chars ++ gap ++ "s".toList := fun h =>
      hM (last_of_suffix [] (hLast ▸ (last_of_suffix ['m'] h).2)).1.symm
    rw [ofText, show Measure.seconds.suffix = "s" from rfl, before?_eq_none hNoMillis, before?_append]
    simp only [hNumber]
    rfl

end Reading

/-- What is left of a written duration without the blanks around it.  It begins with a sign or a
digit, and ends with a unit or, where there is none, with a digit. -/
theorem Written.trim_text (w : Written) :
    ∃ gap, (∀ c ∈ gap, isNumberBlank c = true) ∧
      w.text.trim isBlank = ofChars (w.numeral.chars ++ gap ++ w.measure.suffix.toList) := by
  have hFirst : ∀ c ∈ w.numeral.chars.head?, isBlank c = false :=
    Numeral.head?_chars (by decide) fun _ _ => isBlank_of_digit
  have hUnit : ∀ ending : List Char,
      trimBoth isBlank (w.lead ++ (w.numeral.chars ++ w.gap ++ (ending ++ ['s'])) ++ w.trail) =
        w.numeral.chars ++ w.gap ++ (ending ++ ['s']) := by
    intro ending
    refine trimBoth_append w.isBlank_lead w.isBlank_trail (by simp) ?_ ?_
    · obtain ⟨c, rest, hChars⟩ := List.exists_cons_of_ne_nil w.numeral.chars_ne_nil
      rw [hChars] at hFirst ⊢
      exact hFirst
    · rw [← List.append_assoc, List.getLast?_concat]
      rintro _ ⟨⟩
      decide
  rw [text, trim_ofChars]
  cases hMeasure : w.measure with
  | bare =>
    obtain ⟨front, c, d, hEnd, hd⟩ := w.numeral.exists_getLast?_chars
    refine ⟨[], by simp, congrArg ofChars ?_⟩
    have hTrim : trimBoth isBlank (w.lead ++ w.numeral.chars ++ (w.gap ++ w.trail)) =
        w.numeral.chars := by
      refine trimBoth_append w.isBlank_lead ?_ w.numeral.chars_ne_nil hFirst ?_
      · intro c hc
        rcases List.mem_append.1 hc with hGap | hTrail
        · exact isBlank_of_isNumberBlank (w.isNumberBlank_gap c hGap)
        · exact w.isBlank_trail c hTrail
      · rw [hEnd, List.getLast?_concat]
        rintro _ ⟨⟩
        exact isBlank_of_digit hd
    simpa [Measure.suffix] using hTrim
  | millis =>
    refine ⟨w.gap, w.isNumberBlank_gap, congrArg ofChars ?_⟩
    simpa [Measure.suffix] using hUnit ['m']
  | seconds =>
    refine ⟨w.gap, w.isNumberBlank_gap, congrArg ofChars ?_⟩
    simpa [Measure.suffix] using hUnit []

/-- **A written duration is read as its numeral, turned into milliseconds.** -/
theorem parse_text (w : Written) :
    parse (.str w.text) = whole (.str w.text) (w.measure.convert w.amount) := by
  obtain ⟨gap, hGap, hTrim⟩ := w.trim_text
  show (ofText (w.text.trim isBlank)).bind (whole (.str w.text)) = _
  rw [hTrim, ofText_chars w.numeral hGap]
  rfl

/-! ### Whole numbers of milliseconds -/

section Whole

variable {a : Nat}

theorem exceeds_zero (x : Binary64) : exceeds 0 x = false := by
  cases x <;> simp [exceeds]

theorem whole_mul (given : Value) (negative : Bool) (a : Nat) :
    whole given (finite negative (a * stepsPerUnit)) = .ok (if negative then -(a : Int) else a) := by
  have hOffset : offset (a * stepsPerUnit) a = 0 := by
    rw [offset, Int.natCast_mul, sub_self, Int.natAbs_zero]
  simp only [whole, roundEven_mul stepsPerUnit_pos, hOffset, exceeds_zero, Bool.false_eq_true, if_false]

theorem ofDecimal_of_le (negative : Bool) (h : a ≤ 2 ^ 53) :
    ofDecimal negative a 0 = finite negative (a * stepsPerUnit) := by
  rw [ofDecimal]
  split
  · rename_i hZero
    rw [hZero, Nat.zero_mul]
  · rw [if_neg (by decide), if_neg (by rw [hugeExponent]; omega), if_pos (by decide)]
    exact (congrArg (ofQuotient negative · 1) (Nat.mul_one a)).trans (ofQuotient_of_le negative h)

theorem perSecond_eq : perSecond = finite false (1000 * stepsPerUnit) := by
  have hSign : decide ((1000 : Int) < 0) = false := rfl
  have hAbs : Int.natAbs 1000 = 1000 := rfl
  rw [perSecond, Binary64.ofInt, hSign, hAbs, ofQuotient_of_le false (by decide)]

/-- Whole numbers of a unit make up an exact number of milliseconds. -/
theorem convert_mul (negative : Bool) (m : Measure) (h : a * m.size ≤ 2 ^ 53) :
    m.convert (finite negative (a * stepsPerUnit)) =
      finite negative (a * m.size * stepsPerUnit) := by
  cases m with
  | bare | millis => rw [Measure.size, Nat.mul_one]; rfl
  | seconds =>
    have hProduct := mul_of_le negative false h
    rw [Bool.bne_false] at hProduct
    rw [← hProduct, Measure.convert, perSecond_eq, Measure.size]

end Whole

/-- The ways to give a number of milliseconds: as an integer, as a float that lies where it lies, and
in writing, by the decimal text of a count of some unit. -/
inductive Spells (n : Int) : Value → Prop
  | int : Spells n (.int n)
  | float {x : Binary64} (h : x.place? = some (.ofInt n)) : Spells n (.float x)
  | text (lead gap trail : List Char) (m : Measure) (count : Int) (hCount : count * m.size = n)
    (hLead : ∀ c ∈ lead, isBlank c = true) (hGap : ∀ c ∈ gap, isNumberBlank c = true)
    (hTrail : ∀ c ∈ trail, isBlank c = true) :
    Spells n
      (.str (ofChars (lead ++ (toString count).toList ++ gap ++ m.suffix.toList ++ trail)))

theorem natAbs_of_sign (n : Int) :
    (if decide (n < 0) = true then -(n.natAbs : Int) else n.natAbs) = n := by
  by_cases h : n < 0
  · rw [if_pos (decide_eq_true h)]
    omega
  · rw [if_neg (by simpa using h)]
    omega

theorem parse_float (x : Binary64) : parse (.float x) = whole (.float x) x := rfl

/-- A float is read as the integer that lies where it lies, of whatever size. -/
theorem parse_of_place {n : Int} {x : Binary64} (h : x.place? = some (.ofInt n)) :
    parse (.float x) = .ok n := by
  cases x with
  | nan mark => cases h
  | infinite negative => cases negative <;> cases h
  | finite negative steps =>
    have hSigned : signed negative steps = n * stepsPerUnit := Place.at.inj (Option.some.inj h)
    have hSteps : steps = n.natAbs * stepsPerUnit := by
      have hAbs := congrArg Int.natAbs hSigned
      rw [Int.natAbs_mul, Int.natAbs_natCast] at hAbs
      rw [← hAbs, signed]
      split <;> simp
    rw [parse_float, hSteps, whole_mul]
    refine congrArg Except.ok ?_
    have hPos : (0 : Int) < stepsPerUnit := Int.natCast_pos.2 stepsPerUnit_pos
    cases negative with
    | true =>
      have hLe : n ≤ 0 := by
        by_contra hGreater
        have := Int.mul_pos (Int.not_le.1 hGreater) hPos
        rw [← hSigned, signed, if_pos rfl] at this
        omega
      rw [if_pos rfl]
      omega
    | false =>
      have hLe : 0 ≤ n := by
        by_contra hLess
        have := Int.mul_neg_of_neg_of_pos (Int.not_le.1 hLess) hPos
        rw [← hSigned, signed, if_neg Bool.false_ne_true] at this
        omega
      rw [if_neg Bool.false_ne_true]
      omega

/-- **All spellings of a whole number of milliseconds are read as that number**, if it has no more
than 53 bits. -/
theorem parse_of_spells {n : Int} {v : Value} (hBound : n.natAbs ≤ 2 ^ 53) (h : Spells n v) :
    parse v = .ok n := by
  cases h with
  | int => rfl
  | float hPlace => exact parse_of_place hPlace
  | text lead gap trail m count hCount hLead hGap hTrail =>
    have hSize : n.natAbs = count.natAbs * m.size := by
      rw [← hCount, Int.natAbs_mul, Int.natAbs_natCast]
    have hPos : 0 < m.size := by cases m <;> decide
    have hSign : decide (count < 0) = decide (n < 0) := by
      rw [decide_eq_decide, ← hCount]
      cases m <;> simp only [Measure.size] <;> omega
    let w : Written := ⟨lead, .ofInt count, gap, m, trail, hLead, hGap, hTrail⟩
    have hText : w.text =
        ofChars (lead ++ (toString count).toList ++ gap ++ m.suffix.toList ++ trail) := by
      rw [← Numeral.chars_ofInt]
      rfl
    have hAmount : w.amount = finite (decide (n < 0)) (count.natAbs * stepsPerUnit) := by
      rw [Written.amount, Numeral.digits_ofInt, ← hSign]
      exact ofDecimal_of_le _ (le_trans (Nat.le_mul_of_pos_right _ hPos) (hSize ▸ hBound))
    rw [← hText, parse_text, hAmount, convert_mul _ _ (hSize ▸ hBound), whole_mul, ← hSize,
      natAbs_of_sign]

end VirtualLooper.Duration
