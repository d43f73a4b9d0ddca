import VirtualLooper.Binary64.Decimal
import VirtualLooper.Proofs.Text.Ends

/-!
# Numerals

A numeral is a sign, digits of any script, and perhaps a point with further digits behind it.  Between
blanks it is read as the decimal that its digits make up (`read?_chars`): the digits are turned into
those of ASCII (`mapM_asciiOf?`), none of which begins a word (`word_ne`), and are taken up to the
point and behind it (`digitRun_append`).

The text of an integer is such a numeral (`chars_ofInt`).
-/

namespace VirtualLooper.Binary64

open Text

/-! ### Digits of ASCII -/

def asciiDigits (ds : List Nat) : List Char := ds.map Nat.digitChar

section Digits

variable {c : Char} {cs rest : List Char} {d : Nat} {ds : List Nat}

theorem asciiDigit?_digitChar (h : d < 10) : asciiDigit? d.digitChar = some d := by
  have hTable : ∀ d < 10, asciiDigit? (Nat.digitChar d) = some d := by decide
  exact hTable d h

theorem asciiOf?_of_digit (h : decimalDigit? c = some d) : asciiOf? c = some d.digitChar := by
  have hChar : ∀ d < 10, Char.ofNat ('0'.toNat + d) = d.digitChar := by decide
  obtain ⟨start, hStart, hCode, hd⟩ := exists_zero_of_digit h
  rw [asciiOf?]
  split
  · rename_i hAscii
    -- the digits below are those of one script
    have hFirst : ∀ start ∈ zeroDigits, ∀ d < 10, (Char.ofNat (start + d)).toNat < 0x7f →
        Char.ofNat (start + d) = d.digitChar := by
      decide +kernel
    rw [hCode, hFirst start hStart d hd (hCode ▸ hAscii)]
  · rw [h, Option.map_some, hChar d hd]

theorem mapM_asciiOf? (h : ∀ c ∈ cs, (decimalDigit? c).isSome = true) :
    cs.mapM asciiOf? = some (asciiDigits (cs.filterMap decimalDigit?)) := by
  induction cs with
  | nil => rfl
  | cons c cs ih =>
    obtain ⟨d, hd⟩ := Option.isSome_iff_exists.1 (h c List.mem_cons_self)
    rw [List.mapM_cons, asciiOf?_of_digit hd, ih fun c hc => h c (List.mem_cons_of_mem _ hc),
      List.filterMap_cons_some hd]
    rfl

theorem lt_ten_of_mem (h : d ∈ cs.filterMap decimalDigit?) : d < 10 := by
  obtain ⟨c, -, hd⟩ := List.mem_filterMap.1 h
  obtain ⟨-, -, -, hLess⟩ := exists_zero_of_digit hd
  exact hLess

theorem decimalDigit?_digitChar (h : d < 10) : decimalDigit? d.digitChar = some d := by
  have hTable : ∀ d < 10, decimalDigit? (Nat.digitChar d) = some d := by decide +kernel
  exact hTable d h

theorem filterMap_asciiDigits (h : ∀ d ∈ ds, d < 10) :
    (asciiDigits ds).filterMap decimalDigit? = ds := by
  induction ds with
  | nil => rfl
  | cons d ds ih =>
    rw [asciiDigits, List.map_cons,
      List.filterMap_cons_some (decimalDigit?_digitChar (h d List.mem_cons_self)), ← asciiDigits,
      ih fun d hd => h d (List.mem_cons_of_mem _ hd)]

theorem exists_digits (n : Nat) :
    ∃ ds : List Nat, (∀ d ∈ ds, d < 10) ∧ Nat.toDigits 10 n = asciiDigits ds ∧ ofDigits ds = n := by
  induction n using Nat.strongRecOn with
  | ind n ih =>
    rw [Nat.toDigits_eq_if (by decide)]
    split
    · rename_i hSmall
      exact ⟨[n], by simpa using hSmall, rfl, by simp [ofDigits]⟩
    · obtain ⟨ds, hds, hChars, hValue⟩ := ih (n / 10) (by omega)
      refine ⟨ds ++ [n % 10], ?_, ?_, ?_⟩
      · intro d hd
        rcases List.mem_append.1 hd with hFront | hLast
        · exact hds d hFront
        · rw [List.mem_singleton.1 hLast]
          exact Nat.mod_lt n (by decide)
      · rw [hChars, asciiDigits, asciiDigits, List.map_append]
        rfl
      · rw [ofDigits] at hValue
        rw [ofDigits, List.foldl_append, hValue, List.foldl_cons, List.foldl_nil]
        exact Nat.div_add_mod n 10

theorem digitRun_append (hds : ∀ d ∈ ds, d < 10) (hRest : ∀ c ∈ rest.head?, asciiDigit? c = none) :
    digitRun (asciiDigits ds ++ rest) = (ds, rest) := by
  induction ds with
  | nil =>
    cases rest with
    | nil => rfl
    | cons c rest => simp [asciiDigits, digitRun, hRest c rfl]
  | cons d ds ih =>
    rw [asciiDigits, List.map_cons, List.cons_append, digitRun,
      asciiDigit?_digitChar (hds d List.mem_cons_self)]
    simp only
    rw [← asciiDigits, ih fun d hd => hds d (List.mem_cons_of_mem _ hd)]

theorem withoutUnderscores?_of_not_mem (h : '_' ∉ cs) (afterDigit : Bool) :
    withoutUnderscores? afterDigit cs = some cs := by
  induction cs generalizing afterDigit with
  | nil => rw [withoutUnderscores?]
  | cons c cs ih =>
    simp only [List.mem_cons, not_or] at h
    rw [withoutUnderscores?, ih h.2]
    · rfl
    · exact fun hUnderscore => h.1 hUnderscore.symm

end Digits

/-! ### Numerals -/

/-- A sign, digits, and digits behind a point; where there are none of these, there is no point. -/
structure Numeral where
  negative : Bool
  whole : List Char
  fraction : List Char
  isSome_digit : ∀ c ∈ whole ++ fraction, (decimalDigit? c).isSome = true
  whole_ne_nil : whole ≠ []

namespace Numeral

def signChars : Bool → List Char
  | true => ['-']
  | false => []

def behindPoint : List Char → List Char
  | [] => []
  | c :: cs => '.' :: c :: cs

def chars (x : Numeral) : List Char :=
  signChars x.negative ++ x.whole ++ behindPoint x.fraction

def digits (x : Numeral) : Nat := ofDigits ((x.whole ++ x.fraction).filterMap decimalDigit?)

theorem mapM_signChars (negative : Bool) :
    (signChars negative).mapM asciiOf? = some (signChars negative) := by
  cases negative <;> rfl

theorem mapM_behindPoint {cs : List Char} (h : ∀ c ∈ cs, (decimalDigit? c).isSome = true) :
    (behindPoint cs).mapM asciiOf? = some (behindPoint (asciiDigits (cs.filterMap decimalDigit?))) := by
  cases cs with
  | nil => rfl
  | cons c cs =>
    rw [behindPoint, List.mapM_cons, mapM_asciiOf? h]
    obtain ⟨d, hd⟩ := Option.isSome_iff_exists.1 (h c List.mem_cons_self)
    rw [List.filterMap_cons_some hd]
    rfl

section Plain

variable {whole fraction : List Nat}

theorem word_ne (hWhole : ∀ d ∈ whole, d < 10) (hSome : whole ≠ []) (rest : List Char)
    {word : String} (hWord : word.toList.head?.bind asciiDigit? = none) :
    String.ofList ((asciiDigits whole ++ rest).map Char.toLower) ≠ word := by
  have hTable : ∀ d < 10, asciiDigit? (Nat.digitChar d).toLower = some d := by decide
  obtain ⟨d, ds, rfl⟩ := List.exists_cons_of_ne_nil hSome
  rintro rfl
  simp [asciiDigits, hTable d (hWhole d List.mem_cons_self)] at hWord

theorem signOf_signChars (negative : Bool) (hWhole : ∀ d ∈ whole, d < 10) (hSome : whole ≠ [])
    (rest : List Char) :
    signOf (signChars negative ++ (asciiDigits whole ++ rest)) =
      (negative, asciiDigits whole ++ rest) := by
  have hTable : ∀ d < 10, Nat.digitChar d ≠ '-' ∧ Nat.digitChar d ≠ '+' := by decide
  cases negative with
  | true => rfl
  | false =>
    obtain ⟨d, ds, rfl⟩ := List.exists_cons_of_ne_nil hSome
    obtain ⟨hMinus, hPlus⟩ := hTable d (hWhole d List.mem_cons_self)
    rw [signChars, List.nil_append, asciiDigits, List.map_cons, List.cons_append, signOf]
    · exact fun _ h => hMinus (List.cons.inj h).1
    · exact fun _ h => hPlus (List.cons.inj h).1

theorem underscore_not_mem (hWhole : ∀ d ∈ whole, d < 10) (hFraction : ∀ d ∈ fraction, d < 10)
    (negative : Bool) :
    '_' ∉ signChars negative ++ (asciiDigits whole ++ behindPoint (asciiDigits fraction)) := by
  have hTable : ∀ d < 10, Nat.digitChar d ≠ '_' := by decide
  have hDigits : ∀ ds : List Nat, (∀ d ∈ ds, d < 10) → '_' ∉ asciiDigits ds := by
    intro ds hds hMem
    obtain ⟨d, hd, hUnderscore⟩ := List.mem_map.1 hMem
    exact hTable d (hds d hd) hUnderscore
  have hSign : '_' ∉ signChars negative := by cases negative <;> decide
  have hBehind : '_' ∉ behindPoint (asciiDigits fraction) := by
    intro hMem
    refine hDigits fraction hFraction ?_
    cases hChars : asciiDigits fraction with
    | nil => simp [hChars, behindPoint] at hMem
    | cons c cs => simpa [hChars, behindPoint] using hMem
  simp [hSign, hDigits whole hWhole, hBehind]

/-- Digits, a point and digits are the decimal that the digits make up. -/
theorem unsigned?_digits (negative : Bool) (hWhole : ∀ d ∈ whole, d < 10) (hSome : whole ≠ [])
    (hFraction : ∀ d ∈ fraction, d < 10) :
    unsigned? negative (asciiDigits whole ++ behindPoint (asciiDigits fraction)) =
      some (ofDecimal negative (ofDigits (whole ++ fraction)) (-fraction.length)) := by
  have hSome' : whole.isEmpty = false := by simpa using hSome
  cases fraction with
  | nil =>
    rw [unsigned?, digitRun_append hWhole (by simp [asciiDigits, behindPoint])]
    simp [asciiDigits, behindPoint, hSome', exponentOf?]
  | cons d ds =>
    have hPoint : ∀ c ∈ (behindPoint (asciiDigits (d :: ds))).head?, asciiDigit? c = none := by
      simp only [asciiDigits, List.map_cons, behindPoint, List.head?_cons, Option.mem_def,
        Option.some.injEq]
      rintro c rfl
      decide
    have hRun : digitRun (asciiDigits (d :: ds) ++ []) = (d :: ds, []) :=
      digitRun_append hFraction (by simp)
    rw [List.append_nil] at hRun
    rw [unsigned?, digitRun_append hWhole hPoint]
    have hBehind : behindPoint (asciiDigits (d :: ds)) = '.' :: asciiDigits (d :: ds) := rfl
    simp only [hBehind, hRun, hSome', Bool.false_and, Bool.false_eq_true, if_false, exponentOf?,
      Option.map_some, Int.zero_sub]

end Plain

section Chars

variable {x : Numeral}

theorem isSome_of_mem_whole (x : Numeral) {c : Char} (h : c ∈ x.whole) :
    (decimalDigit? c).isSome = true :=
  x.isSome_digit c (List.mem_append_left _ h)

theorem isSome_of_mem_fraction (x : Numeral) {c : Char} (h : c ∈ x.fraction) :
    (decimalDigit? c).isSome = true :=
  x.isSome_digit c (List.mem_append_right _ h)

theorem filterMap_whole_ne_nil (x : Numeral) : x.whole.filterMap decimalDigit? ≠ [] := by
  obtain ⟨c, cs, hWhole⟩ := List.exists_cons_of_ne_nil x.whole_ne_nil
  obtain ⟨d, hd⟩ :=
    Option.isSome_iff_exists.1 (x.isSome_of_mem_whole (hWhole ▸ List.mem_cons_self : c ∈ x.whole))
  rw [hWhole, List.filterMap_cons_some hd]
  exact List.cons_ne_nil _ _

theorem chars_ne_nil (x : Numeral) : x.chars ≠ [] := by
  simp [chars, x.whole_ne_nil]

theorem head?_chars {blank : Char → Bool} (hSign : blank '-' = false)
    (hDigit : ∀ c d, decimalDigit? c = some d → blank c = false) :
    ∀ c ∈ x.chars.head?, blank c = false := by
  intro c hc
  obtain ⟨first, rest, hWhole⟩ := List.exists_cons_of_ne_nil x.whole_ne_nil
  cases hNegative : x.negative with
  | true =>
    obtain rfl : '-' = c := by simpa [chars, hNegative, signChars] using hc
    exact hSign
  | false =>
    obtain rfl : first = c := by simpa [chars, hNegative, signChars, hWhole] using hc
    obtain ⟨d, hd⟩ := Option.isSome_iff_exists.1
      (x.isSome_of_mem_whole (hWhole ▸ List.mem_cons_self : first ∈ x.whole))
    exact hDigit first d hd

theorem exists_getLast?_chars (x : Numeral) :
    ∃ front c d, x.chars = front ++ [c] ∧ decimalDigit? c = some d := by
  rcases List.eq_nil_or_concat x.fraction with hNone | ⟨front, c, hFraction⟩
  · obtain ⟨front, c, hWhole⟩ := (List.eq_nil_or_concat x.whole).resolve_left x.whole_ne_nil
    rw [List.concat_eq_append] at hWhole
    obtain ⟨d, hd⟩ := Option.isSome_iff_exists.1
      (x.isSome_of_mem_whole (c := c) (by simp [hWhole]))
    exact ⟨signChars x.negative ++ front, c, d, by simp [chars, hNone, behindPoint, hWhole], hd⟩
  · rw [List.concat_eq_append] at hFraction
    obtain ⟨d, hd⟩ := Option.isSome_iff_exists.1
      (x.isSome_of_mem_fraction (c := c) (by simp [hFraction]))
    have hPoint : behindPoint x.fraction = ('.' :: front) ++ [c] := by
      rw [hFraction]
      cases front <;> rfl
    exact ⟨signChars x.negative ++ x.whole ++ ('.' :: front), c, d, by simp [chars, hPoint], hd⟩

/-- **A numeral between blanks is read as the decimal that its digits make up.** -/
theorem read?_chars (mark : Nat) {lead trail : List Char}
    (hLead : ∀ c ∈ lead, isNumberBlank c = true) (hTrail : ∀ c ∈ trail, isNumberBlank c = true) :
    read? mark (lead ++ x.chars ++ trail) =
      some (ofDecimal x.negative x.digits (-x.fraction.length)) := by
  have hTrim : trimBoth isNumberBlank (lead ++ x.chars ++ trail) = x.chars := by
    obtain ⟨front, c, d, hEnd, hd⟩ := x.exists_getLast?_chars
    refine trimBoth_append hLead hTrail x.chars_ne_nil
      (head?_chars (by decide) fun c d => isNumberBlank_of_digit) ?_
    simp only [hEnd, List.getLast?_concat, Option.mem_some]
    rintro _ rfl
    exact isNumberBlank_of_digit hd
  have hWhole : ∀ d ∈ x.whole.filterMap decimalDigit?, d < 10 := fun d => lt_ten_of_mem
  have hFraction : ∀ d ∈ x.fraction.filterMap decimalDigit?, d < 10 := fun d => lt_ten_of_mem
  have hAscii : x.chars.mapM asciiOf? = some (signChars x.negative ++
      (asciiDigits (x.whole.filterMap decimalDigit?) ++
        behindPoint (asciiDigits (x.fraction.filterMap decimalDigit?)))) := by
    rw [chars, List.append_assoc, List.mapM_append, List.mapM_append, mapM_signChars,
      mapM_asciiOf? fun c => x.isSome_of_mem_whole,
      mapM_behindPoint fun c => x.isSome_of_mem_fraction]
    rfl
  have hWord : ∀ word : String, word.toList.head?.bind asciiDigit? = none →
      String.ofList ((asciiDigits (x.whole.filterMap decimalDigit?) ++
        behindPoint (asciiDigits (x.fraction.filterMap decimalDigit?))).map Char.toLower) ≠ word :=
    fun _ => word_ne hWhole x.filterMap_whole_ne_nil _
  have hLength : (x.fraction.filterMap decimalDigit?).length = x.fraction.length :=
    List.filterMap_length_eq_length.2 fun c => x.isSome_of_mem_fraction
  rw [read?, hTrim, hAscii]
  simp only [Option.bind_eq_bind, Option.bind_some]
  rw [withoutUnderscores?_of_not_mem (underscore_not_mem hWhole hFraction x.negative), Option.bind_some,
    plain?, signOf_signChars x.negative hWhole x.filterMap_whole_ne_nil]
  simp only [hWord "inf" (by decide), hWord "infinity" (by decide), hWord "nan" (by decide),
    decide_false, Bool.or_self, Bool.false_eq_true, if_false]
  rw [unsigned?_digits x.negative hWhole x.filterMap_whole_ne_nil hFraction, hLength,
    ← List.filterMap_append, digits]

end Chars

/-! ### The text of an integer -/

def ofInt (n : Int) : Numeral where
  negative := n < 0
  whole := Nat.toDigits 10 n.natAbs
  fraction := []
  isSome_digit c hc := by
    obtain ⟨ds, hds, hChars, -⟩ := exists_digits n.natAbs
    rw [List.append_nil, hChars] at hc
    obtain ⟨d, hd, rfl⟩ := List.mem_map.1 hc
    rw [decimalDigit?_digitChar (hds d hd), Option.isSome_some]
  whole_ne_nil := Nat.toDigits_ne_nil

theorem chars_ofInt (n : Int) : (ofInt n).chars = (toString n).toList := by
  rw [Int.toString_eq_repr, Int.repr_eq_if, chars]
  by_cases h : 0 ≤ n
  · have hSign : (ofInt n).negative = false := decide_eq_false (by omega)
    have hAbs : n.natAbs = n.toNat := by omega
    rw [if_pos h, Nat.toList_repr, hSign, ← hAbs]
    exact List.append_nil _
  · have hSign : (ofInt n).negative = true := decide_eq_true (by omega)
    have hAbs : n.natAbs = (-n).toNat := by omega
    rw [if_neg h, String.toList_append, Nat.toList_repr, hSign, ← hAbs]
    exact List.append_nil _

theorem digits_ofInt (n : Int) : (ofInt n).digits = n.natAbs := by
  obtain ⟨ds, hds, hChars, hValue⟩ := exists_digits n.natAbs
  rw [digits, show (ofInt n).whole ++ (ofInt n).fraction = asciiDigits ds by
    rw [← hChars]
    exact List.append_nil _]
  rw [filterMap_asciiDigits hds, hValue]

end Numeral

end VirtualLooper.Binary64
