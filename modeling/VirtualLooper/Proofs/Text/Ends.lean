import VirtualLooper.Text.Blank
import VirtualLooper.Text.Digit

/-!
# The ends of a text

What begins and ends with no blank is left of a trimmed text, whatever blanks stand around it
(`trimBoth_append`), and a text that is cut at an ending is what stands in front of it
(`before?_append`).  No digit of any script is a blank.
-/

namespace VirtualLooper.Text

section Trim

variable {α : Type} {blank : α → Bool} {lead xs trail : List α}

theorem dropWhile_eq_self (h : ∀ a ∈ xs.head?, blank a = false) : xs.dropWhile blank = xs := by
  cases xs with
  | nil => rfl
  | cons a xs => rw [List.dropWhile_cons_of_neg (by simp [h a rfl])]

theorem trimBoth_append (hLead : ∀ a ∈ lead, blank a = true) (hTrail : ∀ a ∈ trail, blank a = true)
    (hSome : xs ≠ []) (hFirst : ∀ a ∈ xs.head?, blank a = false)
    (hLast : ∀ a ∈ xs.getLast?, blank a = false) :
    trimBoth blank (lead ++ xs ++ trail) = xs := by
  have hFront : (lead ++ xs ++ trail).dropWhile blank = xs ++ trail := by
    rw [List.append_assoc, List.dropWhile_append_of_pos hLead]
    obtain ⟨a, rest, rfl⟩ := List.exists_cons_of_ne_nil hSome
    exact dropWhile_eq_self hFirst
  have hBack : (xs ++ trail).reverse.dropWhile blank = xs.reverse := by
    rw [List.reverse_append,
      List.dropWhile_append_of_pos fun a ha => hTrail a (List.mem_reverse.1 ha)]
    exact dropWhile_eq_self (by rwa [List.head?_reverse])
  rw [trimBoth, hFront, hBack, List.reverse_reverse]

theorem trim_ofChars (cs : List Char) (blank : Char → Bool) :
    (ofChars cs).trim blank = ofChars (trimBoth blank cs) := by
  have hClass : Glyph.isChar blank ∘ Glyph.char = blank := rfl
  simp only [trim, ofChars, trimBoth, List.dropWhile_map, hClass, ← List.map_reverse]

end Trim

section Ending

variable {cs : List Char} {ending : String}

theorem before?_append (cs : List Char) (ending : String) :
    (ofChars (cs ++ ending.toList)).before? ending = some (ofChars cs) := by
  have hSuffix : (ofString ending).glyphs.isSuffixOf (ofChars (cs ++ ending.toList)).glyphs = true := by
    rw [List.isSuffixOf_iff_suffix, ofString, ofChars, ofChars, List.map_append]
    exact List.suffix_append _ _
  rw [before?, if_pos hSuffix]
  simp [ofString, ofChars]

/-- Two lists that end alike have the same last element, and end alike in front of it. -/
theorem last_of_suffix {α : Type} (as : List α) {front : List α} {a c : α}
    (h : as ++ [a] <:+ front ++ [c]) : a = c ∧ as <:+ front := by
  obtain ⟨rest, hRest⟩ := h
  rw [← List.append_assoc] at hRest
  obtain ⟨hFront, hLast⟩ := List.append_inj' hRest rfl
  exact ⟨(List.cons.inj hLast).1, rest, hFront⟩

theorem before?_eq_none (h : ¬ ending.toList <:+ cs) : (ofChars cs).before? ending = none := by
  rw [before?, if_neg]
  rw [List.isSuffixOf_iff_suffix]
  rintro ⟨front, hFront⟩
  have hChars := congrArg (List.map Glyph.toChar) hFront
  have hCs : (ofChars cs).glyphs.map Glyph.toChar = cs := chars_ofChars cs
  have hEnding : (ofString ending).glyphs.map Glyph.toChar = ending.toList :=
    chars_ofChars ending.toList
  rw [List.map_append, hCs, hEnding] at hChars
  exact h ⟨_, hChars⟩

end Ending

section Digit

variable {c : Char} {d : Nat}

/-- A digit stands as far behind the zero of its script as its value says. -/
theorem exists_zero_of_digit (h : decimalDigit? c = some d) :
    ∃ start ∈ zeroDigits, c = Char.ofNat (start + d) ∧ d < 10 := by
  obtain ⟨start, hFind, hValue⟩ := Option.map_eq_some_iff.1 h
  have hRange := List.find?_some hFind
  simp only [Bool.and_eq_true, decide_eq_true_eq] at hRange
  have hCode : start + d = c.toNat := by omega
  exact ⟨start, List.mem_of_find?_eq_some hFind, by rw [hCode, Char.ofNat_toNat], by omega⟩

theorem isBlank_of_digit (h : decimalDigit? c = some d) : isBlank c = false := by
  have hTable : ∀ start ∈ zeroDigits, ∀ d < 10, isBlank (Char.ofNat (start + d)) = false := by
    decide +kernel
  obtain ⟨start, hStart, rfl, hd⟩ := exists_zero_of_digit h
  exact hTable start hStart d hd

theorem isBlank_of_isNumberBlank (h : isNumberBlank c = true) : isBlank c = true := by
  simp only [isNumberBlank, isBlank, Bool.or_eq_true, Bool.and_eq_true, decide_eq_true_eq] at h ⊢
  rcases h with (hControl | hSpace) | hWide
  · exact Or.inl (Or.inl hControl)
  · exact Or.inl (Or.inr (by omega))
  · exact Or.inr hWide

theorem isNumberBlank_of_digit (h : decimalDigit? c = some d) : isNumberBlank c = false := by
  rw [Bool.eq_false_iff]
  intro hBlank
  have := isBlank_of_digit h
  simp [isBlank_of_isNumberBlank hBlank] at this

end Digit

end VirtualLooper.Text
