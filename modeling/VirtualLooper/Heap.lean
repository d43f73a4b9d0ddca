/-! # Heaps

A heap keeps its items in an array in which no item comes before the one above it; the item above
place `i` is at place `(i - 1) / 2`, and the first item has none.  So the first item is one that no
other comes before.

An item is added at the end and rises from there; when the first one is taken out, the last one
takes its place and sinks; any array becomes a heap when its items sink one after the other, from
the back.  Each of these keeps all items (`perm_push`, `perm_of_pop?`, `perm_ofArray`), and no item
comes before the one that `pop?` takes out (`first_of_pop?`).
-/

namespace VirtualLooper

/-- An order of precedence: of two items at most one comes before the other, and what does not come
before an item that does not come before a third one does not come before that either. -/
class Precedence (α : Type) where
  before : α → α → Bool
  asymm (a b : α) : before a b = true → before b a = false
  negTrans (a b c : α) : before a b = false → before b c = false → before a c = false

namespace Heap

open Precedence

variable {α : Type} [Precedence α] {n : Nat}

theorem not_before_self (a : α) : before a a = false := by
  cases h : before a a with
  | false => rfl
  | true => rw [asymm a a h] at h; exact h.symm

/-- No item comes before the one above it, where that one is at the given place or behind. -/
def OrderedFrom (lo : Nat) (v : Vector α n) : Prop :=
  ∀ i, (hi : i < n) → 0 < i → lo ≤ (i - 1) / 2 → before v[i] v[(i - 1) / 2] = false

/-- No item comes before the one above it. -/
def Ordered (v : Vector α n) : Prop := OrderedFrom 0 v

theorem Ordered.not_before_first {v : Vector α n} (h : Ordered v) (i : Nat) (hi : i < n) :
    before v[i] v[0] = false := by
  induction i using Nat.strongRecOn with
  | ind i ih =>
    by_cases h0 : i = 0
    · subst h0
      exact not_before_self _
    · have hUp := h i hi (by omega) (Nat.zero_le _)
      exact negTrans _ _ _ hUp (ih ((i - 1) / 2) (by omega) (by omega))

/-! ### Rising -/

/-- Lets the item at a place rise while it comes before the one above it, in at most so many
steps. -/
def rise : (steps : Nat) → (v : Vector α n) → (i : Nat) → i < n → Vector α n
  | 0, v, _, _ => v
  | steps + 1, v, i, hi =>
    if before v[i] v[(i - 1) / 2] then
      rise steps (v.swap i ((i - 1) / 2)) ((i - 1) / 2) (by omega)
    else v

theorem perm_rise (steps : Nat) (v : Vector α n) (i : Nat) (hi : i < n) :
    (rise steps v i hi).toList.Perm v.toList := by
  induction steps generalizing v i with
  | zero => exact List.Perm.refl _
  | succ steps ih =>
    rw [rise]
    split
    · exact (ih _ _ _).trans (Vector.swap_perm hi (by omega)).toList
    · exact List.Perm.refl _

/-- All but the item at one place is in order, and the items below that place do not come before
the one above it. -/
structure MayRise (v : Vector α n) (i : Nat) : Prop where
  others : ∀ j, (hj : j < n) → 0 < j → j ≠ i → before v[j] v[(j - 1) / 2] = false
  across : ∀ j, (hj : j < n) → 0 < i → 0 < j → (j - 1) / 2 = i →
    before v[j] v[((j - 1) / 2 - 1) / 2] = false

theorem MayRise.swap {v : Vector α n} {i : Nat} (hi : i < n) (h : MayRise v i) (h0 : 0 < i)
    (hb : before v[i] v[(i - 1) / 2] = true) :
    MayRise (v.swap i ((i - 1) / 2)) ((i - 1) / 2) where
  others := by
    intro j hj hj0 hne
    by_cases hji : j = i
    · subst hji
      simpa using asymm _ _ hb
    · by_cases hup : (j - 1) / 2 = i
      · have hAcross := h.across j hj h0 hj0 hup
        simp only [hup] at hAcross
        simpa [Vector.getElem_swap, hji, hne, hup] using hAcross
      · have hOther := h.others j hj hj0 hji
        by_cases hAbove : (j - 1) / 2 = (i - 1) / 2
        · simp only [hAbove] at hOther
          have hNew := negTrans _ _ _ hOther (asymm _ _ hb)
          simpa [Vector.getElem_swap, hji, hne, hup, hAbove] using hNew
        · simpa [Vector.getElem_swap, hji, hne, hup, hAbove] using hOther
  across := by
    intro j hj hp hj0 hup
    have hAbove := h.others ((i - 1) / 2) (by omega) hp (by omega)
    have hFar : ((i - 1) / 2 - 1) / 2 ≠ i := by omega
    have hNear : ((i - 1) / 2 - 1) / 2 ≠ (i - 1) / 2 := by omega
    by_cases hji : j = i
    · subst hji
      simpa [Vector.getElem_swap, hFar, hNear] using hAbove
    · have hNot : j ≠ (i - 1) / 2 := by omega
      have hOther := h.others j hj hj0 hji
      simp only [hup] at hOther
      have hNew := negTrans _ _ _ hOther hAbove
      simpa [Vector.getElem_swap, hup, hji, hNot, hFar, hNear] using hNew

theorem ordered_rise (steps : Nat) (v : Vector α n) (i : Nat) (hi : i < n) (hs : i ≤ steps)
    (h : MayRise v i) : Ordered (rise steps v i hi) := by
  induction steps generalizing v i with
  | zero =>
    intro j hj hj0 _
    exact h.others j hj hj0 (by omega)
  | succ steps ih =>
    rw [rise]
    split
    · rename_i hb
      have h0 : 0 < i := by
        rcases Nat.eq_zero_or_pos i with rfl | h0
        · rw [not_before_self] at hb
          exact absurd hb (by simp)
        · exact h0
      exact ih _ _ _ (by omega) (h.swap hi h0 hb)
    · rename_i hb
      intro j hj hj0 _
      by_cases hji : j = i
      · subst hji
        simpa using hb
      · exact h.others j hj hj0 hji

/-! ### Sinking -/

def below (v : Vector α n) (i : Nat) (hi : 2 * i + 1 < n) : Fin n :=
  if hr : 2 * i + 2 < n then
    if before v[2 * i + 2] v[2 * i + 1] then ⟨2 * i + 2, hr⟩ else ⟨2 * i + 1, hi⟩
  else ⟨2 * i + 1, hi⟩

theorem above_below (v : Vector α n) (i : Nat) (hi : 2 * i + 1 < n) :
    0 < (below v i hi).val ∧ ((below v i hi).val - 1) / 2 = i := by
  unfold below
  split
  · split
    · exact ⟨by simp, by simp; omega⟩
    · exact ⟨by simp, by simp⟩
  · exact ⟨by simp, by simp⟩

theorem not_before_below (v : Vector α n) (i : Nat) (hi : 2 * i + 1 < n) {j : Nat} (hj : j < n)
    (h0 : 0 < j) (hji : (j - 1) / 2 = i) : before v[j] v[below v i hi] = false := by
  have hCases : j = 2 * i + 1 ∨ j = 2 * i + 2 := by omega
  unfold below
  split
  · split
    · rename_i hb
      rcases hCases with rfl | rfl
      · exact asymm _ _ hb
      · exact not_before_self _
    · rename_i hb
      rcases hCases with rfl | rfl
      · exact not_before_self _
      · simpa using hb
  · rcases hCases with rfl | rfl
    · exact not_before_self _
    · omega

/-- Lets the item at a place sink while one below it comes before it, in at most so many steps. -/
def sink : (steps : Nat) → (v : Vector α n) → (i : Nat) → Vector α n
  | 0, v, _ => v
  | steps + 1, v, i =>
    if hi : 2 * i + 1 < n then
      if before v[below v i hi] v[i] then
        sink steps (v.swap i (below v i hi)) (below v i hi)
      else v
    else v

theorem perm_sink (steps : Nat) (v : Vector α n) (i : Nat) :
    (sink steps v i).toList.Perm v.toList := by
  induction steps generalizing v i with
  | zero => exact List.Perm.refl _
  | succ steps ih =>
    rw [sink]
    split
    · split
      · exact (ih _ _).trans (Vector.swap_perm (by omega) (below v i _).isLt).toList
      · exact List.Perm.refl _
    · exact List.Perm.refl _

/-- From a place on, all but the items below one place is in order, and those do not come before
the one above it. -/
structure MaySink (lo : Nat) (v : Vector α n) (i : Nat) : Prop where
  others : ∀ j, (hj : j < n) → 0 < j → lo ≤ (j - 1) / 2 → (j - 1) / 2 ≠ i →
    before v[j] v[(j - 1) / 2] = false
  across : ∀ j, (hj : j < n) → 0 < i → 0 < j → lo ≤ (i - 1) / 2 → (j - 1) / 2 = i →
    before v[j] v[((j - 1) / 2 - 1) / 2] = false

theorem MaySink.swap {lo : Nat} {v : Vector α n} {i c : Nat} (h : MaySink lo v i) (hlo : lo ≤ i)
    (hc : c < n) (hc0 : 0 < c) (hci : (c - 1) / 2 = i)
    (hLeast : ∀ j, (hj : j < n) → 0 < j → (j - 1) / 2 = i → before v[j] v[c] = false)
    (hb : before v[c] v[i] = true) : MaySink lo (v.swap i c) c where
  others := by
    intro j hj hj0 hjlo hne
    have hic : i ≠ c := by omega
    by_cases hjc : j = c
    · subst hjc
      simpa [Vector.getElem_swap, hci, hic.symm] using asymm _ _ hb
    · by_cases hup : (j - 1) / 2 = i
      · have hji : j ≠ i := by omega
        simpa [Vector.getElem_swap, hup, hjc, hji] using hLeast j hj hj0 hup
      · by_cases hji : j = i
        · subst hji
          have hAcross := h.across c hc hj0 hc0 hjlo hci
          simp only [hci] at hAcross
          simpa [Vector.getElem_swap, hup, hne] using hAcross
        · simpa [Vector.getElem_swap, hup, hne, hjc, hji] using h.others j hj hj0 hjlo hup
  across := by
    intro j hj _ hj0 _ hup
    have hOther := h.others j hj hj0 (by omega) (by omega)
    have hji : j ≠ i := by omega
    have hjc : j ≠ c := by omega
    simp only [hup] at hOther
    simpa [Vector.getElem_swap, hup, hci, hji, hjc] using hOther

theorem ordered_sink {lo : Nat} (steps : Nat) (v : Vector α n) (i : Nat) (hlo : lo ≤ i)
    (hs : n ≤ i + steps) (h : MaySink lo v i) : OrderedFrom lo (sink steps v i) := by
  induction steps generalizing v i with
  | zero =>
    intro j hj hj0 hjlo
    exact h.others j hj hj0 hjlo (by omega)
  | succ steps ih =>
    rw [sink]
    split
    · rename_i hi
      have hUp := above_below v i hi
      split
      · rename_i hb
        exact ih _ _ (by omega) (by omega) (h.swap hlo (below v i hi).isLt hUp.1 hUp.2
          (fun j => not_before_below v i hi) hb)
      · rename_i hb
        intro j hj hj0 hjlo
        by_cases hup : (j - 1) / 2 = i
        · have hLeast := not_before_below v i hi hj hj0 hup
          have := negTrans _ _ _ hLeast (by simpa using hb)
          simpa only [hup] using this
        · exact h.others j hj hj0 hjlo hup
    · intro j hj hj0 hjlo
      exact h.others j hj hj0 hjlo (by omega)

/-- Lets the items at all places before the given one sink, from the back. -/
def sinkAll : (places : Nat) → Vector α n → Vector α n
  | 0, v => v
  | places + 1, v => sinkAll places (sink n v places)

theorem perm_sinkAll (places : Nat) (v : Vector α n) :
    (sinkAll places v).toList.Perm v.toList := by
  induction places generalizing v with
  | zero => exact List.Perm.refl _
  | succ places ih => exact (ih _).trans (perm_sink _ _ _)

theorem ordered_sinkAll (places : Nat) (v : Vector α n) (h : OrderedFrom places v) :
    Ordered (sinkAll places v) := by
  induction places generalizing v with
  | zero => exact h
  | succ places ih =>
    refine ih _ (ordered_sink n v places (Nat.le_refl _) (Nat.le_add_left _ _) ⟨?_, ?_⟩)
    · intro j hj hj0 hlo hne
      exact h j hj hj0 (by omega)
    · intro j hj h0 _ hlo _
      omega

end Heap

open Heap in
/-- Items in an array in which no item comes before the one above it. -/
structure Heap (α : Type) [Precedence α] where
  size : Nat
  items : Vector α size
  ordered : Ordered items

namespace Heap

variable {α : Type} [Precedence α]

def toList (h : Heap α) : List α := h.items.toList

@[simp]
theorem length_toList (h : Heap α) : h.toList.length = h.size := by simp [toList]

def empty : Heap α := ⟨0, #v[], fun i hi => by omega⟩

@[simp]
theorem toList_empty : (empty : Heap α).toList = [] := rfl

def first? (h : Heap α) : Option α := h.items[0]?

/-! ### Adding items -/

theorem mayRise_push {n : Nat} {v : Vector α n} (h : Ordered v) (a : α) : MayRise (v.push a) n where
  others := by
    intro j hj hj0 hne
    have hOld := h j (by omega) hj0 (Nat.zero_le _)
    have hUp : (j - 1) / 2 < n := by omega
    have hj' : j < n := by omega
    simpa [Vector.getElem_push, hUp, hj'] using hOld
  across := by
    intro j hj h0 hj0 hup
    omega

def push (h : Heap α) (a : α) : Heap α where
  size := h.size + 1
  items := rise h.size (h.items.push a) h.size (Nat.lt_succ_self _)
  ordered := ordered_rise _ _ _ _ (Nat.le_refl _) (mayRise_push h.ordered a)

theorem perm_push (h : Heap α) (a : α) : (h.push a).toList.Perm (a :: h.toList) := by
  have hPush : (h.items.push a).toList = h.toList ++ [a] := Vector.toList_push
  exact (perm_rise _ _ _ _).trans (hPush ▸ List.perm_append_singleton a h.toList)

/-! ### Taking the first item out -/

/-- The array without its first item, whose place the last one has taken. -/
def withoutFirst {n : Nat} (v : Vector α (n + 1)) : Vector α n := (v.swap 0 n).pop

omit [Precedence α] in
theorem perm_withoutFirst {n : Nat} (v : Vector α (n + 1)) :
    v.toList.Perm (v[0] :: (withoutFirst v).toList) := by
  have hSwap : (v.swap 0 n).toList = (withoutFirst v).toList ++ [v[0]] := by
    have hLast : (v.swap 0 n).back = v[0] := by simp [Vector.back_eq_getElem]
    rw [← hLast, ← Vector.toList_push, withoutFirst]
    exact (congrArg Vector.toList (Vector.push_pop_back _)).symm
  have hPerm : (v.swap 0 n).toList.Perm v.toList :=
    (Vector.swap_perm (by omega) (by omega)).toList
  rw [hSwap] at hPerm
  exact hPerm.symm.trans (List.perm_append_singleton _ _)

omit [Precedence α] in
theorem getElem_withoutFirst {n : Nat} (v : Vector α (n + 1)) {i : Nat} (hi : i < n)
    (h0 : 0 < i) : (withoutFirst v)[i] = v[i] := by
  have hPop : (withoutFirst v)[i] = (v.swap 0 n)[i] := Vector.getElem_pop hi
  exact hPop.trans (Vector.getElem_swap_of_ne (by omega) (by omega))

theorem maySink_withoutFirst {n : Nat} {v : Vector α (n + 1)} (h : Ordered v) :
    MaySink 0 (withoutFirst v) 0 where
  others := by
    intro j hj hj0 _ hne
    rw [getElem_withoutFirst v hj hj0, getElem_withoutFirst v (by omega) (by omega)]
    exact h j (by omega) hj0 (Nat.zero_le _)
  across := by
    intro j hj h0
    omega

def pop? : Heap α → Option (α × Heap α)
  | ⟨0, _, _⟩ => none
  | ⟨n + 1, v, ordered⟩ =>
    some (v[0],
      ⟨n, sink n (withoutFirst v) 0,
        ordered_sink _ _ _ (Nat.le_refl _) (by omega) (maySink_withoutFirst ordered)⟩)

theorem pop?_eq_none_iff {h : Heap α} : h.pop? = none ↔ h.toList = [] := by
  rw [← List.length_eq_zero_iff, length_toList]
  obtain ⟨size, v, ordered⟩ := h
  cases size with
  | zero => simp [pop?]
  | succ n => simp [pop?]

theorem first?_eq (h : Heap α) : h.first? = h.pop?.map (·.1) := by
  obtain ⟨size, v, ordered⟩ := h
  cases size with
  | zero => simp [pop?, first?]
  | succ n => simp [pop?, first?]

theorem perm_of_pop? {h rest : Heap α} {a : α} (hp : h.pop? = some (a, rest)) :
    h.toList.Perm (a :: rest.toList) := by
  obtain ⟨size, v, ordered⟩ := h
  cases size with
  | zero => simp [pop?] at hp
  | succ n =>
    obtain ⟨rfl, rfl⟩ := Prod.mk.inj (Option.some.inj hp)
    exact (perm_withoutFirst v).trans ((perm_sink _ _ _).symm.cons _)

theorem first_of_pop? {h rest : Heap α} {a : α} (hp : h.pop? = some (a, rest)) :
    ∀ b ∈ h.toList, Precedence.before b a = false := by
  obtain ⟨size, v, ordered⟩ := h
  cases size with
  | zero => simp [pop?] at hp
  | succ n =>
    obtain ⟨rfl, rfl⟩ := Prod.mk.inj (Option.some.inj hp)
    intro b hb
    obtain ⟨i, hi, rfl⟩ := Vector.getElem_of_mem (Vector.mem_toList_iff.1 hb)
    exact ordered.not_before_first i hi

/-! ### Making a heap of an array -/

def ofArray (a : Array α) : Heap α where
  size := a.size
  items := sinkAll (a.size / 2) a.toVector
  ordered := ordered_sinkAll _ _ (fun i hi h0 hlo => by omega)

theorem perm_ofArray (a : Array α) : (ofArray a).toList.Perm a.toList :=
  perm_sinkAll _ _

def filter (p : α → Bool) (h : Heap α) : Heap α := ofArray (h.items.toArray.filter p)

theorem perm_filter (p : α → Bool) (h : Heap α) :
    (h.filter p).toList.Perm (h.toList.filter p) := by
  have hList : (h.items.toArray.filter p).toList = h.toList.filter p := by
    rw [Array.toList_filter]
    rfl
  exact hList ▸ perm_ofArray _

end Heap

end VirtualLooper
