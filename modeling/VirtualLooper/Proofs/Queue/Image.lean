import VirtualLooper.Heap

/-!
# Images of heaps

A heap looks at nothing of its items but which of two comes before the other.  So under a map that
keeps that, items rise and sink along the same paths as their images do (`rise_map`, `sink_map`),
and a heap of images does what the heap does: adding an item, taking the first one out and keeping
some of them give the images of the heaps that they give (`push_map`, `pop?_map`, `filter_map`).
-/

namespace VirtualLooper.Heap

open Precedence

variable {α β : Type} [Precedence α] [Precedence β] {n : Nat} {f : α → β}
  (hf : ∀ a b, before (f a) (f b) = before a b)

omit [Precedence α] [Precedence β] in
theorem map_swap (f : α → β) (v : Vector α n) {i j : Nat} (hi : i < n) (hj : j < n) :
    (v.swap i j hi hj).map f = (v.map f).swap i j hi hj := by
  ext k hk
  simp only [Vector.getElem_map, Vector.getElem_swap]
  split
  · rfl
  · split <;> rfl

include hf

theorem ordered_map {v : Vector α n} (h : Ordered v) : Ordered (v.map f) := by
  intro i hi h0 hlo
  rw [Vector.getElem_map, Vector.getElem_map, hf]
  exact h i hi h0 hlo

theorem rise_map (steps : Nat) (v : Vector α n) (i : Nat) (hi : i < n) :
    rise steps (v.map f) i hi = (rise steps v i hi).map f := by
  induction steps generalizing v i with
  | zero => rfl
  | succ steps ih =>
    rw [rise, rise, Vector.getElem_map, Vector.getElem_map, hf, ← map_swap, ih]
    split <;> rfl

theorem below_map (v : Vector α n) (i : Nat) (hi : 2 * i + 1 < n) :
    below (v.map f) i hi = below v i hi := by
  simp only [below, Vector.getElem_map, hf]

theorem sink_map (steps : Nat) (v : Vector α n) (i : Nat) :
    sink steps (v.map f) i = (sink steps v i).map f := by
  induction steps generalizing v i with
  | zero => rfl
  | succ steps ih =>
    rw [sink, sink]
    split
    · rename_i hi
      simp only [below_map hf, Fin.getElem_fin, Vector.getElem_map, hf]
      split
      · rw [← map_swap, ih]
      · rfl
    · rfl

theorem sinkAll_map (places : Nat) (v : Vector α n) :
    sinkAll places (v.map f) = (sinkAll places v).map f := by
  induction places generalizing v with
  | zero => rfl
  | succ places ih => rw [sinkAll, sinkAll, sink_map hf, ih]

def map (h : Heap α) : Heap β where
  size := h.size
  items := h.items.map f
  ordered := ordered_map hf h.ordered

omit hf in
@[simp]
theorem toList_map (hf : ∀ a b, before (f a) (f b) = before a b) (h : Heap α) :
    (h.map hf).toList = h.toList.map f := Vector.toList_map

omit hf in
theorem first?_map (hf : ∀ a b, before (f a) (f b) = before a b) (h : Heap α) :
    (h.map hf).first? = h.first?.map f := by
  show (h.items.map f)[0]? = h.items[0]?.map f
  exact Vector.getElem?_map ..

theorem push_map (h : Heap α) (a : α) : (h.map hf).push (f a) = (h.push a).map hf := by
  simp only [push, map, ← Vector.map_push, rise_map hf]

theorem pop?_map (h : Heap α) :
    (h.map hf).pop? = h.pop?.map fun taken => (f taken.1, taken.2.map hf) := by
  obtain ⟨size, v, ordered⟩ := h
  cases size with
  | zero => rfl
  | succ n =>
    have hRest : withoutFirst (v.map f) = (withoutFirst v).map f := by
      rw [withoutFirst, withoutFirst, ← map_swap, Vector.map_pop]
    simp only [pop?, map, Option.map_some, Vector.getElem_map, hRest, sink_map hf]

omit [Precedence β] hf in
theorem ofArray_toArray (v : Vector α n) :
    ofArray v.toArray =
      ⟨n, sinkAll (n / 2) v, ordered_sinkAll _ _ fun i hi h0 hlo => by omega⟩ := by
  obtain ⟨a, rfl⟩ := v
  rfl

theorem filter_map (p : β → Bool) (h : Heap α) :
    (h.map hf).filter p = (h.filter fun a => p (f a)).map hf := by
  obtain ⟨size, v, ordered⟩ := h
  let kept := (v.toArray.filter fun a => p (f a)).toVector
  have hKept : (v.map f).toArray.filter p = (kept.map f).toArray :=
    Array.filter_map
  show ofArray ((v.map f).toArray.filter p) = (ofArray kept.toArray).map hf
  rw [hKept, ofArray_toArray, ofArray_toArray]
  simp only [map, sinkAll_map hf]

end VirtualLooper.Heap
