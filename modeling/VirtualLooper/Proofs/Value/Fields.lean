import Mathlib.Data.List.Forall2
import VirtualLooper.Value.Equality

/-!
# Fields of a mapping

What stands under a name in a mapping is what stands under its first key that is the same.  Names are
the same only as themselves, so an entry under another name makes no difference, and neither does it
when mappings with the same keys are compared under a name (`FieldsAlike`).
-/

namespace VirtualLooper

theorem same_str (name other : String) :
    Value.same (.str name) (.str other) = decide (name = other) := by
  rw [Value.same, decide_eq_decide]
  exact ⟨fun h => by simpa using congrArg Text.asString h, congrArg Text.ofString⟩

theorem field?_cons_of_same {name : String} {key v : Value} {rest : List (Value × Value)}
    (h : Value.same (.str name) key = true) : Value.field? ((key, v) :: rest) name = some v := by
  have hFirst : Value.same (.str name) (key, v).1 = true := h
  rw [Value.field?, Value.lookup?, List.find?_cons, hFirst]
  rfl

theorem field?_cons_of_other {name : String} {key v : Value} {rest : List (Value × Value)}
    (h : Value.same (.str name) key = false) :
    Value.field? ((key, v) :: rest) name = Value.field? rest name := by
  have hFirst : Value.same (.str name) (key, v).1 = false := h
  rw [Value.field?, Value.lookup?, List.find?_cons, hFirst]
  rfl

theorem field?_cons_name {name : String} {v : Value} {rest : List (Value × Value)} :
    Value.field? ((.str name, v) :: rest) name = some v :=
  field?_cons_of_same (by simp [same_str])

theorem field?_cons_of_ne {name other : String} {v : Value} {rest : List (Value × Value)}
    (h : name ≠ other) : Value.field? ((.str other, v) :: rest) name = Value.field? rest name :=
  field?_cons_of_other (by simp [same_str, h])

/-! ### Mappings that differ under some names -/

/-- Mappings with the same keys in the same order.  Their values are the same, or they stand under a
name and are related. -/
def FieldsAlike (R : String → Value → Value → Prop) (es fs : List (Value × Value)) : Prop :=
  List.Forall₂ (fun e f => e.1 = f.1 ∧ (e.2 = f.2 ∨ ∃ name : String, e.1 = .str name ∧ R name e.2 f.2))
    es fs

namespace FieldsAlike

variable {R : String → Value → Value → Prop} {es fs : List (Value × Value)}

/-- Such mappings have alike values under each name, or both have none. -/
theorem field? (h : FieldsAlike R es fs) (name : String) :
    (Value.field? es name = none ∧ Value.field? fs name = none) ∨
      ∃ v w, Value.field? es name = some v ∧ Value.field? fs name = some w ∧
        (v = w ∨ R name v w) := by
  induction h with
  | nil => exact Or.inl ⟨rfl, rfl⟩
  | @cons e f es fs hHead hTail ih =>
    obtain ⟨hKey, hValue⟩ := hHead
    simp only [Value.field?, Value.lookup?, List.find?_cons, ← hKey] at ih ⊢
    cases hSame : Value.same (.str name) e.1 with
    | false => exact ih
    | true =>
      refine Or.inr ⟨e.2, f.2, rfl, rfl, hValue.imp_right ?_⟩
      rintro ⟨other, hOther, hR⟩
      rw [hOther, same_str, decide_eq_true_eq] at hSame
      exact hSame ▸ hR

theorem field?_eq (h : FieldsAlike R es fs) {name : String} (hName : ∀ v w, ¬ R name v w) :
    Value.field? es name = Value.field? fs name := by
  rcases h.field? name with ⟨hes, hfs⟩ | ⟨v, w, hes, hfs, rfl | hR⟩
  · rw [hes, hfs]
  · rw [hes, hfs]
  · exact absurd hR (hName v w)

end FieldsAlike

end VirtualLooper
