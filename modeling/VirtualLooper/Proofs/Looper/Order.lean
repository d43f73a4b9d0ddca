import VirtualLooper.Proofs.Looper.Turn

/-!
# The order of delivery over a whole run

While nobody queues a message for a time that has passed, all messages ever taken for delivery come
in one order, by due time and then by number, whatever calls took them and on whatever threads.

The invariant is `Ledger.InOrder`: what was taken comes before all that is pending, and was due by
now.  A new message cannot come before what was taken, since it is not due before now and has a
greater number; and what is taken next was pending.
-/

namespace VirtualLooper

variable {σ κ : Type}

namespace Ledger

/-- Nobody has queued a message for a time that had passed. -/
def Timely (L : Ledger κ) : Prop := ∀ d ∈ L.dated, d.1 ≤ d.2.due

/-- What was taken is in order and comes before what is pending and what is still to come. -/
structure InOrder (L : Ledger κ) : Prop where
  taken : L.taken.Pairwise fun a b => a.before b = true
  pending : ∀ a ∈ L.taken, ∀ x ∈ L.queue.pending, a.before x = true
  due : ∀ a ∈ L.taken, a.due ≤ L.now
  accepted : ∀ a ∈ L.taken, a.seq < L.queue.accepted

theorem Timely.of_step {L L' : Ledger κ} (h : Timely L') (hStep : Step L L') : Timely L := by
  cases hStep with
  | edit hEdit =>
    cases hEdit with
    | accept m hm hCall dated hDated =>
      intro d hd
      rcases hDated with ⟨rfl, -⟩ | rfl
      · exact h d hd
      · exact h d (List.mem_append_left _ hd)
    | _ => exact h
  | _ => exact h

namespace InOrder

variable {L L' : Ledger κ}

/-- A message that is not due before now comes after all that was taken. -/
theorem before_new (h : InOrder L) {m : Message κ} (hm : m.seq = L.queue.accepted)
    (hDue : L.now ≤ m.due) {a : Message κ} (ha : a ∈ L.taken) : a.before m = true := by
  have hNow := h.due a ha
  have hSeq := h.accepted a ha
  rw [Message.before_iff]
  omega

theorem edit (h : InOrder L) (hTimely : Timely L') (hEdit : Edit L L') : InOrder L' := by
  cases hEdit with
  | quiet => exact h
  | accept m hm hCall dated hDated =>
    have hDue : L.now ≤ m.due := by
      rcases hDated with ⟨-, hDue⟩ | rfl
      · exact hDue
      · exact hTimely _ (List.mem_append_right _ (List.mem_singleton_self _))
    refine ⟨h.taken, fun a ha x hx => ?_, h.due, fun a ha => Nat.lt_succ_of_lt (h.accepted a ha)⟩
    rcases List.mem_cons.1 ((L.queue.perm_pending_add m hm).mem_iff.1 hx) with rfl | hx
    · exact h.before_new hm hDue ha
    · exact h.pending a ha x hx
  | remove tag target =>
    obtain ⟨-, hKept, hAcc⟩ := L.queue.spec_removeTag tag target
    refine ⟨h.taken, fun a ha x hx => ?_, h.due, fun a ha => by rw [hAcc]; exact h.accepted a ha⟩
    exact h.pending a ha x (List.mem_filter.1 (hKept.mem_iff.1 hx)).1
  | advance amount hPos =>
    refine ⟨h.taken, h.pending, fun a ha => ?_, h.accepted⟩
    have hNow := h.due a ha
    show a.due ≤ L.now + amount
    omega

theorem step (h : InOrder L) (hTimely : Timely L') (hStep : Step L L') : InOrder L' := by
  cases hStep with
  | edit hEdit => exact h.edit hTimely hEdit
  | take m q hPop =>
    obtain ⟨hDue, hPerm, hFirst, hAcc⟩ := Queue.spec_of_popAt? hPop
    have hPending : m ∈ L.queue.pending := hPerm.mem_iff.2 List.mem_cons_self
    refine ⟨?_, fun a ha x hx => ?_, fun a ha => ?_, fun a ha => ?_⟩
    · rw [List.pairwise_append]
      refine ⟨h.taken, List.pairwise_singleton _ _, fun a ha x hx => ?_⟩
      rw [List.mem_singleton.1 hx]
      exact h.pending a ha m hPending
    · rcases List.mem_append.1 ha with ha | ha
      · exact h.pending a ha x (hPerm.mem_iff.2 (List.mem_cons_of_mem _ hx))
      · rw [List.mem_singleton.1 ha]
        exact hFirst x hx
    · rcases List.mem_append.1 ha with ha | ha
      · exact h.due a ha
      · rw [List.mem_singleton.1 ha]
        exact hDue
    · rw [hAcc]
      rcases List.mem_append.1 ha with ha | ha
      · exact h.accepted a ha
      · rw [List.mem_singleton.1 ha]
        exact L.queue.fresh m hPending
  | call m => exact ⟨h.taken, h.pending, h.due, h.accepted⟩

end InOrder

end Ledger

namespace Machine

theorem inOrder_of_reachable {w : World σ κ} {M : Machine σ κ} (h : Reachable w M)
    (hTimely : M.ledger.Timely) : M.ledger.InOrder := by
  induction h with
  | start h p =>
    obtain ⟨clock, rfl⟩ := State.spec_of_make h
    exact ⟨List.Pairwise.nil, by simp [ledger, Ledger.of, start],
      by simp [ledger, Ledger.of, start], by simp [ledger, Ledger.of, start]⟩
  | step thread prior h ih =>
    have hStep := (turn_of_step h).step
    exact (ih (hTimely.of_step hStep)).step hTimely hStep

/-- **Messages are taken in one order.**  While nobody queues a message for a time that has passed,
whatever was taken earlier, by whatever call and on whatever thread, has the earlier due time, or
the same and the smaller number. -/
theorem taken_pairwise_before {w : World σ κ} {M : Machine σ κ} (h : Reachable w M)
    (hTimely : M.ledger.Timely) :
    M.ledger.taken.Pairwise fun a b => a.due < b.due ∨ a.due = b.due ∧ a.seq < b.seq :=
  (inOrder_of_reachable h hTimely).taken.imp Message.before_iff.1

/-- Of three messages the first one is due later, and the others come in turn. -/
theorem taken_in_turn :
    ∃ M, after World.flaky .standard none () (.threeMessages false) (List.replicate 12 .main) =
        some M ∧ M.ledger.Timely ∧ M.ledger.taken.map (·.seq) = [1, 2] ∧
      M.ledger.taken.Pairwise fun a b => a.due < b.due ∨ a.due = b.due ∧ a.seq < b.seq := by
  have hRun : ∃ M, after World.flaky .standard none () (.threeMessages false)
      (List.replicate 12 .main) = some M ∧
        (M.ledger.dated.map fun d => (d.1, d.2.due)) = [(0, 1), (0, 0), (0, 0)] ∧
        M.ledger.taken.map (·.seq) = [1, 2] := ⟨_, rfl, rfl, rfl⟩
  obtain ⟨M, hAfter, hDated, hTaken⟩ := hRun
  have hTimely : M.ledger.Timely := by
    intro d hd
    have hMem := List.mem_map_of_mem (f := fun d => (d.1, d.2.due)) hd
    rw [hDated] at hMem
    simp only [List.mem_cons, Prod.mk.injEq, List.not_mem_nil, or_false] at hMem
    omega
  exact ⟨M, hAfter, hTimely, hTaken, taken_pairwise_before (reachable_of_after hAfter) hTimely⟩

end Machine

end VirtualLooper
