import VirtualLooper.Proofs.Looper.Turn

/-!
# No message is lost, and none is delivered twice

Each message that a looper has accepted is in one of three places, once: it is pending, it was taken
for delivery, or it was removed.  `Ledger.Conserved` says so of a ledger, and each of the things
that can happen to messages keeps it so, whoever does it and in whatever order.

What a machine adds is who has the messages that were taken.  All of them have had their call made,
in the order in which they were taken, but for the one that the thread that takes messages may have
in its hands (`Kept.handed`).  So a message whose receiver is running, or has failed, is not
pending, and never will be again.
-/

namespace VirtualLooper

variable {σ κ : Type}

namespace Ledger

/-! ### Ledgers that balance -/

/-- Accepted messages have the numbers from zero on and are pending, taken or removed; what senders
and removers were told is true. -/
structure Conserved (L : Ledger κ) : Prop where
  perm : (L.accepted.map (·.1)).Perm (L.queue.pending ++ L.taken ++ L.removed.flatten)
  seqs : (L.accepted.map fun a => a.1.seq) = List.range L.queue.accepted
  sent : L.sent = L.accepted.map fun a => a.1.sent
  removals : L.removals = L.removed.map List.length
  calls : ∀ a ∈ L.accepted, a.1.call?.isSome = true

def times (seq : Nat) (ms : List (Message κ)) : Nat := ms.countP fun m => m.seq = seq

def total (ns : List Nat) : Nat := ns.foldr (· + ·) 0

namespace Conserved

variable {L L' : Ledger κ}

theorem edit (h : Conserved L) (hEdit : Edit L L') : Conserved L' := by
  cases hEdit with
  | quiet => exact h
  | accept m hm hCall dated hDated =>
    refine ⟨?_, ?_, ?_, h.removals, ?_⟩
    · have hAdd := ((L.queue.perm_pending_add m hm).append_right L.taken).append_right
        L.removed.flatten
      rw [List.map_append]
      exact (List.perm_append_singleton m _).trans ((h.perm.cons m).trans hAdd.symm)
    · rw [List.map_append, h.seqs]
      show List.range L.queue.accepted ++ [m.seq] = List.range (L.queue.accepted + 1)
      rw [List.range_succ, hm]
    · rw [List.map_append, h.sent]
      rfl
    · intro a ha
      rcases List.mem_append.1 ha with ha | ha
      · exact h.calls a ha
      · rw [List.mem_singleton.1 ha]
        exact hCall
  | remove tag target =>
    obtain ⟨hCount, hKept, hAcc⟩ := L.queue.spec_removeTag tag target
    refine ⟨?_, by rw [hAcc]; exact h.seqs, h.sent, ?_, h.calls⟩
    · have hSplit := List.filter_append_perm (fun m => m.hasTag tag target) L.queue.pending
      have hGone := ((hKept.symm.append_left _).symm.trans hSplit).symm
      rw [List.flatten_append, List.flatten_singleton, ← List.append_assoc]
      refine h.perm.trans (((hGone.append_right _).append_right _).trans ?_)
      rw [List.append_assoc, List.append_assoc, ← List.append_assoc _ L.taken]
      exact List.perm_append_comm
    · rw [List.map_append, h.removals, hCount]
      rfl
  | advance amount hPos => exact ⟨h.perm, h.seqs, h.sent, h.removals, h.calls⟩

theorem step (h : Conserved L) (hStep : Step L L') : Conserved L' := by
  cases hStep with
  | edit hEdit => exact h.edit hEdit
  | take m q hPop =>
    obtain ⟨-, hPerm, -, hAcc⟩ := Queue.spec_of_popAt? hPop
    refine ⟨?_, by rw [hAcc]; exact h.seqs, h.sent, h.removals, h.calls⟩
    refine h.perm.trans (((hPerm.append_right _).append_right _).trans ?_)
    rw [← List.append_assoc, List.append_assoc _ [m]]
    exact List.perm_middle.symm
  | call m => exact ⟨h.perm, h.seqs, h.sent, h.removals, h.calls⟩

/-- Every message that was accepted is pending, was taken or was removed: one of the three, once. -/
theorem times_eq_one (h : Conserved L) {seq : Nat} (hSeq : seq < L.queue.accepted) :
    times seq L.queue.pending + times seq L.taken + times seq L.removed.flatten = 1 := by
  have hAll := h.perm.countP_eq fun m => m.seq = seq
  rw [List.countP_append, List.countP_append] at hAll
  rw [times, times, times, ← hAll, List.countP_map]
  have hRange := congrArg (List.count seq) h.seqs
  rw [List.count_range, if_pos hSeq, List.count, List.countP_map] at hRange
  exact hRange

theorem nodup_taken (h : Conserved L) : (L.taken.map (·.seq)).Nodup := by
  have hAll : ((L.queue.pending ++ L.taken ++ L.removed.flatten).map (·.seq)).Nodup := by
    rw [← (h.perm.map (·.seq)).nodup_iff, List.map_map, Function.comp_def, h.seqs]
    exact List.nodup_range
  have hTaken : L.taken.Sublist (L.queue.pending ++ L.taken ++ L.removed.flatten) :=
    (List.sublist_append_right _ _).trans (List.sublist_append_left _ _)
  exact hAll.sublist (hTaken.map _)

theorem seq_ne (h : Conserved L) {m x : Message κ} (hm : m ∈ L.taken)
    (hx : x ∈ L.queue.pending) : x.seq ≠ m.seq := by
  intro hSame
  have hAll : m ∈ L.accepted.map (·.1) :=
    h.perm.mem_iff.2 (List.mem_append_left _ (List.mem_append_right _ hm))
  have hSeq : m.seq < L.queue.accepted := by
    obtain ⟨a, ha, rfl⟩ := List.mem_map.1 hAll
    rw [← List.mem_range, ← h.seqs]
    exact List.mem_map_of_mem ha
  have hOne := h.times_eq_one hSeq
  have hTaken : 0 < times m.seq L.taken := List.countP_pos_iff.2 ⟨m, hm, by simp⟩
  have hPending : 0 < times m.seq L.queue.pending := List.countP_pos_iff.2 ⟨x, hx, by simpa⟩
  omega

/-- While nothing is taken, what is accepted stays pending until it is removed. -/
theorem perm_pending (h : Conserved L) (h' : Conserved L') (hTaken : L'.taken = L.taken)
    {accepted : List (Message κ × Int)} {removed : List (List (Message κ))}
    (hAccepted : L'.accepted = L.accepted ++ accepted)
    (hRemoved : L'.removed = L.removed ++ removed) :
    (L.queue.pending ++ accepted.map (·.1)).Perm (L'.queue.pending ++ removed.flatten) := by
  have hAll := h'.perm
  rw [hAccepted, hTaken, hRemoved, List.map_append, List.flatten_append] at hAll
  have hBefore := (h.perm.append_right (accepted.map (·.1))).symm.trans hAll
  -- what was taken and removed by then is on both sides
  have hLeft : ((L.taken ++ L.removed.flatten) ++ (L.queue.pending ++ accepted.map (·.1))).Perm
      (L.queue.pending ++ L.taken ++ L.removed.flatten ++ accepted.map (·.1)) := by
    rw [← List.append_assoc, List.append_assoc L.queue.pending]
    exact List.perm_append_comm.append_right _
  have hRight : (L'.queue.pending ++ L.taken ++ (L.removed.flatten ++ removed.flatten)).Perm
      ((L.taken ++ L.removed.flatten) ++ (L'.queue.pending ++ removed.flatten)) := by
    rw [← List.append_assoc _ L.removed.flatten, List.append_assoc L'.queue.pending,
      ← List.append_assoc _ L'.queue.pending]
    exact List.perm_append_comm.append_right _
  exact (List.perm_append_left_iff _).1 ((hLeft.trans hBefore).trans hRight)

theorem total_removals (h : Conserved L) : total L.removals = L.removed.flatten.length := by
  rw [h.removals]
  induction L.removed with
  | nil => rfl
  | cons ms rest ih =>
    rw [List.map_cons, total, List.foldr_cons, ← total, ih, List.flatten_cons, List.length_append]

/-- Nothing is pending but what was accepted and neither taken nor removed. -/
theorem size_eq (h : Conserved L) :
    L.queue.size + L.taken.length + total L.removals = L.sent.length := by
  have hAll := h.perm.length_eq
  rw [List.length_append, List.length_append, List.length_map, Queue.length_pending] at hAll
  rw [h.sent, h.total_removals, List.length_map, hAll]

end Conserved

end Ledger

/-! ### Who has the messages that were taken -/

def Message.withCall (m : Message κ) : Message κ × Option (Call κ) := (m, m.call?)

namespace Machine

/-- The messages that were taken and whose call was not made yet. -/
def inHand (M : Machine σ κ) : List (Message κ) :=
  match M.dispatcher with
  | some thread => (M.tasks thread).control.inHand
  | none => []

theorem inHand_of_some {M : Machine σ κ} {thread : Thread} (h : M.dispatcher = some thread) :
    M.inHand = (M.tasks thread).control.inHand := by simp only [inHand, h]

theorem inHand_of_none {M : Machine σ κ} (h : M.dispatcher = none) : M.inHand = [] := by
  simp only [inHand, h]

/-- Messages have been delivered in the order in which they were taken, each by its own call; what
is being delivered has been taken. -/
structure Kept (M : Machine σ κ) : Prop where
  conserved : M.ledger.Conserved
  handed : M.ledger.taken.map Message.withCall = M.ledger.called ++ M.inHand.map Message.withCall
  delivering : ∀ thread, ∀ m ∈ (M.tasks thread).delivering, m ∈ M.ledger.taken

namespace Kept

variable {M M' : Machine σ κ} {thread : Thread}

theorem of_thread (h : Kept M)
    (hOthers : ∀ other, other ≠ thread → M'.tasks other = M.tasks other)
    (hTurn : Turn thread M M')
    (hHanded : M'.ledger.taken.map Message.withCall =
      M'.ledger.called ++ M'.inHand.map Message.withCall)
    (hDelivering : ∀ m ∈ (M'.tasks thread).delivering, m ∈ M'.ledger.taken) : Kept M' where
  conserved := h.conserved.step hTurn.step
  handed := hHanded
  delivering other m hm := by
    by_cases hOther : other = thread
    · exact hDelivering m (hOther ▸ hm)
    · rw [hOthers other hOther] at hm
      exact hTurn.step.taken_prefix.subset (h.delivering other m hm)

theorem turn (h : Kept M) (hLock : Exclusive M) (hTurn : Turn thread M M')
    (hOthers : ∀ other, other ≠ thread → M'.tasks other = M.tasks other) : Kept M' := by
  have hMine := h.delivering thread
  have hThread := h.of_thread hOthers hTurn
  cases hTurn with
  | go hEdit hSame hDepth hLoops hHand hHand' hDelivering =>
    have hInHand : M'.inHand = M.inHand := by
      cases hDispatcher : M.dispatcher with
      | none => rw [inHand_of_none hDispatcher, inHand_of_none (hSame.trans hDispatcher)]
      | some other =>
        rw [inHand_of_some hDispatcher, inHand_of_some (hSame.trans hDispatcher)]
        by_cases hOther : other = thread
        · rw [hOther, hHand, hHand']
        · rw [hOthers other hOther]
    refine hThread ?_ fun m hm => ?_
    · rw [hEdit.taken_eq, hEdit.called_eq, hInHand, h.handed]
    · rw [hEdit.taken_eq]
      exact hMine m (hDelivering hm)
  | enter hLedger hFree hNow hDepth hLoops hHand hHand' hDelivering =>
    have hInHand : M.inHand = [] := by
      rcases hFree with hNone | hOwn
      · exact inHand_of_none hNone
      · rw [inHand_of_some hOwn, hHand]
    have hInHand' : M'.inHand = [] := by rw [inHand_of_some hNow, hHand']
    refine hThread ?_ fun m hm => ?_
    · rw [hLedger, hInHand', ← hInHand, h.handed]
    · rw [hLedger]
      exact hMine m (hDelivering ▸ hm)
  | take m q loop hControl hPop hLedger hSame hDepth hTask =>
    have hOwn := hLock.owns (Task.loops_pos (by rw [hControl]; exact Nat.one_pos))
    have hInHand : M.inHand = [] := by rw [inHand_of_some hOwn, hControl]; rfl
    have hInHand' : M'.inHand = [m] := by rw [inHand_of_some (hSame.trans hOwn), hTask]; rfl
    refine hThread ?_ fun x hx => ?_
    · rw [hLedger, hInHand', List.map_append, h.handed, hInHand]
      simp
    · rw [hLedger]
      rw [hTask] at hx
      rcases List.mem_cons.1 hx with rfl | hx
      · exact List.mem_append_right _ (List.mem_singleton_self _)
      · exact List.mem_append_left _ (hMine x (List.mem_append_right _ hx))
  | call m loop p hControl hLedger hSame hDepth hTask =>
    have hOwn := hLock.owns (Task.loops_pos (by rw [hControl]; exact Nat.one_pos))
    have hInHand : M.inHand = [m] := by rw [inHand_of_some hOwn, hControl]; rfl
    have hInHand' : M'.inHand = [] := by rw [inHand_of_some (hSame.trans hOwn), hTask]; rfl
    refine hThread ?_ fun x hx => ?_
    · rw [hLedger, hInHand', h.handed, hInHand]
      simp [Message.withCall]
    · rw [hLedger]
      rw [hTask] at hx
      rw [Task.delivering, hControl] at hMine
      exact hMine x hx
  | leave hLedger hNow hDepth hLoops hHand hHand' hDelivering =>
    have hOwn := hLock.owns (show 0 < (M.tasks thread).loops by omega)
    have hInHand : M.inHand = [] := by rw [inHand_of_some hOwn, hHand]
    have hInHand' : M'.inHand = [] := by
      by_cases hZero : M.state.depth - 1 = 0
      · rw [if_pos hZero] at hNow
        exact inHand_of_none hNow
      · rw [if_neg hZero, hOwn] at hNow
        rw [inHand_of_some hNow, hHand']
    refine hThread ?_ fun m hm => ?_
    · rw [hLedger, hInHand', ← hInHand, h.handed]
    · rw [hLedger]
      exact hMine m (hDelivering hm)

end Kept

theorem kept_of_reachable {w : World σ κ} {M : Machine σ κ} (h : Reachable w M) : Kept M := by
  induction h with
  | start h p =>
    obtain ⟨clock, rfl⟩ := State.spec_of_make h
    refine ⟨⟨List.Perm.refl _, rfl, rfl, rfl, by simp [ledger, Ledger.of, start]⟩, rfl, ?_⟩
    intro thread m hm
    cases thread with
    | main => exact hm
    | worker session => exact hm
  | step thread prior h ih =>
    exact ih.turn (exclusive_of_reachable prior) (turn_of_step h) fun other => tasks_step h

theorem taken_follow {w : World σ κ} {M M' : Machine σ κ} {schedule : List Thread}
    (h : M.follow w schedule = some M') : M.ledger.taken <+: M'.ledger.taken :=
  follow_induction (R := fun M M' => M.ledger.taken <+: M'.ledger.taken)
    (fun _ => List.prefix_refl _)
    (fun hStep hRest => (turn_of_step hStep).step.taken_prefix.trans hRest) h

/-- **No message is lost, and none is delivered twice.** -/
theorem once_of_reachable {w : World σ κ} {M : Machine σ κ} (h : Reachable w M) :
    M.Kept ∧
      (∀ seq < M.ledger.sent.length,
        Ledger.times seq M.ledger.queue.pending + Ledger.times seq M.ledger.taken +
          Ledger.times seq M.ledger.removed.flatten = 1) ∧
      M.state.queue.size + M.ledger.taken.length + Ledger.total M.ledger.removals =
        M.ledger.sent.length ∧
      ∀ thread, ∀ m ∈ (M.tasks thread).delivering, ∀ schedule M',
        M.follow w schedule = some M' →
          m ∈ M'.ledger.taken ∧ ∀ x ∈ M'.state.queue.pending, x.seq ≠ m.seq := by
  have hKept := kept_of_reachable h
  have hLength : M.ledger.sent.length = M.ledger.queue.accepted := by
    rw [hKept.conserved.sent, List.length_map, ← List.length_range (n := M.ledger.queue.accepted),
      ← hKept.conserved.seqs, List.length_map]
  refine ⟨hKept, fun seq hSeq => ?_, hKept.conserved.size_eq, ?_⟩
  · exact hKept.conserved.times_eq_one (hLength ▸ hSeq)
  · intro thread m hm schedule M' hFollow
    have hTaken := (taken_follow hFollow).subset (hKept.delivering thread m hm)
    have hLater := (kept_of_reachable (h.follow hFollow)).conserved
    exact ⟨hTaken, fun x hx => hLater.seq_ne hTaken hx⟩

/-- While the callback of one of three messages fails, the other two are pending. -/
theorem once_while_failing :
    ∃ M, after World.flaky .standard none () (.threeMessages true) (List.replicate 7 .main) =
        some M ∧ (M.tasks .main).delivering.map (·.seq) = [1] ∧ M.state.queue.size = 2 ∧
      M.state.queue.size + M.ledger.taken.length + Ledger.total M.ledger.removals =
        M.ledger.sent.length := by
  have hRun : ∃ M, after World.flaky .standard none () (.threeMessages true)
      (List.replicate 7 .main) = some M ∧ (M.tasks .main).delivering.map (·.seq) = [1] ∧
        M.state.queue.size = 2 := ⟨_, rfl, rfl, rfl⟩
  obtain ⟨M, hAfter, hDelivering, hSize⟩ := hRun
  exact ⟨M, hAfter, hDelivering, hSize, (once_of_reachable (reachable_of_after hAfter)).2.2.1⟩

end Machine

end VirtualLooper
