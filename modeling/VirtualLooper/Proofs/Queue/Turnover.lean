import Mathlib.Data.List.Basic
import VirtualLooper.Queue

/-!
# The turnover of a queue

Messages come into a queue by being accepted, and leave it by being taken or dropped.
`Queue.Turnover` is the account of that between two states of a queue, whatever was done in between:
nothing is lost, nothing comes in twice, and what is accepted is numbered in turn.  Accounts add up
(`Turnover.append`), so it is enough to know that of each operation.
-/

namespace VirtualLooper

variable {κ : Type}

namespace Queue

/-- Between two states of a queue, these messages were accepted, those were taken, and those were
dropped. -/
structure Turnover (accepted taken dropped : List (Message κ)) (q rest : Queue κ) : Prop where
  pending : (q.pending ++ accepted).Perm (taken ++ (dropped ++ rest.pending))
  numbers : accepted.map (·.seq) = List.range' q.accepted accepted.length
  next : rest.accepted = q.accepted + accepted.length

namespace Turnover

variable {accepted accepted' taken taken' dropped dropped' : List (Message κ)}
  {q rest last : Queue κ}

theorem refl (q : Queue κ) : Turnover [] [] [] q q := ⟨.of_eq (List.append_nil _), rfl, rfl⟩

theorem append (h : Turnover accepted taken dropped q rest)
    (h' : Turnover accepted' taken' dropped' rest last) :
    Turnover (accepted ++ accepted') (taken ++ taken') (dropped ++ dropped') q last where
  pending := by
    have hFirst := h.pending.append_right accepted'
    have hSecond := (h'.pending.append_left dropped).append_left taken
    -- what was dropped first comes after what was taken then
    have hSwap : (dropped ++ (taken' ++ (dropped' ++ last.pending))).Perm
        (taken' ++ (dropped ++ (dropped' ++ last.pending))) := List.perm_append_comm_assoc ..
    simp only [List.append_assoc] at hFirst hSecond ⊢
    exact hFirst.trans (hSecond.trans (hSwap.append_left taken))
  numbers := by
    rw [List.map_append, h.numbers, h'.numbers, h.next, List.length_append, List.range'_append_1]
  next := by rw [h'.next, h.next, List.length_append, Nat.add_assoc]

theorem accept (q : Queue κ) (m : Message κ) (hm : m.seq = q.accepted) :
    Turnover [m] [] [] q (q.add m hm) where
  pending := List.perm_append_comm.trans (q.perm_pending_add m hm).symm
  numbers := congrArg (fun n => [n]) hm
  next := rfl

theorem take {m : Message κ} (h : q.pop? = some (m, rest)) : Turnover [] [m] [] q rest where
  pending := by
    rw [List.append_nil]
    exact (spec_of_pop? h).1
  numbers := rfl
  next := (spec_of_pop? h).2.2

theorem remove (q : Queue κ) (tag : Value) (target : Option Target) :
    Turnover [] [] (q.pending.filter fun m => m.hasTag tag target) q (q.removeTag tag target).2 where
  pending := by
    obtain ⟨-, hKept, -⟩ := q.spec_removeTag tag target
    rw [List.append_nil]
    exact (List.filter_append_perm _ _).symm.trans (hKept.symm.append_left _)
  numbers := rfl
  next := (q.spec_removeTag tag target).2.2

theorem clear (q : Queue κ) : Turnover [] [] q.pending q q.clear.2 := ⟨.refl _, rfl, rfl⟩

/-- What is pending at first and what is accepted has different numbers. -/
theorem distinct (h : Turnover accepted taken dropped q rest) :
    (q.pending ++ accepted).Pairwise fun a b => a.seq ≠ b.seq := by
  have hAccepted : accepted.Pairwise fun a b => a.seq ≠ b.seq := by
    have hNumbers : (accepted.map (·.seq)).Pairwise (· ≠ ·) := by
      rw [h.numbers]
      exact List.nodup_range'
    exact List.pairwise_map.1 hNumbers
  refine List.pairwise_append.2 ⟨q.distinct, hAccepted, ?_⟩
  intro a ha b hb
  have hOld := q.fresh a ha
  have hNew := List.mem_map_of_mem (f := (·.seq)) hb
  rw [h.numbers, List.mem_range'_1] at hNew
  omega

theorem subset (h : Turnover [] taken dropped q rest) : taken ++ rest.pending ⊆ q.pending := by
  intro m hm
  have hPending := h.pending
  rw [List.append_nil] at hPending
  refine hPending.mem_iff.2 ?_
  rcases List.mem_append.1 hm with hm | hm
  · exact List.mem_append_left _ hm
  · exact List.mem_append_right _ (List.mem_append_right _ hm)

/-- What was not dropped was taken or is pending, as the numbers of messages tell. -/
theorem perm_kept (h : Turnover accepted taken dropped q rest) :
    ((q.pending ++ accepted).filter fun m => m.seq ∉ dropped.map (·.seq)).Perm
      (taken ++ rest.pending) := by
  have hParts : (q.pending ++ accepted).Perm (dropped ++ (taken ++ rest.pending)) :=
    h.pending.trans (List.perm_append_comm_assoc ..)
  have hApart :=
    (List.pairwise_append.1 (hParts.pairwise h.distinct fun hab => hab.symm)).2.2
  have hDropped : (dropped.filter fun m => m.seq ∉ dropped.map (·.seq)) = [] := by
    refine List.filter_eq_nil_iff.2 ?_
    intro m hm
    simpa using ⟨m, hm, rfl⟩
  have hKept : ((taken ++ rest.pending).filter fun m => m.seq ∉ dropped.map (·.seq)) =
      taken ++ rest.pending := by
    refine List.filter_eq_self.2 ?_
    intro m hm
    simpa using fun x hx => hApart x hx m hm
  have hFilter := hParts.filter fun m => m.seq ∉ dropped.map (·.seq)
  rwa [List.filter_append dropped, hDropped, hKept, List.nil_append] at hFilter

end Turnover

end Queue

end VirtualLooper
