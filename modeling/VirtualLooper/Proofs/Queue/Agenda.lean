import Mathlib.Data.List.Basic
import VirtualLooper.Queue

/-!
# The queue as a sorted list

An **agenda** is the plainest thing that a queue could be: a list of messages, sorted by due time
and then by sequence, and the number of messages accepted so far.  This file gives the operations of
a queue a second meaning on agendas and proves that nobody can tell the two apart: whatever is asked
of a new queue, in whatever order, is answered as by an empty agenda.

The two are related by `Shows`: the agenda is sorted, has the pending messages of the queue in it,
and has accepted as many.  `Shows.answer` is the one square to check for each operation.  The heap
itself never shows: all that is used of it is that it loses nothing and gives its first item.
-/

namespace VirtualLooper

variable {κ : Type}

/-! ### Operations -/

inductive Queue.Op (κ : Type)
  | enqueue (tag delay : Value) (now : Int) (target : Option Target) (callback : Option κ)
  | enqueueAt (tag due : Value) (target : Option Target) (callback : Option κ)
  | pop (now : Int)
  | drain (now : Int)
  | nextDue
  | hasDue (now : Int)
  | hasTag (tag : Value) (target : Option Target)
  | removeTag (tag : Value) (target : Option Target)
  | clear
  | size

inductive Queue.Answer (κ : Type)
  | accepted (m : Message κ)
  | popped (m : Option (Message κ))
  | drained (ms : List (Message κ))
  | due (time : Option Int)
  | flag (b : Bool)
  | count (n : Nat)

/-- Answers an operation: the result, or the failure that is raised, and what stays. -/
def Queue.answer (q : Queue κ) : Op κ → Except Failure (Answer κ) × Queue κ
  | .enqueue tag delay now target callback =>
    match q.enqueue tag delay (.int now) target callback with
    | .ok (m, q) => (.ok (.accepted m), q)
    | .error e => (.error e, q)
  | .enqueueAt tag due target callback =>
    match q.enqueueAt tag due target callback with
    | .ok (m, q) => (.ok (.accepted m), q)
    | .error e => (.error e, q)
  | .pop now =>
    match q.pop (.int now) with
    | .ok (m, q) => (.ok (.popped m), q)
    | .error e => (.error e, q)
  | .drain now =>
    match q.drain (.int now) with
    | .ok (ms, q) => (.ok (.drained ms), q)
    | .error e => (.error e, q)
  | .nextDue => (.ok (.due q.nextDue?), q)
  | .hasDue now => ((q.hasDue (.int now)).map .flag, q)
  | .hasTag tag target => (.ok (.flag (q.hasTag tag target)), q)
  | .removeTag tag target => (.ok (.count (q.removeTag tag target).1), (q.removeTag tag target).2)
  | .clear => (.ok (.count q.clear.1), q.clear.2)
  | .size => (.ok (.count q.size), q)

def answers {S O R : Type} (answer : S → O → R × S) : S → List O → List R × S
  | s, [] => ([], s)
  | s, op :: ops =>
    let (r, s) := answer s op
    let (rs, s) := answers answer s ops
    (r :: rs, s)

/-! ### Agendas -/

/-- The pending messages in their order, and the number of messages accepted so far. -/
structure Agenda (κ : Type) where
  pending : List (Message κ)
  accepted : Nat

namespace Agenda

def empty : Agenda κ := ⟨[], 0⟩

/-- Accepts a message: it has the number of those accepted before as its sequence, and stands behind
the messages that come before it. -/
def accept (a : Agenda κ) (due : Int) (tag : Value) (target : Option Target)
    (callback : Option κ) : Except Failure (Queue.Answer κ) × Agenda κ :=
  let m : Message κ := ⟨due, a.accepted, tag, target, callback⟩
  (.ok (.accepted m),
    ⟨a.pending.filter (·.before m) ++ m :: a.pending.filter (!·.before m), a.accepted + 1⟩)

/-- Has a message the given tag and, if a target is given, that very target? -/
def concerns (tag : Value) (target : Option Target) (m : Message κ) : Bool :=
  Value.equal m.tag tag && target.all (m.target = some ·)

def answer (a : Agenda κ) : Queue.Op κ → Except Failure (Queue.Answer κ) × Agenda κ
  | .enqueue tag (.int delay) now target callback =>
    if 0 ≤ delay then a.accept (now + delay) tag target callback
    else (.error (Failure.negative .delay delay).orUnwritable, a)
  | .enqueue _ delay _ _ _ => (.error (.notAnInt .delay delay.kind), a)
  | .enqueueAt tag (.int due) target callback => a.accept due tag target callback
  | .enqueueAt _ due _ _ => (.error (.notAnInt .dueTime due.kind), a)
  | .pop now =>
    match a.pending with
    | m :: rest =>
      if m.due ≤ now then (.ok (.popped (some m)), { a with pending := rest })
      else (.ok (.popped none), a)
    | [] => (.ok (.popped none), a)
  | .drain now =>
    (.ok (.drained (a.pending.takeWhile (·.due ≤ now))),
      { a with pending := a.pending.dropWhile (·.due ≤ now) })
  | .nextDue => (.ok (.due (a.pending.head?.map (·.due))), a)
  | .hasDue now => (.ok (.flag (a.pending.any (·.due ≤ now))), a)
  | .hasTag tag target => (.ok (.flag (0 < a.pending.countP (concerns tag target))), a)
  | .removeTag tag target =>
    (.ok (.count (a.pending.countP (concerns tag target))),
      { a with pending := a.pending.filter (!concerns tag target ·) })
  | .clear => (.ok (.count a.pending.length), { a with pending := [] })
  | .size => (.ok (.count a.pending.length), a)

end Agenda

/-- The agenda holds what is pending in the queue, in the order of delivery. -/
structure Shows (q : Queue κ) (a : Agenda κ) : Prop where
  perm : a.pending.Perm q.pending
  sorted : a.pending.Pairwise fun x y => x.before y = true
  accepted : a.accepted = q.accepted

namespace Shows

variable {q : Queue κ} {a : Agenda κ}

theorem empty : Shows (Queue.empty : Queue κ) Agenda.empty where
  perm := by simp [Agenda.empty]
  sorted := by simp [Agenda.empty]
  accepted := rfl

theorem sublist (h : Shows q a) {rest : Queue κ} {ms : List (Message κ)}
    (hPerm : ms.Perm rest.pending) (hSub : ms.Sublist a.pending)
    (hAcc : rest.accepted = q.accepted) : Shows rest { a with pending := ms } where
  perm := hPerm
  sorted := h.sorted.sublist hSub
  accepted := h.accepted.trans hAcc.symm

/-! ### Enqueueing -/

theorem add (h : Shows q a) (m : Message κ) (hm : m.seq = q.accepted) :
    Shows (q.add m hm)
      ⟨a.pending.filter (·.before m) ++ m :: a.pending.filter (!·.before m), a.accepted + 1⟩ where
  perm := by
    refine List.perm_middle.trans ((List.Perm.cons m ?_).trans (q.perm_pending_add m hm).symm)
    exact (List.filter_append_perm _ _).trans h.perm
  sorted := by
    have hAfter : ∀ x ∈ a.pending.filter (!·.before m), m.before x = true := by
      intro x hx
      obtain ⟨hMem, hNot⟩ := List.mem_filter.1 hx
      have hSeq := q.fresh x (h.perm.mem_iff.1 hMem)
      have hLe := Message.not_before_iff.1 (by simpa using hNot)
      rw [Message.before_iff]
      omega
    have hBefore : ∀ x ∈ a.pending.filter (·.before m), x.before m = true :=
      fun x hx => by simpa using (List.mem_filter.1 hx).2
    refine List.pairwise_append.2 ⟨h.sorted.filter _,
      List.pairwise_cons.2 ⟨hAfter, h.sorted.filter _⟩, fun x hx y hy => ?_⟩
    have hxm := Message.before_iff.1 (hBefore x hx)
    rcases List.mem_cons.1 hy with rfl | hy
    · exact hBefore x hx
    · have hmy := Message.before_iff.1 (hAfter y hy)
      rw [Message.before_iff]
      omega
  accepted := congrArg (· + 1) h.accepted

/-! ### Taking messages out -/

theorem pending_eq_nil (h : Shows q a) : a.pending = [] ↔ q.pending = [] := by
  constructor
  · intro hNil
    simpa [hNil] using h.perm
  · intro hNil
    simpa [hNil] using h.perm

/-- The first message of the agenda is the one that the queue takes out next. -/
theorem pop? (h : Shows q a) :
    (a.pending = [] ∧ q.pop? = none) ∨
      ∃ m ms rest, a.pending = m :: ms ∧ q.pop? = some (m, rest) ∧
        Shows rest { a with pending := ms } := by
  cases hPop : q.pop? with
  | none => exact Or.inl ⟨h.pending_eq_nil.2 (Queue.pop?_eq_none_iff.1 hPop), rfl⟩
  | some taken =>
    obtain ⟨m, rest⟩ := taken
    obtain ⟨hPerm, hBefore, hAcc⟩ := Queue.spec_of_pop? hPop
    have hAll : a.pending.Perm (m :: rest.pending) := h.perm.trans hPerm
    cases hList : a.pending with
    | nil => simp [hList] at hAll
    | cons first ms =>
      rw [hList] at hAll
      have hSorted := List.pairwise_cons.1 (hList ▸ h.sorted)
      have hFirst : first = m := by
        rcases List.mem_cons.1 (hAll.mem_iff.1 List.mem_cons_self) with he | hIn
        · exact he
        · rcases List.mem_cons.1 (hAll.symm.mem_iff.1 List.mem_cons_self) with he | hIn'
          · exact he.symm
          · have h1 := Message.before_iff.1 (hBefore first hIn)
            have h2 := Message.before_iff.1 (hSorted.1 m hIn')
            omega
      subst hFirst
      refine Or.inr ⟨first, ms, rest, rfl, rfl, h.sublist (List.Perm.cons_inv hAll) ?_ hAcc⟩
      rw [hList]
      exact List.sublist_cons_self first ms

theorem popAt? (h : Shows q a) (now : Int) :
    (q.popAt? now = none ∧ ∀ m ms, a.pending = m :: ms → now < m.due) ∨
      ∃ m ms rest, a.pending = m :: ms ∧ m.due ≤ now ∧ q.popAt? now = some (m, rest) ∧
        Shows rest { a with pending := ms } := by
  rw [Queue.popAt?]
  rcases h.pop? with ⟨hNil, hPop⟩ | ⟨m, ms, rest, hList, hPop, hRest⟩
  · exact Or.inl ⟨by simp [hPop], by simp [hNil]⟩
  · by_cases hDue : m.due ≤ now
    · refine Or.inr ⟨m, ms, rest, hList, hDue, ?_, hRest⟩
      simp [hPop, Option.filter_some, hDue]
    · refine Or.inl ⟨by simp [hPop, Option.filter_some, hDue], ?_⟩
      intro m' ms' hList'
      have hSame : m = m' := by simpa using congrArg List.head? (hList.symm.trans hList')
      subst hSame
      omega

/-- So many steps of popping take the due messages, if there are no more of them. -/
theorem popMany (h : Shows q a) (now : Int) (most : Nat) (hMost : a.pending.length < most) :
    ∃ rest, Queue.popMany (.int now) most q =
        .ok (a.pending.takeWhile (·.due ≤ now), rest) ∧
      Shows rest { a with pending := a.pending.dropWhile (·.due ≤ now) } := by
  induction most generalizing q a with
  | zero => omega
  | succ most ih =>
    rw [Queue.popMany, Queue.pop_int]
    rcases h.popAt? now with ⟨hNone, hLate⟩ | ⟨m, ms, rest, hList, hDue, hPop, hRest⟩
    · refine ⟨q, ?_⟩
      rw [hNone]
      cases hList : a.pending with
      | nil =>
        refine ⟨rfl, ⟨?_, List.Pairwise.nil, h.accepted⟩⟩
        simpa [hList] using h.perm
      | cons m ms =>
        have := hLate m ms hList
        have hNot : ¬ m.due ≤ now := by omega
        rw [List.takeWhile_cons_of_neg (by simpa using hNot),
          List.dropWhile_cons_of_neg (by simpa using hNot), ← hList]
        exact ⟨rfl, h⟩
    · rw [hList, List.length_cons] at hMost
      obtain ⟨last, hMany, hLast⟩ := ih hRest (Nat.lt_of_succ_lt_succ hMost)
      refine ⟨last, ?_⟩
      rw [hPop, hList, List.takeWhile_cons_of_pos (by simpa using hDue),
        List.dropWhile_cons_of_pos (by simpa using hDue)]
      refine ⟨?_, hLast⟩
      simp only [Option.elim, bind, Except.bind] at hMany ⊢
      rw [hMany]
      rfl

/-! ### Inspection -/

theorem nextDue? (h : Shows q a) : q.nextDue? = a.pending.head?.map (·.due) := by
  rw [Queue.nextDue?, Queue.next?_eq]
  rcases h.pop? with ⟨hNil, hPop⟩ | ⟨m, ms, rest, hList, hPop, -⟩
  · rw [hNil, hPop]
    rfl
  · rw [hList, hPop]
    rfl

theorem hasDueAt (h : Shows q a) (now : Int) :
    q.hasDueAt now = a.pending.any (·.due ≤ now) := by
  rw [Bool.eq_iff_iff, Queue.hasDueAt_iff, List.any_eq_true]
  simp [h.perm.mem_iff]

theorem size (h : Shows q a) : q.size = a.pending.length := by
  rw [← Queue.length_pending]
  exact h.perm.length_eq.symm

/-! ### Removal -/

theorem hasTag_eq_concerns (tag : Value) (target : Option Target) (m : Message κ) :
    m.hasTag tag target = Agenda.concerns tag target m := by
  cases target with
  | none => rfl
  | some t =>
    rw [Bool.eq_iff_iff]
    simp [Message.hasTag, Agenda.concerns]

theorem hasTag (h : Shows q a) (tag : Value) (target : Option Target) :
    q.hasTag tag target = decide (0 < a.pending.countP (Agenda.concerns tag target)) := by
  rw [Bool.eq_iff_iff, decide_eq_true_eq, List.countP_pos_iff, Queue.hasTag, List.any_eq_true]
  simp [h.perm.mem_iff, hasTag_eq_concerns]

theorem removeTag (h : Shows q a) (tag : Value) (target : Option Target) :
    (q.removeTag tag target).1 = a.pending.countP (Agenda.concerns tag target) ∧
      Shows (q.removeTag tag target).2
        { a with pending := a.pending.filter (!Agenda.concerns tag target ·) } := by
  obtain ⟨hCount, hPerm, hAcc⟩ := q.spec_removeTag tag target
  simp only [hasTag_eq_concerns] at hCount hPerm
  refine ⟨?_, h.sublist ((h.perm.filter _).trans hPerm.symm) List.filter_sublist hAcc⟩
  rw [hCount, ← List.countP_eq_length_filter]
  exact (h.perm.countP_eq _).symm

theorem clear (h : Shows q a) : q.clear.1 = a.pending.length ∧
    Shows q.clear.2 { a with pending := [] } :=
  ⟨h.size, h.sublist (List.Perm.refl _) (List.nil_sublist _) rfl⟩

/-! ### Any operation -/

theorem accept (h : Shows q a) (due : Int) (tag : Value) (target : Option Target)
    (callback : Option κ) :
    (q.answer (.enqueueAt tag (.int due) target callback)).1 =
        (a.accept due tag target callback).1 ∧
      Shows (q.answer (.enqueueAt tag (.int due) target callback)).2
        (a.accept due tag target callback).2 := by
  refine ⟨by simp [Queue.answer, Queue.enqueueAt, Agenda.accept, h.accepted], ?_⟩
  have := h.add ⟨due, q.accepted, tag, target, callback⟩ rfl
  simpa [Queue.answer, Queue.enqueueAt, Agenda.accept, h.accepted] using this

theorem answer_enqueue_int (tag : Value) {delay : Int} (hDelay : 0 ≤ delay) (now : Int)
    (target : Option Target) (callback : Option κ) :
    q.answer (.enqueue tag (.int delay) now target callback) =
      q.answer (.enqueueAt tag (.int (now + delay)) target callback) := by
  simp only [Queue.answer, q.enqueue_int tag hDelay]

/-- A queue answers as its agenda does, and goes on to be shown by it. -/
theorem answer (h : Shows q a) (op : Queue.Op κ) :
    (q.answer op).1 = (a.answer op).1 ∧ Shows (q.answer op).2 (a.answer op).2 := by
  cases op with
  | enqueue tag delay now target callback =>
    cases delay with
    | int n =>
      rw [Agenda.answer]
      split
      · rename_i hDelay
        rw [answer_enqueue_int tag hDelay]
        exact h.accept _ _ _ _
      · rename_i hDelay
        have hNeg : n < 0 := by omega
        simp only [Queue.answer, Queue.enqueue, checkNonNegative, if_pos hNeg]
        exact ⟨rfl, h⟩
    | _ => exact ⟨rfl, h⟩
  | enqueueAt tag due target callback =>
    cases due with
    | int n => exact h.accept n tag target callback
    | _ => exact ⟨rfl, h⟩
  | pop now =>
    simp only [Queue.answer, Queue.pop_int, Agenda.answer]
    rcases h.popAt? now with ⟨hNone, hLate⟩ | ⟨m, ms, rest, hList, hDue, hPop, hRest⟩
    · rw [hNone]
      cases hList : a.pending with
      | nil => exact ⟨rfl, h⟩
      | cons m ms =>
        have hNot : ¬ m.due ≤ now := by
          have := hLate m ms hList
          omega
        simp only [if_neg hNot]
        exact ⟨rfl, h⟩
    · rw [hPop, hList]
      simp only [if_pos hDue]
      exact ⟨rfl, hRest⟩
  | drain now =>
    obtain ⟨rest, hMany, hRest⟩ := h.popMany now (q.size + 1) (by rw [h.size]; omega)
    simp only [Queue.answer, Queue.drain, hMany]
    exact ⟨rfl, hRest⟩
  | nextDue =>
    refine ⟨?_, h⟩
    simp only [Queue.answer, Agenda.answer, h.nextDue?]
  | hasDue now =>
    refine ⟨?_, h⟩
    simp only [Queue.answer, Agenda.answer, Queue.hasDue_int, h.hasDueAt, Except.map]
  | hasTag tag target =>
    refine ⟨?_, h⟩
    simp only [Queue.answer, Agenda.answer, h.hasTag]
  | removeTag tag target =>
    obtain ⟨hCount, hRest⟩ := h.removeTag tag target
    refine ⟨?_, hRest⟩
    simp only [Queue.answer, Agenda.answer, hCount]
  | clear =>
    obtain ⟨hCount, hRest⟩ := h.clear
    refine ⟨?_, hRest⟩
    simp only [Queue.answer, Agenda.answer, hCount]
  | size =>
    refine ⟨?_, h⟩
    simp only [Queue.answer, Agenda.answer, h.size]

theorem run (h : Shows q a) (ops : List (Queue.Op κ)) :
    (answers Queue.answer q ops).1 = (answers Agenda.answer a ops).1 ∧
      Shows (answers Queue.answer q ops).2 (answers Agenda.answer a ops).2 := by
  induction ops generalizing q a with
  | nil => exact ⟨rfl, h⟩
  | cons op ops ih =>
    obtain ⟨hAnswer, hNext⟩ := h.answer op
    obtain ⟨hAnswers, hLast⟩ := ih hNext
    refine ⟨?_, hLast⟩
    simp only [answers, hAnswer, hAnswers]

end Shows

/-! ### Sequence numbers -/

def Queue.Answer.seq? : Except Failure (Queue.Answer κ) → Option Nat
  | .ok (.accepted m) => some m.seq
  | _ => none

/-- An agenda gives the next sequence number to a message that it accepts, and keeps it
otherwise. -/
theorem Agenda.seq_answer (a : Agenda κ) (op : Queue.Op κ) :
    (Queue.Answer.seq? (a.answer op).1 = some a.accepted ∧
        (a.answer op).2.accepted = a.accepted + 1) ∨
      (Queue.Answer.seq? (a.answer op).1 = none ∧ (a.answer op).2.accepted = a.accepted) := by
  cases op with
  | enqueue tag delay now target callback =>
    cases delay with
    | int n =>
      rw [Agenda.answer]
      split
      · exact Or.inl ⟨rfl, rfl⟩
      · exact Or.inr ⟨rfl, rfl⟩
    | _ => exact Or.inr ⟨rfl, rfl⟩
  | enqueueAt tag due target callback =>
    cases due with
    | int n => exact Or.inl ⟨rfl, rfl⟩
    | _ => exact Or.inr ⟨rfl, rfl⟩
  | pop now =>
    rw [Agenda.answer]
    split
    · split
      · exact Or.inr ⟨rfl, rfl⟩
      · exact Or.inr ⟨rfl, rfl⟩
    · exact Or.inr ⟨rfl, rfl⟩
  | _ => exact Or.inr ⟨rfl, rfl⟩

theorem Agenda.seqs_answers (a : Agenda κ) (ops : List (Queue.Op κ)) :
    ∃ k, (answers Agenda.answer a ops).2.accepted = a.accepted + k ∧
      (answers Agenda.answer a ops).1.filterMap Queue.Answer.seq? =
        List.range' a.accepted k := by
  induction ops generalizing a with
  | nil => exact ⟨0, rfl, rfl⟩
  | cons op ops ih =>
    obtain ⟨k, hLast, hSeqs⟩ := ih (a.answer op).2
    rcases a.seq_answer op with ⟨hSeq, hNext⟩ | ⟨hSeq, hNext⟩
    · refine ⟨k + 1, ?_, ?_⟩
      · simp only [answers, hLast, hNext]
        omega
      · simp only [answers, List.filterMap_cons, hSeq, hSeqs, hNext, List.range'_succ]
    · refine ⟨k, ?_, ?_⟩
      · simp only [answers, hLast, hNext]
      · simp only [answers, List.filterMap_cons, hSeq, hSeqs, hNext]

/-! ### The two cannot be told apart -/

/-- **A queue is a sorted list.**  Whatever is asked of a new queue, and in whatever order, it
answers as an empty agenda: with the same results and the same failures.  The agenda stays sorted
and holds what is pending.  The messages that were accepted got the numbers from zero on, in
turn. -/
theorem answers_eq_agenda (ops : List (Queue.Op κ)) :
    (answers Queue.answer Queue.empty ops).1 = (answers Agenda.answer Agenda.empty ops).1 ∧
      Shows (answers Queue.answer Queue.empty ops).2 (answers Agenda.answer Agenda.empty ops).2 ∧
      (answers Queue.answer Queue.empty ops).1.filterMap Queue.Answer.seq? =
        List.range (answers Queue.answer Queue.empty ops).2.accepted := by
  obtain ⟨hAnswers, hShows⟩ := Shows.empty.run ops
  obtain ⟨k, hLast, hSeqs⟩ := Agenda.seqs_answers (Agenda.empty : Agenda κ) ops
  refine ⟨hAnswers, hShows, ?_⟩
  have hAccepted : (answers Queue.answer Queue.empty ops).2.accepted = k := by
    rw [← hShows.accepted, hLast]
    simp [Agenda.empty]
  rw [hAnswers, hSeqs, hAccepted, List.range_eq_range']
  rfl

end VirtualLooper
