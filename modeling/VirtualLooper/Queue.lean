import VirtualLooper.Clock
import VirtualLooper.Message

/-! # The message queue

Pending messages are kept in a heap, so that the next one is the one with the least due time, and of
several with that due time the one that came first.  Every accepted message gets the next sequence
number, whatever has left the queue since; a rejected one uses up none.
-/

namespace VirtualLooper

/-- The pending messages, and the number of messages accepted so far. -/
structure Queue (κ : Type) where
  heap : Heap (Message κ)
  accepted : Nat
  /-- Pending messages have been accepted. -/
  fresh : ∀ m ∈ heap.toList, m.seq < accepted
  /-- No two pending messages have the same sequence number. -/
  distinct : heap.toList.Pairwise fun a b => a.seq ≠ b.seq

namespace Queue

variable {κ : Type}

def empty : Queue κ where
  heap := .empty
  accepted := 0
  fresh := by simp
  distinct := by simp

/-- The pending messages, in no particular order. -/
def pending (q : Queue κ) : List (Message κ) := q.heap.toList

@[simp]
theorem pending_empty : (empty : Queue κ).pending = [] := rfl

def keep (q : Queue κ) (heap : Heap (Message κ)) (gone : List (Message κ))
    (h : q.pending.Perm (gone ++ heap.toList)) : Queue κ where
  heap := heap
  accepted := q.accepted
  fresh m hm := q.fresh m (h.mem_iff.2 (List.mem_append_right _ hm))
  distinct :=
    (List.pairwise_append.1 (h.pairwise q.distinct fun hab => hab.symm)).2.1

def pop? (q : Queue κ) : Option (Message κ × Queue κ) :=
  match h : q.heap.pop? with
  | none => none
  | some (m, rest) => some (m, q.keep rest [m] (Heap.perm_of_pop? h))

theorem pop?_eq_none_iff {q : Queue κ} : q.pop? = none ↔ q.pending = [] := by
  rw [pop?]
  split
  · rename_i h
    simpa [pending] using Heap.pop?_eq_none_iff.1 h
  · rename_i m rest h
    have hPerm := Heap.perm_of_pop? h
    simp only [pending, reduceCtorEq, false_iff]
    exact fun hNil => by simp [hNil] at hPerm

/-- The message that is taken out comes before all others, which stay. -/
theorem spec_of_pop? {q rest : Queue κ} {m : Message κ} (h : q.pop? = some (m, rest)) :
    q.pending.Perm (m :: rest.pending) ∧ (∀ x ∈ rest.pending, m.before x = true) ∧
      rest.accepted = q.accepted := by
  rw [pop?] at h
  split at h
  · simp at h
  · rename_i m' heap hPop
    obtain ⟨rfl, rfl⟩ := Prod.mk.inj (Option.some.inj h)
    have hPerm := Heap.perm_of_pop? hPop
    refine ⟨hPerm, fun x hx => ?_, rfl⟩
    have hFirst := Heap.first_of_pop? hPop x (hPerm.mem_iff.2 (List.mem_cons_of_mem _ hx))
    have hSeq := (List.pairwise_cons.1 (hPerm.pairwise q.distinct fun hab => hab.symm)).1 x hx
    have hLast := Message.not_before_iff.1 hFirst
    rw [Message.before_iff]
    omega

def next? (q : Queue κ) : Option (Message κ) := q.heap.first?

theorem next?_eq (q : Queue κ) : q.next? = q.pop?.map (·.1) := by
  rw [next?, Heap.first?_eq, pop?]
  split
  · rename_i h
    simp [h]
  · rename_i h
    simp [h]

def size (q : Queue κ) : Nat := q.heap.size

@[simp]
theorem length_pending (q : Queue κ) : q.pending.length = q.size := Heap.length_toList _

def nextDue? (q : Queue κ) : Option Int := q.next?.map (·.due)

/-! ### Queueing -/

def later (now : Value) (delay : Int) : Except Failure Value :=
  match now with
  | .int n => .ok (.int (n + delay))
  | .bool b => .ok (.int ((if b then 1 else 0) + delay))
  | .float x =>
    match Binary64.ofInt delay with
    | .infinite _ => .error .tooLargeForFloat
    | d => .ok (.float (x.add d))
  | v => .error (.cannotAdd v.kind)

def add (q : Queue κ) (m : Message κ) (hm : m.seq = q.accepted) : Queue κ where
  heap := q.heap.push m
  accepted := q.accepted + 1
  fresh := by
    intro x hx
    rcases List.mem_cons.1 ((Heap.perm_push _ _).mem_iff.1 hx) with rfl | hx
    · omega
    · exact Nat.lt_succ_of_lt (q.fresh x hx)
  distinct := by
    refine (Heap.perm_push _ _).symm.pairwise (List.pairwise_cons.2 ⟨fun x hx => ?_, q.distinct⟩)
      fun hab => hab.symm
    have := q.fresh x hx
    omega

theorem perm_pending_add (q : Queue κ) (m : Message κ) (hm : m.seq = q.accepted) :
    (q.add m hm).pending.Perm (m :: q.pending) := Heap.perm_push _ _

/-- Queues a message for an absolute due time, which may lie in the past. -/
def enqueueAt (q : Queue κ) (tag due : Value) (target : Option Target) (callback : Option κ) :
    Except Failure (Message κ × Queue κ) :=
  match due with
  | .int n =>
    let m : Message κ := ⟨n, q.accepted, tag, target, callback⟩
    .ok (m, q.add m rfl)
  | v => .error (.notAnInt .dueTime v.kind)

def enqueue (q : Queue κ) (tag delay now : Value) (target : Option Target)
    (callback : Option κ) : Except Failure (Message κ × Queue κ) := do
  let n ← checkNonNegative .delay delay
  q.enqueueAt tag (← later now n) target callback

theorem spec_of_enqueueAt {q rest : Queue κ} {tag due : Value} {target : Option Target}
    {callback : Option κ} {m : Message κ}
    (h : q.enqueueAt tag due target callback = .ok (m, rest)) :
    due = .int m.due ∧ m.tag = tag ∧ m.target = target ∧ m.callback = callback ∧
      ∃ hm : m.seq = q.accepted, rest = q.add m hm := by
  cases due with
  | int n =>
    simp only [enqueueAt, Except.ok.injEq, Prod.mk.injEq] at h
    obtain ⟨rfl, rfl⟩ := h
    exact ⟨rfl, rfl, rfl, rfl, rfl, rfl⟩
  | _ => simp [enqueueAt] at h

theorem enqueue_int (q : Queue κ) (tag : Value) {delay : Int} (hDelay : 0 ≤ delay) (now : Int)
    (target : Option Target) (callback : Option κ) :
    q.enqueue tag (.int delay) (.int now) target callback =
      q.enqueueAt tag (.int (now + delay)) target callback := by
  have hNot : ¬ delay < 0 := by omega
  simp only [enqueue, checkNonNegative, if_neg hNot]
  rfl

theorem delay_of_enqueue {q rest : Queue κ} {tag delay now : Value} {target : Option Target}
    {callback : Option κ} {m : Message κ}
    (h : q.enqueue tag delay now target callback = .ok (m, rest)) :
    ∃ n : Int, delay = .int n ∧ 0 ≤ n := by
  cases delay with
  | int n =>
    by_cases hNeg : n < 0
    · simp [enqueue, checkNonNegative, hNeg, bind, Except.bind] at h
    · exact ⟨n, rfl, by omega⟩
  | _ => simp [enqueue, checkNonNegative, bind, Except.bind] at h

/-! ### Taking messages out -/

def popAt? (q : Queue κ) (now : Int) : Option (Message κ × Queue κ) :=
  q.pop?.filter fun taken => taken.1.due ≤ now

/-- Takes the next message if it is due at the given time, which may be any value. -/
def pop (q : Queue κ) (now : Value) : Except Failure (Option (Message κ) × Queue κ) :=
  match q.pop? with
  | some (m, rest) => (m.isDue now).map fun due => if due then (some m, rest) else (none, q)
  | none => .ok (none, q)

def hasDue (q : Queue κ) (now : Value) : Except Failure Bool :=
  match q.next? with
  | some m => m.isDue now
  | none => .ok false

def hasDueAt (q : Queue κ) (now : Int) : Bool :=
  match q.next? with
  | some m => m.due ≤ now
  | none => false

theorem popAt?_eq_none_iff {q : Queue κ} {now : Int} :
    q.popAt? now = none ↔ ∀ x ∈ q.pending, now < x.due := by
  rw [popAt?]
  cases h : q.pop? with
  | none => simp [pop?_eq_none_iff.1 h]
  | some taken =>
    obtain ⟨m, rest⟩ := taken
    obtain ⟨hPerm, hBefore, -⟩ := spec_of_pop? h
    simp only [Option.filter_some, decide_eq_true_eq]
    constructor
    · intro hLate x hx
      have hm : now < m.due := by simpa using hLate
      rcases List.mem_cons.1 (hPerm.mem_iff.1 hx) with rfl | hx
      · exact hm
      · have := Message.before_iff.1 (hBefore x hx)
        omega
    · intro hLate
      have := hLate m (hPerm.mem_iff.2 List.mem_cons_self)
      simpa using this

/-- The message that is taken is due and comes before all others, which stay. -/
theorem spec_of_popAt? {q rest : Queue κ} {now : Int} {m : Message κ}
    (h : q.popAt? now = some (m, rest)) :
    m.due ≤ now ∧ q.pending.Perm (m :: rest.pending) ∧
      (∀ x ∈ rest.pending, m.before x = true) ∧ rest.accepted = q.accepted := by
  obtain ⟨hPop, hDue⟩ := Option.filter_eq_some_iff.1 h
  exact ⟨by simpa using hDue, spec_of_pop? hPop⟩

theorem pop_int (q : Queue κ) (now : Int) :
    q.pop (.int now) =
      .ok ((q.popAt? now).elim (none, q) fun taken => (some taken.1, taken.2)) := by
  rw [pop, popAt?]
  cases q.pop? with
  | none => rfl
  | some taken =>
    obtain ⟨m, rest⟩ := taken
    simp only [Message.isDue_int, Except.map, Option.filter_some]
    split <;> simp_all

theorem hasDueAt_eq (q : Queue κ) (now : Int) : q.hasDueAt now = (q.popAt? now).isSome := by
  rw [hasDueAt, next?_eq, popAt?]
  cases q.pop? with
  | none => rfl
  | some taken =>
    by_cases hDue : taken.1.due ≤ now
    · simp [Option.filter_some, hDue]
    · simp [Option.filter_some, hDue]

theorem hasDueAt_iff {q : Queue κ} {now : Int} :
    q.hasDueAt now = true ↔ ∃ x ∈ q.pending, x.due ≤ now := by
  rw [hasDueAt_eq, Option.isSome_iff_ne_none, Ne, popAt?_eq_none_iff]
  simp

theorem hasDue_int (q : Queue κ) (now : Int) : q.hasDue (.int now) = .ok (q.hasDueAt now) := by
  rw [hasDue, hasDueAt]
  cases q.next? with
  | none => rfl
  | some m => exact Message.isDue_int m now

def hasTag (q : Queue κ) (tag : Value) (target : Option Target) : Bool :=
  q.pending.any fun m => m.hasTag tag target

def removeTag (q : Queue κ) (tag : Value) (target : Option Target) : Nat × Queue κ :=
  let kept := q.heap.filter fun m => !m.hasTag tag target
  let removed := q.size - kept.size
  if removed = 0 then (0, q)
  else
    (removed,
      q.keep kept (q.pending.filter fun m => m.hasTag tag target)
        ((List.filter_append_perm _ _).symm.trans ((Heap.perm_filter _ _).symm.append_left _)))

theorem spec_removeTag (q : Queue κ) (tag : Value) (target : Option Target) :
    (q.removeTag tag target).1 = (q.pending.filter fun m => m.hasTag tag target).length ∧
      (q.removeTag tag target).2.pending.Perm (q.pending.filter fun m => !m.hasTag tag target) ∧
      (q.removeTag tag target).2.accepted = q.accepted := by
  have hKept := Heap.perm_filter (fun m => !m.hasTag tag target) q.heap
  have hSize : (q.heap.filter fun m => !m.hasTag tag target).size =
      (q.pending.filter fun m => !m.hasTag tag target).length := by
    rw [← Heap.length_toList]
    exact hKept.length_eq
  have hSplit := (List.filter_append_perm (fun m => m.hasTag tag target) q.pending).length_eq
  rw [List.length_append, length_pending] at hSplit
  simp only [removeTag]
  split
  · rename_i hZero
    have hNone : (q.pending.filter fun m => m.hasTag tag target) = [] :=
      List.length_eq_zero_iff.1 (by omega)
    have hAll : (q.pending.filter fun m => !m.hasTag tag target) = q.pending := by
      rw [List.filter_eq_self]
      intro m hm
      simpa using List.filter_eq_nil_iff.1 hNone m hm
    exact ⟨by rw [hNone]; rfl, by rw [hAll], rfl⟩
  · exact ⟨by simp only; omega, hKept, rfl⟩

def clear (q : Queue κ) : Nat × Queue κ := (q.size, q.keep .empty q.pending (by simp))

/-! ### Draining -/

/-- A drain takes messages one at a time, as they are asked for, until it first finds nothing due.
From then on it is finished, whatever becomes due. -/
structure Drain where
  now : Value
  finished : Bool

def Drain.start (now : Value) : Drain := ⟨now, false⟩

def Drain.step (d : Drain) (q : Queue κ) : Except Failure (Option (Message κ)) × Drain × Queue κ :=
  if d.finished then (.ok none, d, q)
  else
    match q.pop d.now with
    | .error e => (.error e, { d with finished := true }, q)
    | .ok (none, q) => (.ok none, { d with finished := true }, q)
    | .ok (some m, q) => (.ok (some m), d, q)

/-- At most so many steps of popping; the messages in order, and what stays. -/
def popMany (now : Value) : (most : Nat) → Queue κ → Except Failure (List (Message κ) × Queue κ)
  | 0, q => .ok ([], q)
  | most + 1, q => do
    match ← q.pop now with
    | (none, q) => pure ([], q)
    | (some m, q) =>
      let (ms, q) ← popMany now most q
      pure (m :: ms, q)

/-- Takes all messages that are due.  There are no more steps than messages. -/
def drain (q : Queue κ) (now : Value) : Except Failure (List (Message κ) × Queue κ) :=
  popMany now (q.size + 1) q

end Queue

end VirtualLooper
