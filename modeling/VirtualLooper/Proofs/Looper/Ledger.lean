import VirtualLooper.Looper.Machine

/-!
# The ledger of a looper

Whatever a looper does, six things can happen to messages: one is accepted, some are removed, one is
taken, the call of one is made, or the clock moves while they wait, or nothing.  A **ledger** is
what these need to be told apart: the queue, the time, the history of messages, and what senders and
removers were told.  `Ledger.Step` lists the six, and the lemmas of this file say which of them the
parts of a looper come to.  What holds of all ledgers that steps lead to holds of every looper,
whoever does the steps.
-/

namespace VirtualLooper

variable {σ κ : Type}

/-! ### The history of messages -/

theorem filterMap_concat {α β : Type} (f : α → Option β) (as : List α) (a : α) :
    (as ++ [a]).filterMap f = as.filterMap f ++ (f a).toList := by
  rw [List.filterMap_append]
  cases ha : f a <;> simp [ha]

namespace Occurrence

@[simp]
def accepted? : Occurrence κ → Option (Message κ × Int)
  | accepted m time => some (m, time)
  | _ => none

@[simp]
def removed? : Occurrence κ → Option (List (Message κ))
  | removed ms => some ms
  | _ => none

@[simp]
def taken? : Occurrence κ → Option (Message κ)
  | taken m _ _ => some m
  | _ => none

@[simp]
def called? : Occurrence κ → Option (Message κ × Option (Call κ))
  | called m call _ => some (m, call)
  | _ => none

/-- Does the occurrence concern no queued message? -/
def isQuiet : Occurrence κ → Bool
  | accepted .. | removed _ | taken .. | called .. => false
  | _ => true

end Occurrence

/-- What a sender chose of a message, and what it was told. -/
def Message.sent (m : Message κ) : Value × Option κ × Receipt := (m.tag, m.callback, m.receipt)

namespace Exchange

def sent? (x : Exchange κ) : Option (Value × Option κ × Receipt) :=
  match x.request, x.result with
  | .enqueue tag _ _ callback, .ok (.receipt r) => some (tag, callback, r)
  | .enqueueAt tag _ _ callback, .ok (.receipt r) => some (tag, callback, r)
  | _, _ => none

/-- The time of a request to queue a message for an absolute due time, and the receipt. -/
def dated? (x : Exchange κ) : Option (Int × Receipt) :=
  match x.request, x.result with
  | .enqueueAt .., .ok (.receipt r) => some (x.time, r)
  | _, _ => none

def removal? (x : Exchange κ) : Option Nat :=
  match x.request, x.result with
  | .remove .., .ok (.count n) => some n
  | _, _ => none

def IsQuiet (x : Exchange κ) : Prop := x.sent? = none ∧ x.dated? = none ∧ x.removal? = none

end Exchange

/-! ### Ledgers -/

/-- The pending messages, the time, what has happened to messages, and what was answered to those
who sent and removed some. -/
structure Ledger (κ : Type) where
  queue : Queue κ
  now : Int
  accepted : List (Message κ × Int)
  removed : List (List (Message κ))
  taken : List (Message κ)
  called : List (Message κ × Option (Call κ))
  sent : List (Value × Option κ × Receipt)
  dated : List (Int × Receipt)
  removals : List Nat

namespace Ledger

def of (s : State σ κ) (xs : List (Exchange κ)) : Ledger κ where
  queue := s.queue
  now := s.clock.now
  accepted := s.history.filterMap Occurrence.accepted?
  removed := s.history.filterMap Occurrence.removed?
  taken := s.history.filterMap Occurrence.taken?
  called := s.history.filterMap Occurrence.called?
  sent := xs.filterMap Exchange.sent?
  dated := xs.filterMap Exchange.dated?
  removals := xs.filterMap Exchange.removal?

/-- What an answer to a request can do to messages. -/
inductive Edit : Ledger κ → Ledger κ → Prop
  | quiet (L : Ledger κ) : Edit L L
  /-- A message is accepted.  It is not due before now, unless its sender has given its due time. -/
  | accept (L : Ledger κ) (m : Message κ) (hm : m.seq = L.queue.accepted)
      (hCall : m.call?.isSome = true) (dated : List (Int × Receipt))
      (hDated : dated = L.dated ∧ L.now ≤ m.due ∨ dated = L.dated ++ [(L.now, m.receipt)]) :
      Edit L
        { L with
          queue := L.queue.add m hm
          accepted := L.accepted ++ [(m, L.now)]
          sent := L.sent ++ [m.sent]
          dated := dated }
  | remove (L : Ledger κ) (tag : Value) (target : Option Target) :
      Edit L
        { L with
          queue := (L.queue.removeTag tag target).2
          removed := L.removed ++ [L.queue.pending.filter fun m => m.hasTag tag target]
          removals := L.removals ++ [(L.queue.removeTag tag target).1] }
  | advance (L : Ledger κ) (amount : Int) (h : 0 ≤ amount) :
      Edit L { L with now := L.now + amount }

inductive Step : Ledger κ → Ledger κ → Prop
  | edit {L L' : Ledger κ} (h : Edit L L') : Step L L'
  | take (L : Ledger κ) (m : Message κ) (q : Queue κ) (h : L.queue.popAt? L.now = some (m, q)) :
      Step L { L with queue := q, taken := L.taken ++ [m] }
  | call (L : Ledger κ) (m : Message κ) :
      Step L { L with called := L.called ++ [(m, m.call?)] }

namespace Edit

variable {L L' : Ledger κ}

theorem taken_eq (h : Edit L L') : L'.taken = L.taken := by
  cases h <;> rfl

theorem called_eq (h : Edit L L') : L'.called = L.called := by
  cases h <;> rfl

theorem now_le (h : Edit L L') : L.now ≤ L'.now := by
  cases h with
  | advance amount hPos => exact Int.le_add_of_nonneg_right hPos
  | _ => exact Int.le_refl _

end Edit

theorem Step.now_le {L L' : Ledger κ} (h : Step L L') : L.now ≤ L'.now := by
  cases h with
  | edit hEdit => exact hEdit.now_le
  | take m q hPop => exact Int.le_refl _
  | call m => exact Int.le_refl _

theorem Step.taken_prefix {L L' : Ledger κ} (h : Step L L') : L.taken <+: L'.taken := by
  cases h with
  | edit hEdit => exact ⟨[], by rw [List.append_nil, hEdit.taken_eq]⟩
  | take m q hPop => exact List.prefix_append _ _
  | call m => exact List.prefix_refl _

/-- What was accepted stays accepted, and what was removed stays removed. -/
theorem Step.prefixes {L L' : Ledger κ} (h : Step L L') :
    L.accepted <+: L'.accepted ∧ L.removed <+: L'.removed := by
  cases h with
  | edit hEdit =>
    cases hEdit with
    | accept => exact ⟨List.prefix_append _ _, List.prefix_refl _⟩
    | remove => exact ⟨List.prefix_refl _, List.prefix_append _ _⟩
    | _ => exact ⟨List.prefix_refl _, List.prefix_refl _⟩
  | _ => exact ⟨List.prefix_refl _, List.prefix_refl _⟩

/-! ### What concerns no message -/

section Quiet

variable (s : State σ κ) (xs : List (Exchange κ))

theorem of_append (x : Exchange κ) :
    of s (xs ++ [x]) =
      { of s xs with
        sent := (of s xs).sent ++ x.sent?.toList
        dated := (of s xs).dated ++ x.dated?.toList
        removals := (of s xs).removals ++ x.removal?.toList } := by
  simp only [of, filterMap_concat]

theorem of_append_quiet {x : Exchange κ} (hx : x.IsQuiet) : of s (xs ++ [x]) = of s xs := by
  obtain ⟨hSent, hDated, hRemoval⟩ := hx
  simp [of_append, hSent, hDated, hRemoval]

theorem of_happened (o : Occurrence κ) :
    of (s.recordHistory o) xs =
      { of s xs with
        accepted := (of s xs).accepted ++ o.accepted?.toList
        removed := (of s xs).removed ++ o.removed?.toList
        taken := (of s xs).taken ++ o.taken?.toList
        called := (of s xs).called ++ o.called?.toList } := by
  simp only [of, State.recordHistory, filterMap_concat]

theorem of_recordHistory {o : Occurrence κ} (ho : o.isQuiet = true) :
    of (s.recordHistory o) xs = of s xs := by
  rw [of_happened]
  cases o with
  | accepted | removed | taken | called => cases ho
  | _ => simp only [Occurrence.accepted?, Occurrence.removed?, Occurrence.taken?,
      Occurrence.called?, Option.toList_none, List.append_nil]

@[simp]
theorem of_note (thread : Thread) (n : Notice) : of (s.note thread n) xs = of s xs := rfl

@[simp]
theorem of_leave : of s.leave xs = of s xs := rfl

@[simp]
theorem of_record (target : Target) (tag : Value) (thread : Thread) :
    of (s.record target tag thread) xs = of s xs := rfl

@[simp]
theorem of_reset (target : Target) : of (s.reset target) xs = of s xs :=
  of_recordHistory (o := .forgotten target) _ _ rfl

@[simp]
theorem of_requestStop (session : Nat) : of (s.requestStop session) xs = of s xs := rfl

@[simp]
theorem of_beginSession (thread : Thread) : of (s.beginSession thread) xs = of s xs := rfl

@[simp]
theorem of_endSession (session : Nat) : of (s.endSession session) xs = of s xs :=
  of_recordHistory _ _ rfl

@[simp]
theorem of_closeSession (thread : Thread) (session : Nat) :
    of (s.closeSession thread session) xs = of s xs := by
  simp [State.closeSession]

@[simp]
theorem of_tally (loop : Loop σ κ) : of (loop.tally s) xs = of s xs := by
  cases loop <;> rfl

@[simp]
theorem of_atCall (w : World σ κ) (thread : Thread) (call : Call κ) :
    of (w.atCall thread call s) xs = of s xs := by
  cases call with
  | callback c => rfl
  | receiver target tag =>
    rw [World.atCall]
    split
    · exact of_record _ _ _ _ _
    · rfl

end Quiet

/-! ### What concerns messages -/

section Steps

variable (w : World σ κ) (s : State σ κ) (xs : List (Exchange κ))

theorem of_accept (m : Message κ) (hm : m.seq = s.queue.accepted) :
    of (s.accept m (s.queue.add m hm)) xs =
      { of s xs with
        queue := s.queue.add m hm
        accepted := (of s xs).accepted ++ [(m, s.clock.now)] } := by
  rw [State.accept, of_happened]
  simp only [Occurrence.removed?, Occurrence.taken?, Occurrence.called?, Option.toList_none,
    List.append_nil]
  rfl

theorem of_remove (tag : Value) (target : Option Target) :
    of (s.remove tag target).2 xs =
      { of s xs with
        queue := (s.queue.removeTag tag target).2
        removed :=
          (of s xs).removed ++ [s.queue.pending.filter fun m => m.hasTag tag target] } := by
  rw [State.remove, of_happened]
  simp only [Occurrence.accepted?, Occurrence.taken?, Occurrence.called?, Option.toList_none,
    List.append_nil]
  rfl

theorem of_atDelivery (thread : Thread) (m : Message κ) :
    of (w.atDelivery thread m s) xs =
      { of s xs with called := (of s xs).called ++ [(m, m.call?)] } := by
  have hCalled : of (s.recordHistory (.called m m.call? thread)) xs =
      { of s xs with called := (of s xs).called ++ [(m, m.call?)] } := by
    rw [of_happened]
    simp only [Occurrence.accepted?, Occurrence.removed?, Occurrence.taken?, Option.toList_none,
      List.append_nil]
    rfl
  rw [World.atDelivery, ← hCalled]
  cases m.call? with
  | some call => exact of_atCall _ _ _ _ _
  | none => rfl

variable {s}

theorem of_take {s' : State σ κ} {thread : Thread} {m : Message κ}
    (h : s.take? thread = some (m, s')) :
    ∃ q, s.queue.popAt? s.clock.now = some (m, q) ∧
      of s' xs = { of s xs with queue := q, taken := (of s xs).taken ++ [m] } := by
  obtain ⟨q, hPop, rfl⟩ := State.spec_of_take h
  refine ⟨q, hPop, ?_⟩
  rw [of_happened]
  simp only [Occurrence.accepted?, Occurrence.removed?, Occurrence.called?, Option.toList_none,
    List.append_nil]
  rfl

theorem edit_move (strict : Bool) (thread : Thread) (amount : Value) :
    Edit (of s xs) (of (s.move strict thread amount).2 xs) := by
  obtain ⟨n, log, hPos, hMove⟩ := s.spec_move strict thread amount
  rw [hMove]
  exact Edit.advance (of s xs) n hPos

/-- A message that was accepted goes with the receipt that its sender got. -/
theorem edit_accept {m : Message κ} (hm : m.seq = s.queue.accepted)
    (hCall : m.call?.isSome = true) {x : Exchange κ} (hSent : x.sent? = some m.sent)
    (hRemoval : x.removal? = none)
    (hDated : x.dated? = none ∧ s.clock.now ≤ m.due ∨ x.dated? = some (s.clock.now, m.receipt)) :
    Edit (of s xs) (of (s.accept m (s.queue.add m hm)) (xs ++ [x])) := by
  rw [of_append, of_accept, hSent, hRemoval]
  have hEdit := Edit.accept (of s xs) m hm hCall ((of s xs).dated ++ x.dated?.toList) ?_
  · simp only [Option.toList_some, Option.toList_none, List.append_nil]
    exact hEdit
  · rcases hDated with ⟨hNone, hDue⟩ | hSome
    · exact Or.inl ⟨by simp [hNone], hDue⟩
    · exact Or.inr (by rw [hSome]; rfl)

theorem edit_quiet {s' : State σ κ} (h : of s' xs = of s xs) {x : Exchange κ} (hx : x.IsQuiet) :
    Edit (of s xs) (of s' (xs ++ [x])) := by
  rw [of_append_quiet _ _ hx, h]
  exact Edit.quiet _

/-- Whatever a looper answers at once, it has done one of these to its messages. -/
theorem edit_respond {s' : State σ κ} {thread : Thread} {r : Request κ}
    {result : Except Failure Reply} (h : s.respond w thread r = .reply result s') :
    Edit (of s xs) (of s' (xs ++ [⟨thread, r, result, s'.clock.now⟩])) := by
  cases r with
  | enqueue tag delay target callback =>
    rcases Response.ofExcept_map h with ⟨e, -, rfl, rfl⟩ | ⟨receipt, hSent, rfl⟩
    · exact edit_quiet xs rfl ⟨rfl, rfl, rfl⟩
    · obtain ⟨m, hm, hCall, hDue, rfl, rfl, rfl, rfl⟩ := State.spec_of_enqueue hSent
      exact edit_accept xs hm hCall rfl rfl (Or.inl ⟨rfl, hDue⟩)
  | enqueueAt tag due target callback =>
    rcases Response.ofExcept_map h with ⟨e, -, rfl, rfl⟩ | ⟨receipt, hSent, rfl⟩
    · exact edit_quiet xs rfl ⟨rfl, rfl, rfl⟩
    · obtain ⟨m, hm, hCall, -, rfl, rfl, rfl, rfl⟩ := State.spec_of_enqueueAt hSent
      exact edit_accept xs hm hCall rfl rfl (Or.inr rfl)
  | remove tag target =>
    obtain ⟨rfl, rfl⟩ := Response.reply.inj h
    rw [of_append, of_remove]
    simp only [Exchange.sent?, Exchange.dated?, Exchange.removal?, Option.toList_some,
      Option.toList_none, List.append_nil]
    exact Edit.remove (of s xs) tag target
  | advance amount =>
    obtain ⟨rfl, rfl⟩ := Response.reply.inj h
    rw [of_append_quiet _ _ ⟨rfl, rfl, rfl⟩]
    exact edit_move xs w.strictLog thread amount
  | has tag target =>
    obtain ⟨rfl, rfl⟩ := Response.reply.inj h
    exact edit_quiet xs rfl ⟨rfl, rfl, rfl⟩
  | dispatchAll =>
    simp only [State.respond] at h
    split at h
    · obtain ⟨rfl, rfl⟩ := Response.reply.inj h
      exact edit_quiet xs rfl ⟨rfl, rfl, rfl⟩
    · cases h
  | dispatchNext =>
    simp only [State.respond] at h
    split at h
    · obtain ⟨rfl, rfl⟩ := Response.reply.inj h
      exact edit_quiet xs rfl ⟨rfl, rfl, rfl⟩
    · cases h
  | start =>
    simp only [State.respond] at h
    split at h
    · obtain ⟨rfl, rfl⟩ := Response.reply.inj h
      exact edit_quiet xs rfl ⟨rfl, rfl, rfl⟩
    · obtain ⟨rfl, rfl⟩ := Response.reply.inj h
      exact edit_quiet xs (of_beginSession _ _ _) ⟨rfl, rfl, rfl⟩
  | stop =>
    simp only [State.respond] at h
    split at h
    · obtain ⟨rfl, rfl⟩ := Response.reply.inj h
      exact edit_quiet xs rfl ⟨rfl, rfl, rfl⟩
    · cases h
  | handle target tag => cases h
  | records target used =>
    simp only [State.respond] at h
    split at h
    · obtain ⟨rfl, rfl⟩ := Response.reply.inj h
      exact edit_quiet xs rfl ⟨rfl, rfl, rfl⟩
    · obtain ⟨rfl, rfl⟩ := Response.reply.inj h
      exact edit_quiet xs rfl ⟨rfl, rfl, rfl⟩
  | reset target =>
    simp only [State.respond] at h
    split at h
    · obtain ⟨rfl, rfl⟩ := Response.reply.inj h
      exact edit_quiet xs (of_reset _ _ _) ⟨rfl, rfl, rfl⟩
    · obtain ⟨rfl, rfl⟩ := Response.reply.inj h
      exact edit_quiet xs rfl ⟨rfl, rfl, rfl⟩

end Steps

end Ledger

end VirtualLooper
