import VirtualLooper.Proofs.Queue.Agenda
import VirtualLooper.Proofs.Queue.Turnover

/-!
# Drains that go on side by side

A drain takes messages out of a queue one at a time, while others queue messages, take or remove
some, or step drains of their own.  Of a drain only two things are ever known: the time that it was
opened for, and whether it is finished.  This file says what that comes to for those who see the
answers only.

A run is a list of entries, each with the queue before and after and the answer.  From the entries
so far it can be told whether a drain is `Live` or `Spent`, and the drains agree with that
(`Drainage.Agrees`), whatever is done next.  What becomes of messages is the same for drains as for
all else that takes some: each entry has its turnover (`Entry.Sound`), and turnovers add up.
-/

namespace VirtualLooper

variable {κ : Type}

namespace Queue

/-! ### Deeds -/

/-- What can be done to a queue and the drains that were opened on it. -/
inductive Deed (κ : Type)
  | ask (op : Op κ)
  /-- A message is queued for a delay after a time that may be any value. -/
  | enqueue (tag delay now : Value) (target : Option Target) (callback : Option κ)
  /-- The next message is asked for, at a time that may be any value. -/
  | pop (now : Value)
  | openDrain (now : Value)
  /-- The next message is asked of a drain; drains are numbered from zero. -/
  | step (drain : Nat)

/-- What comes of an operation: its result and what stays, or a failure that leaves the queue
alone. -/
def told {α : Type} (q : Queue κ) (f : α → Answer κ) :
    Except Failure (α × Queue κ) → Except Failure (Answer κ) × Queue κ
  | .ok (a, rest) => (.ok (f a), rest)
  | .error e => (.error e, q)

/-- One deed, with the queue before and after. -/
structure Entry (κ : Type) where
  before : Queue κ
  deed : Deed κ
  answer : Except Failure (Answer κ)
  after : Queue κ

/-- A queue and the drains that were opened on it, in order. -/
structure Drainage (κ : Type) where
  queue : Queue κ
  drains : List Drain

namespace Drainage

def act (d : Drainage κ) : Deed κ → Except Failure (Answer κ) × Drainage κ
  | .ask op => ((d.queue.answer op).1, { d with queue := (d.queue.answer op).2 })
  | .enqueue tag delay now target callback =>
    let (r, q) := d.queue.told .accepted (d.queue.enqueue tag delay now target callback)
    (r, { d with queue := q })
  | .pop now =>
    let (r, q) := d.queue.told .popped (d.queue.pop now)
    (r, { d with queue := q })
  | .openDrain now =>
    (.ok (.count d.drains.length), { d with drains := d.drains ++ [.start now] })
  | .step g =>
    match d.drains[g]? with
    | none => (.ok (.popped none), d)
    | some drain =>
      let (m, drain, q) := drain.step d.queue
      (m.map .popped, ⟨q, d.drains.set g drain⟩)

def enter (d : Drainage κ) (deed : Deed κ) : Entry κ × Drainage κ :=
  (⟨d.queue, deed, (d.act deed).1, (d.act deed).2.queue⟩, (d.act deed).2)

end Drainage

/-! ### What is known of drains -/

namespace Entry

/-- Was a drain opened under this number, for that time? -/
def Opens (g : Nat) (now : Value) (e : Entry κ) : Prop :=
  e.deed = .openDrain now ∧ e.answer = .ok (.count g)

def isOpening (e : Entry κ) : Bool :=
  match e.deed with
  | .openDrain _ => true
  | _ => false

def gives (e : Entry κ) : Bool :=
  match e.answer with
  | .ok (.popped (some _)) => true
  | _ => false

def accepted (e : Entry κ) : List (Message κ) :=
  match e.answer with
  | .ok (.accepted m) => [m]
  | _ => []

def taken (e : Entry κ) : List (Message κ) :=
  match e.answer with
  | .ok (.popped (some m)) => [m]
  | .ok (.drained ms) => ms
  | _ => []

def dropped (e : Entry κ) : List (Message κ) :=
  match e.deed with
  | .ask (.removeTag tag target) => e.before.pending.filter fun m => m.hasTag tag target
  | .ask .clear => e.before.pending
  | _ => []

end Entry

/-- The drain was opened for this time, and these are the entries since. -/
def Since (g : Nat) (now : Value) (es after : List (Entry κ)) : Prop :=
  ∃ before opening, es = before ++ opening :: after ∧ opening.Opens g now

/-- The drain was opened for this time, and has given a message at each step since. -/
def Live (g : Nat) (now : Value) (es : List (Entry κ)) : Prop :=
  ∃ after, Since g now es after ∧ ∀ e ∈ after, e.deed = .step g → e.gives = true

/-- The drain was opened, and has not given a message at some step since. -/
def Spent (g : Nat) (es : List (Entry κ)) : Prop :=
  ∃ now after, Since g now es after ∧ ∃ e ∈ after, e.deed = .step g ∧ e.gives = false

section Known

variable {g : Nat} {now : Value} {es after : List (Entry κ)} {e : Entry κ}

theorem since_concat (h : Since g now (es ++ [e]) after) :
    after = [] ∧ e.Opens g now ∨ ∃ earlier, after = earlier ++ [e] ∧ Since g now es earlier := by
  obtain ⟨before, opening, hSplit, hOpens⟩ := h
  rcases List.eq_nil_or_concat' after with rfl | ⟨earlier, last, rfl⟩
  · obtain ⟨-, hLast⟩ := List.append_inj' hSplit rfl
    exact Or.inl ⟨rfl, (List.singleton_inj.1 hLast).symm ▸ hOpens⟩
  · have hSplit : es ++ [e] = (before ++ opening :: earlier) ++ [last] := by simpa using hSplit
    obtain ⟨hEarlier, hLast⟩ := List.append_inj' hSplit rfl
    obtain rfl := List.singleton_inj.1 hLast
    exact Or.inr ⟨earlier, rfl, before, opening, hEarlier, hOpens⟩

theorem live_or_spent (h : Since g now es after) : Live g now es ∨ Spent g es := by
  by_cases hGives : ∀ e ∈ after, e.deed = .step g → e.gives = true
  · exact Or.inl ⟨after, h, hGives⟩
  · simp only [not_forall, Bool.not_eq_true] at hGives
    obtain ⟨e, he, hStep, hNone⟩ := hGives
    exact Or.inr ⟨now, after, h, e, he, hStep, hNone⟩

theorem live_concat (h : Live g now (es ++ [e])) :
    e.Opens g now ∨ Live g now es ∧ (e.deed = .step g → e.gives = true) := by
  obtain ⟨after, hSince, hGives⟩ := h
  rcases since_concat hSince with ⟨-, hOpens⟩ | ⟨earlier, rfl, hEarlier⟩
  · exact Or.inl hOpens
  · obtain ⟨hBefore, hLast⟩ := List.forall_mem_append.1 hGives
    exact Or.inr ⟨⟨earlier, hEarlier, hBefore⟩, hLast e List.mem_cons_self⟩

theorem spent_concat (h : Spent g (es ++ [e])) :
    Spent g es ∨ (∃ now, Live g now es) ∧ e.deed = .step g ∧ e.gives = false := by
  obtain ⟨now, after, hSince, e', he', hStep, hNone⟩ := h
  rcases since_concat hSince with ⟨rfl, -⟩ | ⟨earlier, rfl, hEarlier⟩
  · cases he'
  · rcases List.mem_append.1 he' with he' | he'
    · exact Or.inl ⟨now, earlier, hEarlier, e', he', hStep, hNone⟩
    · obtain rfl := List.mem_singleton.1 he'
      rcases live_or_spent hEarlier with hLive | hSpent
      · exact Or.inr ⟨⟨now, hLive⟩, hStep, hNone⟩
      · exact Or.inl hSpent

end Known

namespace Drainage

/-- What the drains are is what is known of them. -/
structure Agrees (es : List (Entry κ)) (d : Drainage κ) : Prop where
  opened : d.drains.length = es.countP Entry.isOpening
  live : ∀ g now, Live g now es → d.drains[g]? = some ⟨now, false⟩
  spent : ∀ g, Spent g es → ∃ now, d.drains[g]? = some ⟨now, true⟩

theorem Agrees.nil (q : Queue κ) : Agrees [] (⟨q, []⟩ : Drainage κ) where
  opened := rfl
  live := by
    rintro g now ⟨after, ⟨before, opening, hSplit, -⟩, -⟩
    simp at hSplit
  spent := by
    rintro g ⟨now, after, ⟨before, opening, hSplit, -⟩, -⟩
    simp at hSplit

/-- A live drain that is stepped pops the queue, and is finished if that gives no message. -/
theorem act_live {d : Drainage κ} {g : Nat} {now : Value}
    (h : d.drains[g]? = some ⟨now, false⟩) :
    (d.act (.step g)).1 = (d.queue.told .popped (d.queue.pop now)).1 ∧
      (d.act (.step g)).2.queue = (d.queue.told .popped (d.queue.pop now)).2 ∧
      (d.act (.step g)).2.drains = d.drains.set g ⟨now, !(d.enter (.step g)).1.gives⟩ := by
  rw [enter, act, h]
  simp only [Drain.step, Bool.false_eq_true, if_false]
  cases hPop : d.queue.pop now with
  | error e => exact ⟨rfl, rfl, rfl⟩
  | ok popped =>
    obtain ⟨m, q⟩ := popped
    cases m with
    | none => exact ⟨rfl, rfl, rfl⟩
    | some m => exact ⟨rfl, rfl, rfl⟩

theorem act_finished {d : Drainage κ} {g : Nat} {now : Value}
    (h : d.drains[g]? = some ⟨now, true⟩) : d.act (.step g) = (.ok (.popped none), d) := by
  obtain ⟨hLt, hDrain⟩ := List.getElem?_eq_some_iff.1 h
  rw [act, h]
  simp only [Drain.step, if_true]
  rw [← hDrain, List.set_getElem_self]
  rfl

theorem getElem?_act {d : Drainage κ} {g : Nat} {drain : Drain} (h : d.drains[g]? = some drain)
    {deed : Deed κ} (hOther : deed ≠ .step g) : (d.act deed).2.drains[g]? = some drain := by
  cases deed with
  | openDrain now =>
    have hLt := (List.getElem?_eq_some_iff.1 h).1
    exact (List.getElem?_append_left hLt).trans h
  | step g' =>
    have hNe : g' ≠ g := fun hSame => hOther (congrArg Deed.step hSame)
    rw [act]
    split
    · exact h
    · exact (List.getElem?_set_ne hNe).trans h
  | _ => exact h

/-- A live drain that is stepped stays live if it gives a message, and is finished otherwise. -/
theorem getElem?_step {d : Drainage κ} {g : Nat} {now : Value}
    (h : d.drains[g]? = some ⟨now, false⟩) :
    (d.act (.step g)).2.drains[g]? = some ⟨now, !(d.enter (.step g)).1.gives⟩ := by
  rw [(act_live h).2.2]
  exact List.getElem?_set_self (List.getElem?_eq_some_iff.1 h).1

theorem length_drains_act (d : Drainage κ) (deed : Deed κ) :
    (d.act deed).2.drains.length =
      d.drains.length + if (d.enter deed).1.isOpening then 1 else 0 := by
  cases deed with
  | openDrain now => exact List.length_append
  | step g =>
    rw [act]
    split
    · rfl
    · exact List.length_set
  | _ => rfl

theorem Agrees.enter {es : List (Entry κ)} {d : Drainage κ} (h : Agrees es d) (deed : Deed κ) :
    Agrees (es ++ [(d.enter deed).1]) (d.enter deed).2 where
  opened := by
    rw [List.countP_append, ← h.opened, List.countP_singleton]
    exact d.length_drains_act deed
  live := by
    intro g now hLive
    rcases live_concat hLive with ⟨rfl, hNumber⟩ | ⟨hEarlier, hGives⟩
    · obtain rfl : d.drains.length = g := by
        injection hNumber with hNumber
        injection hNumber
      exact List.getElem?_concat_length
    · have hDrain := h.live g now hEarlier
      by_cases hStep : deed = .step g
      · subst hStep
        have hGives : (d.enter (.step g)).1.gives = true := hGives rfl
        have hStepped := getElem?_step hDrain
        rwa [hGives] at hStepped
      · exact getElem?_act hDrain hStep
  spent := by
    intro g hSpent
    rcases spent_concat hSpent with hEarlier | ⟨⟨now, hLive⟩, rfl, hNone⟩
    · obtain ⟨now, hDrain⟩ := h.spent g hEarlier
      refine ⟨now, ?_⟩
      by_cases hStep : deed = .step g
      · subst hStep
        show (d.act (.step g)).2.drains[g]? = _
        rw [act_finished hDrain]
        exact hDrain
      · exact getElem?_act hDrain hStep
    · have hStepped := getElem?_step (h.live g now hLive)
      rw [hNone] at hStepped
      exact ⟨now, hStepped⟩

end Drainage

/-! ### What becomes of messages -/

/-- These messages were taken out of a queue, in order and before all that were left. -/
structure Takes (ms : List (Message κ)) (q rest : Queue κ) : Prop where
  turnover : Turnover [] ms [] q rest
  inOrder : ms.Pairwise fun a b => a.before b = true
  first : ∀ m ∈ ms, ∀ x ∈ rest.pending, m.before x = true

namespace Takes

theorem nil (q : Queue κ) : Takes [] q q := ⟨.refl q, .nil, by simp⟩

theorem single {q rest : Queue κ} {m : Message κ} (h : q.pop? = some (m, rest)) :
    Takes [m] q rest :=
  ⟨.take h, List.pairwise_singleton _ _, by simpa using (spec_of_pop? h).2.1⟩

theorem append {q rest last : Queue κ} {ms ms' : List (Message κ)} (h : Takes ms q rest)
    (h' : Takes ms' rest last) : Takes (ms ++ ms') q last := by
  have hLeft := h'.turnover.subset
  refine ⟨h.turnover.append h'.turnover, List.pairwise_append.2 ⟨h.inOrder, h'.inOrder, ?_⟩, ?_⟩
  · intro x hx y hy
    exact h.first x hx y (hLeft (List.mem_append_left _ hy))
  · intro x hx y hy
    rcases List.mem_append.1 hx with hx | hx
    · exact h.first x hx y (hLeft (List.mem_append_right _ hy))
    · exact h'.first x hx y hy

theorem of_pop {q rest : Queue κ} {now : Value} {m? : Option (Message κ)}
    (h : q.pop now = .ok (m?, rest)) :
    Takes m?.toList q rest ∧ ∀ m, m? = some m → m.isDue now = .ok true := by
  rw [pop] at h
  split at h
  · rename_i m rest' hPop
    cases hDue : m.isDue now with
    | error e =>
      rw [hDue] at h
      cases h
    | ok due =>
      rw [hDue] at h
      cases due with
      | false =>
        cases h
        exact ⟨.nil _, by simp⟩
      | true =>
        cases h
        exact ⟨.single hPop, by simpa using hDue⟩
  · cases h
    exact ⟨.nil _, by simp⟩

theorem of_popMany {q rest : Queue κ} {now : Value} {most : Nat} {ms : List (Message κ)}
    (h : popMany now most q = .ok (ms, rest)) : Takes ms q rest := by
  induction most generalizing q ms with
  | zero =>
    cases h
    exact .nil _
  | succ most ih =>
    rw [popMany] at h
    cases hPop : q.pop now with
    | error e =>
      rw [hPop] at h
      cases h
    | ok popped =>
      obtain ⟨m?, q'⟩ := popped
      rw [hPop] at h
      have hFirst := (of_pop hPop).1
      cases m? with
      | none =>
        cases h
        exact hFirst
      | some m =>
        cases hRest : popMany now most q' with
        | error e =>
          simp only [bind, Except.bind, hRest] at h
          cases h
        | ok popped =>
          simp only [bind, Except.bind, hRest] at h
          cases h
          exact hFirst.append (ih hRest)

end Takes

/-- A message that is accepted is added, however its due time was found. -/
theorem exists_add_of_enqueue {q rest : Queue κ} {tag delay now : Value} {target : Option Target}
    {callback : Option κ} {m : Message κ}
    (h : q.enqueue tag delay now target callback = .ok (m, rest)) :
    ∃ hm : m.seq = q.accepted, rest = q.add m hm := by
  rw [enqueue] at h
  cases hDelay : checkNonNegative .delay delay with
  | error e =>
    rw [hDelay] at h
    cases h
  | ok n =>
    cases hDue : later now n with
    | error e =>
      rw [hDelay] at h
      simp only [bind, Except.bind, hDue] at h
      cases h
    | ok due =>
      rw [hDelay] at h
      simp only [bind, Except.bind, hDue] at h
      exact (spec_of_enqueueAt h).2.2.2.2

namespace Entry

/-- The entry accounts for all messages, and what was taken out was taken in order. -/
structure Sound (e : Entry κ) : Prop where
  turnover : Turnover e.accepted e.taken e.dropped e.before e.after
  takes : e.taken = [] ∨ e.accepted = [] ∧ Takes e.taken e.before e.after

namespace Sound

variable {e : Entry κ} {q : Queue κ} {deed : Deed κ}

theorem of_takes (hAccepted : e.accepted = []) (hDropped : e.dropped = [])
    (h : Takes e.taken e.before e.after) : e.Sound where
  turnover := by
    rw [hAccepted, hDropped]
    exact h.turnover
  takes := Or.inr ⟨hAccepted, h⟩

theorem idle (hAfter : e.after = e.before) (hAccepted : e.accepted = []) (hTaken : e.taken = [])
    (hDropped : e.dropped = []) : e.Sound := by
  refine .of_takes hAccepted hDropped ?_
  rw [hTaken, hAfter]
  exact .nil _

theorem accept {o : Except Failure (Message κ × Queue κ)}
    (hAdds : ∀ m rest, o = .ok (m, rest) → ∃ hm : m.seq = q.accepted, rest = q.add m hm)
    (hDropped : ∀ answer rest, (⟨q, deed, answer, rest⟩ : Entry κ).dropped = []) :
    (⟨q, deed, (q.told .accepted o).1, (q.told .accepted o).2⟩ : Entry κ).Sound := by
  cases hCase : o with
  | error e => exact .idle rfl rfl rfl (hDropped _ _)
  | ok queued =>
    obtain ⟨m, rest⟩ := queued
    obtain ⟨hm, rfl⟩ := hAdds m rest hCase
    refine ⟨?_, Or.inl rfl⟩
    rw [hDropped]
    exact .accept q m hm

theorem pop (now : Value)
    (hDropped : ∀ answer rest, (⟨q, deed, answer, rest⟩ : Entry κ).dropped = []) :
    (⟨q, deed, (q.told .popped (q.pop now)).1, (q.told .popped (q.pop now)).2⟩ :
      Entry κ).Sound := by
  cases hPop : q.pop now with
  | error e => exact .idle rfl rfl rfl (hDropped _ _)
  | ok popped =>
    obtain ⟨m?, rest⟩ := popped
    have hTakes := (Takes.of_pop hPop).1
    cases m? with
    | none => exact .of_takes rfl (hDropped _ _) hTakes
    | some m => exact .of_takes rfl (hDropped _ _) hTakes

theorem drain (now : Value)
    (hDropped : ∀ answer rest, (⟨q, deed, answer, rest⟩ : Entry κ).dropped = []) :
    (⟨q, deed, (q.told .drained (q.drain now)).1, (q.told .drained (q.drain now)).2⟩ :
      Entry κ).Sound := by
  cases hDrain : q.drain now with
  | error e => exact .idle rfl rfl rfl (hDropped _ _)
  | ok drained =>
    obtain ⟨ms, rest⟩ := drained
    exact .of_takes rfl (hDropped _ _) (Takes.of_popMany hDrain)

theorem ask (q : Queue κ) (op : Op κ) :
    (⟨q, .ask op, (q.answer op).1, (q.answer op).2⟩ : Entry κ).Sound := by
  cases op with
  | enqueue tag delay now target callback =>
    have hTold : q.answer (.enqueue tag delay now target callback) =
        q.told .accepted (q.enqueue tag delay (.int now) target callback) := by
      rw [Queue.answer]
      cases q.enqueue tag delay (.int now) target callback <;> rfl
    rw [hTold]
    exact .accept (fun m rest hQueued => exists_add_of_enqueue hQueued) fun _ _ => rfl
  | enqueueAt tag due target callback =>
    have hTold : q.answer (.enqueueAt tag due target callback) =
        q.told .accepted (q.enqueueAt tag due target callback) := by
      rw [Queue.answer]
      cases q.enqueueAt tag due target callback <;> rfl
    rw [hTold]
    exact .accept (fun m rest hQueued => (spec_of_enqueueAt hQueued).2.2.2.2) fun _ _ => rfl
  | pop now =>
    have hTold : q.answer (.pop now) = q.told .popped (q.pop (.int now)) := by
      rw [Queue.answer]
      cases q.pop (.int now) <;> rfl
    rw [hTold]
    exact .pop _ fun _ _ => rfl
  | drain now =>
    have hTold : q.answer (.drain now) = q.told .drained (q.drain (.int now)) := by
      rw [Queue.answer]
      cases q.drain (.int now) <;> rfl
    rw [hTold]
    exact .drain _ fun _ _ => rfl
  | hasDue now =>
    rw [Queue.answer, hasDue_int]
    exact .idle rfl rfl rfl rfl
  | removeTag tag target => exact ⟨.remove q tag target, Or.inl rfl⟩
  | clear => exact ⟨.clear q, Or.inl rfl⟩
  | _ => exact .idle rfl rfl rfl rfl

theorem enter (d : Drainage κ) (deed : Deed κ) : (d.enter deed).1.Sound := by
  cases deed with
  | ask op => exact .ask d.queue op
  | enqueue tag delay now target callback =>
    exact .accept (fun m rest hQueued => exists_add_of_enqueue hQueued) fun _ _ => rfl
  | pop now => exact .pop now fun _ _ => rfl
  | openDrain now => exact .idle rfl rfl rfl rfl
  | step g =>
    cases hDrain : d.drains[g]? with
    | none =>
      rw [Drainage.enter, Drainage.act, hDrain]
      exact .idle rfl rfl rfl rfl
    | some drain =>
      obtain ⟨now, finished⟩ := drain
      cases finished with
      | true =>
        rw [Drainage.enter, Drainage.act_finished hDrain]
        exact .idle rfl rfl rfl rfl
      | false =>
        obtain ⟨hAnswer, hAfter, -⟩ := Drainage.act_live hDrain
        rw [Drainage.enter, hAnswer, hAfter]
        exact .pop now fun _ _ => rfl

end Sound

end Entry

/-! ### Runs -/

namespace Drainage

def entries (d : Drainage κ) (deeds : List (Deed κ)) : List (Entry κ) := (answers enter d deeds).1

def run (d : Drainage κ) (deeds : List (Deed κ)) : Drainage κ := (answers enter d deeds).2

/-- Where an entry stands in a run, its deed stands among the deeds. -/
theorem exists_of_entries {d : Drainage κ} {deeds : List (Deed κ)} {past future : List (Entry κ)}
    {e : Entry κ} (h : d.entries deeds = past ++ e :: future) :
    ∃ before deed after, d.entries before = past ∧ ((d.run before).enter deed).1 = e ∧
      ((d.run before).enter deed).2.entries after = future := by
  induction past generalizing d deeds with
  | nil =>
    cases deeds with
    | nil => cases h
    | cons deed deeds =>
      obtain ⟨hFirst, hRest⟩ := List.cons_eq_cons.1 h
      exact ⟨[], deed, deeds, rfl, hFirst, hRest⟩
  | cons x past ih =>
    cases deeds with
    | nil => cases h
    | cons deed deeds =>
      obtain ⟨hFirst, hRest⟩ := List.cons_eq_cons.1 h
      obtain ⟨before, next, after, hPast, hEntry, hFuture⟩ := ih hRest
      exact ⟨deed :: before, next, after, List.cons_eq_cons.2 ⟨hFirst, hPast⟩, hEntry, hFuture⟩

theorem Agrees.run {es : List (Entry κ)} {d : Drainage κ} (h : Agrees es d)
    (deeds : List (Deed κ)) : Agrees (es ++ d.entries deeds) (d.run deeds) := by
  induction deeds generalizing es d with
  | nil =>
    rw [entries, answers, List.append_nil]
    exact h
  | cons deed deeds ih =>
    have hNext := ih (h.enter deed)
    rw [List.append_assoc] at hNext
    exact hNext

theorem turnover_run (d : Drainage κ) (deeds : List (Deed κ)) :
    Turnover ((d.entries deeds).flatMap Entry.accepted) ((d.entries deeds).flatMap Entry.taken)
      ((d.entries deeds).flatMap Entry.dropped) d.queue (d.run deeds).queue := by
  induction deeds generalizing d with
  | nil => exact .refl d.queue
  | cons deed deeds ih =>
    exact (Entry.Sound.enter d deed).turnover.append (ih (d.enter deed).2)

end Drainage

/-- The entry of what was done after these entries, as far as it concerns drains. -/
structure Entry.Lawful (past : List (Entry κ)) (e : Entry κ) : Prop where
  /-- A drain that is opened has no effect, and gets the next number. -/
  opening : ∀ now, e.deed = .openDrain now →
    e.answer = .ok (.count (past.countP isOpening)) ∧ e.after = e.before
  /-- A live drain that is stepped pops the queue as it is, for the time that it was opened for. -/
  live : ∀ g now, e.deed = .step g → Live g now past →
    (e.answer, e.after) = e.before.told .popped (e.before.pop now)
  /-- What it gives is due at that time. -/
  due : ∀ g now m, e.deed = .step g → Live g now past → e.answer = .ok (.popped (some m)) →
    m.isDue now = .ok true
  /-- A drain that has once not given a message is finished for good, whatever becomes due. -/
  spent : ∀ g, e.deed = .step g → Spent g past →
    e.answer = .ok (.popped none) ∧ e.after = e.before

theorem Drainage.Agrees.lawful {past : List (Entry κ)} {d : Drainage κ} (h : Agrees past d)
    (deed : Deed κ) : Entry.Lawful past (d.enter deed).1 where
  opening := by
    rintro now rfl
    refine ⟨?_, rfl⟩
    rw [← h.opened]
    rfl
  live := by
    rintro g now rfl hLive
    obtain ⟨hAnswer, hAfter, -⟩ := act_live (h.live g now hLive)
    exact Prod.ext hAnswer hAfter
  due := by
    rintro g now m rfl hLive hGiven
    have hTold := (act_live (h.live g now hLive)).1.symm.trans hGiven
    cases hPop : d.queue.pop now with
    | error e =>
      rw [hPop] at hTold
      cases hTold
    | ok popped =>
      obtain ⟨m?, rest⟩ := popped
      rw [hPop] at hTold
      cases hTold
      exact (Takes.of_pop hPop).2 m rfl
  spent := by
    rintro g rfl hSpent
    obtain ⟨now, hDrain⟩ := h.spent g hSpent
    have hAct := act_finished hDrain
    exact ⟨congrArg Prod.fst hAct, congrArg (fun x => x.2.queue) hAct⟩

namespace Drainage

variable {d : Drainage κ} {deeds : List (Deed κ)}

/-- Of two messages that are taken out, the first comes before the second unless something was
accepted in between. -/
theorem before_of_entries {past between future : List (Entry κ)} {e e' : Entry κ}
    (h : d.entries deeds = past ++ e :: (between ++ e' :: future))
    (hNone : ∀ x ∈ between, x.accepted = []) {m m' : Message κ} (hm : m ∈ e.taken)
    (hm' : m' ∈ e'.taken) : m.before m' = true := by
  obtain ⟨before, deed, after, -, rfl, hRest⟩ := exists_of_entries h
  obtain ⟨middle, deed', last, rfl, rfl, -⟩ := exists_of_entries hRest
  -- the second message was pending when it was taken out, and so after the first was
  rcases (Entry.Sound.enter _ deed').takes with hNothing | ⟨-, hTakes'⟩
  · rw [hNothing] at hm'
    cases hm'
  have hPending := hTakes'.turnover.subset (List.mem_append_left _ hm')
  have hBetween := turnover_run ((d.run before).enter deed).2 middle
  rw [List.flatMap_eq_nil_iff.2 hNone] at hBetween
  have hLeft := hBetween.subset (List.mem_append_right _ hPending)
  rcases (Entry.Sound.enter _ deed).takes with hNothing | ⟨-, hTakes⟩
  · rw [hNothing] at hm
    cases hm
  exact hTakes.first m hm m' hLeft

/-- **Drains go on side by side.**  Any number of drains are opened on a queue, for any times, and
are stepped in any order, while messages are queued, taken and removed.  A drain that is opened has
no effect; as long as it is live, a step pops the queue as it is at that moment, for the time that
it was opened for, and what it gives is due then; once a step has not given a message, be it that
none was due or that the times could not be compared, no step does anything any more.  So all
messages are accounted for: those that were pending or were accepted are pending, were removed, or
were taken out once.  Whoever takes two messages out gets them in order, unless one was accepted in
between. -/
theorem interleaved (q : Queue κ) (deeds : List (Deed κ)) :
    (∀ past e future, entries ⟨q, []⟩ deeds = past ++ e :: future → e.Lawful past) ∧
      Turnover ((entries ⟨q, []⟩ deeds).flatMap Entry.accepted)
        ((entries ⟨q, []⟩ deeds).flatMap Entry.taken)
        ((entries ⟨q, []⟩ deeds).flatMap Entry.dropped) q (run ⟨q, []⟩ deeds).queue ∧
      ((entries ⟨q, []⟩ deeds).flatMap Entry.taken).Pairwise (fun a b => a.seq ≠ b.seq) ∧
      ∀ past e between e' future,
        entries ⟨q, []⟩ deeds = past ++ e :: (between ++ e' :: future) →
        (∀ x ∈ between, x.accepted = []) →
        ∀ m ∈ e.taken, ∀ m' ∈ e'.taken, m.before m' = true := by
  have hTurnover := turnover_run ⟨q, []⟩ deeds
  refine ⟨?_, hTurnover, ?_, ?_⟩
  · intro past e future hEntries
    obtain ⟨before, deed, after, rfl, rfl, -⟩ := exists_of_entries hEntries
    exact ((Agrees.nil q).run before).lawful deed
  · have hAll := hTurnover.pending.pairwise hTurnover.distinct fun hab => hab.symm
    exact (List.pairwise_append.1 hAll).1
  · intro past e between e' future hEntries hNone m hm m' hm'
    exact before_of_entries hEntries hNone hm hm'

-- The second drain fails to compare times and is finished; the first is finished before the message
-- with the number 3 is accepted, which the third gives.
example :
    (entries (⟨.empty, []⟩ : Drainage Unit)
      [.ask (.enqueueAt (.str "one") (.int 0) none none),
        .ask (.enqueueAt (.str "two") (.int 5) none none),
        .openDrain (.int 0), .openDrain (.str "soon"), .openDrain (.float (.ofInt 9)),
        .step 0, .step 1, .ask (.enqueueAt (.str "three") (.int (-1)) none none), .step 1, .step 0,
        .step 0, .ask (.enqueueAt (.str "four") (.int 0) none none), .step 0, .step 2, .step 2]).map
      (fun e => e.taken.map (·.seq)) =
    [[], [], [], [], [], [0], [], [], [], [2], [], [], [], [3], [1]] := by
  decide +kernel

end Drainage

end Queue

end VirtualLooper
