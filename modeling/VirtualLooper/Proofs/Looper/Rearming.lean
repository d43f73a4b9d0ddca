import VirtualLooper.Proofs.Looper.Slicing
import VirtualLooper.Proofs.Queue.Turnover

/-!
# Handlers that send for later

A timer that fires sends the message that will make it fire again.  A dispatch of all that is due
comes to an end nevertheless, if whatever handlers send is due later: with each message that is
taken there is one less that is due now, however long the queue grows in the meantime.

`Program.Rearms` says what such handlers may do.  `Ledger.Tended` says what comes of it while some
messages are taken: what was pending or is sent since was taken or dropped, or is pending.  Requests
and deliveries leave ledgers so (`State.exists_respond`, `State.exists_delivered`), and the drain
does by induction on its bound (`State.exists_tended`).
-/

namespace VirtualLooper

variable {σ κ : Type}

/-! ### What handlers may do -/

/-- Sends nothing that is due at the given time, does not move the clock, and neither dispatches nor
begins or ends a session. -/
def Request.IsLater (now : Int) : Request κ → Prop
  | .enqueue _ delay _ _ => ∀ n, delay = .int n → 0 < n
  | .enqueueAt _ due _ _ => ∀ n, due = .int n → now < n
  | .has .. | .remove .. | .records .. | .reset .. => True
  | _ => False

/-- The looper is idle at the given time, and falls back on the given receiver. -/
structure State.IdleAt (now : Int) (fallback : Option Target) (s : State σ κ) : Prop where
  now : s.clock.now = now
  fallback : s.fallback = fallback
  session : s.session = none

/-- The program sends for later only and does not fail, whatever a looper that is idle at the given
time shows to it and replies. -/
def Program.Rearms (w : World σ κ) (thread : Thread) (now : Int) (fallback : Option Target) :
    Program σ κ Unit → Prop
  | .done _ => True
  | .fail _ => False
  | .load next => ∀ memory, (next memory).Rearms w thread now fallback
  | .store _ next => next.Rearms w thread now fallback
  | .look next => ∀ s : State σ κ, s.IdleAt now fallback →
      (next (s.sight thread)).Rearms w thread now fallback
  | .ask r next => r.IsLater now ∧ ∀ (s t : State σ κ) (reply : Except Failure Reply),
      s.IdleAt now fallback → s.respond w thread r = .reply reply t →
        (next reply).Rearms w thread now fallback

/-- A request that is not refused does not fail, and the program goes on. -/
theorem Program.Rearms.request {w : World σ κ} {thread : Thread} {now : Int}
    {fallback : Option Target} {r : Request κ} {next : Reply → Program σ κ Unit}
    (hLater : r.IsLater now)
    (hNext : ∀ (s t : State σ κ) (reply : Except Failure Reply), s.IdleAt now fallback →
      s.respond w thread r = .reply reply t →
        ∃ answer, reply = .ok answer ∧ (next answer).Rearms w thread now fallback) :
    ((Program.request r).andThen next).Rearms w thread now fallback := by
  refine ⟨hLater, ?_⟩
  intro s t reply hIdle hReply
  obtain ⟨answer, rfl, hRearms⟩ := hNext s t reply hIdle hReply
  exact hRearms

structure World.Rearms (w : World σ κ) (thread : Thread) (now : Int) (fallback : Option Target) :
    Prop where
  receive : ∀ target tag, (w.receive target tag).Rearms w thread now fallback
  invoke : ∀ c, (w.invoke c).Rearms w thread now fallback

theorem World.Rearms.delivery {w : World σ κ} {thread : Thread} {now : Int}
    {fallback : Option Target} (h : w.Rearms thread now fallback) (m : Message κ) :
    (w.delivery m).Rearms w thread now fallback := World.delivery_of h.receive h.invoke trivial m

/-! ### What comes of it -/

namespace Ledger

/-- These messages were taken and delivered, in this order, at a time when they were due; those were
sent in the meantime, for later; and those were dropped. -/
structure Tended (taken sent dropped : List (Message κ)) (L L' : Ledger κ) : Prop where
  now : L'.now = L.now
  delivered : L'.taken = L.taken ++ taken
  called : L'.called = L.called ++ taken.map Message.withCall
  accepted : L'.accepted = L.accepted ++ sent.map fun m => (m, L.now)
  removed : L'.removed.flatten = L.removed.flatten ++ dropped
  turnover : Queue.Turnover sent taken dropped L.queue L'.queue
  due : ∀ m ∈ taken, m.due ≤ L.now
  later : ∀ m ∈ sent, L.now < m.due

namespace Tended

variable {taken taken' sent sent' dropped dropped' : List (Message κ)} {L L' L'' : Ledger κ}

theorem refl (L : Ledger κ) : Tended [] [] [] L L where
  now := rfl
  delivered := (List.append_nil _).symm
  called := (List.append_nil _).symm
  accepted := (List.append_nil _).symm
  removed := (List.append_nil _).symm
  turnover := .refl _
  due := by simp
  later := by simp

theorem append (h : Tended taken sent dropped L L') (h' : Tended taken' sent' dropped' L' L'') :
    Tended (taken ++ taken') (sent ++ sent') (dropped ++ dropped') L L'' where
  now := h'.now.trans h.now
  delivered := by rw [h'.delivered, h.delivered, List.append_assoc]
  called := by rw [h'.called, h.called, List.map_append, List.append_assoc]
  accepted := by rw [h'.accepted, h.accepted, h.now, List.map_append, List.append_assoc]
  removed := by rw [h'.removed, h.removed, List.append_assoc]
  turnover := h.turnover.append h'.turnover
  due := by
    intro m hm
    rcases List.mem_append.1 hm with hm | hm
    · exact h.due m hm
    · exact h.now ▸ h'.due m hm
  later := by
    intro m hm
    rcases List.mem_append.1 hm with hm | hm
    · exact h.later m hm
    · exact h.now ▸ h'.later m hm

theorem accept (L : Ledger κ) (m : Message κ) (hm : m.seq = L.queue.accepted)
    (hLater : L.now < m.due) :
    Tended [] [m] [] L
      { L with queue := L.queue.add m hm, accepted := L.accepted ++ [(m, L.now)] } where
  now := rfl
  delivered := (List.append_nil _).symm
  called := (List.append_nil _).symm
  accepted := rfl
  removed := (List.append_nil _).symm
  turnover := .accept L.queue m hm
  due := by simp
  later := by simpa using hLater

theorem remove (L : Ledger κ) (tag : Value) (target : Option Target) :
    Tended [] [] (L.queue.pending.filter fun m => m.hasTag tag target) L
      { L with
        queue := (L.queue.removeTag tag target).2
        removed := L.removed ++ [L.queue.pending.filter fun m => m.hasTag tag target] } where
  now := rfl
  delivered := (List.append_nil _).symm
  called := (List.append_nil _).symm
  accepted := (List.append_nil _).symm
  removed := by simp
  turnover := .remove L.queue tag target
  due := by simp
  later := by simp

theorem deliver (L : Ledger κ) {m : Message κ} {q : Queue κ}
    (h : L.queue.popAt? L.now = some (m, q)) :
    Tended [m] [] [] L
      { L with queue := q, taken := L.taken ++ [m], called := L.called ++ [m.withCall] } where
  now := rfl
  delivered := rfl
  called := rfl
  accepted := (List.append_nil _).symm
  removed := (List.append_nil _).symm
  turnover := .take (Option.filter_eq_some_iff.1 h).1
  due := by simpa using (Queue.spec_of_popAt? h).1
  later := by simp

end Tended

end Ledger

namespace State

variable {w : World σ κ} {thread : Thread} {now : Int} {fallback : Option Target}

theorem IdleAt.trans {s t : State σ κ} (h : s.IdleAt now fallback) (hFrame : s.SameFrame t)
    {taken sent dropped : List (Message κ)}
    (hTended : Ledger.Tended taken sent dropped (.of s []) (.of t [])) : t.IdleAt now fallback where
  now := hTended.now.trans h.now
  fallback := hFrame.fallback.trans h.fallback
  session := hFrame.session.trans h.session

/-! ### Requests and programs -/

/-- Handlers that send for later are answered at once, and have sent something for later, or have
dropped some, or neither. -/
theorem exists_respond (w : World σ κ) (thread : Thread) {s : State σ κ} {r : Request κ}
    (hr : r.IsLater s.clock.now) :
    ∃ reply t sent dropped, s.respond w thread r = .reply reply t ∧ s.SameFrame t ∧
      Ledger.Tended [] sent dropped (.of s []) (.of t []) := by
  -- only a start would change the frame
  suffices hAnswer : ∃ reply t sent dropped, s.respond w thread r = .reply reply t ∧
      Ledger.Tended [] sent dropped (.of s []) (.of t []) by
    obtain ⟨reply, t, sent, dropped, hReply, hTended⟩ := hAnswer
    rcases SameFrame.respond hReply with hFrame | ⟨rfl, -⟩
    · exact ⟨reply, t, sent, dropped, hReply, hFrame, hTended⟩
    · exact hr.elim
  have hAccept {tag : Value} {due : Int} {target : Option Target} {callback : Option κ}
      {receipt : Receipt} {t : State σ κ} (hLater : s.clock.now < due)
      (hSent : s.enqueueAt tag (.int due) target callback = .ok (receipt, t)) :
      ∃ m, Ledger.Tended [] [m] [] (.of s []) (.of t []) := by
    obtain ⟨m, hm, -, hDue, -, -, -, rfl⟩ := spec_of_enqueueAt hSent
    obtain rfl : due = m.due := by simpa using hDue
    refine ⟨m, ?_⟩
    rw [Ledger.of_accept]
    exact .accept (.of s []) m hm hLater
  cases r with
  | enqueue tag delay target callback =>
    rw [respond]
    cases hSent : s.enqueue tag delay target callback with
    | error e => exact ⟨_, s, [], [], rfl, .refl _⟩
    | ok answer =>
      obtain ⟨receipt, t⟩ := answer
      obtain ⟨n, hDelay, -, hAt⟩ := enqueueAt_of_enqueue hSent
      have hPos := hr n hDelay
      obtain ⟨m, hTended⟩ := hAccept (by omega) hAt
      exact ⟨_, t, [m], [], rfl, hTended⟩
  | enqueueAt tag due target callback =>
    rw [respond]
    cases hSent : s.enqueueAt tag due target callback with
    | error e => exact ⟨_, s, [], [], rfl, .refl _⟩
    | ok answer =>
      obtain ⟨receipt, t⟩ := answer
      obtain ⟨m, hm, -, hDue, -⟩ := spec_of_enqueueAt hSent
      rw [hDue] at hSent
      obtain ⟨m, hTended⟩ := hAccept (hr _ hDue) hSent
      exact ⟨_, t, [m], [], rfl, hTended⟩
  | has tag target => exact ⟨_, s, [], [], rfl, .refl _⟩
  | remove tag target =>
    refine ⟨_, _, [], s.queue.pending.filter fun m => m.hasTag tag target, rfl, ?_⟩
    rw [Ledger.of_remove]
    exact .remove (.of s []) tag target
  | records target used =>
    rw [respond]
    split
    · exact ⟨_, s, [], [], rfl, .refl _⟩
    · exact ⟨_, s, [], [], rfl, .refl _⟩
  | reset target =>
    rw [respond]
    split
    · refine ⟨_, _, [], [], rfl, ?_⟩
      rw [Ledger.of_reset]
      exact .refl _
    · exact ⟨_, s, [], [], rfl, .refl _⟩
  | _ => exact hr.elim

theorem exists_run {p : Program σ κ Unit} (h : p.Rearms w thread now fallback) (bound : Nat)
    {s : State σ κ} (hIdle : s.IdleAt now fallback) :
    ∃ t sent dropped, p.run (perform w (bound + 1) thread) thread s = .ok () t ∧ s.SameFrame t ∧
      Ledger.Tended [] sent dropped (.of s []) (.of t []) := by
  induction p generalizing s with
  | done u => exact ⟨s, [], [], rfl, .refl s, .refl _⟩
  | fail e => exact h.elim
  | load next ih => exact ih s.memory (h s.memory) hIdle
  | store memory next ih =>
    have hFrame : s.SameFrame { s with memory } := ⟨rfl, rfl, rfl, rfl⟩
    obtain ⟨t, sent, dropped, hRun, hFrame', hTended⟩ :=
      ih h (hIdle.trans hFrame (.refl (.of s [])))
    exact ⟨t, sent, dropped, hRun, hFrame.trans hFrame', hTended⟩
  | look next ih => exact ih (s.sight thread) (h s hIdle) hIdle
  | ask r next ih =>
    obtain ⟨hLater, hNext⟩ := h
    obtain ⟨reply, t, sent, dropped, hReply, hFrame, hTended⟩ :=
      exists_respond w thread (s := s) (hIdle.now ▸ hLater)
    obtain ⟨u, sent', dropped', hRun, hFrame', hTended'⟩ :=
      ih reply (hNext s t reply hIdle hReply) (hIdle.trans hFrame hTended)
    refine ⟨u, sent ++ sent', dropped ++ dropped', ?_, hFrame.trans hFrame',
      hTended.append hTended'⟩
    rw [Program.run, perform_of_reply hReply, Outcome.attempt_ofResult]
    exact hRun

/-! ### Deliveries -/

theorem exists_delivered (hRearms : w.Rearms thread now fallback) (bound : Nat) {s u : State σ κ}
    (hIdle : s.IdleAt now fallback) {m : Message κ} (hTake : s.take? thread = some (m, u)) :
    ∃ t sent dropped, w.deliver (perform w (bound + 1) thread) thread m u = .ok () t ∧
      s.SameFrame t ∧ Ledger.Tended [m] sent dropped (.of s []) (.of t []) := by
  obtain ⟨q, hPop, hTaken⟩ := Ledger.of_take [] hTake
  have hFrame := (SameFrame.take hTake).trans (.atDelivery w thread m u)
  have hFirst : Ledger.Tended [m] [] [] (.of s []) (.of (w.atDelivery thread m u) []) := by
    rw [Ledger.of_atDelivery, hTaken]
    exact .deliver (.of s []) hPop
  obtain ⟨t, sent, dropped, hRun, hFrame', hTended⟩ :=
    exists_run (hRearms.delivery m) bound (hIdle.trans hFrame hFirst)
  exact ⟨t, sent, dropped, hRun, hFrame.trans hFrame', hFirst.append hTended⟩

end State

namespace Message

theorem filter_of_early (now : Int) {ms : List (Message κ)} (h : ∀ m ∈ ms, m.due ≤ now) :
    (ms.filter fun m => m.due ≤ now) = ms ∧ (ms.filter fun m => now < m.due) = [] :=
  ⟨List.filter_eq_self.2 fun m hm => by simpa using h m hm,
    List.filter_eq_nil_iff.2 fun m hm => by simpa using h m hm⟩

theorem filter_of_late (now : Int) {ms : List (Message κ)} (h : ∀ m ∈ ms, now < m.due) :
    (ms.filter fun m => m.due ≤ now) = [] ∧ (ms.filter fun m => now < m.due) = ms :=
  ⟨List.filter_eq_nil_iff.2 fun m hm => by simpa using h m hm,
    List.filter_eq_self.2 fun m hm => by simpa using h m hm⟩

end Message

namespace State

variable {w : World σ κ} {thread : Thread} {now : Int} {fallback : Option Target}

theorem dueNow_of_take {s u : State σ κ} {m : Message κ} (h : s.take? thread = some (m, u)) :
    s.dueNow.Perm (m :: u.dueNow) ∧ ∀ x ∈ u.dueNow, m.before x = true := by
  obtain ⟨q, hPop, hTaken⟩ := spec_of_take h
  have hNext : s.queue.popAt? s.clock.now = some (m, u.queue) := by
    rw [hTaken]
    exact hPop
  have hNow : u.clock.now = s.clock.now := by
    rw [hTaken]
    rfl
  obtain ⟨hEarly, -, hFirst⟩ := perm_of_popAt? hNext hNow
  exact ⟨hEarly, hFirst⟩

/-- What is taken is due, so it is none of what is sent; and what is due afterwards was due
before. -/
theorem dueNow_of_tended {taken sent dropped : List (Message κ)} {s t : State σ κ}
    (h : Ledger.Tended taken sent dropped (.of s []) (.of t [])) :
    s.dueNow.Perm (taken ++ ((dropped.filter fun m => m.due ≤ s.clock.now) ++ t.dueNow)) := by
  have hNow : t.clock.now = s.clock.now := h.now
  have hDue := h.turnover.pending.filter fun m => m.due ≤ s.clock.now
  have hSent := (Message.filter_of_late s.clock.now h.later).1
  have hTaken := (Message.filter_of_early s.clock.now h.due).1
  rw [List.filter_append, List.filter_append, List.filter_append, hSent, hTaken,
    List.append_nil] at hDue
  rw [dueNow, dueNow, hNow]
  exact hDue

/-- **A drain takes what is due in order, and then ends.**  There is one message less that is due
after each that is taken. -/
theorem exists_tended (hRearms : w.Rearms thread now fallback) (bound : Nat) {s : State σ κ}
    (hIdle : s.IdleAt now fallback) (most : Nat) (hMost : s.dueNow.length < most) :
    ∃ taken t sent dropped,
      drainWith thread id (w.deliver (perform w (bound + 1) thread) thread) most s =
        .ok taken.length t ∧
      s.SameFrame t ∧ Ledger.Tended taken sent dropped (.of s []) (.of t []) ∧ t.dueNow = [] ∧
      taken.Pairwise fun a b => a.before b = true := by
  induction most generalizing s with
  | zero => omega
  | succ most ih =>
    rw [drainWith]
    cases hTake : s.take? thread with
    | none =>
      exact ⟨[], s, [], [], rfl, .refl s, .refl _, (dueNow_of_take?_eq_none hTake).1, .nil⟩
    | some next =>
      obtain ⟨m, u⟩ := next
      obtain ⟨v, sent, dropped, hDeliver, hFrame, hTended⟩ :=
        exists_delivered hRearms bound hIdle hTake
      have hDue := dueNow_of_tended hTended
      have hLength := hDue.length_eq
      simp only [List.length_append, List.length_cons, List.length_nil] at hLength
      obtain ⟨taken, t, sent', dropped', hDrain, hFrame', hTended', hNone, hSorted⟩ :=
        ih (hIdle.trans hFrame hTended) (by omega)
      refine ⟨m :: taken, t, sent ++ sent', dropped ++ dropped', ?_, hFrame.trans hFrame',
        hTended.append hTended', hNone, List.pairwise_cons.2 ⟨?_, hSorted⟩⟩
      · simp only [id, hDeliver, Outcome.bind, hDrain, Outcome.map, List.length_cons]
      · -- what is taken later was due already, and was left when this one was taken
        obtain ⟨hEarly, hFirst⟩ := dueNow_of_take hTake
        have hRest : ((dropped.filter fun m => m.due ≤ s.clock.now) ++ v.dueNow).Perm u.dueNow :=
          List.Perm.cons_inv (hDue.symm.trans hEarly)
        intro x hx
        have hNext := (dueNow_of_tended hTended').mem_iff.2 (List.mem_append_left _ hx)
        exact hFirst x (hRest.mem_iff.1 (List.mem_append_right _ hNext))

end State

/-! ### Dispatches -/

namespace State

def acceptedSoFar (s : State σ κ) : List (Message κ × Int) :=
  s.history.filterMap Occurrence.accepted?

def removedSoFar (s : State σ κ) : List (Message κ) :=
  (s.history.filterMap Occurrence.removed?).flatten

end State

theorem State.pairwise_dueNow (s : State σ κ) :
    (Message.inOrder s.dueNow).Pairwise fun a b => a.before b = true := by
  have hShows := Shows.inOrder s.queue
  have hDue := hShows.sorted.filter fun m => m.due ≤ s.clock.now
  rwa [Message.eq_inOrder (hShows.perm.filter _) hDue] at hDue

theorem State.exists_tended_all {w : World σ κ} {thread : Thread} {s : State σ κ}
    (hSession : s.session = none) (hRearms : w.Rearms thread s.clock.now s.fallback) {bound : Nat}
    (hBound : s.dueNow.length < bound) :
    ∃ taken t sent dropped,
      perform w (bound + 1) thread .dispatchAll s = .ok (.count taken.length) t ∧
      s.SameFrame t ∧ Ledger.Tended taken sent dropped (.of s []) (.of t []) ∧ t.dueNow = [] ∧
      taken.Pairwise fun a b => a.before b = true := by
  obtain ⟨bound, rfl⟩ := Nat.exists_eq_add_one_of_ne_zero (Nat.ne_zero_of_lt hBound)
  have hEnter : s.SameFrame s.enter := ⟨rfl, rfl, rfl, rfl⟩
  have hIdle : s.enter.IdleAt s.clock.now s.fallback := ⟨rfl, rfl, hSession⟩
  obtain ⟨taken, t, sent, dropped, hDrain, hFrame, hTended, hNone, hSorted⟩ :=
    exists_tended hRearms bound hIdle (bound + 1) hBound
  let last := (t.leave.recordHistory (.returned taken.length)).note thread (.delivered taken.length)
  have hLeave : t.SameFrame last := ⟨rfl, rfl, rfl, rfl⟩
  have hLedger : Ledger.of last [] = Ledger.of t [] := by
    rw [Ledger.of_note, Ledger.of_recordHistory _ _ rfl, Ledger.of_leave]
  refine ⟨taken, last, sent, dropped, ?_, (hEnter.trans hFrame).trans hLeave,
    hLedger.symm ▸ hTended, hNone, hSorted⟩
  rw [perform_dispatchAll hSession, hDrain]
  rfl

/-- **A dispatch ends although timers re-arm themselves.**  A looper is idle, and its handlers may
send, any number of times, what is due later than now, and remove messages, but do not move the
clock, dispatch, begin or end a session or fail.  Then a dispatch of all that is due comes to its
end.  It delivers what was due when it was asked for, in order, but for what a handler has removed;
what else was pending or was sent in the meantime, and was not removed, is pending afterwards and not
due; and the clock shows the same time. -/
theorem rearmed {w : World σ κ} {thread : Thread} {s : State σ κ} (hSession : s.session = none)
    (hRearms : w.Rearms thread s.clock.now s.fallback) {bound : Nat}
    (hBound : s.dueNow.length < bound) :
    ∃ (taken sent dropped : List (Message κ)) (t : State σ κ),
      perform w (bound + 1) thread .dispatchAll s = .ok (.count taken.length) t ∧
      taken = (Message.inOrder s.dueNow).filter (fun m => m.seq ∉ dropped.map (·.seq)) ∧
      t.queue.pending.Perm
        ((s.dueLater ++ sent).filter fun m => m.seq ∉ dropped.map (·.seq)) ∧
      (∀ m ∈ t.queue.pending, t.clock.now < m.due) ∧ t.clock = s.clock ∧ s.SameFrame t ∧
      t.takenSoFar = s.takenSoFar ++ taken ∧
      t.calledSoFar = s.calledSoFar ++ taken.map Message.withCall ∧
      t.acceptedSoFar = s.acceptedSoFar ++ sent.map (fun m => (m, s.clock.now)) ∧
      t.removedSoFar = s.removedSoFar ++ dropped := by
  obtain ⟨taken, t, sent, dropped, hRun, hFrame, hTended, hNone, hSorted⟩ :=
    State.exists_tended_all hSession hRearms hBound
  have hNow : t.clock.now = s.clock.now := hTended.now
  have hLeft : ∀ m ∈ t.queue.pending, s.clock.now < m.due := by
    intro m hm
    simpa [hNow] using List.filter_eq_nil_iff.1 hNone m hm
  obtain ⟨hSentNow, hSentLater⟩ := Message.filter_of_late s.clock.now hTended.later
  obtain ⟨hTakenNow, hTakenLater⟩ := Message.filter_of_early s.clock.now hTended.due
  obtain ⟨hLeftNow, hLeftLater⟩ := Message.filter_of_late s.clock.now hLeft
  -- what was not dropped was taken or is pending, and its due time tells which
  have hKept : ((s.queue.pending ++ sent).filter fun m => m.seq ∉ dropped.map (·.seq)).Perm
      (taken ++ t.queue.pending) := hTended.turnover.perm_kept
  have hTaken : taken.Perm (s.dueNow.filter fun m => m.seq ∉ dropped.map (·.seq)) := by
    have hEarly := hKept.filter fun m => m.due ≤ s.clock.now
    rw [List.filter_comm, List.filter_append s.queue.pending, List.filter_append taken, hSentNow,
      hTakenNow, hLeftNow, List.append_nil, List.append_nil] at hEarly
    exact hEarly.symm
  have hPending : t.queue.pending.Perm
      ((s.dueLater ++ sent).filter fun m => m.seq ∉ dropped.map (·.seq)) := by
    have hLate := hKept.filter fun m => s.clock.now < m.due
    rw [List.filter_comm, List.filter_append s.queue.pending, List.filter_append taken, hSentLater,
      hTakenLater, hLeftLater, List.nil_append] at hLate
    exact hLate.symm
  refine ⟨taken, sent, dropped, t, hRun, ?_, hPending, hNow.symm ▸ hLeft, congrArg Clock.mk hNow,
    hFrame, hTended.delivered, hTended.called, hTended.accepted, hTended.removed⟩
  exact (Message.eq_inOrder hTaken hSorted).trans
    (Message.eq_inOrder ((Message.perm_inOrder _).filter _) (s.pairwise_dueNow.filter _)).symm

/-- A timer that sends itself the tag that it has received, and drops an alarm.  A callback sends for
a time that it works out by the clock. -/
def World.timer : World Unit Unit where
  receive target tag :=
    (Program.request (.enqueue tag (.int 1) target none)).andThen fun _ =>
      (Program.request (.remove (.str "alarm") none)).andThen fun _ => .done ()
  invoke _ := .look fun sight =>
    (Program.request (.enqueueAt (.str "tick") (.int (sight.now + 3)) (some (.handler "ada"))
      none)).andThen fun _ => .done ()
  records _ := true

theorem World.rearms_timer (thread : Thread) (now : Int) (fallback : Option Target) :
    World.timer.Rearms thread now fallback where
  receive target tag := by
    refine .request (fun n hn => ?_) fun s t reply hIdle hReply => ?_
    · obtain rfl : 1 = n := Value.int.inj hn
      decide
    · obtain ⟨rfl, -⟩ := Response.reply.inj hReply
      refine ⟨_, rfl, .request trivial fun s t reply hIdle hReply => ?_⟩
      obtain ⟨rfl, -⟩ := Response.reply.inj hReply
      exact ⟨_, rfl, trivial⟩
  invoke c := by
    intro s hIdle
    refine .request (fun n hn => ?_) fun s t reply hIdle hReply => ?_
    · obtain rfl : s.clock.now + 3 = n := Value.int.inj hn
      rw [hIdle.now]
      omega
    · obtain ⟨rfl, -⟩ := Response.reply.inj hReply
      exact ⟨_, rfl, trivial⟩

/-- Two messages and an alarm that are due, and one that is due later. -/
def Request.beforeAlarm (target : Target) : List (Request Unit) :=
  [.enqueueAt (.str "alarm") (.int 0) target none, .enqueue (.str "tick") (.int 0) target (some ()),
    .enqueueAt (.str "tick") (.int (-1)) target none, .enqueue (.str "tock") (.int 5) target none]

theorem rearmed_timer :
    ∃ (s₀ s t : State Unit Unit) (xs : List (Exchange Unit)),
      State.make .standard none () = .ok s₀ ∧
      askInTurn .timer 10 (Request.beforeAlarm (.handler "ada")) s₀ = .ok xs s ∧
      perform .timer 10 .main .dispatchAll s = .ok (.count 2) t ∧
      t.takenSoFar.map (·.seq) = [2, 1] ∧ t.removedSoFar.map (·.seq) = [0] ∧
      (t.acceptedSoFar.drop 4).map (·.1.due) = [1, 3] ∧
      ∀ m ∈ t.queue.pending, t.clock.now < m.due := by
  have hRun : ∃ (s₀ s : State Unit Unit) (xs : List (Exchange Unit)),
      State.make .standard none () = .ok s₀ ∧
      askInTurn .timer 10 (Request.beforeAlarm (.handler "ada")) s₀ = .ok xs s ∧
      s.session = none ∧ s.dueNow.length < 9 ∧ s.takenSoFar.length = 0 ∧
      (match perform .timer 10 .main .dispatchAll s with
      | .ok _ t => (t.takenSoFar.map (·.seq), t.removedSoFar.map (·.seq),
          (t.acceptedSoFar.drop 4).map (·.1.due))
      | _ => ([], [], [])) = ([2, 1], [0], [1, 3]) :=
    ⟨_, _, _, rfl, rfl, rfl, by decide +kernel, rfl, by decide +kernel⟩
  obtain ⟨s₀, s, xs, hMake, hSent, hSession, hBound, hNone, hEnd⟩ := hRun
  obtain ⟨taken, sent, dropped, t, hAnswer, -, -, hLater, -, -, hTaken, -⟩ :=
    rearmed hSession (World.rearms_timer .main s.clock.now s.fallback) hBound
  rw [hAnswer] at hEnd
  obtain ⟨hSeqs, hRest⟩ := Prod.mk.inj hEnd
  obtain ⟨hRemoved, hAccepted⟩ := Prod.mk.inj hRest
  have hCount : taken.length = 2 := by
    have hLength := congrArg List.length hSeqs
    rw [hTaken, List.length_eq_zero_iff.1 hNone, List.nil_append, List.length_map] at hLength
    exact hLength
  exact ⟨s₀, s, t, xs, hMake, hSent, hCount ▸ hAnswer, hSeqs, hRemoved, hAccepted, hLater⟩

end VirtualLooper
