import VirtualLooper.Proofs.Looper.Ledger

/-!
# Sending while messages are taken

Those who only queue messages and move the clock are told the same whatever messages are pending:
the due time of a message depends on the clock, its number on how many were accepted before, and its
receiver on whom the looper falls back on (`State.enqueue_congr`, `State.move_congr`).  So a state
and one with some messages taken out of its queue (`State.Aside`) answer such requests alike, and
stay like that.

`State.tell` makes requests one after the other while nobody else does anything.  That is what the
sends of a session are compared with.
-/

namespace VirtualLooper

variable {σ κ : Type}

/-- The request queues a message or moves the clock. -/
def Request.IsSend : Request κ → Prop
  | enqueue .. | enqueueAt .. | advance .. => True
  | _ => False

namespace State

theorem enqueue_eq (s : State σ κ) (tag delay : Value) (target : Option Target)
    (callback : Option κ) :
    s.enqueue tag delay target callback =
      (s.resolve target callback).bind fun _ =>
        (checkNonNegative .delay delay).bind fun n =>
          s.enqueueAt tag (.int (s.clock.now + n)) target callback := by
  rw [State.enqueue]
  cases hFound : s.resolve target callback with
  | error e => simp only [bind, Except.bind]
  | ok found =>
    cases hDelay : checkNonNegative .delay delay with
    | error e => simp only [Queue.enqueue, hDelay, bind, Except.bind]
    | ok n =>
      have hLater : Queue.later (.int s.clock.now) n = .ok (.int (s.clock.now + n)) := rfl
      simp only [Queue.enqueue, State.enqueueAt, hFound, hDelay, hLater, bind, Except.bind]

section Congruence

variable {s s' : State σ κ}

theorem resolve_congr (hFallback : s'.fallback = s.fallback) (target : Option Target)
    (callback : Option κ) : s'.resolve target callback = s.resolve target callback := by
  unfold resolve
  rw [hFallback]

/-- With the same clock and the same receiver to fall back on, a delayed send is refused on both
sides, or due at the same time. -/
theorem enqueue_congr (hFallback : s'.fallback = s.fallback) (hClock : s'.clock = s.clock)
    (tag delay : Value) (target : Option Target) (callback : Option κ) :
    (∃ e, s.enqueue tag delay target callback = .error e ∧
        s'.enqueue tag delay target callback = .error e) ∨
      ∃ due, s.enqueue tag delay target callback = s.enqueueAt tag due target callback ∧
        s'.enqueue tag delay target callback = s'.enqueueAt tag due target callback := by
  rw [enqueue_eq, enqueue_eq, resolve_congr hFallback, hClock]
  cases s.resolve target callback with
  | error e => exact Or.inl ⟨e, by simp only [Except.bind], by simp only [Except.bind]⟩
  | ok found =>
    cases checkNonNegative .delay delay with
    | error e => exact Or.inl ⟨e, by simp only [Except.bind], by simp only [Except.bind]⟩
    | ok n => exact Or.inr ⟨.int (s.clock.now + n), rfl, rfl⟩

theorem move_congr (hClock : s'.clock = s.clock) (strict : Bool) (thread thread' : Thread)
    (amount : Value) :
    ∃ clock log log', (s'.move strict thread' amount).1 = (s.move strict thread amount).1 ∧
      (s.move strict thread amount).2 = { s with clock, log } ∧
      (s'.move strict thread' amount).2 = { s' with clock, log := log' } := by
  unfold State.move advance
  rw [hClock]
  cases s.clock.advance amount with
  | error e =>
    refine ⟨s.clock, s.log, s'.log, rfl, rfl, ?_⟩
    rw [← hClock]
    rfl
  | ok clock =>
    simp only [Except.map, write]
    generalize (strict && !(Notice.moved (clock.now - s.clock.now) clock.now).isWritable) = fails
    cases fails with
    | true => exact ⟨clock, s.log, s'.log, rfl, rfl, rfl⟩
    | false => exact ⟨clock, _, _, rfl, rfl, rfl⟩

end Congruence

end State

/-! ### Sends for a receiver -/

/-- The handler that makes a request to its looper, if it is one that handlers make. -/
def Request.handler? : Request κ → Option Target
  | .enqueue _ _ target _ | .enqueueAt _ _ target _ | .has _ target | .remove _ target => target
  | _ => none

/-- What a sender makes of a message: all of it but its number. -/
structure Waiting (κ : Type) where
  due : Int
  tag : Value
  target : Option Target
  callback : Option κ

def Message.waiting (m : Message κ) : Waiting κ := ⟨m.due, m.tag, m.target, m.callback⟩

def Waiting.numbered (x : Waiting κ) (n : Nat) : Message κ :=
  ⟨x.due, n, x.tag, x.target, x.callback⟩

namespace State

def queued (s : State σ κ) (x : Waiting κ) : State σ κ :=
  s.accept (x.numbered s.queue.accepted) (s.queue.add (x.numbered s.queue.accepted) rfl)

/-- A send of a handler is refused whatever waits, or something is queued for it, with the next
number. -/
theorem respond_send (w : World σ κ) (clock : Clock) {B : Target} {r : Request κ} (hr : r.IsSend)
    (hTarget : r.handler? = some B) :
    (∃ e, ∀ s : State σ κ, s.clock = clock → s.respond w .main r = .reply (.error e) s) ∨
      ∃ x : Waiting κ, x.target = some B ∧ ∀ s : State σ κ, s.clock = clock →
        s.respond w .main r =
          .reply (.ok (.receipt (x.numbered s.queue.accepted).receipt)) (s.queued x) := by
  have hAt (tag due : Value) (callback : Option κ) :
      (∃ e, ∀ s : State σ κ, s.enqueueAt tag due (some B) callback = .error e) ∨
        ∃ x : Waiting κ, x.target = some B ∧ ∀ s : State σ κ,
          s.enqueueAt tag due (some B) callback =
            .ok ((x.numbered s.queue.accepted).receipt, s.queued x) := by
    cases due with
    | int n => exact Or.inr ⟨⟨n, tag, some B, callback⟩, rfl, fun s => rfl⟩
    | _ => exact Or.inl ⟨_, fun s => rfl⟩
  cases r with
  | enqueue tag delay target callback =>
    obtain rfl : target = some B := hTarget
    cases hDelay : checkNonNegative .delay delay with
    | error e =>
      refine Or.inl ⟨e, fun s _ => ?_⟩
      simp only [respond, enqueue_eq, hDelay, Except.bind, resolve, Option.or]
      rfl
    | ok n =>
      have hLater (s : State σ κ) (hClock : s.clock = clock) :
          s.enqueue tag delay (some B) callback =
            s.enqueueAt tag (.int (clock.now + n)) (some B) callback := by
        rw [enqueue_eq, hDelay, hClock]
        rfl
      rcases hAt tag (.int (clock.now + n)) callback with ⟨e, hRefused⟩ | ⟨x, hx, hAccepted⟩
      · refine Or.inl ⟨e, fun s hClock => ?_⟩
        rw [respond, hLater s hClock, hRefused]
        rfl
      · refine Or.inr ⟨x, hx, fun s hClock => ?_⟩
        rw [respond, hLater s hClock, hAccepted]
        rfl
  | enqueueAt tag due target callback =>
    obtain rfl : target = some B := hTarget
    rcases hAt tag due callback with ⟨e, hRefused⟩ | ⟨x, hx, hAccepted⟩
    · refine Or.inl ⟨e, fun s _ => ?_⟩
      rw [respond, hRefused]
      rfl
    · refine Or.inr ⟨x, hx, fun s _ => ?_⟩
      rw [respond, hAccepted]
      rfl
  | advance amount => cases hTarget
  | _ => exact hr.elim

/-! ### Messages taken in between -/

/-- The same clock, the same receiver to fall back on and the same messages, but for those that were
taken out of the queue. -/
structure Aside (taken : List (Message κ)) (s s' : State σ κ) : Prop where
  fallback : s'.fallback = s.fallback
  clock : s'.clock = s.clock
  accepted : s'.queue.accepted = s.queue.accepted
  perm : s.queue.pending.Perm (s'.queue.pending ++ taken)

namespace Aside

variable {taken : List (Message κ)} {s s' : State σ κ}

theorem refl (s : State σ κ) : Aside [] s s := ⟨rfl, rfl, rfl, by simp⟩

theorem accept (h : Aside taken s s') (m : Message κ) (hm : m.seq = s.queue.accepted)
    (hm' : m.seq = s'.queue.accepted) :
    Aside taken (s.accept m (s.queue.add m hm)) (s'.accept m (s'.queue.add m hm')) where
  fallback := h.fallback
  clock := h.clock
  accepted := congrArg (· + 1) h.accepted
  perm :=
    (s.queue.perm_pending_add m hm).trans
      ((h.perm.cons m).trans ((s'.queue.perm_pending_add m hm').append_right taken).symm)

/-- An absolute send is refused on both sides, or queues the same message. -/
theorem enqueueAt (h : Aside taken s s') (tag due : Value) (target : Option Target)
    (callback : Option κ) :
    (∃ e, s.enqueueAt tag due target callback = .error e ∧
        s'.enqueueAt tag due target callback = .error e) ∨
      ∃ (m : Message κ) (t t' : State σ κ),
        s.enqueueAt tag due target callback = .ok (m.receipt, t) ∧
        s'.enqueueAt tag due target callback = .ok (m.receipt, t') ∧ Aside taken t t' := by
  rw [State.enqueueAt, State.enqueueAt, resolve_congr h.fallback]
  cases s.resolve target callback with
  | error e => exact Or.inl ⟨e, rfl, rfl⟩
  | ok found =>
    cases due with
    | int n =>
      let m : Message κ := ⟨n, s.queue.accepted, tag, found, callback⟩
      have hm' : m.seq = s'.queue.accepted := h.accepted.symm
      refine Or.inr ⟨m, s.accept m (s.queue.add m rfl), s'.accept m (s'.queue.add m hm'), rfl, ?_,
        h.accept m rfl hm'⟩
      simp only [Queue.enqueueAt, h.accepted]
      rfl
    | _ => exact Or.inl ⟨_, rfl, rfl⟩

theorem enqueue (h : Aside taken s s') (tag delay : Value) (target : Option Target)
    (callback : Option κ) :
    (∃ e, s.enqueue tag delay target callback = .error e ∧
        s'.enqueue tag delay target callback = .error e) ∨
      ∃ (m : Message κ) (t t' : State σ κ),
        s.enqueue tag delay target callback = .ok (m.receipt, t) ∧
        s'.enqueue tag delay target callback = .ok (m.receipt, t') ∧ Aside taken t t' := by
  rcases enqueue_congr h.fallback h.clock tag delay target callback with hRefused | ⟨due, hs, hs'⟩
  · exact Or.inl hRefused
  · rw [hs, hs']
    exact h.enqueueAt tag due target callback

theorem move (h : Aside taken s s') (strict : Bool) (thread : Thread) (amount : Value) :
    (s'.move strict thread amount).1 = (s.move strict thread amount).1 ∧
      Aside taken (s.move strict thread amount).2 (s'.move strict thread amount).2 := by
  obtain ⟨clock, log, log', hResult, hs, hs'⟩ := move_congr h.clock strict thread thread amount
  rw [hs, hs']
  exact ⟨hResult, h.fallback, rfl, h.accepted, h.perm⟩

/-- **Sends and moves of the clock are answered alike on both sides.** -/
theorem respond (h : Aside taken s s') (w : World σ κ) (thread : Thread) {r : Request κ}
    (hr : r.IsSend) :
    ∃ (result : Except Failure Reply) (t t' : State σ κ),
      s.respond w thread r = .reply result t ∧ s'.respond w thread r = .reply result t' ∧
      Aside taken t t' := by
  cases r with
  | enqueue tag delay target callback =>
    rcases h.enqueue tag delay target callback with ⟨e, hs, hs'⟩ | ⟨m, t, t', hs, hs', hAside⟩
    · exact ⟨.error e, s, s', by rw [State.respond, hs]; rfl, by rw [State.respond, hs']; rfl, h⟩
    · exact ⟨.ok (.receipt m.receipt), t, t', by rw [State.respond, hs]; rfl,
        by rw [State.respond, hs']; rfl, hAside⟩
  | enqueueAt tag due target callback =>
    rcases h.enqueueAt tag due target callback with ⟨e, hs, hs'⟩ | ⟨m, t, t', hs, hs', hAside⟩
    · exact ⟨.error e, s, s', by rw [State.respond, hs]; rfl, by rw [State.respond, hs']; rfl, h⟩
    · exact ⟨.ok (.receipt m.receipt), t, t', by rw [State.respond, hs]; rfl,
        by rw [State.respond, hs']; rfl, hAside⟩
  | advance amount =>
    obtain ⟨hResult, hAside⟩ := h.move w.strictLog thread amount
    exact ⟨(s.move w.strictLog thread amount).1, _, _, rfl, by rw [State.respond, hResult], hAside⟩
  | _ => exact hr.elim

end Aside

/-! ### Sending alone -/

/-- Makes requests on the main thread while nobody else does anything: the answers, and the state
after them. -/
def tell (w : World σ κ) : List (Request κ) → State σ κ → List (Exchange κ) × State σ κ
  | [], s => ([], s)
  | r :: rs, s =>
    match s.respond w .main r with
    | .reply result s =>
      (⟨.main, r, result, s.clock.now⟩ :: (tell w rs s).1, (tell w rs s).2)
    | _ => tell w rs s

section Tell

variable {w : World σ κ}

theorem tell_concat {rs : List (Request κ)} {r : Request κ} {result : Except Failure Reply}
    {s t : State σ κ} (h : (tell w rs s).2.respond w .main r = .reply result t) :
    tell w (rs ++ [r]) s = ((tell w rs s).1 ++ [⟨.main, r, result, t.clock.now⟩], t) := by
  induction rs generalizing s with
  | nil =>
    have hReply : s.respond w .main r = .reply result t := h
    simp only [List.nil_append, tell, hReply]
  | cons r₀ rs ih =>
    cases hFirst : s.respond w .main r₀ with
    | reply result₀ s₀ =>
      simp only [tell, hFirst] at h
      simp only [List.cons_append, tell, hFirst, ih h]
    | _ =>
      simp only [tell, hFirst] at h
      simp only [List.cons_append, tell, hFirst, ih h]

/-- A send adds the message that its sender is told of, and nothing else adds one. -/
theorem spec_of_send {thread : Thread} {r : Request κ} (hr : r.IsSend)
    {result : Except Failure Reply} {s t : State σ κ}
    (h : s.respond w thread r = .reply result t) (time : Int) :
    (t.queue = s.queue ∧ (⟨thread, r, result, time⟩ : Exchange κ).sent? = none) ∨
      ∃ (m : Message κ) (hm : m.seq = s.queue.accepted), t.queue = s.queue.add m hm ∧
        (⟨thread, r, result, time⟩ : Exchange κ).sent? = some m.sent := by
  cases r with
  | enqueue tag delay target callback =>
    rcases Response.ofExcept_map h with ⟨e, -, rfl, rfl⟩ | ⟨receipt, hSent, rfl⟩
    · exact Or.inl ⟨rfl, rfl⟩
    · obtain ⟨m, hm, -, -, rfl, rfl, rfl, rfl⟩ := spec_of_enqueue hSent
      exact Or.inr ⟨m, hm, rfl, rfl⟩
  | enqueueAt tag due target callback =>
    rcases Response.ofExcept_map h with ⟨e, -, rfl, rfl⟩ | ⟨receipt, hSent, rfl⟩
    · exact Or.inl ⟨rfl, rfl⟩
    · obtain ⟨m, hm, -, -, rfl, rfl, rfl, rfl⟩ := spec_of_enqueueAt hSent
      exact Or.inr ⟨m, hm, rfl, rfl⟩
  | advance amount =>
    obtain ⟨-, rfl⟩ := Response.reply.inj h
    obtain ⟨n, log, -, hMove⟩ := s.spec_move w.strictLog thread amount
    rw [hMove]
    exact Or.inl ⟨rfl, rfl⟩
  | _ => exact hr.elim

/-- What is pending after sends was pending before, or its sender was told of it. -/
theorem pending_tell {rs : List (Request κ)} (hSend : ∀ r ∈ rs, r.IsSend) (s : State σ κ) :
    ∃ sent : List (Message κ), (tell w rs s).1.filterMap Exchange.sent? = sent.map Message.sent ∧
      (tell w rs s).2.queue.pending.Perm (s.queue.pending ++ sent) := by
  induction rs generalizing s with
  | nil => exact ⟨[], rfl, by simp [tell]⟩
  | cons r rs ih =>
    obtain ⟨result, t, -, hReply, -, -⟩ :=
      (Aside.refl s).respond w .main (hSend r List.mem_cons_self)
    obtain ⟨sent, hSent, hPerm⟩ := ih (fun r hr => hSend r (List.mem_cons_of_mem _ hr)) t
    simp only [tell, hReply]
    rcases spec_of_send (hSend r List.mem_cons_self) hReply t.clock.now with
      ⟨hQueue, hNone⟩ | ⟨m, hm, hQueue, hSome⟩
    · exact ⟨sent, by rw [List.filterMap_cons_none hNone, hSent], by rwa [← hQueue]⟩
    · refine ⟨m :: sent, by rw [List.filterMap_cons_some hSome, hSent, List.map_cons], ?_⟩
      rw [hQueue] at hPerm
      exact hPerm.trans (((s.queue.perm_pending_add m hm).append_right sent).trans
        List.perm_middle.symm)

end Tell

end State

end VirtualLooper
