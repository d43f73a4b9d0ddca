import VirtualLooper.Proofs.Looper.Bound
import VirtualLooper.Proofs.Looper.Resumption

/-!
# Dispatching all is dispatching one at a time

A loop of single dispatches (`dispatchEach`) ends a dispatch after each message, where one dispatch of
all goes on.  Between two messages the loopers differ by what the history says of the ends of
dispatches, and by nothing else (`State.Abreast`).  Handlers that begin no session do not see that,
and so leave two such loopers abreast again (`covers_perform`).  A loop of single dispatches is itself
a drain, whose deliveries end a dispatch each (`dispatchEach_eq`), so that the two are compared as
drains are (`covers_each`, `covers_all`).
-/

namespace VirtualLooper

open Outcome

variable {σ κ : Type}

/-! ### Dispatching one at a time -/

/-- Dispatches the next message until there is none that is due, and counts. -/
def dispatchEach (w : World σ κ) (bound : Nat) (thread : Thread) :
    (tries : Nat) → State σ κ → Outcome (State σ κ) Nat
  | 0, _ => .unfinished
  | tries + 1, s =>
    (perform w bound thread .dispatchNext s).bind fun reply s =>
      match reply with
      | .flag true => (dispatchEach w bound thread tries s).map (· + 1)
      | _ => .ok 0 s

/-- Does the occurrence say more than that a dispatch is over? -/
def Occurrence.isDeed : Occurrence κ → Bool
  | returned _ | aborted => false
  | _ => true

def deliverSingly (w : World σ κ) (bound : Nat) (thread : Thread) (m : Message κ)
    (s : State σ κ) : Outcome (State σ κ) Unit :=
  (State.closeDispatch ((w.deliver (perform w bound thread) thread m s.enter).map fun _ => 1)).map
    fun _ => ()

/-! ### Loopers that differ by the ends of dispatches -/

namespace State

/-- Nothing differs but which dispatches are over.  No session is going on, and loops are so deep. -/
structure Abreast (depth : Nat) (s s' : State σ κ) : Prop where
  idle : s.session = none
  depth_eq : s.depth = depth
  same : s' = { s with history := s'.history }
  deeds : s'.history.filter Occurrence.isDeed = s.history.filter Occurrence.isDeed

namespace Abreast

variable {w : World σ κ} {thread : Thread} {depth : Nat} {s s' t : State σ κ}

theorem refl (hIdle : s.session = none) : Abreast s.depth s s := ⟨hIdle, rfl, rfl, rfl⟩

theorem exists_history (h : Abreast depth s s') : ∃ history, s' = { s with history } ∧
    history.filter Occurrence.isDeed = s.history.filter Occurrence.isDeed :=
  ⟨s'.history, h.same, h.deeds⟩

theorem idle' (h : Abreast depth s s') : s'.session = none := by
  rw [h.same]
  exact h.idle

theorem depth_eq' (h : Abreast depth s s') : s'.depth = depth := by
  rw [h.same]
  exact h.depth_eq

theorem symm (h : Abreast depth s s') : Abreast depth s' s := by
  obtain ⟨history, rfl, hSame⟩ := h.exists_history
  exact ⟨h.idle, h.depth_eq, rfl, hSame.symm⟩

theorem deeds_append {before before' : List (Occurrence κ)}
    (h : before'.filter Occurrence.isDeed = before.filter Occurrence.isDeed)
    (os : List (Occurrence κ)) :
    (before' ++ os).filter Occurrence.isDeed = (before ++ os).filter Occurrence.isDeed := by
  rw [List.filter_append, List.filter_append, h]

theorem recordHistory (h : Abreast depth s s') (o : Occurrence κ) :
    Abreast depth (s.recordHistory o) (s'.recordHistory o) := by
  obtain ⟨history, rfl, hSame⟩ := h.exists_history
  exact ⟨h.idle, h.depth_eq, rfl, deeds_append hSame [o]⟩

theorem closed (h : Abreast depth s s') {o : Occurrence κ} (ho : o.isDeed = false) :
    Abreast depth s (s'.recordHistory o) := by
  obtain ⟨history, rfl, hSame⟩ := h.exists_history
  refine ⟨h.idle, h.depth_eq, rfl, ?_⟩
  show (history ++ [o]).filter Occurrence.isDeed = _
  rw [List.filter_append, hSame, List.filter_cons_of_neg (by simp [ho]), List.filter_nil,
    List.append_nil]

theorem enter (h : Abreast depth s s') : Abreast (depth + 1) s.enter s'.enter := by
  obtain ⟨history, rfl, hSame⟩ := h.exists_history
  exact ⟨h.idle, congrArg (· + 1) h.depth_eq, rfl, hSame⟩

theorem leave (h : Abreast (depth + 1) s s') : Abreast depth s.leave s'.leave := by
  obtain ⟨history, rfl, hSame⟩ := h.exists_history
  exact ⟨h.idle, congrArg (· - 1) h.depth_eq, rfl, hSame⟩

theorem enter_leave (h : Abreast (depth + 1) s s') : s'.leave.enter = s' := by
  have hBack : s'.depth - 1 + 1 = s'.depth := by
    rw [h.depth_eq']
    rfl
  simp only [State.enter, State.leave, hBack]

theorem unseen (thread : Thread) : Unseen thread (Abreast depth : State σ κ → State σ κ → Prop) where
  memory h := by rw [h.same]
  store h memory := by
    obtain ⟨history, rfl, hSame⟩ := h.exists_history
    exact ⟨h.idle, h.depth_eq, rfl, hSame⟩
  sight h := by
    obtain ⟨history, rfl, hSame⟩ := h.exists_history
    rfl

theorem note (h : Abreast depth s s') (n : Notice) :
    Abreast depth (s.note thread n) (s'.note thread n) := by
  obtain ⟨history, rfl, hSame⟩ := h.exists_history
  exact ⟨h.idle, h.depth_eq, rfl, hSame⟩

theorem take (h : Abreast depth s s') (thread : Thread) :
    s.take? thread = none ∧ s'.take? thread = none ∨
      ∃ m t t', s.take? thread = some (m, t) ∧ s'.take? thread = some (m, t') ∧
        Abreast depth t t' := by
  obtain ⟨history, rfl, hSame⟩ := h.exists_history
  simp only [State.take?]
  cases s.queue.popAt? s.clock.now with
  | none => exact Or.inl ⟨rfl, rfl⟩
  | some popped =>
    exact Or.inr ⟨popped.1, _, _, rfl, rfl, h.idle, h.depth_eq, rfl, deeds_append hSame [_]⟩

theorem atCall (h : Abreast depth s s') (w : World σ κ) (thread : Thread) (call : Call κ) :
    Abreast depth (w.atCall thread call s) (w.atCall thread call s') := by
  cases call with
  | callback c => exact h
  | receiver target tag =>
    rw [World.atCall, World.atCall]
    split
    · obtain ⟨history, rfl, hSame⟩ := h.exists_history
      exact ⟨h.idle, h.depth_eq, rfl, hSame⟩
    · exact h

theorem atDelivery (h : Abreast depth s s') (w : World σ κ) (thread : Thread) (m : Message κ) :
    Abreast depth (w.atDelivery thread m s) (w.atDelivery thread m s') := by
  have hCalled (call? : Option (Call κ)) := h.recordHistory (.called m call? thread)
  rw [World.atDelivery, World.atDelivery]
  cases m.call? with
  | some call => exact (hCalled (some call)).atCall w thread call
  | none => exact hCalled none

theorem enqueueAt (h : Abreast depth s s') (tag due : Value) (target : Option Target)
    (callback : Option κ) :
    (∃ e, s.enqueueAt tag due target callback = .error e ∧
        s'.enqueueAt tag due target callback = .error e) ∨
      ∃ (receipt : Receipt) (t t' : State σ κ),
        s.enqueueAt tag due target callback = .ok (receipt, t) ∧
        s'.enqueueAt tag due target callback = .ok (receipt, t') ∧ Abreast depth t t' := by
  obtain ⟨history, rfl, hSame⟩ := h.exists_history
  have hResolve : State.resolve { s with history } target callback = s.resolve target callback := rfl
  rw [State.enqueueAt, State.enqueueAt, hResolve]
  cases s.resolve target callback with
  | error e => exact Or.inl ⟨e, rfl, rfl⟩
  | ok found =>
    cases hQueued : s.queue.enqueueAt tag due found callback with
    | error e =>
      simp only [Bind.bind, Except.bind, hQueued]
      exact Or.inl ⟨e, rfl, rfl⟩
    | ok queued =>
      simp only [Bind.bind, Except.bind, hQueued]
      exact Or.inr ⟨_, _, _, rfl, rfl, h.idle, h.depth_eq, rfl, deeds_append hSame [_]⟩

theorem enqueue (h : Abreast depth s s') (tag delay : Value) (target : Option Target)
    (callback : Option κ) :
    (∃ e, s.enqueue tag delay target callback = .error e ∧
        s'.enqueue tag delay target callback = .error e) ∨
      ∃ (receipt : Receipt) (t t' : State σ κ),
        s.enqueue tag delay target callback = .ok (receipt, t) ∧
        s'.enqueue tag delay target callback = .ok (receipt, t') ∧ Abreast depth t t' := by
  have hSame : s'.fallback = s.fallback ∧ s'.clock = s.clock := by
    rw [h.same]
    exact ⟨rfl, rfl⟩
  rcases enqueue_congr hSame.1 hSame.2 tag delay target callback with hRefused | ⟨due, hs, hs'⟩
  · exact Or.inl hRefused
  · rw [hs, hs']
    exact h.enqueueAt tag due target callback

theorem move (h : Abreast depth s s') (strict : Bool) (thread : Thread) (amount : Value) :
    (s'.move strict thread amount).1 = (s.move strict thread amount).1 ∧
      Abreast depth (s.move strict thread amount).2 (s'.move strict thread amount).2 := by
  obtain ⟨history, rfl, hSame⟩ := h.exists_history
  have hMove : State.move { s with history } strict thread amount =
      ((s.move strict thread amount).1, { (s.move strict thread amount).2 with history }) := by
    simp only [State.move, State.advance]
    cases s.clock.advance amount with
    | error e => rfl
    | ok clock =>
      simp only [Except.map, State.write]
      generalize (strict && !(Notice.moved (clock.now - s.clock.now) clock.now).isWritable) = fails
      cases fails <;> rfl
  obtain ⟨n, log, -, hAlone⟩ := s.spec_move strict thread amount
  rw [hMove, hAlone]
  exact ⟨rfl, h.idle, h.depth_eq, rfl, hSame⟩

/-- What is answered at once is answered the same.  Dispatches and calls take time. -/
theorem respond (h : Abreast depth s s') (w : World σ κ) (thread : Thread) (r : Request κ) :
    (∃ (result : Except Failure Reply) (t t' : State σ κ),
      s.respond w thread r = .reply result t ∧ s'.respond w thread r = .reply result t' ∧
      Abreast depth t t') ∨
    r = .start ∨ r = .dispatchAll ∨ r = .dispatchNext ∨ ∃ target tag, r = .handle target tag := by
  cases r with
  | enqueue tag delay target callback =>
    left
    rcases h.enqueue tag delay target callback with
      ⟨e, hs, hs'⟩ | ⟨receipt, t, t', hs, hs', hAbreast⟩
    · exact ⟨.error e, s, s', by rw [State.respond, hs]; rfl, by rw [State.respond, hs']; rfl, h⟩
    · exact ⟨.ok (.receipt receipt), t, t', by rw [State.respond, hs]; rfl,
        by rw [State.respond, hs']; rfl, hAbreast⟩
  | enqueueAt tag due target callback =>
    left
    rcases h.enqueueAt tag due target callback with
      ⟨e, hs, hs'⟩ | ⟨receipt, t, t', hs, hs', hAbreast⟩
    · exact ⟨.error e, s, s', by rw [State.respond, hs]; rfl, by rw [State.respond, hs']; rfl, h⟩
    · exact ⟨.ok (.receipt receipt), t, t', by rw [State.respond, hs]; rfl,
        by rw [State.respond, hs']; rfl, hAbreast⟩
  | has tag target =>
    obtain ⟨history, rfl, hSame⟩ := h.exists_history
    exact Or.inl ⟨_, _, _, rfl, rfl, h⟩
  | remove tag target =>
    obtain ⟨history, rfl, hSame⟩ := h.exists_history
    exact Or.inl ⟨_, _, _, rfl, rfl, h.idle, h.depth_eq, rfl, deeds_append hSame [_]⟩
  | advance amount =>
    obtain ⟨hResult, hAbreast⟩ := h.move w.strictLog thread amount
    exact Or.inl ⟨_, _, _, rfl, by rw [State.respond, hResult], hAbreast⟩
  | start => exact Or.inr (Or.inl rfl)
  | dispatchAll => exact Or.inr (Or.inr (Or.inl rfl))
  | dispatchNext => exact Or.inr (Or.inr (Or.inr (Or.inl rfl)))
  | stop =>
    exact Or.inl ⟨.error .notRunning, s, s', by rw [State.respond, h.idle],
      by rw [State.respond, h.idle'], h⟩
  | handle target tag => exact Or.inr (Or.inr (Or.inr (Or.inr ⟨target, tag, rfl⟩)))
  | records target used =>
    obtain ⟨history, rfl, hSame⟩ := h.exists_history
    simp only [State.respond]
    split
    · exact Or.inl ⟨_, _, _, rfl, rfl, h⟩
    · exact Or.inl ⟨_, _, _, rfl, rfl, h⟩
  | reset target =>
    obtain ⟨history, rfl, hSame⟩ := h.exists_history
    simp only [State.respond]
    split
    · exact Or.inl ⟨_, _, _, rfl, rfl, h.idle, h.depth_eq, rfl, deeds_append hSame [_]⟩
    · exact Or.inl ⟨_, _, _, rfl, rfl, h⟩

end Abreast

end State

/-! ### Handlers do not see the difference -/

section Handlers

variable {w : World σ κ} {thread : Thread} {depth : Nat} {s s' : State σ κ}

/-- A dispatch while no session is going on delivers the next message, if it is due. -/
theorem perform_dispatchNext (hIdle : s.session = none) (w : World σ κ) (bound : Nat)
    (thread : Thread) :
    perform w (bound + 1) thread .dispatchNext s =
      match s.take? thread with
      | none => .ok (.flag false) s
      | some (m, t) => (State.closeDispatch
          ((w.deliver (perform w bound thread) thread m t.enter).map fun _ => 1)).map
            fun _ => .flag true := by
  have hRunning : s.running = false := by
    rw [State.running, hIdle]
    rfl
  cases hTake : s.take? thread <;>
    simp only [perform, State.respond, hRunning, Bool.false_eq_true, if_false, hTake]

theorem covers_closeDispatch {o o' : Outcome (State σ κ) Nat}
    (h : Covers (State.Abreast (depth + 1)) o o') :
    Covers (State.Abreast depth) (State.closeDispatch o) (State.closeDispatch o') := by
  refine h.attempt fun result t t' hAbreast => ?_
  cases result with
  | ok n => exact .ok n (hAbreast.leave.recordHistory _)
  | error e => exact .failed e (hAbreast.leave.recordHistory _)

theorem covers_deliver_of_requests (hAsks : w.Asks (· ≠ .start))
    {perform perform' : Request κ → State σ κ → Outcome (State σ κ) Reply}
    (hPerform : ∀ r, r ≠ .start → ∀ s s', State.Abreast depth s s' →
      Covers (State.Abreast depth) (perform r s) (perform' r s'))
    (m : Message κ) (s s' : State σ κ) (h : State.Abreast depth s s') :
    Covers (State.Abreast depth) (w.deliver perform thread m s)
      (w.deliver perform' thread m s') :=
  .run (State.Abreast.unseen thread) hPerform (hAsks.delivery m) (h.atDelivery w thread m)

/-- **Handlers that begin no session do the same on two loopers that are abreast**, and leave them
abreast. -/
theorem covers_perform (hAsks : w.Asks (· ≠ .start)) {bound bound' : Nat} (hBound : bound ≤ bound')
    (thread : Thread) {r : Request κ} (hr : r ≠ .start) (h : State.Abreast depth s s') :
    Covers (State.Abreast depth) (perform w bound thread r s) (perform w bound' thread r s') := by
  induction bound generalizing bound' r depth s s' with
  | zero => exact .unfinished _
  | succ bound ih =>
    obtain ⟨bound', rfl⟩ : ∃ k, bound' = k + 1 := ⟨bound' - 1, by omega⟩
    have hLess : bound ≤ bound' := by omega
    have hPerform (depth : Nat) (r : Request κ) (hr : r ≠ .start) (s s' : State σ κ)
        (h : State.Abreast depth s s') : Covers (State.Abreast depth)
          (perform w bound thread r s) (perform w bound' thread r s') := ih hLess hr h
    have hDeliver (depth : Nat) (m : Message κ) (s s' : State σ κ)
        (h : State.Abreast depth s s') : Covers (State.Abreast depth)
          (w.deliver (perform w bound thread) thread m s)
          (w.deliver (perform w bound' thread) thread m s') :=
      covers_deliver_of_requests hAsks (hPerform depth) m s s' h
    rcases h.respond w thread r with
      ⟨result, t, t', hReply, hReply', hAbreast⟩ | rfl | rfl | rfl | ⟨target, tag, rfl⟩
    · rw [perform_of_reply hReply, perform_of_reply hReply']
      exact .ofResult result hAbreast
    · exact absurd rfl hr
    · rw [perform_dispatchAll h.idle, perform_dispatchAll h.idle']
      have hDrain : Covers (State.Abreast (depth + 1))
          (drainWith thread id (w.deliver (perform w bound thread) thread) bound s.enter)
          (drainWith thread id (w.deliver (perform w bound' thread) thread) bound' s'.enter) :=
        .drain (fun s s' h => h.take thread) (hDeliver (depth + 1)) hLess h.enter
      exact (covers_closeDispatch hDrain).bind fun n t t' hAbreast => .ok _ (hAbreast.note _)
    · rw [perform_dispatchNext h.idle, perform_dispatchNext h.idle']
      rcases h.take thread with ⟨hNone, hNone'⟩ | ⟨m, t, t', hTake, hTake', hAbreast⟩
      · rw [hNone, hNone']
        exact .ok _ h
      · rw [hTake, hTake']
        exact (covers_closeDispatch ((hDeliver (depth + 1) m _ _ hAbreast.enter).map _)).map _
    · have hCall := (h.recordHistory (.handed target tag s.clock.now)).atCall w thread
        (.receiver target tag)
      have hNow : s'.clock.now = s.clock.now := by rw [h.same]
      simp only [perform, State.respond, hNow]
      exact (Covers.run (State.Abreast.unseen thread) (hPerform depth) (hAsks.program _) hCall).map _

theorem covers_deliver (hAsks : w.Asks (· ≠ .start)) {bound bound' : Nat} (hBound : bound ≤ bound')
    (thread : Thread) (m : Message κ) (h : State.Abreast depth s s') :
    Covers (State.Abreast depth) (w.deliver (perform w bound thread) thread m s)
      (w.deliver (perform w bound' thread) thread m s') := by
  have hPerform (r : Request κ) (hr : r ≠ .start) (s s' : State σ κ)
      (h : State.Abreast depth s s') := covers_perform hAsks hBound thread hr h
  exact covers_deliver_of_requests hAsks hPerform m s s' h

end Handlers

/-! ### One drain for the other -/

section Drains

variable {w : World σ κ} {thread : Thread} {depth : Nat} {s s' : State σ κ}

/-- One of them is in a loop, of which the other one knows nothing. -/
def State.Beside (depth : Nat) (s s' : State σ κ) : Prop := State.Abreast (depth + 1) s s'.enter

/-- A delivery is over, and with it, on one of the two, the dispatch. -/
theorem covers_singly {o o' : Outcome (State σ κ) Unit}
    (h : Covers (State.Abreast (depth + 1)) o o') :
    Covers (State.Beside depth) o ((State.closeDispatch (o'.map fun _ => 1)).map fun _ => ()) ∧
      Covers (fun s s' => State.Beside depth s' s)
        ((State.closeDispatch (o.map fun _ => 1)).map fun _ => ()) o' := by
  have hOver {u u' : State σ κ} (h : State.Abreast (depth + 1) u u') {e : Occurrence κ}
      (he : e.isDeed = false) : State.Beside depth u (u'.leave.recordHistory e) := by
    show State.Abreast (depth + 1) u (u'.leave.enter.recordHistory e)
    rw [h.enter_leave]
    exact h.closed he
  cases h with
  | ok a h => exact ⟨.ok () (hOver h rfl), .ok () (hOver h.symm rfl)⟩
  | failed e h => exact ⟨.failed e (hOver h rfl), .failed e (hOver h.symm rfl)⟩
  | deadlock => exact ⟨.deadlock, .deadlock⟩
  | unfinished o => exact ⟨.unfinished _, .unfinished _⟩

theorem State.Beside.take (h : State.Beside depth s s') (thread : Thread) :
    s.take? thread = none ∧ s'.take? thread = none ∨
      ∃ m t t', s.take? thread = some (m, t) ∧ s'.take? thread = some (m, t') ∧
        State.Beside depth t t' := by
  rcases State.Abreast.take h thread with ⟨hNone, hNone'⟩ | ⟨m, t, u, hTake, hTake', hAbreast⟩
  · rw [State.take?_enter, Option.map_eq_none_iff] at hNone'
    exact Or.inl ⟨hNone, hNone'⟩
  · rw [State.take?_enter, Option.map_eq_some_iff] at hTake'
    obtain ⟨⟨m', t'⟩, hTaken, hSame⟩ := hTake'
    obtain ⟨rfl, rfl⟩ := Prod.mk.inj hSame
    exact Or.inr ⟨m', t, t', hTake, hTaken, hAbreast⟩

theorem covers_each (hAsks : w.Asks (· ≠ .start)) {bound bound' most most' : Nat}
    (hBound : bound ≤ bound') (hMost : most ≤ most') (h : State.Beside depth s s') :
    Covers (State.Beside depth)
      (drainWith thread id (w.deliver (perform w bound thread) thread) most s)
      (drainWith thread id (deliverSingly w bound' thread) most' s') :=
  .drain (fun _ _ h => State.Beside.take h thread)
    (fun m _ _ h => (covers_singly (covers_deliver hAsks hBound thread m h)).1) hMost h

theorem covers_all (hAsks : w.Asks (· ≠ .start)) {bound bound' most most' : Nat}
    (hBound : bound ≤ bound') (hMost : most ≤ most') (h : State.Beside depth s' s) :
    Covers (fun s s' => State.Beside depth s' s)
      (drainWith thread id (deliverSingly w bound thread) most s)
      (drainWith thread id (w.deliver (perform w bound' thread) thread) most' s') := by
  refine .drain (fun s s' h => ?_)
    (fun m s s' h => (covers_singly (covers_deliver hAsks hBound thread m h.symm)).2) hMost h
  rcases State.Beside.take h thread with ⟨hNone', hNone⟩ | ⟨m, t', t, hTake', hTake, hTaken⟩
  · exact Or.inl ⟨hNone, hNone'⟩
  · exact Or.inr ⟨m, t, t', hTake, hTake', hTaken⟩

/-- **A loop of single dispatches is a drain** whose deliveries end a dispatch each. -/
theorem dispatchEach_eq (hAsks : w.Asks (· ≠ .start)) (hIdle : s.session = none)
    (bound : Nat) (thread : Thread) (tries : Nat) :
    dispatchEach w (bound + 1) thread tries s =
      drainWith thread id (deliverSingly w bound thread) tries s := by
  induction tries generalizing s with
  | zero => rfl
  | succ tries ih =>
    rw [dispatchEach, drainWith, perform_dispatchNext hIdle]
    rcases (State.Abreast.refl hIdle).take thread with ⟨hNone, -⟩ | ⟨m, t, t', hTake, -, hTaken⟩
    · rw [hNone]
      rfl
    · have hDelivered := covers_deliver hAsks (Nat.le_refl bound) thread m
        (State.Abreast.refl (s := t.enter) hTaken.idle)
      rw [hTake]
      simp only [id, deliverSingly]
      cases hDeliver : w.deliver (perform w bound thread) thread m t.enter with
      | ok v u =>
        have hEnd : w.deliver (perform w bound thread) thread m t.enter = .ofResult (.ok v) u :=
          hDeliver
        obtain ⟨u', -, hOn⟩ := hDelivered.exists_end hEnd
        exact congrArg (Outcome.map (· + 1)) (ih (s := u.leave.recordHistory (.returned 1)) hOn.idle)
      | failed e u => rfl
      | deadlock => rfl
      | unfinished => rfl

/-- A larger bound never changes a loop of single dispatches that is finished. -/
theorem dispatchEach_le (w : World σ κ) {bound bound' tries tries' : Nat} (hBound : bound ≤ bound')
    (hTries : tries ≤ tries') (thread : Thread) (s : State σ κ) :
    Covers Eq (dispatchEach w bound thread tries s) (dispatchEach w bound' thread tries' s) := by
  induction tries generalizing tries' s with
  | zero => exact .unfinished _
  | succ tries ih =>
    obtain ⟨tries', rfl⟩ : ∃ k, tries' = k + 1 := ⟨tries' - 1, by omega⟩
    refine (perform_le w hBound thread .dispatchNext s).bind fun reply t t' h => ?_
    subst h
    cases reply with
    | flag delivered =>
      cases delivered with
      | true => exact (ih (by omega) t).map _
      | false => exact .ok 0 rfl
    | _ => exact .ok 0 rfl

end Drains

/-! ### The two are the same -/

/-- How a looper is left by a dispatch of all, and by single dispatches: nothing differs but which
dispatches are over, and that the dispatch of all is in the log unless it has failed. -/
structure SameEnd (thread : Thread) (result : Except Failure Nat) (t t' : State σ κ) : Prop where
  same : t' = { t with log := t'.log, history := t'.history }
  deeds : t'.history.filter Occurrence.isDeed = t.history.filter Occurrence.isDeed
  log : t.log = t'.log ++
    match result with
    | .ok n => [(thread, .delivered n)]
    | .error _ => []

theorem exists_of_attempt {S α β : Type} {o : Outcome S α}
    {f : Except Failure α → Except Failure β} {g : Except Failure α → S → S}
    {reply : Except Failure β} {t : S}
    (h : (o.attempt fun result u => .ofResult (f result) (g result u)) = .ofResult reply t) :
    ∃ result u, o = .ofResult result u ∧ reply = f result ∧ t = g result u := by
  cases o with
  | ok a u =>
    obtain ⟨hReply, hEnd⟩ := ofResult_inj.1 h
    exact ⟨.ok a, u, rfl, hReply.symm, hEnd.symm⟩
  | failed e u =>
    obtain ⟨hReply, hEnd⟩ := ofResult_inj.1 h
    exact ⟨.error e, u, rfl, hReply.symm, hEnd.symm⟩
  | deadlock => cases reply <;> cases h
  | unfinished => cases reply <;> cases h

section Ends

variable {w : World σ κ} {thread : Thread} {s u u' : State σ κ} {depth : Nat}

/-- The looper as a dispatch of all leaves it, if its drain has left it like this. -/
def State.closeAll (u : State σ κ) (thread : Thread) : Except Failure Nat → State σ κ
  | .ok n => (u.leave.recordHistory (.returned n)).note thread (.delivered n)
  | .error _ => u.leave.recordHistory .aborted

theorem perform_dispatchAll_eq (hIdle : s.session = none) (w : World σ κ) (bound : Nat)
    (thread : Thread) :
    perform w (bound + 1) thread .dispatchAll s =
      (drainWith thread id (w.deliver (perform w bound thread) thread) bound s.enter).attempt
        fun result u => .ofResult (result.map .count) (u.closeAll thread result) := by
  rw [perform_dispatchAll hIdle]
  cases drainWith thread id (w.deliver (perform w bound thread) thread) bound s.enter <;> rfl

theorem sameEnd_of_beside (h : State.Beside depth u u') (result : Except Failure Nat) :
    SameEnd thread result (u.closeAll thread result) u' := by
  obtain ⟨history, hEnter, hSame⟩ := State.Abreast.exists_history h
  obtain rfl : u' = { u.leave with history } := congrArg State.leave hEnter
  cases result with
  | ok n =>
    refine ⟨rfl, ?_, rfl⟩
    show _ = (u.history ++ [Occurrence.returned n]).filter Occurrence.isDeed
    rw [List.filter_append]
    exact hSame.trans (List.append_nil _).symm
  | error e =>
    refine ⟨rfl, ?_, (List.append_nil _).symm⟩
    show _ = (u.history ++ [Occurrence.aborted]).filter Occurrence.isDeed
    rw [List.filter_append]
    exact hSame.trans (List.append_nil _).symm

/-- **Dispatching all is dispatching one at a time until nothing is left.** -/
theorem dispatchAll_each (hAsks : w.Asks (· ≠ .start)) (hIdle : s.session = none)
    (thread : Thread) :
    (∀ reply t, Finishes (fun bound => perform w bound thread .dispatchAll s) reply t →
      ∃ result t', reply = result.map .count ∧
        Finishes (fun bound => dispatchEach w bound thread bound s) result t' ∧
        SameEnd thread result t t') ∧
    ∀ result t', Finishes (fun bound => dispatchEach w bound thread bound s) result t' →
      ∃ t, Finishes (fun bound => perform w bound thread .dispatchAll s) (result.map .count) t ∧
        SameEnd thread result t t' := by
  have hBeside : State.Beside s.depth s.enter s := (State.Abreast.refl hIdle).enter
  constructor
  · rintro reply t ⟨least, hAll⟩
    have hEnds := hAll (least + 1) (Nat.le_succ least)
    simp only [perform_dispatchAll_eq hIdle] at hEnds
    obtain ⟨result, u, hDrain, rfl, rfl⟩ := exists_of_attempt hEnds
    obtain ⟨u', hEach, hEnd⟩ :=
      (covers_each hAsks (Nat.le_refl least) (Nat.le_succ least) hBeside).exists_end hDrain
    rw [← dispatchEach_eq hAsks hIdle] at hEach
    refine ⟨result, u', rfl, ?_, sameEnd_of_beside hEnd result⟩
    exact finishes_of_le (fun hBound => dispatchEach_le w hBound hBound thread s) hEach
  · rintro result t' ⟨least, hEach⟩
    have hDrain := hEach (least + 1) (Nat.le_succ least)
    simp only [dispatchEach_eq hAsks hIdle] at hDrain
    obtain ⟨u, hAll, hEnd⟩ :=
      (covers_all hAsks (Nat.le_succ least) (Nat.le_refl (least + 1)) hBeside).exists_end hDrain
    have hEnds : perform w (least + 2) thread .dispatchAll s =
        .ofResult (result.map .count) (u.closeAll thread result) := by
      rw [perform_dispatchAll_eq hIdle, hAll, attempt_ofResult]
    refine ⟨u.closeAll thread result, ?_, sameEnd_of_beside hEnd result⟩
    exact finishes_of_le (fun hBound => perform_le w hBound thread .dispatchAll s) hEnds

end Ends

/-! ### A small run -/

/-- A callback sends the one before it, dispatches the next message, and sends the first; the first
does nothing. -/
def World.diving : World Unit Nat where
  receive _ _ := .done ()
  invoke n :=
    if n = 0 then .done ()
    else
      .ask (.enqueue .none (.int 0) none (some (n - 1))) fun _ =>
        .ask .dispatchNext fun _ => .ask (.enqueue .none (.int 0) none (some 0)) fun _ => .done ()
  records _ := false

/-- Five messages are delivered, two of them by dispatches inside.  Single dispatches deliver the
other three as a dispatch of all does. -/
theorem dispatchEach_diving :
    ∃ (s₀ s t t' : State Unit Nat) (receipt : Reply),
      State.make .standard none () = .ok s₀ ∧
      perform World.diving 1 .main (.enqueue .none (.int 0) none (some 2)) s₀ = .ok receipt s ∧
      perform World.diving 7 .main .dispatchAll s = .ok (.count 3) t ∧
      dispatchEach World.diving 7 .main 7 s = .ok 3 t' ∧
      t.takenSoFar.map (·.seq) = [0, 1, 2, 3, 4] ∧ SameEnd .main (.ok 3) t t' := by
  have hRun : ∃ (s₀ s t t' : State Unit Nat) (receipt : Reply),
      State.make .standard none () = .ok s₀ ∧
      perform World.diving 1 .main (.enqueue .none (.int 0) none (some 2)) s₀ = .ok receipt s ∧
      perform World.diving 7 .main .dispatchAll s = .ok (.count 3) t ∧
      dispatchEach World.diving 7 .main 7 s = .ok 3 t' ∧
      t.takenSoFar.map (·.seq) = [0, 1, 2, 3, 4] ∧ s.session = none :=
    ⟨_, _, _, _, _, rfl, rfl, rfl, rfl, rfl, rfl⟩
  obtain ⟨s₀, s, t, t', receipt, hMake, hQueue, hAll, hEach, hSeqs, hIdle⟩ := hRun
  have hAsks : World.diving.Asks (· ≠ .start) := by
    refine ⟨fun target tag => trivial, fun n => ?_⟩
    show Program.Asks _ (if n = 0 then _ else _)
    split
    · exact trivial
    · exact ⟨by simp, fun _ => ⟨by simp, fun _ => ⟨by simp, fun _ => trivial⟩⟩⟩
  have hEnds : Finishes (fun bound => perform World.diving bound .main .dispatchAll s)
      (.ok (.count 3)) t := finishes_of_le (fun hBound => perform_le _ hBound _ _ s) hAll
  have hEnds' : Finishes (fun bound => dispatchEach World.diving bound .main bound s) (.ok 3) t' :=
    finishes_of_le (fun hBound => dispatchEach_le _ hBound hBound _ s) hEach
  obtain ⟨result, u, -, hSame, hEnd⟩ := (dispatchAll_each hAsks hIdle .main).1 _ t hEnds
  obtain ⟨rfl, rfl⟩ := hSame.unique hEnds'
  exact ⟨s₀, s, t, u, receipt, hMake, hQueue, hAll, hEach, hSeqs, hEnd⟩

end VirtualLooper
