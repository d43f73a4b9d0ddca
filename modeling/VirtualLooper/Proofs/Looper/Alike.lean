import VirtualLooper.Proofs.Looper.Sending
import VirtualLooper.Proofs.Looper.Shift

/-!
# Loopers that differ by their threads only

Two loopers are alike if they hold the same messages at the same time, and the same has happened to
messages on both, whatever the threads (`State.Alike`).  Whoever queues, looks for or drops
messages, or moves the clock, is answered alike on both (`State.Alike.respond`).  So a handler that
does nothing else, and does not look on which thread it runs or whether a session is going on,
leaves two loopers alike that were alike before (`State.Alike.exists_deliver`).
-/

namespace VirtualLooper

variable {σ κ : Type}

/-- The request queues a message, looks for messages or drops some, or moves the clock. -/
def Request.IsPlain : Request κ → Prop
  | enqueue .. | enqueueAt .. | has .. | remove .. | advance .. => True
  | _ => False

/-- What is seen of a looper, but for the thread that looks and whether a session is going on. -/
def Sight.anonymous (sight : Sight) : Sight := { sight with running := false, thread := .main }

/-- The program does the same on all threads, whether or not a session is going on. -/
def Program.Blind {α : Type} : Program σ κ α → Prop
  | .done _ | .fail _ => True
  | .load next => ∀ memory, (next memory).Blind
  | .store _ next => next.Blind
  | .look next => ∀ sight, next sight = next sight.anonymous ∧ (next sight).Blind
  | .ask _ next => ∀ reply, (next reply).Blind

structure World.Blind (w : World σ κ) : Prop where
  receive : ∀ target tag, (w.receive target tag).Blind
  invoke : ∀ c, (w.invoke c).Blind

theorem World.Blind.delivery {w : World σ κ} (h : w.Blind) (m : Message κ) :
    (w.delivery m).Blind := World.delivery_of h.receive h.invoke trivial m

def Record.anonymous (r : Record) : Record := { r with thread := .main }

/-- What has happened to messages, whatever the thread.  The ends of dispatches and of sessions have
not. -/
def Occurrence.anonymous? : Occurrence κ → Option (Occurrence κ)
  | taken m time _ => some (taken m time .main)
  | called m call _ => some (called m call .main)
  | returned _ | aborted | ended _ => none
  | o => some o

theorem Outcome.attempt_ofResult {S α β : Type} (result : Except Failure α) (s : S)
    (k : Except Failure α → S → Outcome S β) : (ofResult result s).attempt k = k result s := by
  cases result with
  | ok a => rfl
  | error e => rfl

theorem perform_of_reply {w : World σ κ} {thread : Thread} {r : Request κ}
    {result : Except Failure Reply} {s t : State σ κ} (h : s.respond w thread r = .reply result t)
    (bound : Nat) : perform w (bound + 1) thread r s = .ofResult result t := by
  rw [perform, h]

namespace State

/-- Neither a session nor a dispatch has begun or ended. -/
structure Stays (s s' : State σ κ) : Prop extends SameFrame s s' where
  depth : s'.depth = s.depth

namespace Stays

variable {s s' s'' : State σ κ}

theorem refl (s : State σ κ) : Stays s s := ⟨.refl s, rfl⟩

theorem trans (h : Stays s s') (h' : Stays s' s'') : Stays s s'' :=
  ⟨h.toSameFrame.trans h'.toSameFrame, h'.depth.trans h.depth⟩

theorem take {thread : Thread} {m : Message κ} (h : s.take? thread = some (m, s')) :
    Stays s s' := by
  refine ⟨.take h, ?_⟩
  obtain ⟨q, -, rfl⟩ := spec_of_take h
  rfl

theorem atDelivery (w : World σ κ) (thread : Thread) (m : Message κ) (s : State σ κ) :
    Stays s (w.atDelivery thread m s) :=
  ⟨.atDelivery w thread m s, Machine.depth_atDelivery _ _⟩

theorem respond {w : World σ κ} {thread : Thread} {r : Request κ} (hr : r.IsPlain)
    {result : Except Failure Reply} (h : s.respond w thread r = .reply result s') :
    Stays s s' := by
  refine ⟨?_, (Machine.spec_of_respond h 0).1⟩
  rcases SameFrame.respond h with hFrame | ⟨rfl, -⟩
  · exact hFrame
  · exact hr.elim

end Stays

/-- What has happened to messages, whatever the threads. -/
def happenings (s : State σ κ) : List (Occurrence κ) := s.history.filterMap Occurrence.anonymous?

theorem happenings_recordHistory (s : State σ κ) (o : Occurrence κ) :
    (s.recordHistory o).happenings = s.happenings ++ o.anonymous?.toList := by
  rw [happenings, happenings, State.recordHistory, filterMap_concat]

/-- The same messages, clock and handlers' memory, and the same has happened to messages, whatever
the threads. -/
structure Alike (s s' : State σ κ) : Prop where
  fallback : s'.fallback = s.fallback
  clock : s'.clock = s.clock
  queue : s'.queue = s.queue
  depth : s'.depth = s.depth
  memory : s'.memory = s.memory
  records : s'.records.map Record.anonymous = s.records.map Record.anonymous
  happenings : s'.happenings = s.happenings

namespace Alike

variable {w : World σ κ} {thread : Thread} {s s' s'' : State σ κ}

theorem refl (s : State σ κ) : Alike s s := ⟨rfl, rfl, rfl, rfl, rfl, rfl, rfl⟩

theorem symm (h : Alike s s') : Alike s' s where
  fallback := h.fallback.symm
  clock := h.clock.symm
  queue := h.queue.symm
  depth := h.depth.symm
  memory := h.memory.symm
  records := h.records.symm
  happenings := h.happenings.symm

theorem trans (h : Alike s s') (h' : Alike s' s'') : Alike s s'' where
  fallback := h'.fallback.trans h.fallback
  clock := h'.clock.trans h.clock
  queue := h'.queue.trans h.queue
  depth := h'.depth.trans h.depth
  memory := h'.memory.trans h.memory
  records := h'.records.trans h.records
  happenings := h'.happenings.trans h.happenings

theorem recordHistory (h : Alike s s') {o o' : Occurrence κ}
    (hSame : o'.anonymous? = o.anonymous?) :
    Alike (s.recordHistory o) (s'.recordHistory o') where
  fallback := h.fallback
  clock := h.clock
  queue := h.queue
  depth := h.depth
  memory := h.memory
  records := h.records
  happenings := by
    rw [happenings_recordHistory, happenings_recordHistory, h.happenings, hSame]

theorem of_none (h : Alike s s') {o : Occurrence κ} (hNone : o.anonymous? = none) :
    Alike (s.recordHistory o) s' ∧ Alike s (s'.recordHistory o) := by
  have hSame (s : State σ κ) : (s.recordHistory o).happenings = s.happenings := by
    rw [happenings_recordHistory, hNone, Option.toList_none, List.append_nil]
  obtain ⟨hFallback, hClock, hQueue, hDepth, hMemory, hRecords, hHappenings⟩ := h
  exact ⟨⟨hFallback, hClock, hQueue, hDepth, hMemory, hRecords, by rw [hSame, hHappenings]⟩,
    ⟨hFallback, hClock, hQueue, hDepth, hMemory, hRecords, by rw [hSame, hHappenings]⟩⟩

theorem withQueue (h : Alike s s') (q : Queue κ) :
    Alike { s with queue := q } { s' with queue := q } :=
  ⟨h.fallback, h.clock, rfl, h.depth, h.memory, h.records, h.happenings⟩

theorem withMemory (h : Alike s s') (memory : σ) :
    Alike { s with memory } { s' with memory } :=
  ⟨h.fallback, h.clock, h.queue, h.depth, rfl, h.records, h.happenings⟩

theorem enqueueAt (h : Alike s s') (tag due : Value) (target : Option Target)
    (callback : Option κ) :
    (∃ e, s.enqueueAt tag due target callback = .error e ∧
        s'.enqueueAt tag due target callback = .error e) ∨
      ∃ (receipt : Receipt) (t t' : State σ κ),
        s.enqueueAt tag due target callback = .ok (receipt, t) ∧
        s'.enqueueAt tag due target callback = .ok (receipt, t') ∧ Alike t t' := by
  rw [State.enqueueAt, State.enqueueAt, resolve_congr h.fallback, h.queue]
  cases s.resolve target callback with
  | error e => exact Or.inl ⟨e, rfl, rfl⟩
  | ok found =>
    cases hQueued : s.queue.enqueueAt tag due found callback with
    | error e =>
      simp only [bind, Except.bind, hQueued]
      exact Or.inl ⟨e, rfl, rfl⟩
    | ok queued =>
      obtain ⟨m, q⟩ := queued
      simp only [bind, Except.bind, hQueued]
      exact Or.inr ⟨m.receipt, s.accept m q, s'.accept m q, rfl, rfl,
        (h.withQueue q).recordHistory (by rw [h.clock])⟩

theorem enqueue (h : Alike s s') (tag delay : Value) (target : Option Target)
    (callback : Option κ) :
    (∃ e, s.enqueue tag delay target callback = .error e ∧
        s'.enqueue tag delay target callback = .error e) ∨
      ∃ (receipt : Receipt) (t t' : State σ κ),
        s.enqueue tag delay target callback = .ok (receipt, t) ∧
        s'.enqueue tag delay target callback = .ok (receipt, t') ∧ Alike t t' := by
  rcases enqueue_congr h.fallback h.clock tag delay target callback with hRefused | ⟨due, hs, hs'⟩
  · exact Or.inl hRefused
  · rw [hs, hs']
    exact h.enqueueAt tag due target callback

theorem move (h : Alike s s') (strict : Bool) (thread thread' : Thread) (amount : Value) :
    (s'.move strict thread' amount).1 = (s.move strict thread amount).1 ∧
      Alike (s.move strict thread amount).2 (s'.move strict thread' amount).2 := by
  obtain ⟨clock, log, log', hResult, hs, hs'⟩ := move_congr h.clock strict thread thread' amount
  rw [hs, hs']
  exact ⟨hResult, h.fallback, rfl, h.queue, h.depth, h.memory, h.records, h.happenings⟩

/-- **Plain requests are answered alike.** -/
theorem respond (h : Alike s s') (w : World σ κ) (thread thread' : Thread) {r : Request κ}
    (hr : r.IsPlain) :
    ∃ (result : Except Failure Reply) (t t' : State σ κ),
      s.respond w thread r = .reply result t ∧ s'.respond w thread' r = .reply result t' ∧
      Alike t t' ∧ Stays s t ∧ Stays s' t' := by
  have hAnswered : ∃ (result : Except Failure Reply) (t t' : State σ κ),
      s.respond w thread r = .reply result t ∧ s'.respond w thread' r = .reply result t' ∧
      Alike t t' := by
    cases r with
    | enqueue tag delay target callback =>
      rcases h.enqueue tag delay target callback with
        ⟨e, hs, hs'⟩ | ⟨receipt, t, t', hs, hs', hAlike⟩
      · exact ⟨.error e, s, s', by rw [State.respond, hs]; rfl, by rw [State.respond, hs']; rfl, h⟩
      · exact ⟨.ok (.receipt receipt), t, t', by rw [State.respond, hs]; rfl,
          by rw [State.respond, hs']; rfl, hAlike⟩
    | enqueueAt tag due target callback =>
      rcases h.enqueueAt tag due target callback with
        ⟨e, hs, hs'⟩ | ⟨receipt, t, t', hs, hs', hAlike⟩
      · exact ⟨.error e, s, s', by rw [State.respond, hs]; rfl, by rw [State.respond, hs']; rfl, h⟩
      · exact ⟨.ok (.receipt receipt), t, t', by rw [State.respond, hs]; rfl,
          by rw [State.respond, hs']; rfl, hAlike⟩
    | has tag target => exact ⟨_, s, s', rfl, by rw [State.respond, h.queue], h⟩
    | remove tag target =>
      refine ⟨_, _, (s'.remove tag target).2, rfl, ?_, ?_⟩
      · rw [State.respond, State.remove, State.remove, h.queue]
      · rw [State.remove, State.remove, h.queue]
        exact (h.withQueue _).recordHistory rfl
    | advance amount =>
      obtain ⟨hResult, hAlike⟩ := h.move w.strictLog thread thread' amount
      exact ⟨_, _, _, rfl, by rw [State.respond, hResult], hAlike⟩
    | _ => exact hr.elim
  obtain ⟨result, t, t', hs, hs', hAlike⟩ := hAnswered
  exact ⟨result, t, t', hs, hs', hAlike, .respond hr hs, .respond hr hs'⟩

/-- What is seen is the same, but for the thread and whether a session is going on. -/
theorem sight (h : Alike s s') (thread thread' : Thread) :
    (s'.sight thread').anonymous = (s.sight thread).anonymous := by
  simp only [State.sight, Sight.anonymous, h.queue, h.clock]

/-- **A plain program comes to the same on both**, if it is blind or there is nothing else to see on
one than on the other. -/
theorem exists_run (h : Alike s s') (w : World σ κ) (thread thread' : Thread) (bound bound' : Nat)
    {p : Program σ κ Unit} (hAsks : p.Asks Request.IsPlain)
    (hSees : p.Blind ∨ thread' = thread ∧ s'.session = s.session) :
    ∃ (result : Except Failure Unit) (t t' : State σ κ),
      p.run (perform w (bound + 1) thread) thread s = .ofResult result t ∧
      p.run (perform w (bound' + 1) thread') thread' s' = .ofResult result t' ∧
      Alike t t' ∧ Stays s t ∧ Stays s' t' := by
  induction p generalizing s s' with
  | done u => exact ⟨.ok u, s, s', rfl, rfl, h, .refl s, .refl s'⟩
  | fail e => exact ⟨.error e, s, s', rfl, rfl, h, .refl s, .refl s'⟩
  | load next ih =>
    simp only [Program.run, h.memory]
    exact ih _ h (hAsks _) (hSees.imp_left fun hBlind => hBlind _)
  | store memory next ih =>
    have hStays (s : State σ κ) : Stays s { s with memory } := ⟨⟨rfl, rfl, rfl, rfl⟩, rfl⟩
    obtain ⟨result, t, t', hRun, hRun', hAlike, hFirst, hSecond⟩ :=
      ih (h.withMemory memory) hAsks hSees
    exact ⟨result, t, t', hRun, hRun', hAlike, (hStays s).trans hFirst, (hStays s').trans hSecond⟩
  | look next ih =>
    -- a blind program cannot tell the two sights apart, and otherwise they are the same
    have hSame : next (s'.sight thread') = next (s.sight thread) := by
      rcases hSees with hBlind | ⟨rfl, hSession⟩
      · rw [(hBlind _).1, h.sight thread thread', ← (hBlind _).1]
      · simp only [State.sight, State.running, h.queue, h.clock, hSession]
    simp only [Program.run, hSame]
    exact ih _ h (hAsks _) (hSees.imp_left fun hBlind => (hBlind _).2)
  | ask r next ih =>
    obtain ⟨reply, t₁, t₁', hReply, hReply', hAlike, hFirst, hSecond⟩ :=
      h.respond w thread thread' hAsks.1
    have hSees' : (next reply).Blind ∨ thread' = thread ∧ t₁'.session = t₁.session := by
      refine hSees.imp (fun hBlind => hBlind _) fun hSame => ⟨hSame.1, ?_⟩
      rw [hSecond.session, hFirst.session, hSame.2]
    obtain ⟨result, t, t', hRun, hRun', hAlike', hThird, hFourth⟩ :=
      ih reply hAlike (hAsks.2 reply) hSees'
    refine ⟨result, t, t', ?_, ?_, hAlike', hFirst.trans hThird, hSecond.trans hFourth⟩
    · rw [Program.run, perform_of_reply hReply, Outcome.attempt_ofResult, hRun]
    · rw [Program.run, perform_of_reply hReply', Outcome.attempt_ofResult, hRun']

theorem atCall (h : Alike s s') (w : World σ κ) (thread thread' : Thread) (call : Call κ) :
    Alike (w.atCall thread call s) (w.atCall thread' call s') := by
  cases call with
  | callback c => exact h
  | receiver target tag =>
    rw [World.atCall, World.atCall]
    split
    · refine ⟨h.fallback, h.clock, h.queue, h.depth, h.memory, ?_, h.happenings⟩
      simp only [State.record, List.map_append, h.records, List.map_cons, Record.anonymous, h.clock]
    · exact h

theorem atDelivery (h : Alike s s') (w : World σ κ) (thread thread' : Thread) (m : Message κ) :
    Alike (w.atDelivery thread m s) (w.atDelivery thread' m s') := by
  have hCalled (call? : Option (Call κ)) :
      Alike (s.recordHistory (.called m call? thread))
        (s'.recordHistory (.called m call? thread')) := h.recordHistory rfl
  rw [World.atDelivery, World.atDelivery]
  cases m.call? with
  | some call => exact (hCalled (some call)).atCall w thread thread' call
  | none => exact hCalled none

theorem exists_deliver (h : Alike s s') (w : World σ κ) (thread thread' : Thread)
    (bound bound' : Nat) (hAsks : w.Asks Request.IsPlain) (m : Message κ)
    (hSees : w.Blind ∨ thread' = thread ∧ s'.session = s.session) :
    ∃ (result : Except Failure Unit) (t t' : State σ κ),
      w.deliver (perform w (bound + 1) thread) thread m s = .ofResult result t ∧
      w.deliver (perform w (bound' + 1) thread') thread' m s' = .ofResult result t' ∧
      Alike t t' ∧ Stays s t ∧ Stays s' t' := by
  have hFirst := Stays.atDelivery w thread m s
  have hSecond := Stays.atDelivery w thread' m s'
  have hSees' : (w.delivery m).Blind ∨
      thread' = thread ∧
        (w.atDelivery thread' m s').session = (w.atDelivery thread m s).session := by
    refine hSees.imp (fun hBlind => hBlind.delivery m) fun hSame => ⟨hSame.1, ?_⟩
    rw [hSecond.session, hFirst.session, hSame.2]
  obtain ⟨result, t, t', hRun, hRun', hAlike, hThird, hFourth⟩ :=
    (h.atDelivery w thread thread' m).exists_run w thread thread' bound bound' (hAsks.delivery m)
      hSees'
  exact ⟨result, t, t', hRun, hRun', hAlike, hFirst.trans hThird, hSecond.trans hFourth⟩

/-- A message that is delivered on the one is delivered on the other, if handlers are blind. -/
theorem deliver (h : Alike s s') (thread thread' : Thread) (bound bound' : Nat)
    (hAsks : w.Asks Request.IsPlain) (hBlind : w.Blind) {m : Message κ} {t : State σ κ}
    (hDeliver : w.deliver (perform w (bound + 1) thread) thread m s = .ok () t) :
    ∃ t', w.deliver (perform w (bound' + 1) thread') thread' m s' = .ok () t' ∧ Alike t t' ∧
      Stays s t ∧ Stays s' t' := by
  obtain ⟨result, t₁, t', hFirst, hSecond, hAlike, hStays⟩ :=
    h.exists_deliver w thread thread' bound bound' hAsks m (Or.inl hBlind)
  have hSame : Outcome.ofResult result t₁ = .ofResult (.ok ()) t := hFirst.symm.trans hDeliver
  obtain ⟨rfl, rfl⟩ := Outcome.ofResult_inj.1 hSame
  exact ⟨t', hSecond, hAlike, hStays⟩

theorem take (h : Alike s s') (thread thread' : Thread) :
    (s.take? thread = none ∧ s'.take? thread' = none) ∨
      ∃ (m : Message κ) (t t' : State σ κ), s.take? thread = some (m, t) ∧
        s'.take? thread' = some (m, t') ∧ Alike t t' := by
  have hSame : s'.queue.popAt? s'.clock.now = s.queue.popAt? s.clock.now := by
    rw [h.queue, h.clock]
  rw [State.take?, State.take?, hSame]
  cases s.queue.popAt? s.clock.now with
  | none => exact Or.inl ⟨rfl, rfl⟩
  | some popped =>
    refine Or.inr ⟨popped.1, _, _, rfl, rfl, (h.withQueue popped.2).recordHistory ?_⟩
    rw [h.clock]
    rfl

end Alike

end State

end VirtualLooper
