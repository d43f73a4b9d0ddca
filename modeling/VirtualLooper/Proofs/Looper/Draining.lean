import Mathlib.Logic.Function.Iterate
import VirtualLooper.Proofs.Looper.Underway

/-!
# Draining a looper whose handlers are quiet

Handlers that make no requests and do not fail leave a loop that takes messages to itself: it takes
all that is due, in order, and its deliveries add to the history and to what recording receivers
have received, and change nothing else but what handlers remember (`Served`).  A worker counts what
it takes as well; so the loop of this file may do something to the workers between taking a message
and delivering it (`State.exists_served`).

The dispatches of a thread come down to this: `State.exists_served_all` for all that is due, and
`State.exists_served_next` for one message.
-/

namespace VirtualLooper

variable {σ κ : Type}

theorem Program.Quiet.run {p : Program σ κ Unit} (h : p.Quiet)
    (perform : Request κ → State σ κ → Outcome (State σ κ) Reply) (thread : Thread)
    (s : State σ κ) : ∃ memory, p.run perform thread s = .ok () { s with memory } := by
  induction p generalizing s with
  | done u => exact ⟨s.memory, rfl⟩
  | fail e => cases h
  | load next ih => exact ih s.memory (h s.memory) s
  | store memory next ih =>
    obtain ⟨memory', hRun⟩ := ih h { s with memory }
    exact ⟨memory', hRun⟩
  | look next ih => exact ih (s.sight thread) (h (s.sight thread)) s
  | ask r next ih => cases h

/-! ### Deliveries -/

def World.recorded? (w : World σ κ) (thread : Thread) (now : Int) (m : Message κ) :
    Option Record :=
  match m.call? with
  | some (.receiver target tag) =>
    if w.records target then some ⟨target, tag, now, thread⟩ else none
  | _ => none

theorem World.target_of_recorded? {w : World σ κ} {thread : Thread} {now : Int} {m : Message κ}
    {r : Record} (h : w.recorded? thread now m = some r) : m.target = some r.target := by
  obtain ⟨due, seq, tag, target, callback⟩ := m
  cases callback with
  | some c => cases h
  | none =>
    cases target with
    | none => cases h
    | some t =>
      simp only [recorded?, Message.call?] at h
      split at h
      · cases h
        rfl
      · cases h

/-- What is entered in the history when a message is taken and delivered. -/
def Message.deliveredAt (thread : Thread) (now : Int) (m : Message κ) : List (Occurrence κ) :=
  [.taken m now thread, .called m m.call? thread]

theorem filterMap_deliveredAt {β : Type} (f : Occurrence κ → Option β) (thread : Thread)
    (now : Int) (ms : List (Message κ)) :
    (ms.flatMap (Message.deliveredAt thread now)).filterMap f =
      ms.flatMap fun m => (f (.taken m now thread)).toList ++
        (f (.called m m.call? thread)).toList := by
  rw [List.filterMap_flatMap]
  refine congrArg (fun f => ms.flatMap f) (funext fun m => ?_)
  rw [Message.deliveredAt, List.filterMap_cons, List.filterMap_cons, List.filterMap_nil]
  cases f (.taken m now thread) <;> cases f (.called m m.call? thread) <;> rfl

namespace State

/-- These messages were taken and delivered on a thread, in this order.  Receivers that do nothing
leave the memory alone. -/
structure Served (w : World σ κ) (thread : Thread) (ms : List (Message κ)) (s t : State σ κ) :
    Prop where
  settings : t.settings = s.settings
  fallback : t.fallback = s.fallback
  clock : t.clock = s.clock
  session : t.session = s.session
  depth : t.depth = s.depth
  log : t.log = s.log
  accepted : t.queue.accepted = s.queue.accepted
  pending : s.queue.pending.Perm (ms ++ t.queue.pending)
  history : t.history = s.history ++ ms.flatMap (Message.deliveredAt thread s.clock.now)
  records : t.records = s.records ++ ms.filterMap (w.recorded? thread s.clock.now)
  memory : (∀ m, w.delivery m = .done ()) → t.memory = s.memory

namespace Served

variable {w : World σ κ} {thread : Thread} {s t u : State σ κ} {ms ms' : List (Message κ)}

theorem nil (w : World σ κ) (thread : Thread) (s : State σ κ) : Served w thread [] s s :=
  ⟨rfl, rfl, rfl, rfl, rfl, rfl, rfl, .refl _, (List.append_nil _).symm, (List.append_nil _).symm,
    fun _ => rfl⟩

theorem append (h : Served w thread ms s t) (h' : Served w thread ms' t u) :
    Served w thread (ms ++ ms') s u where
  settings := h'.settings.trans h.settings
  fallback := h'.fallback.trans h.fallback
  clock := h'.clock.trans h.clock
  session := h'.session.trans h.session
  depth := h'.depth.trans h.depth
  log := h'.log.trans h.log
  accepted := h'.accepted.trans h.accepted
  pending := by
    rw [List.append_assoc]
    exact h.pending.trans (h'.pending.append_left ms)
  history := by
    rw [h'.history, h.history, h.clock, List.flatMap_append, List.append_assoc]
  records := by
    rw [h'.records, h.records, h.clock, List.filterMap_append, List.append_assoc]
  memory hIdle := (h'.memory hIdle).trans (h.memory hIdle)

theorem leave (h : Served w thread ms s.enter t) : Served w thread ms s t.leave where
  settings := h.settings
  fallback := h.fallback
  clock := h.clock
  session := h.session
  depth := by
    show t.depth - 1 = s.depth
    rw [h.depth]
    rfl
  log := h.log
  accepted := h.accepted
  pending := h.pending
  history := h.history
  records := h.records
  memory := h.memory

theorem taken (h : Served w thread ms s t) :
    t.history.filterMap Occurrence.taken? = s.history.filterMap Occurrence.taken? ++ ms := by
  rw [h.history, List.filterMap_append, filterMap_deliveredAt]
  simp [List.flatMap_singleton']

theorem called (h : Served w thread ms s t) :
    t.history.filterMap Occurrence.called? =
      s.history.filterMap Occurrence.called? ++ ms.map Message.withCall := by
  rw [h.history, List.filterMap_append, filterMap_deliveredAt]
  simp [List.map_eq_flatMap, Message.withCall]

end Served

theorem perm_of_popAt? {s t : State σ κ} {m : Message κ}
    (h : s.queue.popAt? s.clock.now = some (m, t.queue)) (hNow : t.clock.now = s.clock.now) :
    s.dueNow.Perm (m :: t.dueNow) ∧ s.dueLater.Perm t.dueLater ∧
      ∀ x ∈ t.dueNow, m.before x = true := by
  obtain ⟨hDue, hPerm, hFirst, -⟩ := Queue.spec_of_popAt? h
  have hEarly := hPerm.filter fun x => x.due ≤ s.clock.now
  have hLate := hPerm.filter fun x => s.clock.now < x.due
  rw [List.filter_cons_of_pos (by simpa using hDue)] at hEarly
  rw [List.filter_cons_of_neg (by simpa using hDue)] at hLate
  rw [dueNow, dueNow, dueLater, dueLater, hNow]
  refine ⟨hEarly, hLate, ?_⟩
  intro x hx
  exact hFirst x (List.mem_filter.1 hx).1

theorem dueNow_of_take?_eq_none {s : State σ κ} {thread : Thread} (h : s.take? thread = none) :
    s.dueNow = [] ∧ s.dueLater = s.queue.pending := by
  have hLate := take?_eq_none_iff.1 h
  constructor
  · refine List.filter_eq_nil_iff.2 ?_
    intro x hx
    simpa using hLate x hx
  · refine List.filter_eq_self.2 ?_
    intro x hx
    simpa using hLate x hx

section Quiet

variable {w : World σ κ} (hQuiet : w.Quiet)
  (perform : Request κ → State σ κ → Outcome (State σ κ) Reply) (thread : Thread)
include hQuiet

/-- One message is taken and delivered, with something done to the workers in between. -/
theorem served_of_take {s u : State σ κ} {m : Message κ} (hTake : s.take? thread = some (m, u))
    (workers : List Worker) :
    ∃ t, w.deliver perform thread m { u with workers } = .ok () t ∧ Served w thread [m] s t ∧
      t.workers = workers ∧ s.queue.popAt? s.clock.now = some (m, t.queue) := by
  obtain ⟨q, hPop, rfl⟩ := spec_of_take hTake
  obtain ⟨-, hPerm, -, hAccepted⟩ := Queue.spec_of_popAt? hPop
  let taken : State σ κ :=
    { ({ s with queue := q }.recordHistory (.taken m s.clock.now thread)) with workers }
  obtain ⟨memory, hRun⟩ := (hQuiet.delivery m).run perform thread (w.atDelivery thread m taken)
  let called := taken.recordHistory (.called m m.call? thread)
  -- the delivery begins by an entry in the history, and what the receiver records
  have hBegins : w.atDelivery thread m taken =
      { called with
        records := s.records ++ (w.recorded? thread s.clock.now m).toList } := by
    have hNone : { called with records := s.records ++ [] } = called := by
      rw [List.append_nil]
      rfl
    have hAt : w.atDelivery thread m taken =
        m.call?.elim called fun call => w.atCall thread call called := by
      simp only [World.atDelivery, called]
      cases m.call? <;> rfl
    rw [hAt, World.recorded?]
    cases m.call? with
    | none => exact hNone.symm
    | some call =>
      cases call with
      | callback c => exact hNone.symm
      | receiver target tag =>
        simp only [Option.elim_some, World.atCall]
        cases w.records target with
        | false => exact hNone.symm
        | true => rfl
  refine ⟨{ w.atDelivery thread m taken with memory }, hRun, ?_, ?_, ?_⟩
  · rw [hBegins]
    refine ⟨rfl, rfl, rfl, rfl, rfl, rfl, hAccepted, hPerm, ?_, ?_, fun hIdle => ?_⟩
    · simp [called, taken, recordHistory, Message.deliveredAt]
    · cases hRecorded : w.recorded? thread s.clock.now m with
      | none => simp [hRecorded]
      | some r => simp [hRecorded]
    · have hBefore : (w.atDelivery thread m taken).memory = s.memory := by
        rw [hBegins]
        rfl
      rw [hIdle, Program.run, Outcome.ok.injEq] at hRun
      exact (congrArg State.memory hRun.2).symm.trans hBefore
  · rw [hBegins]
    rfl
  · rw [hBegins]
    exact hPop

/-- **A loop takes all that is due, and delivers it in order.** -/
theorem exists_served (f : List Worker → List Worker) (bound : Nat) (s : State σ κ)
    (hBound : s.dueNow.length < bound) :
    ∃ t, drainWith thread (fun s => { s with workers := f s.workers }) (w.deliver perform thread)
        bound s = .ok s.dueNow.length t ∧
      Served w thread (Message.inOrder s.dueNow) s t ∧ t.queue.pending.Perm s.dueLater ∧
      t.workers = Nat.iterate f s.dueNow.length s.workers := by
  suffices hOrdered : ∃ t ordered,
      drainWith thread (fun s => { s with workers := f s.workers }) (w.deliver perform thread)
          bound s = .ok s.dueNow.length t ∧
        ordered.Perm s.dueNow ∧ ordered.Pairwise (fun a b => a.before b = true) ∧
        Served w thread ordered s t ∧ t.queue.pending.Perm s.dueLater ∧
        t.workers = Nat.iterate f s.dueNow.length s.workers by
    obtain ⟨t, ordered, hDrain, hPerm, hSorted, hServed, hPending, hWorkers⟩ := hOrdered
    obtain rfl := Message.eq_inOrder hPerm hSorted
    exact ⟨t, hDrain, hServed, hPending, hWorkers⟩
  induction bound generalizing s with
  | zero => omega
  | succ bound ih =>
    rw [drainWith]
    cases hTake : s.take? thread with
    | none =>
      obtain ⟨hNow, hLater⟩ := dueNow_of_take?_eq_none hTake
      refine ⟨s, [], ?_, ?_, List.Pairwise.nil, .nil w thread s, ?_, ?_⟩
      · rw [hNow]
        rfl
      · rw [hNow]
      · rw [hLater]
      · rw [hNow]
        rfl
    | some taken =>
      obtain ⟨m, u⟩ := taken
      have hWorkers : u.workers = s.workers := (SameFrame.take hTake).workers
      obtain ⟨v, hDeliver, hServed, hCounted, hPop⟩ :=
        served_of_take hQuiet perform thread hTake (f u.workers)
      have hNow : v.clock.now = s.clock.now := congrArg Clock.now hServed.clock
      obtain ⟨hEarly, hLate, hFirst⟩ := perm_of_popAt? hPop hNow
      have hLength := hEarly.length_eq
      rw [List.length_cons] at hLength
      obtain ⟨t, ordered, hDrain, hPerm, hSorted, hRest, hPending, hCount⟩ := ih v (by omega)
      refine ⟨t, m :: ordered, ?_, (hPerm.cons m).trans hEarly.symm, ?_, hServed.append hRest,
        hPending.trans hLate.symm, ?_⟩
      · simp only [hDeliver, Outcome.bind, hDrain, Outcome.map, hLength]
      · refine List.pairwise_cons.2 ⟨?_, hSorted⟩
        intro x hx
        exact hFirst x (hPerm.mem_iff.1 hx)
      · rw [hCount, hCounted, hWorkers, hLength, Function.iterate_succ_apply]

end Quiet

/-! ### Dispatches -/

section Dispatches

variable {w : World σ κ} (hQuiet : w.Quiet) {s : State σ κ} (hSession : s.session = none)
  (thread : Thread) {bound : Nat}
include hQuiet hSession

theorem exists_served_all (hBound : s.dueNow.length < bound) :
    ∃ t, perform w (bound + 1) thread .dispatchAll s =
        .ok (.count s.dueNow.length)
          ((t.recordHistory (.returned s.dueNow.length)).note thread
            (.delivered s.dueNow.length)) ∧
      Served w thread (Message.inOrder s.dueNow) s t ∧ t.queue.pending.Perm s.dueLater ∧
      t.workers = s.workers := by
  obtain ⟨t, hDrain, hServed, hPending, hWorkers⟩ :=
    exists_served hQuiet (perform w bound thread) thread id bound s.enter hBound
  have hLate : s.respond w thread .dispatchAll = .deliverAll := by
    simp [respond, running, hSession]
  have hDrain' : drainWith thread id (w.deliver (perform w bound thread) thread) bound s.enter =
      .ok s.dueNow.length t := hDrain
  refine ⟨t.leave, ?_, hServed.leave, hPending, ?_⟩
  · simp only [perform, hLate, hDrain', closeDispatch, Outcome.attempt, Outcome.bind]
  · show t.workers = s.workers
    rw [hWorkers, Function.iterate_id]
    rfl

/-- A dispatch of one message takes the first one that is due, if there is one. -/
theorem exists_served_next (bound : Nat) :
    (s.dueNow = [] ∧ perform w (bound + 1) thread .dispatchNext s = .ok (.flag false) s) ∨
      ∃ m t, m ∈ s.dueNow ∧ (∀ x ∈ s.dueNow, x = m ∨ m.before x = true) ∧
        perform w (bound + 1) thread .dispatchNext s =
          .ok (.flag true) (t.recordHistory (.returned 1)) ∧
        Served w thread [m] s t ∧ t.workers = s.workers := by
  have hNext : s.respond w thread .dispatchNext = .deliverNext := by
    simp [respond, running, hSession]
  cases hTake : s.take? thread with
  | none =>
    refine Or.inl ⟨(dueNow_of_take?_eq_none hTake).1, ?_⟩
    simp only [perform, hNext, hTake]
  | some taken =>
    obtain ⟨m, u⟩ := taken
    have hEntered : s.enter.take? thread = some (m, u.enter) := by
      rw [take?_enter, hTake]
      rfl
    obtain ⟨t, hDeliver, hServed, hWorkers, hPop⟩ :=
      served_of_take hQuiet (perform w bound thread) thread hEntered u.enter.workers
    obtain ⟨hEarly, -, hFirst⟩ :=
      perm_of_popAt? (s := s) hPop (congrArg Clock.now hServed.clock)
    have hDeliver' : w.deliver (perform w bound thread) thread m u.enter = .ok () t := hDeliver
    refine Or.inr ⟨m, t.leave, hEarly.mem_iff.2 List.mem_cons_self, ?_, ?_, hServed.leave, ?_⟩
    · intro x hx
      rcases List.mem_cons.1 (hEarly.mem_iff.1 hx) with rfl | hx
      · exact Or.inl rfl
      · exact Or.inr (hFirst x hx)
    · simp only [perform, hNext, hTake, hDeliver', Outcome.map, Outcome.bind, closeDispatch,
        Outcome.attempt]
    · exact hWorkers.trans (SameFrame.take hTake).workers

end Dispatches

end State

end VirtualLooper
