import VirtualLooper.Proofs.Looper.Conservation
import VirtualLooper.Proofs.Looper.Order
import VirtualLooper.Proofs.Looper.Sending
import VirtualLooper.Proofs.Looper.Verdict

/-!
# A session while it is going on

Handlers that make no requests leave a session to two threads: the main thread, which sends messages
and moves the clock until it stops the session, and the worker, which takes what is due.
`State.InSession` says how the state of the looper is related to the state that the sends alone
would have led to: what the worker has taken is missing from the queue, and all that was due then.
`Machine.Underway` says besides where the two threads are.  Either of them may take the next step,
and comes to such a machine again (`Underway.worker_step`, `Underway.main_step`), until the main
thread finds the worker gone and the session is `Closed`.
-/

namespace VirtualLooper

variable {σ κ : Type}

/-! ### Programs -/

/-- The program makes no requests and does not fail. -/
def Program.Quiet {α : Type} : Program σ κ α → Prop
  | .done _ => True
  | .fail _ | .ask .. => False
  | .load next => ∀ memory, (next memory).Quiet
  | .store _ next => next.Quiet
  | .look next => ∀ sight, (next sight).Quiet

structure World.Quiet (w : World σ κ) : Prop where
  receive : ∀ target tag, (w.receive target tag).Quiet
  invoke : ∀ c, (w.invoke c).Quiet

theorem World.Quiet.delivery {w : World σ κ} (h : w.Quiet) (m : Message κ) :
    (w.delivery m).Quiet := World.delivery_of h.receive h.invoke trivial m

def Program.inTurn : List (Request κ) → Program σ κ Unit
  | [] => .done ()
  | r :: rs => .ask r fun _ => inTurn rs

/-! ### Messages in order -/

namespace Message

def inOrder (ms : List (Message κ)) : List (Message κ) := ms.mergeSort fun a b => !b.before a

/-- Of two messages in a list that is in order, one comes before the other. -/
theorem before_or_before {ms : List (Message κ)} (h : ms.Pairwise fun a b => a.before b = true)
    {a b : Message κ} (ha : a ∈ ms) (hb : b ∈ ms) :
    a = b ∨ a.before b = true ∨ b.before a = true := by
  induction h with
  | nil => cases ha
  | cons hFirst _ ih =>
    rcases List.mem_cons.1 ha with rfl | haRest
    · rcases List.mem_cons.1 hb with rfl | hbRest
      · exact Or.inl rfl
      · exact Or.inr (Or.inl (hFirst b hbRest))
    · rcases List.mem_cons.1 hb with rfl | hbRest
      · exact Or.inr (Or.inr (hFirst a haRest))
      · exact ih haRest hbRest

theorem perm_inOrder (ms : List (Message κ)) : (inOrder ms).Perm ms := List.mergeSort_perm ms _

theorem pairwise_inOrder (ms : List (Message κ)) :
    (inOrder ms).Pairwise fun a b => (!b.before a) = true := by
  refine List.pairwise_mergeSort (fun a b c hab hbc => ?_) (fun a b => ?_) ms
  · simp only [Bool.not_eq_true', not_before_iff] at *
    omega
  · rw [Bool.or_eq_true, Bool.not_eq_true', Bool.not_eq_true', not_before_iff, not_before_iff]
    omega

theorem eq_inOrder {ms ordered : List (Message κ)} (hPerm : ordered.Perm ms)
    (h : ordered.Pairwise fun a b => a.before b = true) : ordered = inOrder ms := by
  have hPerm' : ordered.Perm (inOrder ms) := hPerm.trans (perm_inOrder ms).symm
  -- two lists that are in order and have the same elements are the same, since no two are alike
  refine hPerm'.eq_of_pairwise (fun a b ha hb hab hba => ?_) (h.imp fun hab => ?_)
    (pairwise_inOrder ms)
  · rcases before_or_before h ha (hPerm'.mem_iff.2 hb) with hEq | hBefore | hBefore
    · exact hEq
    · simp [hBefore] at hba
    · simp [hBefore] at hab
  · rename_i a b
    rw [Bool.not_eq_true', not_before_iff]
    rw [before_iff] at hab
    omega

end Message

/-! ### The state of a session -/

def State.dueNow (s : State σ κ) : List (Message κ) :=
  s.queue.pending.filter fun m => m.due ≤ s.clock.now

def State.dueLater (s : State σ κ) : List (Message κ) :=
  s.queue.pending.filter fun m => s.clock.now < m.due

namespace Ledger

theorem Edit.withTaken {L L' : Ledger κ} (h : Edit L L') (taken : List (Message κ)) :
    Edit { L with taken := taken } { L' with taken := taken } := by
  cases h with
  | quiet => exact .quiet _
  | accept m hm hCall dated hDated =>
    exact .accept { L with taken := taken } m hm hCall dated hDated
  | remove tag target => exact .remove { L with taken := taken } tag target
  | advance amount hPos => exact .advance { L with taken := taken } amount hPos

end Ledger

namespace State

/-- A session that began in the state `s₀`, while its sends alone would have led to `c`: what was
taken since, and what the worker has in its hand. -/
structure InSession (s₀ c : State σ κ) (xs : List (Exchange κ)) (since hand : List (Message κ))
    (stopping : Bool) (phase : Phase) (s : State σ κ) : Prop where
  aside : c.Aside since s
  settings : s.settings = s₀.settings
  session : s.session = some s₀.workers.length
  workers : s.workers.length = s₀.workers.length + 1
  record : s.worker? s₀.workers.length = some ⟨since.length, stopping, phase⟩
  due : ∀ m ∈ since, m.due ≤ s.clock.now
  taken : (Ledger.of s xs).taken = (Ledger.of s₀ xs).taken ++ since
  called : (Ledger.of s₀ xs).called ++ since.map Message.withCall =
    (Ledger.of s xs).called ++ hand.map Message.withCall
  inOrder : (Ledger.of s xs).Timely → { Ledger.of s xs with taken := since }.InOrder
  /-- Nothing is due once the worker has exited. -/
  idle : phase = .exited → ∀ m ∈ s.queue.pending, s.clock.now < m.due

namespace InSession

variable {w : World σ κ} {s₀ c c' s s' : State σ κ} {xs : List (Exchange κ)}
  {since hand : List (Message κ)} {stopping : Bool} {phase : Phase}

theorem begin (s₀ : State σ κ) (thread : Thread) (xs : List (Exchange κ)) :
    InSession s₀ s₀ xs [] [] false .live (s₀.beginSession thread) where
  aside := ⟨rfl, rfl, rfl, by simp [beginSession, note]⟩
  settings := rfl
  session := rfl
  workers := by simp [beginSession, note]
  record := by simp [worker?, beginSession, note, Worker.fresh]
  due := by simp
  taken := (List.append_nil _).symm
  called := rfl
  inOrder _ := ⟨.nil, by simp, by simp, by simp⟩
  idle h := by cases h

/-- Calls were made, and nothing else has happened that concerns messages or sessions. -/
theorem call {calls : List (Message κ × Option (Call κ))} {hand' : List (Message κ)}
    (h : InSession s₀ c xs since hand stopping phase s)
    (hLedger : Ledger.of s' xs =
      { Ledger.of s xs with called := (Ledger.of s xs).called ++ calls })
    (hCalls : hand.map Message.withCall = calls ++ hand'.map Message.withCall)
    (hFrame : s.SameFrame s') : InSession s₀ c xs since hand' stopping phase s' := by
  have hQueue : s'.queue = s.queue := congrArg Ledger.queue hLedger
  have hNow : s'.clock.now = s.clock.now := congrArg Ledger.now hLedger
  constructor
  case aside =>
    have hClock : s'.clock = s.clock := congrArg Clock.mk hNow
    refine ⟨hFrame.fallback.trans h.aside.fallback, hClock.trans h.aside.clock, ?_, ?_⟩
    · rw [hQueue, h.aside.accepted]
    · rw [hQueue]
      exact h.aside.perm
  case settings => rw [hFrame.settings, h.settings]
  case session => rw [hFrame.session, h.session]
  case workers => rw [hFrame.workers, h.workers]
  case record => rw [worker?, hFrame.workers, ← worker?, h.record]
  case due =>
    rw [hNow]
    exact h.due
  case taken => rw [hLedger, h.taken]
  case called => rw [hLedger, h.called, hCalls, List.append_assoc]
  case inOrder =>
    rw [hLedger]
    intro hTimely
    obtain ⟨hTaken, hPending, hDue, hAccepted⟩ := h.inOrder hTimely
    exact ⟨hTaken, hPending, hDue, hAccepted⟩
  case idle =>
    rw [hQueue, hNow]
    exact h.idle

/-- Something has happened that concerns neither messages nor sessions. -/
theorem same (h : InSession s₀ c xs since hand stopping phase s)
    (hLedger : Ledger.of s' xs = Ledger.of s xs) (hFrame : s.SameFrame s') :
    InSession s₀ c xs since hand stopping phase s' :=
  h.call (by rw [hLedger, List.append_nil]) (List.nil_append _).symm hFrame

theorem deliver {m : Message κ} (h : InSession s₀ c xs since [m] stopping phase s)
    (thread : Thread) : InSession s₀ c xs since [] stopping phase (w.atDelivery thread m s) :=
  h.call (Ledger.of_atDelivery w s xs thread m) rfl (.atDelivery w thread m s)

/-- A message is sent, or the clock is moved, before the worker has exited. -/
theorem send (h : InSession s₀ c xs since hand stopping .live s) {r : Request κ} (hr : r.IsSend)
    {result : Except Failure Reply} (hAlone : c.respond w .main r = .reply result c')
    (hReply : s.respond w .main r = .reply result s') :
    InSession s₀ c' (xs ++ [⟨.main, r, result, s'.clock.now⟩]) since hand stopping .live s' := by
  obtain ⟨result', t, t', hAlone', hReply', hAside⟩ := h.aside.respond w .main hr
  obtain ⟨rfl, rfl⟩ := Response.reply.inj (hAlone.symm.trans hAlone')
  obtain ⟨-, rfl⟩ := Response.reply.inj (hReply.symm.trans hReply')
  have hEdit := Ledger.edit_respond w xs hReply
  have hNow : s.clock.now ≤ s'.clock.now := hEdit.now_le
  have hFrame : SameFrame s s' := by
    rcases SameFrame.respond hReply with hFrame | ⟨rfl, -⟩
    · exact hFrame
    · exact hr.elim
  constructor
  case aside => exact hAside
  case settings => rw [hFrame.settings, h.settings]
  case session => rw [hFrame.session, h.session]
  case workers => rw [hFrame.workers, h.workers]
  case record => rw [worker?, hFrame.workers, ← worker?, h.record]
  case due => exact fun m hm => Int.le_trans (h.due m hm) hNow
  case taken => exact hEdit.taken_eq.trans h.taken
  case called =>
    have hCalled : (Ledger.of s' (xs ++ [⟨.main, r, result, s'.clock.now⟩])).called =
        (Ledger.of s xs).called := hEdit.called_eq
    rw [hCalled]
    exact h.called
  case inOrder =>
    intro hTimely
    exact (h.inOrder (hTimely.of_step (.edit hEdit))).edit hTimely (hEdit.withTaken since)
  case idle => exact fun hExited => by cases hExited

theorem requestStop (h : InSession s₀ c xs since hand stopping phase s) :
    InSession s₀ c xs since hand true phase (s.requestStop s₀.workers.length) where
  aside := ⟨h.aside.fallback, h.aside.clock, h.aside.accepted, h.aside.perm⟩
  settings := h.settings
  session := h.session
  workers := by simp [State.requestStop, updateWorker, h.workers]
  record := by
    have hRecord : s.workers[s₀.workers.length]? = some ⟨since.length, stopping, phase⟩ := h.record
    simp [worker?, State.requestStop, updateWorker, hRecord]
  due := h.due
  taken := h.taken
  called := h.called
  inOrder := h.inOrder
  idle := h.idle

theorem take (h : InSession s₀ c xs since [] stopping .live s) {thread : Thread} {m : Message κ}
    (hTake : s.take? thread = some (m, s')) :
    InSession s₀ c xs (since ++ [m]) [m] stopping .live (s'.countFor s₀.workers.length) := by
  obtain ⟨q, hPop, hLedger⟩ := Ledger.of_take xs hTake
  obtain ⟨hDue, hPerm, -, hAccepted⟩ := Queue.spec_of_popAt? hPop
  have hStep := Ledger.Step.take { Ledger.of s xs with taken := since } m q hPop
  have hCount : Ledger.of (s'.countFor s₀.workers.length) xs =
      { Ledger.of s xs with queue := q, taken := (Ledger.of s xs).taken ++ [m] } := hLedger
  have hQueue : (s'.countFor s₀.workers.length).queue = q := congrArg Ledger.queue hCount
  have hNow : (s'.countFor s₀.workers.length).clock.now = s.clock.now :=
    congrArg Ledger.now hCount
  obtain ⟨hFallback, hSettings, hSession, hWorkers⟩ := SameFrame.take hTake
  have hRecord : s'.workers[s₀.workers.length]? = some ⟨since.length, stopping, .live⟩ := by
    rw [hWorkers]
    exact h.record
  constructor
  case aside =>
    refine ⟨hFallback.trans h.aside.fallback, (congrArg Clock.mk hNow).trans h.aside.clock, ?_, ?_⟩
    · rw [hQueue, hAccepted, h.aside.accepted]
    · rw [hQueue]
      -- the message moves from the queue to the end of what was taken
      refine (h.aside.perm.trans (hPerm.append_right since)).trans ?_
      rw [← List.append_assoc]
      have hSwap : ([m] ++ (q.pending ++ since)).Perm (q.pending ++ since ++ [m]) :=
        List.perm_append_comm
      exact hSwap
  case settings => exact hSettings.trans h.settings
  case session => exact hSession.trans h.session
  case workers => simp [countFor, updateWorker, hWorkers, h.workers]
  case record => simp [worker?, countFor, updateWorker, hRecord]
  case due =>
    intro x hx
    rw [hNow]
    rcases List.mem_append.1 hx with hx | hx
    · exact h.due x hx
    · rw [List.mem_singleton.1 hx]
      exact hDue
  case taken =>
    rw [hCount, ← List.append_assoc, ← h.taken]
  case called =>
    have hCalled := h.called
    rw [List.map_nil, List.append_nil] at hCalled
    rw [hCount, List.map_append, ← List.append_assoc, hCalled]
  case inOrder =>
    intro hTimely
    have hBefore : (Ledger.of s xs).Timely := by
      rw [hCount] at hTimely
      exact hTimely
    rw [hCount]
    exact (h.inOrder hBefore).step hBefore hStep
  case idle => exact fun hExited => by cases hExited

theorem phase?_eq (h : InSession s₀ c xs since hand stopping phase s) :
    s.phase? s₀.workers.length = some phase := by
  rw [phase?, h.record]
  rfl

theorem isLive_iff (h : InSession s₀ c xs since hand stopping phase s) :
    s.isLive s₀.workers.length = true ↔ phase = .live := by
  rw [State.isLive_iff, h.phase?_eq, Option.some.injEq]

theorem dispatchedBy_eq (h : InSession s₀ c xs since hand stopping phase s) :
    s.dispatchedBy s₀.workers.length = since.length := by
  rw [dispatchedBy, h.record]
  rfl

/-- If nothing is due any more, then all that would be due without the worker was taken. -/
theorem perm_of_idle (h : InSession s₀ c xs since hand stopping phase s)
    (hIdle : ∀ m ∈ s.queue.pending, s.clock.now < m.due) :
    since.Perm c.dueNow ∧ s.queue.pending.Perm c.dueLater := by
  rw [h.aside.clock] at hIdle
  have hDue := h.due
  rw [h.aside.clock] at hDue
  -- all that was taken is due, and all that is pending is not
  have hNow := h.aside.perm.filter fun m => m.due ≤ c.clock.now
  have hLater := h.aside.perm.filter fun m => c.clock.now < m.due
  rw [List.filter_append] at hNow hLater
  constructor
  · have hNone : (s.queue.pending.filter fun m => m.due ≤ c.clock.now) = [] :=
      List.filter_eq_nil_iff.2 fun m hm => by simpa using hIdle m hm
    have hAll : (since.filter fun m => m.due ≤ c.clock.now) = since :=
      List.filter_eq_self.2 fun m hm => by simpa using hDue m hm
    rw [hNone, hAll] at hNow
    exact hNow.symm
  · have hAll : (s.queue.pending.filter fun m => c.clock.now < m.due) = s.queue.pending :=
      List.filter_eq_self.2 fun m hm => by simpa using hIdle m hm
    have hNone : (since.filter fun m => c.clock.now < m.due) = [] :=
      List.filter_eq_nil_iff.2 fun m hm => by simpa using hDue m hm
    rw [hAll, hNone, List.append_nil] at hLater
    exact hLater.symm

theorem of_isStopping (h : InSession s₀ c xs since hand stopping phase s)
    (hStopping : s.isStopping s₀.workers.length = true) : stopping = true := by
  rw [isStopping, h.record] at hStopping
  exact hStopping

theorem exit (h : InSession s₀ c xs since [] true .live s)
    (hIdle : ∀ m ∈ s.queue.pending, s.clock.now < m.due) :
    InSession s₀ c xs since [] true .exited (s.exitWorker s₀.workers.length) where
  aside := ⟨h.aside.fallback, h.aside.clock, h.aside.accepted, h.aside.perm⟩
  settings := h.settings
  session := h.session
  workers := by simp [State.exitWorker, updateWorker, note, h.workers]
  record := by
    have hRecord : s.workers[s₀.workers.length]? = some ⟨since.length, true, .live⟩ := h.record
    simp [worker?, State.exitWorker, updateWorker, note, hRecord]
  due := h.due
  taken := h.taken
  called := h.called
  inOrder := h.inOrder
  idle := fun _ => hIdle

end InSession

end State

namespace Machine

/-! ### Where the threads of a session are -/

/-- Where the main thread is: it has so many requests left before it stops the session, or waits for
the worker. -/
inductive Telling (k : Nat) : List (Request κ) → (stopping : Bool) → Task σ κ → Prop
  | asking (future : List (Request κ)) :
      Telling k future false ⟨.run (.inTurn (future ++ [.stop])), []⟩
  | halting : Telling k [] false ⟨.halt k fun _ => .inTurn [], []⟩
  | joining : Telling k [] true ⟨.join k fun _ => .inTurn [], []⟩

/-- Where the worker is, with what message in its hand and whether it has the lock. -/
inductive Working (k : Nat) (stopping : Bool) :
    List (Message κ) → (held : Bool) → Phase → Task σ κ → Prop
  | acquire (last : Bool) (hLast : last = true → stopping = true) :
      Working k stopping [] false .live ⟨.acquire (.worker k last), []⟩
  | take (last : Bool) (hLast : last = true → stopping = true) :
      Working k stopping [] true .live ⟨.take (.worker k last), []⟩
  | deliver (m : Message κ) (last : Bool) (hLast : last = true → stopping = true) :
      Working k stopping [m] true .live ⟨.deliver m (.worker k last), []⟩
  | handle (m : Message κ) (last : Bool) (hLast : last = true → stopping = true)
      (p : Program σ κ Unit) (hQuiet : p.Quiet) :
      Working k stopping [] true .live ⟨.run p, [.delivery m (.worker k last)]⟩
  | wait : Working k stopping [] false .live ⟨.wait k, []⟩
  | ended (hStopping : stopping = true) :
      Working k stopping [] false .exited ⟨.ended (.ok ()), []⟩

/-- What a main thread has left to do before it waits for the worker, besides making requests. -/
def untilJoin : Control σ κ → Nat
  | .run _ => 2
  | .halt .. => 1
  | _ => 0

def told (w : World σ κ) (M₀ : Machine σ κ) (past : List (Request κ)) : List (Exchange κ) :=
  ⟨.main, .start, .ok .nothing, M₀.state.clock.now⟩ :: (M₀.state.tell w past).1

/-- A session is going on that has begun on a machine at rest. -/
structure Underway (w : World σ κ) (M₀ : Machine σ κ) (past future : List (Request κ))
    (since hand : List (Message κ)) (stopping held : Bool) (phase : Phase) (M : Machine σ κ) :
    Prop where
  main : Telling M₀.state.workers.length future stopping (M.tasks .main)
  worker : Working M₀.state.workers.length stopping hand held phase
    (M.tasks (.worker M₀.state.workers.length))
  others : ∀ j ≠ M₀.state.workers.length, M.tasks (.worker j) = M₀.tasks (.worker j)
  dispatcher : M.dispatcher = if held then some (.worker M₀.state.workers.length) else none
  depth : M.state.depth = if held then 1 else 0
  exchanges : M.exchanges = M₀.exchanges ++ told w M₀ past
  state : M₀.state.InSession (M₀.state.tell w past).2 (told w M₀ past) since hand stopping phase
    M.state

/-- What has become of a session that began on a machine at rest and made these requests, while its
worker took these messages. -/
structure Settled (w : World σ κ) (M₀ : Machine σ κ) (ops : List (Request κ))
    (since : List (Message κ)) (M : Machine σ κ) : Prop where
  session : M.state.session = none
  clock : M.state.clock = (M₀.state.tell w ops).2.clock
  taken : M.ledger.taken = M₀.ledger.taken ++ since
  /-- All that was taken was delivered, in this order. -/
  called : M.ledger.called = M₀.ledger.called ++ since.map Message.withCall
  /-- What was taken is what was due in the end. -/
  due : since.Perm (M₀.state.tell w ops).2.dueNow
  pending : M.state.queue.pending.Perm (M₀.state.tell w ops).2.dueLater
  exchanges : M.exchanges = M₀.exchanges ++ told w M₀ ops ++
    [⟨.main, .stop, M₀.state.settings.stopOutcome (M₀.state.tell w ops).2.dueNow.length,
      (M₀.state.tell w ops).2.clock.now⟩]
  /-- If nothing was sent for a time that had passed, messages were taken in order. -/
  inOrder : (∀ d ∈ (M₀.state.tell w ops).1.filterMap Exchange.dated?, d.1 ≤ d.2.due) →
    since = Message.inOrder (M₀.state.tell w ops).2.dueNow

/-- A session is over, and so is all that its threads had to do. -/
structure Closed (w : World σ κ) (M₀ : Machine σ κ) (ops : List (Request κ))
    (since : List (Message κ)) (M : Machine σ κ) : Prop extends Settled w M₀ ops since M where
  main : M.tasks .main = ⟨.run (.inTurn []), []⟩ ∨ M.tasks .main = ⟨.ended (.ok ()), []⟩
  worker : M.tasks (.worker M₀.state.workers.length) = ⟨.ended (.ok ()), []⟩
  others : ∀ j ≠ M₀.state.workers.length, M.tasks (.worker j) = M₀.tasks (.worker j)
  workers : M.state.workers.length = M₀.state.workers.length + 1

section Underway

variable {w : World σ κ} {M₀ M M' : Machine σ κ} {past future : List (Request κ)}
  {since hand : List (Message κ)} {stopping held : Bool} {phase : Phase}

/-- The worker does something that concerns neither the main thread nor messages. -/
theorem Underway.go (h : Underway w M₀ past future since hand stopping held phase M)
    {since' hand' : List (Message κ)} {held' : Bool} {phase' : Phase} {t : Task σ κ}
    (hTask : M'.tasks (.worker M₀.state.workers.length) = t)
    (hOthers : ∀ other, other ≠ .worker M₀.state.workers.length → M'.tasks other = M.tasks other)
    (hExchanges : M'.exchanges = M.exchanges)
    (hDispatcher : M'.dispatcher = if held' then some (.worker M₀.state.workers.length) else none)
    (hDepth : M'.state.depth = if held' then 1 else 0)
    (hWorker : Working M₀.state.workers.length stopping hand' held' phase' t)
    (hState : M₀.state.InSession (M₀.state.tell w past).2 (told w M₀ past) since' hand' stopping
      phase' M'.state) :
    Underway w M₀ past future since' hand' stopping held' phase' M' where
  main := by
    rw [hOthers .main (by simp)]
    exact h.main
  worker := hTask ▸ hWorker
  others j hj := by rw [hOthers (.worker j) (by simpa using hj), h.others j hj]
  dispatcher := hDispatcher
  depth := hDepth
  exchanges := hExchanges.trans h.exchanges
  state := hState

/-- **Whatever the worker does next, the session is as it should be.** -/
theorem Underway.worker_step (hQuiet : w.Quiet)
    (h : Underway w M₀ past future since hand stopping held phase M)
    (hWait : M.state.settings.checkWait = .ok ())
    (hStep : M.step w (.worker M₀.state.workers.length) = some M') :
    ∃ since' hand' held' phase',
      Underway w M₀ past future since' hand' stopping held' phase' M' := by
  have hThread := hasThread_of_step hStep
  have hWorker := h.worker
  have hState := h.state
  have hOthers := (frame_step hStep).others
  rw [step] at hStep
  generalize hTask : M.tasks (.worker M₀.state.workers.length) = t at hWorker hStep
  cases hWorker with
  | acquire last hLast =>
    simp only [hThread, if_true, h.dispatcher, Bool.false_eq_true, if_false, true_or,
      Option.some.injEq] at hStep
    subst hStep
    refine ⟨since, [], true, .live, h.go (put_tasks_self _ M.state.enter) hOthers rfl rfl ?_
      (.take last hLast) (hState.same rfl ⟨rfl, rfl, rfl, rfl⟩)⟩
    show M.state.depth + 1 = 1
    rw [h.depth]
    rfl
  | take last hLast =>
    simp only [hThread, if_true] at hStep
    cases hTake : M.state.take? (.worker M₀.state.workers.length) with
    | some taken =>
      obtain ⟨m, s⟩ := taken
      simp only [hTake, Option.some.injEq] at hStep
      subst hStep
      refine ⟨since ++ [m], [m], true, .live, h.go (put_tasks_self _ _) hOthers rfl h.dispatcher ?_
        (.deliver m last hLast) (hState.take hTake)⟩
      exact (depth_taken hTake (.worker M₀.state.workers.length last)).trans h.depth
    | none =>
      simp only [hTake, Option.some.injEq] at hStep
      subst hStep
      have hIdle := State.take?_eq_none_iff.1 hTake
      have hFree : M.state.leave.depth = 0 := by
        show M.state.depth - 1 = 0
        rw [h.depth]
        rfl
      have hLeft : M₀.state.InSession (M₀.state.tell w past).2 (told w M₀ past) since [] stopping
          .live M.state.leave := hState.same rfl ⟨rfl, rfl, rfl, rfl⟩
      cases last with
      | false =>
        exact ⟨since, [], false, .live, h.go (put_tasks_self _ M.release.state) hOthers rfl
          (if_pos hFree) hFree .wait hLeft⟩
      | true =>
        obtain rfl := hLast rfl
        exact ⟨since, [], false, .exited, h.go (put_tasks_self _ _) hOthers rfl (if_pos hFree)
          hFree (.ended rfl) (hLeft.exit hIdle)⟩
  | deliver m last hLast =>
    simp only [hThread, if_true, Option.some.injEq] at hStep
    subst hStep
    refine ⟨since, [], true, .live, h.go (put_tasks_self _ _) hOthers rfl h.dispatcher ?_
      (.handle m last hLast _ (hQuiet.delivery m)) (hState.deliver _)⟩
    exact (depth_atDelivery _ _).trans h.depth
  | handle m last hLast p hp =>
    simp only [hThread, if_true, Option.some.injEq] at hStep
    subst hStep
    cases p with
    | done u =>
      exact ⟨since, [], true, .live, h.go (put_tasks_self _ M.state) hOthers rfl
        h.dispatcher h.depth (.take last hLast) hState⟩
    | load next =>
      exact ⟨since, [], true, .live, h.go (put_tasks_self _ M.state) hOthers rfl
        h.dispatcher h.depth (.handle m last hLast _ (hp _)) hState⟩
    | store memory next =>
      exact ⟨since, [], true, .live, h.go (put_tasks_self _ _) hOthers rfl h.dispatcher h.depth
        (.handle m last hLast _ hp) (hState.same rfl ⟨rfl, rfl, rfl, rfl⟩)⟩
    | look next =>
      exact ⟨since, [], true, .live, h.go (put_tasks_self _ M.state) hOthers rfl
        h.dispatcher h.depth (.handle m last hLast _ (hp _)) hState⟩
    | fail e => exact hp.elim
    | ask r next => exact hp.elim
  | wait =>
    simp only [hThread, if_true, Option.some.injEq, idle, hWait] at hStep
    split at hStep
    · rename_i hStopping
      subst hStep
      exact ⟨since, [], false, .live, h.go (put_tasks_self _ M.state) hOthers rfl
        h.dispatcher h.depth (.acquire true fun _ => hState.of_isStopping hStopping) hState⟩
    · have hGo : M' = M.put (.worker M₀.state.workers.length)
          ⟨.acquire (.worker M₀.state.workers.length false), []⟩ M.state := by
        split at hStep <;> exact hStep.symm
      subst hGo
      exact ⟨since, [], false, .live, h.go (put_tasks_self _ M.state) hOthers rfl
        h.dispatcher h.depth (.acquire false (by simp)) hState⟩
  | ended hStopping =>
    simp only [hThread, if_true] at hStep
    cases hStep

/-- The main thread does something that concerns neither the worker nor messages. -/
theorem Underway.goMain (h : Underway w M₀ past future since hand stopping held phase M)
    {past' future' : List (Request κ)} {stopping' : Bool} {t : Task σ κ}
    (hTask : M'.tasks .main = t)
    (hOthers : ∀ other, other ≠ .main → M'.tasks other = M.tasks other)
    (hDispatcher : M'.dispatcher = M.dispatcher) (hDepth : M'.state.depth = M.state.depth)
    (hMain : Telling M₀.state.workers.length future' stopping' t)
    (hWorker : Working M₀.state.workers.length stopping' hand held phase
      (M.tasks (.worker M₀.state.workers.length)))
    (hExchanges : M'.exchanges = M₀.exchanges ++ told w M₀ past')
    (hState : M₀.state.InSession (M₀.state.tell w past').2 (told w M₀ past') since hand stopping'
      phase M'.state) :
    Underway w M₀ past' future' since hand stopping' held phase M' where
  main := hTask ▸ hMain
  worker := by
    rw [hOthers _ (by simp)]
    exact hWorker
  others j hj := by rw [hOthers (.worker j) (by simp), h.others j hj]
  dispatcher := hDispatcher.trans h.dispatcher
  depth := hDepth.trans h.depth
  exchanges := hExchanges
  state := hState

/-- While the main thread has requests left, the worker has not exited. -/
theorem Working.phase_eq {k : Nat} {t : Task σ κ} (h : Working k false hand held phase t) :
    phase = .live := by
  cases h with
  | ended hStopping => cases hStopping
  | _ => rfl

theorem Working.halt {k : Nat} {t : Task σ κ} (h : Working k false hand held phase t) :
    Working k true hand held phase t := by
  cases h with
  | acquire last hLast => exact .acquire last fun _ => rfl
  | take last hLast => exact .take last fun _ => rfl
  | deliver m last hLast => exact .deliver m last fun _ => rfl
  | handle m last hLast p hp => exact .handle m last (fun _ => rfl) p hp
  | wait => exact .wait
  | ended hStopping => exact .ended rfl

/-- **Whatever the main thread does next, the session is as it should be, or over.**  It has less
left to do then. -/
theorem Underway.main_step (hFuture : ∀ r ∈ future, r.IsSend)
    (h : Underway w M₀ past future since hand stopping held phase M)
    (hStep : M.step w .main = some M') :
    (∃ past' future' stopping', past' ++ future' = past ++ future ∧
      future'.length + untilJoin (M'.tasks .main).control <
        future.length + untilJoin (M.tasks .main).control ∧
      Underway w M₀ past' future' since hand stopping' held phase M') ∨
    (future = [] ∧ Closed w M₀ past since M') := by
  have hMain := h.main
  have hWorker := h.worker
  have hState := h.state
  have hOthers := (frame_step hStep).others
  have hThread : M.state.hasThread .main = true := rfl
  rw [step] at hStep
  generalize hTask : M.tasks .main = t at hMain hStep
  cases hMain with
  | asking =>
    cases future with
    | nil =>
      simp only [hThread, if_true, List.nil_append, Program.inTurn, proceed, ask, State.respond,
        hState.session, Option.some.injEq] at hStep
      subst hStep
      refine Or.inl ⟨past, [], false, rfl, ?_, h.goMain (put_tasks_self _ M.state) hOthers rfl rfl
        .halting hWorker h.exchanges hState⟩
      rw [put_tasks_self]
      exact Nat.lt_succ_self 1
    | cons r rest =>
      -- the answer is the one that the sends alone get, whatever the worker has taken
      obtain rfl := hWorker.phase_eq
      have hr := hFuture r List.mem_cons_self
      obtain ⟨result, c, s, hAlone, hReply, hAside⟩ := hState.aside.respond w .main hr
      simp only [hThread, if_true, List.cons_append, Program.inTurn, proceed, ask, hReply,
        Option.some.injEq] at hStep
      subst hStep
      have hTell := State.tell_concat hAlone
      have hTold : told w M₀ (past ++ [r]) =
          told w M₀ past ++ [⟨.main, r, result, s.clock.now⟩] := by
        rw [told, hTell, hAside.clock]
        rfl
      have hNext : (M.answer .main r result (fun _ => .inTurn (rest ++ [.stop])) [] s).tasks .main =
          ⟨.run (.inTurn (rest ++ [.stop])), []⟩ := by simp [answer, put]
      refine Or.inl ⟨past ++ [r], rest, false, by simp, ?_, h.goMain hNext hOthers rfl ?_
        (.asking rest) hWorker ?_ ?_⟩
      · rw [hNext]
        exact Nat.lt_succ_self (rest.length + 2)
      · exact (spec_of_respond hReply 0).1
      · rw [hTold, ← List.append_assoc, ← h.exchanges]
        rfl
      · rw [hTold, hTell]
        exact hState.send hr hAlone hReply
  | halting =>
    simp only [hThread, if_true, Option.some.injEq] at hStep
    subst hStep
    refine Or.inl ⟨past, [], true, rfl, ?_, h.goMain (put_tasks_self _ _) hOthers rfl rfl
      .joining hWorker.halt h.exchanges hState.requestStop⟩
    rw [put_tasks_self]
    exact Nat.lt_succ_self 0
  | joining =>
    have hLive := hState.isLive_iff
    simp only [hThread, if_true, reduceCtorEq, if_false] at hStep
    generalize hTask' : M.tasks (.worker M₀.state.workers.length) = t' at hWorker
    cases hWorker with
    | ended =>
      have hGone : M.state.isLive M₀.state.workers.length = false := by
        simpa using hLive
      simp only [hGone, Bool.false_eq_true, if_false, Option.some.injEq] at hStep
      subst hStep
      -- the worker exits only when nothing is due, and the clock has not moved since
      obtain ⟨hDue, hPending⟩ := hState.perm_of_idle (hState.idle rfl)
      have hClock := hState.aside.clock
      have hResult : (M.state.closeSession .main M₀.state.workers.length).stopResult
          M₀.state.workers.length =
            M₀.state.settings.stopOutcome (M₀.state.tell w past).2.dueNow.length := by
        have hNotDied (e : Failure) :
            M.state.phase? M₀.state.workers.length ≠ some (.died e) := by
          rw [hState.phase?_eq]
          simp
        have hStop := State.stopResult_of_not_died hNotDied
        rw [hState.settings, hState.dispatchedBy_eq, hDue.length_eq] at hStop
        exact hStop
      refine Or.inr ⟨rfl, ⟨rfl, hClock, ?_, ?_, hDue, hPending, ?_, fun hTimely => ?_⟩, ?_, ?_, ?_,
        hState.workers⟩
      · show (Ledger.of (M.state.closeSession .main M₀.state.workers.length) _).taken = _
        rw [Ledger.of_closeSession]
        exact hState.taken
      · show (Ledger.of (M.state.closeSession .main M₀.state.workers.length) _).called = _
        rw [Ledger.of_closeSession]
        have hCalled := hState.called
        rw [List.map_nil, List.append_nil] at hCalled
        exact hCalled.symm
      · rw [← hResult, ← h.exchanges, ← hClock]
        rfl
      · exact Message.eq_inOrder hDue (hState.inOrder hTimely).taken
      · exact Or.inl (by simp [answer, put])
      · exact (hOthers _ (by simp)).trans hTask'
      · exact fun j hj => (hOthers _ (by simp)).trans (h.others j hj)
    | _ => simp [hLive.2 rfl] at hStep

end Underway

end Machine

end VirtualLooper
