import VirtualLooper.Proofs.Looper.Ledger

/-!
# The turns of a thread

A step of a machine is one of five turns: the thread goes on, enters a loop, takes a message, makes
the call of one, or leaves a loop.  `turn_of_step` says of each what it does to messages, to the
lock of the loops and to what the thread has in its hands, and `frame_step` what none of them
touches.  What is proved of all runs is proved from these two.

A first thing that follows is that the lock does what it is for: the thread that takes messages is
as deep in loops as the looper says, and all others are in none (`exclusive_of_reachable`).
-/

namespace VirtualLooper

variable {σ κ : Type}

/-! ### What a thread has in its hands -/

def Caller.message? : Caller σ κ → Option (Message κ)
  | delivery m _ => some m
  | handling .. => none

namespace Control

def inHand : Control σ κ → List (Message κ)
  | deliver m _ => [m]
  | _ => []

def loops : Control σ κ → Nat
  | take _ | deliver .. => 1
  | _ => 0

end Control

namespace Task

def running (t : Task σ κ) : List (Message κ) := t.callers.filterMap Caller.message?

def delivering (t : Task σ κ) : List (Message κ) := t.control.inHand ++ t.running

def loops (t : Task σ κ) : Nat := t.running.length + t.control.loops

theorem loops_pos {t : Task σ κ} (h : 0 < t.control.loops) : 0 < t.loops :=
  Nat.lt_of_lt_of_le h (Nat.le_add_left _ _)

end Task

def Exchange.dispatch? (x : Exchange κ) : Option Reply :=
  match x.request, x.result with
  | .dispatchAll, .ok reply => some reply
  | .dispatchNext, .ok reply => some reply
  | _, _ => none

namespace Machine

def ledger (M : Machine σ κ) : Ledger κ := .of M.state M.exchanges

/-- Is nothing due? -/
def IsIdle (M : Machine σ κ) : Prop := ∀ m ∈ M.state.queue.pending, M.state.clock.now < m.due

/-! ### Turns -/

/-- How a thread leaves a loop, and the answers that it gives. -/
inductive Leave (thread : Thread) (M : Machine σ κ) : List (Exchange κ) → Prop
  /-- All is delivered. -/
  | all (count : Nat) (next : Except Failure Reply → Program σ κ Unit)
      (hControl : (M.tasks thread).control = .take (.all count next)) (hIdle : M.IsIdle) :
      Leave thread M [⟨thread, .dispatchAll, .ok (.count count), M.state.clock.now⟩]
  /-- There is no next message that is due. -/
  | none (next : Except Failure Reply → Program σ κ Unit)
      (hControl : (M.tasks thread).control = .take (.one next)) (hIdle : M.IsIdle) :
      Leave thread M [⟨thread, .dispatchNext, .ok (.flag false), M.state.clock.now⟩]
  /-- The next message is delivered. -/
  | one (m : Message κ) (next : Except Failure Reply → Program σ κ Unit)
      (callers : List (Caller σ κ))
      (hCallers : (M.tasks thread).callers = .delivery m (.one next) :: callers) :
      Leave thread M [⟨thread, .dispatchNext, .ok (.flag true), M.state.clock.now⟩]
  /-- A delivery has failed. -/
  | failed (r : Request κ) (e : Failure) :
      Leave thread M [⟨thread, r, .error e, M.state.clock.now⟩]
  /-- A worker does not answer. -/
  | worker : Leave thread M []

/-- What a step of a thread does. -/
inductive Turn (thread : Thread) (M M' : Machine σ κ) : Prop
  /-- The thread goes on. -/
  | go (hEdit : M.ledger.Edit M'.ledger) (hLock : M'.dispatcher = M.dispatcher)
      (hDepth : M'.state.depth = M.state.depth)
      (hLoops : (M'.tasks thread).loops = (M.tasks thread).loops)
      (hHand : (M.tasks thread).control.inHand = [])
      (hHand' : (M'.tasks thread).control.inHand = [])
      (hDelivering : (M'.tasks thread).delivering ⊆ (M.tasks thread).delivering)
      (xs : List (Exchange κ)) (hExchanges : M'.exchanges = M.exchanges ++ xs)
      (hNone : ∀ x ∈ xs, x.dispatch? = none)
  /-- The thread enters a loop. -/
  | enter (hLedger : M'.ledger = M.ledger)
      (hFree : M.dispatcher = none ∨ M.dispatcher = some thread)
      (hLock : M'.dispatcher = some thread) (hDepth : M'.state.depth = M.state.depth + 1)
      (hLoops : (M'.tasks thread).loops = (M.tasks thread).loops + 1)
      (hHand : (M.tasks thread).control.inHand = [])
      (hHand' : (M'.tasks thread).control.inHand = [])
      (hDelivering : (M'.tasks thread).delivering = (M.tasks thread).delivering)
      (hExchanges : M'.exchanges = M.exchanges)
  /-- The thread takes a message. -/
  | take (m : Message κ) (q : Queue κ) (loop : Loop σ κ)
      (hControl : (M.tasks thread).control = .take loop)
      (hPop : M.ledger.queue.popAt? M.ledger.now = some (m, q))
      (hLedger : M'.ledger =
        { M.ledger with queue := q, taken := M.ledger.taken ++ [m] })
      (hLock : M'.dispatcher = M.dispatcher) (hDepth : M'.state.depth = M.state.depth)
      (hTask : M'.tasks thread = ⟨.deliver m loop.counted, (M.tasks thread).callers⟩)
      (hExchanges : M'.exchanges = M.exchanges)
  /-- The thread makes the call of a message. -/
  | call (m : Message κ) (loop : Loop σ κ) (p : Program σ κ Unit)
      (hControl : (M.tasks thread).control = .deliver m loop)
      (hLedger : M'.ledger =
        { M.ledger with called := M.ledger.called ++ [(m, m.call?)] })
      (hLock : M'.dispatcher = M.dispatcher) (hDepth : M'.state.depth = M.state.depth)
      (hTask : M'.tasks thread = ⟨.run p, .delivery m loop :: (M.tasks thread).callers⟩)
      (hExchanges : M'.exchanges = M.exchanges)
  /-- The thread leaves a loop. -/
  | leave (hLedger : M'.ledger = M.ledger)
      (hLock : M'.dispatcher = if M.state.depth - 1 = 0 then Option.none else M.dispatcher)
      (hDepth : M'.state.depth = M.state.depth - 1)
      (hLoops : (M'.tasks thread).loops + 1 = (M.tasks thread).loops)
      (hHand : (M.tasks thread).control.inHand = [])
      (hHand' : (M'.tasks thread).control.inHand = [])
      (hDelivering : (M'.tasks thread).delivering ⊆ (M.tasks thread).delivering)
      (xs : List (Exchange κ)) (hExchanges : M'.exchanges = M.exchanges ++ xs)
      (hLeave : Leave thread M xs)

theorem Turn.step {thread : Thread} {M M' : Machine σ κ} (h : Turn thread M M') :
    M.ledger.Step M'.ledger := by
  cases h with
  | go hEdit => exact .edit hEdit
  | enter hLedger => exact hLedger ▸ .edit (.quiet _)
  | take m q loop hControl hPop hLedger => exact hLedger ▸ .take _ m q hPop
  | call m loop p hControl hLedger => exact hLedger ▸ .call _ m
  | leave hLedger => exact hLedger ▸ .edit (.quiet _)

/-! ### Every step is a turn -/

section Turns

variable {w : World σ κ} {thread : Thread} {M : Machine σ κ}

@[simp]
theorem put_tasks_self (t : Task σ κ) (s : State σ κ) : (M.put thread t s).tasks thread = t :=
  if_pos rfl

@[simp]
theorem answer_tasks_self (r : Request κ) (result : Except Failure Reply)
    (next : Except Failure Reply → Program σ κ Unit) (callers : List (Caller σ κ)) (s : State σ κ) :
    (M.answer thread r result next callers s).tasks thread = ⟨.run (next result), callers⟩ :=
  if_pos rfl

/-- A thread that has nothing in its hands goes on with something else. -/
theorem turn_put {t : Task σ κ} {s : State σ κ}
    (hLedger : Ledger.of s M.exchanges = M.ledger) (hDepth : s.depth = M.state.depth)
    (hLoops : t.loops = (M.tasks thread).loops) (hHand : (M.tasks thread).control.inHand = [])
    (hHand' : t.control.inHand = []) (hDelivering : t.delivering ⊆ (M.tasks thread).delivering) :
    Turn thread M (M.put thread t s) := by
  refine Turn.go ?_ rfl hDepth (by rwa [put_tasks_self]) hHand (by rwa [put_tasks_self])
    (by rwa [put_tasks_self]) [] (List.append_nil _).symm (by simp)
  have hSame : (M.put thread t s).ledger = M.ledger := hLedger
  rw [hSame]
  exact Ledger.Edit.quiet _

theorem turn_put_below {c : Control σ κ} {s : State σ κ} (hc : c.loops = 0 ∧ c.inHand = [])
    (hLedger : Ledger.of s M.exchanges = M.ledger) (hDepth : s.depth = M.state.depth)
    (hLoops : (M.tasks thread).control.loops = 0)
    (hHand : (M.tasks thread).control.inHand = []) :
    Turn thread M (M.put thread ⟨c, (M.tasks thread).callers⟩ s) := by
  refine turn_put hLedger hDepth ?_ hHand hc.2 ?_
  · rw [Task.loops, Task.loops, hc.1, hLoops]
    rfl
  · rw [Task.delivering, Task.delivering, hc.2, hHand]
    exact List.Subset.refl _

/-- A thread that is in no loop of its own right now gets an answer. -/
theorem turn_answer {below : List (Caller σ κ)} {r : Request κ} {result : Except Failure Reply}
    {next : Except Failure Reply → Program σ κ Unit} {s : State σ κ}
    (hEdit : M.ledger.Edit (.of s (M.exchanges ++ [⟨thread, r, result, s.clock.now⟩])))
    (hDepth : s.depth = M.state.depth) (hLoops : (M.tasks thread).control.loops = 0)
    (hHand : (M.tasks thread).control.inHand = [])
    (hBelow : below.filterMap Caller.message? = (M.tasks thread).running)
    (hNone : (⟨thread, r, result, s.clock.now⟩ : Exchange κ).dispatch? = none) :
    Turn thread M (M.answer thread r result next below s) := by
  have hTask : (M.answer thread r result next below s).tasks thread =
      ⟨.run (next result), below⟩ := put_tasks_self (M := M) _ s
  have hRunning : ((M.answer thread r result next below s).tasks thread).running =
      (M.tasks thread).running := by rw [hTask, ← hBelow]; rfl
  refine Turn.go hEdit rfl hDepth ?_ hHand (by rw [hTask]; rfl) ?_ _ rfl (by simpa using hNone)
  · rw [Task.loops, Task.loops, hRunning, hTask, hLoops]
    rfl
  · rw [Task.delivering, Task.delivering, hRunning, hTask, hHand]
    exact List.Subset.refl _

theorem turn_leave {c : Control σ κ} {below : List (Caller σ κ)} {s : State σ κ}
    {xs : List (Exchange κ)} (hLedger : Ledger.of s (M.exchanges ++ xs) = M.ledger)
    (hDepth : s.depth = M.state.depth - 1) (hc : c.loops = 0 ∧ c.inHand = [])
    (hLoops : (M.tasks thread).loops = (below.filterMap Caller.message?).length + 1)
    (hHand : (M.tasks thread).control.inHand = [])
    (hBelow : below.filterMap Caller.message? ⊆ (M.tasks thread).running)
    (hLeave : Leave thread M xs) :
    Turn thread M { M.release.put thread ⟨c, below⟩ s with exchanges := M.exchanges ++ xs } := by
  have hTask : (M.release.put thread ⟨c, below⟩ s).tasks thread = ⟨c, below⟩ :=
    put_tasks_self _ _
  refine Turn.leave hLedger rfl hDepth ?_ hHand ?_ ?_ xs rfl hLeave
  · rw [hTask, hLoops, Task.loops, hc.1]
    rfl
  · rw [hTask]
    exact hc.2
  · rw [hTask, Task.delivering, Task.delivering, hc.2, hHand]
    exact hBelow

theorem turn_leave_silent {c : Control σ κ} {below : List (Caller σ κ)} {s : State σ κ}
    (hLedger : Ledger.of s M.exchanges = M.ledger)
    (hDepth : s.depth = M.state.depth - 1) (hc : c.loops = 0 ∧ c.inHand = [])
    (hLoops : (M.tasks thread).loops = (below.filterMap Caller.message?).length + 1)
    (hHand : (M.tasks thread).control.inHand = [])
    (hBelow : below.filterMap Caller.message? ⊆ (M.tasks thread).running) :
    Turn thread M (M.release.put thread ⟨c, below⟩ s) := by
  have hTurn : Turn thread M
      { M.release.put thread ⟨c, below⟩ s with exchanges := M.exchanges ++ [] } :=
    turn_leave (by rwa [List.append_nil]) hDepth hc hLoops hHand hBelow Leave.worker
  rwa [List.append_nil] at hTurn

theorem turn_exhausted {loop : Loop σ κ} (hControl : (M.tasks thread).control = .take loop)
    (hIdle : M.IsIdle) : Turn thread M (M.exhausted thread (M.tasks thread).callers loop) := by
  have hLoops : (M.tasks thread).loops = (M.tasks thread).running.length + 1 := by
    rw [Task.loops, hControl]
    rfl
  have hHand : (M.tasks thread).control.inHand = [] := by rw [hControl]; rfl
  cases loop with
  | all count next =>
    refine turn_leave ?_ rfl ⟨rfl, rfl⟩ hLoops hHand (List.Subset.refl _)
      (Leave.all count next hControl hIdle)
    rw [Ledger.of_append_quiet _ _ ⟨rfl, rfl, rfl⟩, Ledger.of_note, Ledger.of_recordHistory _ _ rfl]
    rfl
  | one next =>
    refine turn_leave ?_ rfl ⟨rfl, rfl⟩ hLoops hHand (List.Subset.refl _)
      (Leave.none next hControl hIdle)
    rw [Ledger.of_append_quiet _ _ ⟨rfl, rfl, rfl⟩]
    rfl
  | worker session last =>
    cases last with
    | false => exact turn_leave_silent rfl rfl ⟨rfl, rfl⟩ hLoops hHand (List.Subset.refl _)
    | true => exact turn_leave_silent rfl rfl ⟨rfl, rfl⟩ hLoops hHand (List.Subset.refl _)

variable {p : Program σ κ Unit} {callers : List (Caller σ κ)}

/-- While the program of a delivery runs, the thread is in the loop of that delivery. -/
theorem hands_of_delivery {m : Message κ} {loop : Loop σ κ}
    (hTask : M.tasks thread = ⟨.run p, .delivery m loop :: callers⟩) :
    (M.tasks thread).control.inHand = [] ∧
      (M.tasks thread).loops = (callers.filterMap Caller.message?).length + 1 ∧
      callers.filterMap Caller.message? ⊆ (M.tasks thread).running := by
  rw [hTask]
  exact ⟨rfl, rfl, List.subset_cons_self _ _⟩

theorem turn_delivered {m : Message κ} {loop : Loop σ κ}
    (hTask : M.tasks thread = ⟨.run p, .delivery m loop :: callers⟩) :
    Turn thread M (M.delivered thread callers loop) := by
  obtain ⟨hHand, hLoops, hBelow⟩ := hands_of_delivery hTask
  have hTake : Turn thread M (M.put thread ⟨.take loop, callers⟩ M.state) := by
    refine turn_put rfl rfl hLoops.symm hHand rfl ?_
    rw [Task.delivering, Task.delivering, hHand]
    exact hBelow
  cases loop with
  | all count next => exact hTake
  | one next =>
    refine turn_leave ?_ rfl ⟨rfl, rfl⟩ hLoops hHand hBelow
      (Leave.one m next callers (by rw [hTask]))
    rw [Ledger.of_append_quiet _ _ ⟨rfl, rfl, rfl⟩, Ledger.of_recordHistory _ _ rfl]
    rfl
  | worker session last => exact hTake

theorem turn_aborted {m : Message κ} {loop : Loop σ κ} (e : Failure)
    (hTask : M.tasks thread = ⟨.run p, .delivery m loop :: callers⟩) :
    Turn thread M (M.aborted thread e callers loop) := by
  obtain ⟨hHand, hLoops, hBelow⟩ := hands_of_delivery hTask
  cases loop with
  | all count next =>
    refine turn_leave ?_ rfl ⟨rfl, rfl⟩ hLoops hHand hBelow (Leave.failed _ e)
    rw [Ledger.of_append_quiet _ _ ⟨rfl, rfl, rfl⟩, Ledger.of_recordHistory _ _ rfl]
    rfl
  | one next =>
    refine turn_leave ?_ rfl ⟨rfl, rfl⟩ hLoops hHand hBelow (Leave.failed _ e)
    rw [Ledger.of_append_quiet _ _ ⟨rfl, rfl, rfl⟩, Ledger.of_recordHistory _ _ rfl]
    rfl
  | worker session last =>
    exact turn_leave_silent rfl rfl ⟨rfl, rfl⟩ hLoops hHand hBelow

theorem turn_finished (result : Except Failure Unit) (hTask : M.tasks thread = ⟨.run p, callers⟩) :
    Turn thread M (M.finished thread result callers) := by
  have hHand : (M.tasks thread).control.inHand = [] := by rw [hTask]; rfl
  have hLoops : (M.tasks thread).control.loops = 0 := by rw [hTask]; rfl
  cases callers with
  | nil =>
    refine turn_put rfl rfl ?_ hHand rfl (List.nil_subset _)
    rw [hTask]
    rfl
  | cons caller below =>
    cases caller with
    | delivery m loop =>
      cases result with
      | ok u => exact turn_delivered hTask
      | error e => exact turn_aborted e hTask
    | handling target tag next =>
      have hQuiet : (⟨thread, .handle target tag, result.map fun _ => Reply.nothing,
          M.state.clock.now⟩ : Exchange κ).IsQuiet := ⟨rfl, rfl, rfl⟩
      exact turn_answer (Ledger.edit_quiet _ rfl hQuiet) rfl hLoops hHand (by rw [hTask]; rfl) rfl

theorem depth_atCall (call : Call κ) (s : State σ κ) :
    (w.atCall thread call s).depth = s.depth := by
  cases call with
  | callback c => rfl
  | receiver target tag =>
    rw [World.atCall]
    split
    · rfl
    · rfl

theorem depth_atDelivery (m : Message κ) (s : State σ κ) :
    (w.atDelivery thread m s).depth = s.depth := by
  unfold World.atDelivery
  cases m.call? with
  | some call => exact depth_atCall _ _
  | none => rfl

/-- What a looper answers at once is no dispatch, and is the business of no worker. -/
theorem spec_of_respond {s s' : State σ κ} {r : Request κ} {result : Except Failure Reply}
    (h : s.respond w thread r = .reply result s') (time : Int) :
    s'.depth = s.depth ∧ s.Ages s' ∧
      (⟨thread, r, result, time⟩ : Exchange κ).dispatch? = none := by
  cases r with
  | enqueue tag delay target callback =>
    rcases Response.ofExcept_map h with ⟨e, -, -, rfl⟩ | ⟨receipt, hSent, rfl⟩
    · exact ⟨rfl, .refl _, rfl⟩
    · obtain ⟨m, hm, -, -, -, -, -, rfl⟩ := State.spec_of_enqueue hSent
      exact ⟨rfl, .refl _, rfl⟩
  | enqueueAt tag due target callback =>
    rcases Response.ofExcept_map h with ⟨e, -, -, rfl⟩ | ⟨receipt, hSent, rfl⟩
    · exact ⟨rfl, .refl _, rfl⟩
    · obtain ⟨m, hm, -, -, -, -, -, rfl⟩ := State.spec_of_enqueueAt hSent
      exact ⟨rfl, .refl _, rfl⟩
  | advance amount =>
    obtain ⟨rfl, rfl⟩ := Response.reply.inj h
    obtain ⟨n, log, -, hMove⟩ := s.spec_move w.strictLog thread amount
    rw [hMove]
    exact ⟨rfl, .refl _, rfl⟩
  | has tag target =>
    obtain ⟨rfl, rfl⟩ := Response.reply.inj h
    exact ⟨rfl, .refl _, rfl⟩
  | remove tag target =>
    obtain ⟨rfl, rfl⟩ := Response.reply.inj h
    exact ⟨rfl, .refl _, rfl⟩
  | handle target tag => cases h
  | start =>
    simp only [State.respond] at h
    split at h
    · obtain ⟨rfl, rfl⟩ := Response.reply.inj h
      exact ⟨rfl, .refl _, rfl⟩
    · obtain ⟨rfl, rfl⟩ := Response.reply.inj h
      exact ⟨rfl, .beginSession s thread, rfl⟩
  | dispatchAll =>
    simp only [State.respond] at h
    split at h
    · obtain ⟨rfl, rfl⟩ := Response.reply.inj h
      exact ⟨rfl, .refl _, rfl⟩
    · cases h
  | dispatchNext =>
    simp only [State.respond] at h
    split at h
    · obtain ⟨rfl, rfl⟩ := Response.reply.inj h
      exact ⟨rfl, .refl _, rfl⟩
    · cases h
  | stop =>
    simp only [State.respond] at h
    split at h
    · obtain ⟨rfl, rfl⟩ := Response.reply.inj h
      exact ⟨rfl, .refl _, rfl⟩
    · cases h
  | _ =>
    simp only [State.respond] at h
    split at h
    · obtain ⟨rfl, rfl⟩ := Response.reply.inj h
      exact ⟨rfl, .refl _, rfl⟩
    · obtain ⟨rfl, rfl⟩ := Response.reply.inj h
      exact ⟨rfl, .refl _, rfl⟩

theorem turn_proceed (hControl : (M.tasks thread).control = .run p) :
    Turn thread M (M.proceed w thread (M.tasks thread).callers p) := by
  have hTask : M.tasks thread = ⟨.run p, (M.tasks thread).callers⟩ := by rw [← hControl]
  have hLoops : (M.tasks thread).control.loops = 0 := by rw [hControl]; rfl
  have hHand : (M.tasks thread).control.inHand = [] := by rw [hControl]; rfl
  cases p with
  | done u => exact turn_finished _ hTask
  | fail e => exact turn_finished _ hTask
  | load next => exact turn_put_below ⟨rfl, rfl⟩ rfl rfl hLoops hHand
  | store memory next => exact turn_put_below ⟨rfl, rfl⟩ rfl rfl hLoops hHand
  | look next => exact turn_put_below ⟨rfl, rfl⟩ rfl rfl hLoops hHand
  | ask r next =>
    simp only [proceed, ask]
    cases hResponse : M.state.respond w thread r with
    | reply result s =>
      obtain ⟨hDepth, -, hNone⟩ := spec_of_respond hResponse s.clock.now
      exact turn_answer (Ledger.edit_respond _ _ hResponse) hDepth hLoops hHand rfl hNone
    | deliverAll => exact turn_put_below ⟨rfl, rfl⟩ rfl rfl hLoops hHand
    | deliverNext => exact turn_put_below ⟨rfl, rfl⟩ rfl rfl hLoops hHand
    | stop session => exact turn_put_below ⟨rfl, rfl⟩ rfl rfl hLoops hHand
    | call target tag =>
      refine turn_put ?_ ?_ ?_ hHand rfl ?_
      · rw [Ledger.of_atCall, Ledger.of_recordHistory _ _ rfl]
        rfl
      · rw [depth_atCall]
        rfl
      · show (M.tasks thread).running.length + 0 = (M.tasks thread).loops
        rw [Task.loops, hLoops]
      · rw [Task.delivering, Task.delivering, hHand]
        exact List.Subset.refl _

theorem turn_idle {session : Nat} (hControl : (M.tasks thread).control = .wait session) :
    Turn thread M (M.idle thread (M.tasks thread).callers session) := by
  have hLoops : (M.tasks thread).control.loops = 0 := by rw [hControl]; rfl
  have hHand : (M.tasks thread).control.inHand = [] := by rw [hControl]; rfl
  simp only [idle]
  split
  · exact turn_put_below ⟨rfl, rfl⟩ rfl rfl hLoops hHand
  · split
    · exact turn_put_below ⟨rfl, rfl⟩ rfl rfl hLoops hHand
    · split
      · exact turn_put_below ⟨rfl, rfl⟩ rfl rfl hLoops hHand
      · exact turn_put_below ⟨rfl, rfl⟩ rfl rfl hLoops hHand

theorem depth_taken {m : Message κ} {s s' : State σ κ} (h : s.take? thread = some (m, s'))
    (loop : Loop σ κ) : (loop.tally s').depth = s.depth := by
  obtain ⟨q, -, rfl⟩ := State.spec_of_take h
  cases loop <;> rfl

theorem turn_take {loop : Loop σ κ} {m : Message κ} {s : State σ κ}
    (hControl : (M.tasks thread).control = .take loop)
    (hTake : M.state.take? thread = some (m, s)) :
    Turn thread M
      (M.put thread ⟨.deliver m loop.counted, (M.tasks thread).callers⟩ (loop.tally s)) := by
  obtain ⟨q, hPop, hLedger⟩ := Ledger.of_take M.exchanges hTake
  refine Turn.take m q loop hControl hPop ?_ rfl (depth_taken hTake loop) (put_tasks_self _ _) rfl
  exact (Ledger.of_tally _ _ _).trans hLedger

/-- A worker that was to be joined is gone, or is the thread that joins it. -/
theorem turn_join {session : Nat} {next : Except Failure Reply → Program σ κ Unit}
    (hControl : (M.tasks thread).control = .join session next) {result : Except Failure Reply}
    {s : State σ κ} (hLedger : Ledger.of s M.exchanges = M.ledger)
    (hDepth : s.depth = M.state.depth) :
    Turn thread M (M.answer thread .stop result next (M.tasks thread).callers s) :=
  turn_answer (Ledger.edit_quiet _ hLedger ⟨rfl, rfl, rfl⟩) hDepth (by rw [hControl]; rfl)
    (by rw [hControl]; rfl) rfl rfl

/-- **Every step is a turn.** -/
theorem turn_of_step {M' : Machine σ κ} (h : M.step w thread = some M') : Turn thread M M' := by
  unfold step at h
  simp only at h
  split at h
  · cases hControl : (M.tasks thread).control with
    | run p =>
      simp only [hControl, Option.some.injEq] at h
      subst h
      exact turn_proceed hControl
    | acquire loop =>
      simp only [hControl] at h
      split at h
      · rename_i hFree
        simp only [Option.some.injEq] at h
        subst h
        have hLoops : (M.tasks thread).loops = (M.tasks thread).running.length := by
          rw [Task.loops, hControl]
          rfl
        refine Turn.enter rfl hFree rfl rfl ?_ (by rw [hControl]; rfl) ?_ ?_ rfl
        · rw [put_tasks_self, hLoops]
          rfl
        · rw [put_tasks_self]
          rfl
        · rw [put_tasks_self, Task.delivering, Task.delivering, hControl]
          rfl
      · cases h
    | take loop =>
      simp only [hControl] at h
      split at h
      · rename_i m s hTake
        simp only [Option.some.injEq] at h
        subst h
        exact turn_take hControl hTake
      · rename_i hTake
        simp only [Option.some.injEq] at h
        subst h
        exact turn_exhausted hControl (State.take?_eq_none_iff.1 hTake)
    | deliver m loop =>
      simp only [hControl, Option.some.injEq] at h
      subst h
      exact Turn.call m loop (w.delivery m) hControl (Ledger.of_atDelivery _ _ _ _ _) rfl
        (depth_atDelivery _ _) (put_tasks_self _ _) rfl
    | wait session =>
      simp only [hControl, Option.some.injEq] at h
      subst h
      exact turn_idle hControl
    | halt session next =>
      simp only [hControl, Option.some.injEq] at h
      subst h
      exact turn_put_below ⟨rfl, rfl⟩ (Ledger.of_requestStop _ _ _) rfl (by rw [hControl]; rfl)
        (by rw [hControl]; rfl)
    | join session next =>
      simp only [hControl] at h
      split at h
      · simp only [Option.some.injEq] at h
        subst h
        exact turn_join hControl (Ledger.of_endSession _ _ _) rfl
      · split at h
        · cases h
        · simp only [Option.some.injEq] at h
          subst h
          exact turn_join hControl (Ledger.of_closeSession _ _ _ _) rfl
    | ended result => simp [hControl] at h
  · cases h

end Turns

/-! ### What a step leaves alone -/

/-- A step of a thread changes nothing about other threads, and workers age. -/
structure Frame (thread : Thread) (M M' : Machine σ κ) : Prop where
  others : ∀ other, other ≠ thread → M'.tasks other = M.tasks other
  ages : M.state.Ages M'.state

section Frames

variable {w : World σ κ} {thread : Thread} {M : Machine σ κ} {callers : List (Caller σ κ)}

theorem frame_put {t : Task σ κ} {s : State σ κ} (h : M.state.Ages s) :
    Frame thread M (M.put thread t s) := ⟨fun _ hOther => if_neg hOther, h⟩

theorem frame_answer {r : Request κ} {result : Except Failure Reply}
    {next : Except Failure Reply → Program σ κ Unit} {s : State σ κ} (h : M.state.Ages s) :
    Frame thread M (M.answer thread r result next callers s) := ⟨fun _ hOther => if_neg hOther, h⟩

theorem frame_exhausted (loop : Loop σ κ) : Frame thread M (M.exhausted thread callers loop) := by
  cases loop with
  | all count next => exact ⟨fun _ hOther => if_neg hOther, .refl _⟩
  | one next => exact ⟨fun _ hOther => if_neg hOther, .refl _⟩
  | worker session last =>
    cases last with
    | false => exact ⟨fun _ hOther => if_neg hOther, .refl _⟩
    | true => exact ⟨fun _ hOther => if_neg hOther, .exitWorker _ session⟩

theorem frame_delivered (loop : Loop σ κ) : Frame thread M (M.delivered thread callers loop) := by
  cases loop <;> exact ⟨fun _ hOther => if_neg hOther, .refl _⟩

theorem frame_aborted (e : Failure) (loop : Loop σ κ) :
    Frame thread M (M.aborted thread e callers loop) := by
  cases loop with
  | all count next => exact ⟨fun _ hOther => if_neg hOther, .refl _⟩
  | one next => exact ⟨fun _ hOther => if_neg hOther, .refl _⟩
  | worker session last => exact ⟨fun _ hOther => if_neg hOther, .killWorker _ session e⟩

theorem frame_finished (result : Except Failure Unit) :
    Frame thread M (M.finished thread result callers) := by
  cases callers with
  | nil => exact frame_put (.refl _)
  | cons caller below =>
    cases caller with
    | handling target tag next => exact frame_answer (.refl _)
    | delivery m loop =>
      cases result with
      | ok u => exact frame_delivered loop
      | error e => exact frame_aborted e loop

theorem ages_atCall (call : Call κ) (s : State σ κ) : s.Ages (w.atCall thread call s) := by
  cases call with
  | callback c => exact .refl s
  | receiver target tag =>
    rw [World.atCall]
    split
    · exact .refl s
    · exact .refl s

theorem ages_atDelivery (m : Message κ) (s : State σ κ) :
    s.Ages (w.atDelivery thread m s) := by
  unfold World.atDelivery
  cases m.call? with
  | some call =>
    have hAges : s.Ages (s.recordHistory (.called m (some call) thread)) := .refl s
    exact hAges.trans (ages_atCall _ _)
  | none => exact .refl s

theorem ages_take {s s' : State σ κ} {m : Message κ} (h : s.take? thread = some (m, s')) :
    s.Ages s' := by
  obtain ⟨q, -, rfl⟩ := State.spec_of_take h
  exact .refl s

theorem ages_tally (loop : Loop σ κ) (s : State σ κ) : s.Ages (loop.tally s) := by
  cases loop with
  | worker session last => exact .countFor s session
  | _ => exact .refl s

theorem frame_proceed (p : Program σ κ Unit) : Frame thread M (M.proceed w thread callers p) := by
  cases p with
  | done u => exact frame_finished _
  | fail e => exact frame_finished _
  | ask r next =>
    simp only [proceed, ask]
    cases hResponse : M.state.respond w thread r with
    | reply result s =>
      obtain ⟨-, hAges, -⟩ := spec_of_respond hResponse s.clock.now
      exact frame_answer hAges
    | call target tag =>
      have hAges : M.state.Ages
          (M.state.recordHistory (.handed target tag M.state.clock.now)) := .refl M.state
      exact frame_put (hAges.trans (ages_atCall _ _))
    | _ => exact frame_put (.refl _)
  | _ => exact frame_put (.refl _)

theorem frame_idle (session : Nat) : Frame thread M (M.idle thread callers session) := by
  simp only [idle]
  split
  · exact frame_put (.refl _)
  · split
    · exact frame_put (.refl _)
    · split
      · exact frame_put (.killWorker _ session _)
      · exact frame_put (.refl _)

theorem frame_step {M' : Machine σ κ} (h : M.step w thread = some M') : Frame thread M M' := by
  unfold step at h
  simp only at h
  split at h
  · cases hControl : (M.tasks thread).control with
    | run p =>
      simp only [hControl, Option.some.injEq] at h
      subst h
      exact frame_proceed p
    | acquire loop =>
      simp only [hControl] at h
      split at h
      · simp only [Option.some.injEq] at h
        subst h
        exact ⟨fun _ hOther => if_neg hOther, .refl _⟩
      · cases h
    | take loop =>
      simp only [hControl] at h
      split at h
      · rename_i m s hTake
        simp only [Option.some.injEq] at h
        subst h
        exact frame_put ((ages_take hTake).trans (ages_tally _ _))
      · simp only [Option.some.injEq] at h
        subst h
        exact frame_exhausted loop
    | deliver m loop =>
      simp only [hControl, Option.some.injEq] at h
      subst h
      exact frame_put (ages_atDelivery _ _)
    | wait session =>
      simp only [hControl, Option.some.injEq] at h
      subst h
      exact frame_idle session
    | halt session next =>
      simp only [hControl, Option.some.injEq] at h
      subst h
      exact frame_put (.requestStop _ session)
    | join session next =>
      simp only [hControl] at h
      split at h
      · simp only [Option.some.injEq] at h
        subst h
        exact frame_answer (.refl _)
      · split at h
        · cases h
        · simp only [Option.some.injEq] at h
          subst h
          exact frame_answer (.refl _)
    | ended result => simp [hControl] at h
  · cases h

theorem tasks_step {M' : Machine σ κ} (h : M.step w thread = some M') {other : Thread}
    (hOther : other ≠ thread) : M'.tasks other = M.tasks other :=
  (frame_step h).others other hOther

/-- What holds of no step at all, and of one step and more if it holds of these, holds of every
run. -/
theorem follow_induction {R : Machine σ κ → Machine σ κ → Prop} (hNone : ∀ M, R M M)
    (hMore : ∀ {thread : Thread} {M M' M'' : Machine σ κ}, M.step w thread = some M' →
      R M' M'' → R M M'')
    {schedule : List Thread} {M' : Machine σ κ} (h : M.follow w schedule = some M') : R M M' := by
  induction schedule generalizing M with
  | nil =>
    obtain rfl := Option.some.inj h
    exact hNone M
  | cons thread schedule ih =>
    obtain ⟨next, hStep, hRest⟩ := Option.bind_eq_some_iff.1 h
    exact hMore hStep (ih hRest)

theorem ages_follow {schedule : List Thread} {M' : Machine σ κ}
    (h : M.follow w schedule = some M') : M.state.Ages M'.state :=
  follow_induction (R := fun M M' => M.state.Ages M'.state) (fun _ => .refl _)
    (fun hStep hRest => (frame_step hStep).ages.trans hRest) h

end Frames

/-! ### The lock -/

/-- Only the thread that takes messages is in loops, and the looper knows how deep. -/
structure Exclusive (M : Machine σ κ) : Prop where
  loops : ∀ thread, (M.tasks thread).loops =
    if M.dispatcher = some thread then M.state.depth else 0
  free : M.dispatcher = none ↔ M.state.depth = 0

namespace Exclusive

variable {M M' : Machine σ κ} {thread : Thread}

theorem owns (h : Exclusive M) (hLoops : 0 < (M.tasks thread).loops) :
    M.dispatcher = some thread := by
  by_cases hOwn : M.dispatcher = some thread
  · exact hOwn
  · have := h.loops thread
    rw [if_neg hOwn] at this
    omega

/-- A turn that neither enters nor leaves a loop leaves the lock alone. -/
theorem of_same (h : Exclusive M)
    (hOthers : ∀ other, other ≠ thread → M'.tasks other = M.tasks other)
    (hLock : M'.dispatcher = M.dispatcher) (hDepth : M'.state.depth = M.state.depth)
    (hLoops : (M'.tasks thread).loops = (M.tasks thread).loops) : Exclusive M' where
  loops other := by
    rw [hLock, hDepth, ← h.loops other]
    by_cases hOther : other = thread
    · rw [hOther, hLoops]
    · rw [hOthers other hOther]
  free := by rw [hLock, hDepth, h.free]

theorem turn (h : Exclusive M) (hTurn : Turn thread M M')
    (hOthers : ∀ other, other ≠ thread → M'.tasks other = M.tasks other) : Exclusive M' := by
  cases hTurn with
  | go _ hLock hDepth hLoops => exact h.of_same hOthers hLock hDepth hLoops
  | take m q loop hControl _ _ hLock hDepth hTask =>
    refine h.of_same hOthers hLock hDepth ?_
    rw [hTask, Task.loops, Task.loops, hControl]
    rfl
  | call m loop p hControl _ hLock hDepth hTask =>
    refine h.of_same hOthers hLock hDepth ?_
    rw [hTask, Task.loops, Task.loops, hControl]
    rfl
  | enter _ hFree hLock hDepth hLoops =>
    refine ⟨fun other => ?_, by simp [hLock, hDepth]⟩
    by_cases hOther : other = thread
    · subst hOther
      have hBefore := h.loops other
      rcases hFree with hNone | hOwn
      · have hZero := h.free.1 hNone
        simp [hNone] at hBefore
        simp [hLock, hDepth, hLoops, hBefore, hZero]
      · simp [hOwn] at hBefore
        simp [hLock, hDepth, hLoops, hBefore]
    · have hBefore := h.loops other
      have hNot : M.dispatcher ≠ some other := by
        rcases hFree with hNone | hOwn
        · simp [hNone]
        · simp [hOwn, Ne.symm hOther]
      rw [hOthers other hOther, hBefore, if_neg hNot, hLock, if_neg (by simpa using Ne.symm hOther)]
  | leave _ hLock hDepth hLoops =>
    have hOwn := h.owns (show 0 < (M.tasks thread).loops by omega)
    have hBefore := h.loops thread
    rw [if_pos hOwn] at hBefore
    refine ⟨fun other => ?_, ?_⟩
    · by_cases hOther : other = thread
      · subst hOther
        rw [hLock, hDepth]
        split
        · rw [if_neg (by simp)]
          omega
        · omega
      · have hNot : M.dispatcher ≠ some other := by
          rw [hOwn]
          simpa using Ne.symm hOther
        rw [hOthers other hOther, h.loops other, if_neg hNot, hLock]
        split
        · rfl
        · rfl
    · rw [hLock, hDepth]
      by_cases hZero : M.state.depth - 1 = 0
      · simp [hZero]
      · simp [hZero, hOwn]

end Exclusive

/-- **Messages are taken by one thread at a time.** -/
theorem exclusive_of_reachable {w : World σ κ} {M : Machine σ κ} (h : Reachable w M) :
    Exclusive M := by
  induction h with
  | start h p =>
    obtain ⟨clock, rfl⟩ := State.spec_of_make h
    refine ⟨fun thread => ?_, by simp [start]⟩
    cases thread with
    | main => rfl
    | worker session => rfl
  | step thread prior h ih => exact ih.turn (turn_of_step h) fun other => tasks_step h

end Machine

end VirtualLooper
