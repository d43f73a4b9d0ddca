import VirtualLooper.Proofs.Looper.Sequential
import VirtualLooper.Proofs.Looper.Underway

/-!
# A session comes to the same however its threads take turns

A session is begun on a looper at rest (`Machine.Resting`) whose handlers make no requests.  The
main thread sends messages and moves the clock, and then stops the session; meanwhile the worker
takes messages whenever it is let.  `Machine.settled_of_schedule` says that in the end the same
messages were taken, stay pending and were counted, whatever the order of steps, and that they were
taken in the same order unless a message was sent for a time that had passed.  There always is an
end: no order of steps leads the two threads to where they cannot go on.
-/

namespace VirtualLooper

variable {σ κ : Type}

namespace Machine

/-! ### A looper at rest -/

/-- No session is going on, no messages are taken, the workers of earlier sessions are over, and the
next one is yet to begin. -/
structure Resting (M : Machine σ κ) : Prop where
  session : M.state.session = none
  dispatcher : M.dispatcher = none
  depth : M.state.depth = 0
  gone : ∀ j, M.state.hasThread (.worker j) = true →
    ∃ result, (M.tasks (.worker j)).control = .ended result
  fresh : M.tasks (.worker M.state.workers.length) =
    ⟨.acquire (.worker M.state.workers.length false), []⟩

/-- If handlers leave sessions alone, a looper is at rest whenever no session is going on and the
main thread is in no loop. -/
theorem resting_of_reachable {w : World σ κ} (hAsks : w.Asks Request.LeavesSessions)
    {M : Machine σ κ} (h : Reachable w M) (hSession : M.state.session = none)
    (hMain : (M.tasks .main).loops = 0) : Resting M := by
  have hManned := manned_of_reachable hAsks h
  have hOrderly := orderly_of_reachable hAsks Request.leavesSessions_not h
  have hExclusive := exclusive_of_reachable h
  have hDepth := hOrderly.depth_eq_zero hManned hExclusive hSession hMain
  refine ⟨hSession, hExclusive.free.2 hDepth, hDepth, fun j hBegun => ?_, ?_⟩
  · cases hControl : (M.tasks (.worker j)).control with
    | ended result => exact ⟨result, rfl⟩
    | _ =>
      have hThread := hOrderly.eq_main hManned hSession hBegun (by rw [hControl]; rfl)
      cases hThread
  · refine hManned.unborn _ ?_
    simp [State.phase?, State.worker?]

section Schedules

variable {w : World σ κ} {M₀ M M' : Machine σ κ} {ops past future : List (Request κ)}
  {since hand : List (Message κ)} {stopping held : Bool} {phase : Phase} {thread : Thread}

theorem Resting.eq_of_step (hRest : Resting M₀)
    (hOthers : ∀ j ≠ M₀.state.workers.length, M.tasks (.worker j) = M₀.tasks (.worker j))
    (hWorkers : M.state.workers.length = M₀.state.workers.length + 1)
    (hStep : M.step w thread = some M') :
    thread = .main ∨ thread = .worker M₀.state.workers.length := by
  cases thread with
  | main => exact Or.inl rfl
  | worker j =>
    by_cases hj : j = M₀.state.workers.length
    · exact Or.inr (congrArg Thread.worker hj)
    · have hBegun : j < M.state.workers.length := by
        simpa [State.hasThread] using hasThread_of_step hStep
      have hBefore : M₀.state.hasThread (.worker j) = true := by
        rw [State.hasThread, decide_eq_true_eq]
        omega
      obtain ⟨result, hResult⟩ := hRest.gone j hBefore
      rw [← hOthers j hj] at hResult
      simp [step, hResult] at hStep

theorem Closed.step (hRest : Resting M₀) (h : Closed w M₀ ops since M)
    (hStep : M.step w thread = some M') : Closed w M₀ ops since M' := by
  rcases hRest.eq_of_step h.others h.workers hStep with rfl | rfl
  · rcases h.main with hMain | hMain
    · have hEnd : M.put .main ⟨.ended (.ok ()), []⟩ M.state = M' := by
        simpa [Machine.step, State.hasThread, hMain, Program.inTurn, proceed, finished] using hStep
      subst hEnd
      have hOthers (j : Nat) : (M.put .main ⟨.ended (.ok ()), []⟩ M.state).tasks (.worker j) =
          M.tasks (.worker j) := by simp [put]
      exact ⟨⟨h.session, h.clock, h.taken, h.called, h.due, h.pending, h.exchanges, h.inOrder⟩,
        Or.inr (put_tasks_self _ _), (hOthers _).trans h.worker,
        fun j hj => (hOthers j).trans (h.others j hj), h.workers⟩
    · simp [Machine.step, hMain] at hStep
  · simp [Machine.step, h.worker] at hStep

/-! ### Whatever the order of steps -/

/-- A session that makes these requests is going on, or it is over. -/
def Stage (w : World σ κ) (M₀ : Machine σ κ) (ops : List (Request κ)) (M : Machine σ κ) : Prop :=
  (∃ past future since hand stopping held phase, past ++ future = ops ∧
    Underway w M₀ past future since hand stopping held phase M) ∨
  ∃ since, Closed w M₀ ops since M

theorem Resting.step_main (hRest : Resting M₀) {rs : List (Request κ)}
    (hMain : M₀.tasks .main = ⟨.run (.inTurn (.start :: rs)), []⟩) :
    M₀.step w .main = some (M₀.answer .main .start (.ok .nothing) (fun _ => .inTurn rs) []
      (M₀.state.beginSession .main)) := by
  have hNotRunning : M₀.state.running = false := by
    rw [State.running, hRest.session]
    rfl
  simp [step, State.hasThread, hMain, Program.inTurn, proceed, ask, State.respond, hNotRunning]

theorem Resting.start (hRest : Resting M₀)
    (hMain : M₀.tasks .main = ⟨.run (.inTurn (.start :: (ops ++ [.stop]))), []⟩)
    (hStep : M₀.step w thread = some M) : Stage w M₀ ops M := by
  obtain rfl : thread = .main := by
    cases thread with
    | main => rfl
    | worker j =>
      obtain ⟨result, hResult⟩ := hRest.gone j (hasThread_of_step hStep)
      simp [step, hResult] at hStep
  have hOthers := (frame_step hStep).others
  obtain rfl := Option.some.inj ((hRest.step_main hMain).symm.trans hStep)
  refine Or.inl ⟨[], ops, [], [], false, false, .live, rfl, ?_⟩
  constructor
  case main =>
    have hTask : (M₀.answer .main .start (.ok .nothing) (fun _ => .inTurn (ops ++ [.stop])) []
        (M₀.state.beginSession .main)).tasks .main = ⟨.run (.inTurn (ops ++ [.stop])), []⟩ := by
      simp [answer, put]
    rw [hTask]
    exact .asking ops
  case worker =>
    rw [hOthers _ (by simp), hRest.fresh]
    exact .acquire false (by simp)
  case others => exact fun j _ => hOthers _ (by simp)
  case dispatcher => exact hRest.dispatcher
  case depth => exact hRest.depth
  case exchanges => rfl
  case state => exact .begin M₀.state .main _

/-- **Whatever the next step, the session is as it should be, or over.** -/
theorem Stage.step (hQuiet : w.Quiet) (hRest : Resting M₀)
    (hWait : M₀.state.settings.checkWait = .ok ()) (hSend : ∀ r ∈ ops, r.IsSend)
    (h : Stage w M₀ ops M) (hStep : M.step w thread = some M') : Stage w M₀ ops M' := by
  rcases h with ⟨past, future, since, hand, stopping, held, phase, rfl, h⟩ | ⟨since, h⟩
  · rcases hRest.eq_of_step h.others h.state.workers hStep with rfl | rfl
    · rcases h.main_step (fun r hr => hSend r (List.mem_append_right _ hr)) hStep with
        ⟨past', future', stopping', hOps, -, hNext⟩ | ⟨rfl, hClosed⟩
      · exact Or.inl ⟨past', future', since, hand, stopping', held, phase, hOps, hNext⟩
      · rw [List.append_nil]
        exact Or.inr ⟨since, hClosed⟩
    · have hWaits : M.state.settings.checkWait = .ok () := by rw [h.state.settings, hWait]
      obtain ⟨since', hand', held', phase', hNext⟩ := h.worker_step hQuiet hWaits hStep
      exact Or.inl ⟨past, future, since', hand', stopping, held', phase', rfl, hNext⟩
  · exact Or.inr ⟨since, h.step hRest hStep⟩

theorem Stage.follow (hQuiet : w.Quiet) (hRest : Resting M₀)
    (hWait : M₀.state.settings.checkWait = .ok ()) (hSend : ∀ r ∈ ops, r.IsSend)
    (h : Stage w M₀ ops M) {schedule : List Thread} (hFollow : M.follow w schedule = some M') :
    Stage w M₀ ops M' := by
  induction schedule generalizing M with
  | nil =>
    obtain rfl := Option.some.inj hFollow
    exact h
  | cons thread schedule ih =>
    obtain ⟨next, hStep, hRest'⟩ := Option.bind_eq_some_iff.1 hFollow
    exact ih (h.step hQuiet hRest hWait hSend hStep) hRest'

/-! ### An end in sight -/

/-- The main thread has stopped a session, and waits for its worker. -/
structure Stopping (w : World σ κ) (M₀ : Machine σ κ) (past : List (Request κ)) (k : Nat)
    (M : Machine σ κ) : Prop where
  session : M₀.state.workers.length = k
  underway : ∃ since hand held phase, Underway w M₀ past [] since hand true held phase M

/-- Its worker can come to its end. -/
def CanExit (w : World σ κ) (M₀ : Machine σ κ) (past : List (Request κ)) (M : Machine σ κ) : Prop :=
  ∃ M' since, Leads w M M' ∧ Underway w M₀ past [] since [] true false .exited M'

theorem CanExit.of_step (hStep : M.step w thread = some M') (h : CanExit w M₀ past M') :
    CanExit w M₀ past M := by
  obtain ⟨M'', since, hLeads, hEnd⟩ := h
  exact ⟨M'', since, (Leads.of_step hStep).trans hLeads, hEnd⟩

namespace Stopping

variable {k : Nat} {m : Message κ} {last : Bool} {q : Queue κ}

theorem hasThread (h : Stopping w M₀ past k M) : M.state.hasThread (.worker k) = true := by
  obtain ⟨rfl, since, hand, held, phase, h⟩ := h
  simp [State.hasThread, h.state.workers]

theorem isStopping (h : Stopping w M₀ past k M) : M.state.isStopping k = true := by
  obtain ⟨rfl, since, hand, held, phase, h⟩ := h
  rw [State.isStopping, h.state.record]
  rfl

theorem dispatcher_eq_none (h : Stopping w M₀ past k M)
    (hTask : M.tasks (.worker k) = ⟨.acquire (.worker k last), []⟩) : M.dispatcher = none := by
  obtain ⟨rfl, since, hand, held, phase, h⟩ := h
  have hWorker := h.worker
  rw [hTask] at hWorker
  cases hWorker with
  | acquire => exact h.dispatcher

theorem canExit_of_ended (h : Stopping w M₀ past k M) {result : Except Failure Unit}
    (hTask : M.tasks (.worker k) = ⟨.ended result, []⟩) : CanExit w M₀ past M := by
  obtain ⟨rfl, since, hand, held, phase, h⟩ := h
  have hWorker := h.worker
  rw [hTask] at hWorker
  cases hWorker with
  | ended => exact ⟨M, since, .refl M, h⟩

variable (hQuiet : w.Quiet) (hWait : M₀.state.settings.checkWait = .ok ())

include hQuiet hWait

theorem step (h : Stopping w M₀ past k M) (hStep : M.step w (.worker k) = some M') :
    Stopping w M₀ past k M' := by
  obtain ⟨rfl, since, hand, held, phase, h⟩ := h
  have hWaits : M.state.settings.checkWait = .ok () := by rw [h.state.settings, hWait]
  exact ⟨rfl, h.worker_step hQuiet hWaits hStep⟩

theorem canExit_of_handle {p : Program σ κ Unit} (hp : p.Quiet) (h : Stopping w M₀ past k M)
    (hTask : M.tasks (.worker k) = ⟨.run p, [.delivery m (.worker k last)]⟩)
    (hQueue : M.state.queue = q)
    (hNext : ∀ M', Stopping w M₀ past k M' → M'.tasks (.worker k) = ⟨.take (.worker k last), []⟩ →
      M'.state.queue = q → CanExit w M₀ past M') :
    CanExit w M₀ past M := by
  have hThread := h.hasThread
  induction p generalizing M with
  | done u =>
    have hStep : M.step w (.worker k) =
        some (M.put (.worker k) ⟨.take (.worker k last), []⟩ M.state) := by
      simp [Machine.step, hThread, hTask, proceed, finished, delivered]
    exact .of_step hStep (hNext _ (h.step hQuiet hWait hStep) (put_tasks_self _ _) hQueue)
  | load next ih =>
    have hStep : M.step w (.worker k) = some (M.put (.worker k)
        ⟨.run (next M.state.memory), [.delivery m (.worker k last)]⟩ M.state) := by
      simp [Machine.step, hThread, hTask, proceed]
    exact .of_step hStep (ih _ (hp _) (h.step hQuiet hWait hStep) (put_tasks_self _ _) hQueue
      hThread)
  | store memory next ih =>
    have hStep : M.step w (.worker k) = some (M.put (.worker k)
        ⟨.run next, [.delivery m (.worker k last)]⟩ { M.state with memory }) := by
      simp [Machine.step, hThread, hTask, proceed]
    exact .of_step hStep (ih hp (h.step hQuiet hWait hStep) (put_tasks_self _ _) hQueue hThread)
  | look next ih =>
    have hStep : M.step w (.worker k) = some (M.put (.worker k)
        ⟨.run (next (M.state.sight (.worker k))), [.delivery m (.worker k last)]⟩ M.state) := by
      simp [Machine.step, hThread, hTask, proceed]
    exact .of_step hStep (ih _ (hp _) (h.step hQuiet hWait hStep) (put_tasks_self _ _) hQueue
      hThread)
  | fail e => exact hp.elim
  | ask r next ih => exact hp.elim

theorem canExit_of_deliver (h : Stopping w M₀ past k M)
    (hTask : M.tasks (.worker k) = ⟨.deliver m (.worker k last), []⟩) (hQueue : M.state.queue = q)
    (hNext : ∀ M', Stopping w M₀ past k M' → M'.tasks (.worker k) = ⟨.take (.worker k last), []⟩ →
      M'.state.queue = q → CanExit w M₀ past M') :
    CanExit w M₀ past M := by
  have hStep : M.step w (.worker k) = some (M.put (.worker k)
      ⟨.run (w.delivery m), [.delivery m (.worker k last)]⟩
      (w.atDelivery (.worker k) m M.state)) := by
    simp [Machine.step, h.hasThread, hTask]
  have hQueue' : (w.atDelivery (.worker k) m M.state).queue = q :=
    (congrArg Ledger.queue (Ledger.of_atDelivery w M.state [] (.worker k) m)).trans hQueue
  exact .of_step hStep (canExit_of_handle hQuiet hWait (hQuiet.delivery m)
    (h.step hQuiet hWait hStep) (put_tasks_self _ _) hQueue' hNext)

theorem canExit_of_take (h : Stopping w M₀ past k M)
    (hTask : M.tasks (.worker k) = ⟨.take (.worker k last), []⟩)
    (hNext : ∀ M', Stopping w M₀ past k M' →
      M'.step w (.worker k) = some (M'.exhausted (.worker k) [] (.worker k last)) →
        CanExit w M₀ past M') :
    CanExit w M₀ past M := by
  -- each message that is taken leaves fewer pending, since handlers queue none
  induction hCount : M.state.queue.pending.length using Nat.strongRecOn generalizing M with
  | ind n ih =>
    have hThread := h.hasThread
    cases hTake : M.state.take? (.worker k) with
    | none => exact hNext M h (by simp [Machine.step, hThread, hTask, hTake])
    | some taken =>
      obtain ⟨m, s⟩ := taken
      obtain ⟨q, hPop, hLedger⟩ := Ledger.of_take [] hTake
      have hQueue : s.queue = q := congrArg Ledger.queue hLedger
      have hFewer := (Queue.spec_of_popAt? hPop).2.1.length_eq
      have hStep : M.step w (.worker k) =
          some (M.put (.worker k) ⟨.deliver m (.worker k last), []⟩ (s.countFor k)) := by
        simp [Machine.step, hThread, hTask, hTake, Loop.counted, Loop.tally]
      refine .of_step hStep (canExit_of_deliver hQuiet hWait (h.step hQuiet hWait hStep)
        (put_tasks_self _ _) hQueue fun M' hStopping hTask' hQueue' => ?_)
      refine ih M'.state.queue.pending.length ?_ hStopping hTask' rfl
      rw [hQueue', ← hCount, hFewer]
      exact Nat.lt_succ_self _

theorem canExit_of_acquire (h : Stopping w M₀ past k M)
    (hTask : M.tasks (.worker k) = ⟨.acquire (.worker k last), []⟩)
    (hNext : ∀ M', Stopping w M₀ past k M' → M'.tasks (.worker k) = ⟨.take (.worker k last), []⟩ →
      CanExit w M₀ past M') :
    CanExit w M₀ past M := by
  have hStep : M.step w (.worker k) = some
      { M.put (.worker k) ⟨.take (.worker k last), []⟩ M.state.enter with
        dispatcher := some (.worker k) } := by
    simp [Machine.step, h.hasThread, hTask, h.dispatcher_eq_none hTask]
  exact .of_step hStep (hNext _ (h.step hQuiet hWait hStep) (put_tasks_self _ M.state.enter))

/-- The worker exits when it has looked for messages for the last time. -/
theorem canExit_of_last (h : Stopping w M₀ past k M)
    (hTask : M.tasks (.worker k) = ⟨.take (.worker k true), []⟩) : CanExit w M₀ past M :=
  canExit_of_take hQuiet hWait h hTask fun _ hLast hStep =>
    .of_step hStep ((hLast.step hQuiet hWait hStep).canExit_of_ended (put_tasks_self _ _))

/-- A worker that waits sees that it is to stop, and looks for messages once more. -/
theorem canExit_of_wait (h : Stopping w M₀ past k M)
    (hTask : M.tasks (.worker k) = ⟨.wait k, []⟩) : CanExit w M₀ past M := by
  have hStep : M.step w (.worker k) =
      some (M.put (.worker k) ⟨.acquire (.worker k true), []⟩ M.state) := by
    simp [Machine.step, h.hasThread, hTask, idle, h.isStopping]
  exact .of_step hStep (canExit_of_acquire hQuiet hWait (h.step hQuiet hWait hStep)
    (put_tasks_self _ _) fun _ => canExit_of_last hQuiet hWait)

/-- **A worker that is to stop can come to its end.** -/
theorem canExit (h : Stopping w M₀ past k M) : CanExit w M₀ past M := by
  have hTake (last : Bool) (M' : Machine σ κ) (h : Stopping w M₀ past k M')
      (hTask : M'.tasks (.worker k) = ⟨.take (.worker k last), []⟩) : CanExit w M₀ past M' := by
    cases last with
    | true => exact canExit_of_last hQuiet hWait h hTask
    | false =>
      -- it finds nothing due, waits, and then looks for messages once more
      exact canExit_of_take hQuiet hWait h hTask fun _ hLast hStep =>
        .of_step hStep (canExit_of_wait hQuiet hWait (hLast.step hQuiet hWait hStep)
          (put_tasks_self _ _))
  have hStopping := h
  obtain ⟨rfl, since, hand, held, phase, hUnderway⟩ := h
  have hWorker := hUnderway.worker
  generalize hTask : M.tasks (.worker M₀.state.workers.length) = t at hWorker
  cases hWorker with
  | acquire last => exact canExit_of_acquire hQuiet hWait hStopping hTask (hTake last)
  | take last => exact hTake last M hStopping hTask
  | deliver m last =>
    exact canExit_of_deliver hQuiet hWait hStopping hTask rfl fun M' h hTask _ =>
      hTake last M' h hTask
  | handle m last hLast p hp =>
    exact canExit_of_handle hQuiet hWait hp hStopping hTask rfl fun M' h hTask _ =>
      hTake last M' h hTask
  | wait => exact canExit_of_wait hQuiet hWait hStopping hTask
  | ended => exact hStopping.canExit_of_ended hTask

end Stopping

theorem Telling.eq_nil {k : Nat} {t : Task σ κ} (h : Telling k future true t) : future = [] := by
  cases h with
  | joining => rfl

theorem Telling.untilJoin_eq {k : Nat} {t : Task σ κ} (h : Telling k future true t) :
    untilJoin t.control = 0 := by
  cases h with
  | joining => rfl

/-- The main thread can go on, unless it waits for a worker that has not exited. -/
theorem Underway.exists_main_step (h : Underway w M₀ past future since hand stopping held phase M)
    (hFree : stopping = true → phase = .exited) : ∃ M', M.step w .main = some M' := by
  rw [← Option.isSome_iff_exists]
  have hMain := h.main
  generalize hTask : M.tasks .main = t at hMain
  cases hMain with
  | asking => simp [Machine.step, State.hasThread, hTask]
  | halting => simp [Machine.step, State.hasThread, hTask]
  | joining =>
    have hGone : M.state.isLive M₀.state.workers.length = false := by
      have hLive := h.state.isLive_iff
      rw [hFree rfl] at hLive
      simpa using hLive
    simp [Machine.step, State.hasThread, hTask, hGone]

/-- **A session that is going on can come to its end.** -/
theorem Underway.leads_closed (hQuiet : w.Quiet) (hWait : M₀.state.settings.checkWait = .ok ())
    (hSend : ∀ r ∈ past ++ future, r.IsSend)
    (h : Underway w M₀ past future since hand stopping held phase M) :
    ∃ M' since', Leads w M M' ∧ Closed w M₀ (past ++ future) since' M' := by
  -- on what the main thread has left to do; once it only waits, the worker goes on alone
  induction hLeft : future.length + untilJoin (M.tasks .main).control using Nat.strongRecOn
    generalizing past future since hand stopping held phase M with
  | ind n ih =>
    have hFuture (r : Request κ) (hr : r ∈ future) : r.IsSend :=
      hSend r (List.mem_append_right _ hr)
    cases stopping with
    | false =>
      obtain ⟨M₁, hStep⟩ := h.exists_main_step fun hStopping => by cases hStopping
      rcases h.main_step hFuture hStep with
        ⟨past', future', stopping', hOps, hLess, hNext⟩ | ⟨rfl, hClosed⟩
      · rw [← hOps] at hSend ⊢
        obtain ⟨M', since', hLeads, hClosed⟩ := ih _ (hLeft ▸ hLess) hSend hNext rfl
        exact ⟨M', since', (Leads.of_step hStep).trans hLeads, hClosed⟩
      · rw [List.append_nil]
        exact ⟨M₁, since, .of_step hStep, hClosed⟩
    | true =>
      obtain rfl := h.main.eq_nil
      obtain ⟨M₁, since₁, hLeads, hExited⟩ :=
        Stopping.canExit hQuiet hWait ⟨rfl, since, hand, held, phase, h⟩
      obtain ⟨M₂, hStep⟩ := hExited.exists_main_step fun _ => rfl
      rcases hExited.main_step hFuture hStep with ⟨_, _, _, -, hLess, -⟩ | ⟨-, hClosed⟩
      · rw [hExited.main.untilJoin_eq] at hLess
        exact absurd hLess (Nat.not_lt_zero _)
      · rw [List.append_nil]
        exact ⟨M₂, since₁, hLeads.trans (.of_step hStep), hClosed⟩

theorem Stage.leads_ended (hQuiet : w.Quiet) (hWait : M₀.state.settings.checkWait = .ok ())
    (hSend : ∀ r ∈ ops, r.IsSend) (h : Stage w M₀ ops M) :
    ∃ M', Leads w M M' ∧ M'.tasks .main = ⟨.ended (.ok ()), []⟩ := by
  have hEnd {M : Machine σ κ} {since : List (Message κ)} (h : Closed w M₀ ops since M) :
      ∃ M', Leads w M M' ∧ M'.tasks .main = ⟨.ended (.ok ()), []⟩ := by
    rcases h.main with hMain | hMain
    · have hStep : M.step w .main = some (M.put .main ⟨.ended (.ok ()), []⟩ M.state) := by
        simp [Machine.step, State.hasThread, hMain, Program.inTurn, proceed, finished]
      exact ⟨_, .of_step hStep, put_tasks_self _ _⟩
    · exact ⟨M, .refl M, hMain⟩
  rcases h with ⟨past, future, since, hand, stopping, held, phase, rfl, h⟩ | ⟨since, h⟩
  · obtain ⟨M₁, since', hLeads, hClosed⟩ := h.leads_closed hQuiet hWait hSend
    obtain ⟨M', hLeads', hMain⟩ := hEnd hClosed
    exact ⟨M', hLeads.trans hLeads', hMain⟩
  · exact hEnd h

theorem Stage.settled (h : Stage w M₀ ops M) (hEnd : M.tasks .main = ⟨.ended (.ok ()), []⟩) :
    ∃ since, Settled w M₀ ops since M := by
  rcases h with ⟨past, future, since, hand, stopping, held, phase, -, h⟩ | ⟨since, h⟩
  · have hMain := h.main
    rw [hEnd] at hMain
    cases hMain
  · exact ⟨since, h.toSettled⟩

/-- **A session comes to the same however its threads take turns.** On a looper at rest, whose
handlers make no requests and do not fail, the main thread begins a session, sends messages and
moves the clock, and stops the session, while the worker takes messages at any time.  Let `sent` be
the messages that the senders are told of.  Whatever the order of steps, in the end just those
messages were taken, and delivered, that had been pending or were sent and are due at the time of
the stop, each of them once; the others stay pending; all requests are answered alike, the stop by
the number of these messages or a complaint that there are none; and if nothing was sent for a time
that had passed, the messages were taken in the order of their due times, and of their sequence
numbers where these agree.  And from wherever the threads have got, they can get to the end. -/
theorem settled_of_schedule (hQuiet : w.Quiet) (hRest : Resting M₀)
    (hWait : M₀.state.settings.checkWait = .ok ()) (hSend : ∀ r ∈ ops, r.IsSend)
    (hMain : M₀.tasks .main = ⟨.run (.inTurn (.start :: (ops ++ [.stop]))), []⟩) :
    ∃ sent : List (Message κ),
      (M₀.state.tell w ops).1.filterMap Exchange.sent? = sent.map Message.sent ∧
      (M₀.state.tell w ops).2.queue.pending.Perm (M₀.state.queue.pending ++ sent) ∧
      ∀ schedule M, M₀.follow w schedule = some M →
        (M.tasks .main = ⟨.ended (.ok ()), []⟩ → ∃ since, Settled w M₀ ops since M) ∧
        ∃ rest M', M.follow w rest = some M' ∧ M'.tasks .main = ⟨.ended (.ok ()), []⟩ := by
  obtain ⟨sent, hSent, hPerm⟩ := State.pending_tell hSend M₀.state
  refine ⟨sent, hSent, hPerm, fun schedule M hFollow => ?_⟩
  cases schedule with
  | nil =>
    obtain rfl := Option.some.inj hFollow
    have hFirst := hRest.step_main (w := w) hMain
    obtain ⟨M', ⟨rest, hRestFollow⟩, hEnded⟩ :=
      (hRest.start hMain hFirst).leads_ended hQuiet hWait hSend
    refine ⟨fun hEnd => by simp [hMain] at hEnd, .main :: rest, M', ?_, hEnded⟩
    rw [follow, hFirst]
    exact hRestFollow
  | cons thread schedule =>
    obtain ⟨next, hStep, hNext⟩ := Option.bind_eq_some_iff.1 hFollow
    have hStage := (hRest.start hMain hStep).follow hQuiet hRest hWait hSend hNext
    obtain ⟨M', ⟨rest, hRestFollow⟩, hEnded⟩ := hStage.leads_ended hQuiet hWait hSend
    exact ⟨fun hEnd => hStage.settled hEnd, rest, M', hRestFollow, hEnded⟩

end Schedules

end Machine

def World.adding : World Nat Nat where
  receive _ _ := .done ()
  invoke n := .load fun sum => .store (sum + n) (.done ())
  records _ := false

def Request.dueAndLate : List (Request Nat) :=
  [.enqueueAt (.str "due") (.int 0) none (some 1), .enqueueAt (.str "late") (.int 9) none (some 2)]

namespace Machine

/-- The first of two messages is taken before the second is sent, which stays pending. -/
theorem settled_while_adding :
    ∃ (s : State Nat Nat) (M : Machine Nat Nat) (since : List (Message Nat)),
      State.make .standard none 0 = .ok s ∧
      (start s (.inTurn (.start :: (Request.dueAndLate ++ [.stop])))).follow World.adding
        (List.replicate 2 .main ++ List.replicate 3 (.worker 0) ++ List.replicate 3 .main ++
          List.replicate 7 (.worker 0) ++ List.replicate 2 .main) = some M ∧
      (M.exchanges.map (·.result)).getLast? = some (.ok (.count 1)) ∧
      Settled World.adding (start s (.inTurn (.start :: (Request.dueAndLate ++ [.stop]))))
        Request.dueAndLate since M := by
  have hRun : ∃ (s : State Nat Nat) (M : Machine Nat Nat), State.make .standard none 0 = .ok s ∧
      (start s (.inTurn (.start :: (Request.dueAndLate ++ [.stop])))).follow World.adding
        (List.replicate 2 .main ++ List.replicate 3 (.worker 0) ++ List.replicate 3 .main ++
          List.replicate 7 (.worker 0) ++ List.replicate 2 .main) = some M ∧
      (M.exchanges.map (·.result)).getLast? = some (.ok (.count 1)) ∧
      M.tasks .main = ⟨.ended (.ok ()), []⟩ := ⟨_, _, rfl, rfl, rfl, rfl⟩
  obtain ⟨s, M, hMake, hFollow, hResult, hEnd⟩ := hRun
  have hQuiet : World.adding.Quiet := ⟨fun _ _ => trivial, fun _ _ => trivial⟩
  have hWait : s.settings.checkWait = .ok () := by
    obtain ⟨clock, rfl⟩ := State.spec_of_make hMake
    exact Settings.checkWait_standard
  have hRest : Resting (start s (.inTurn (.start :: (Request.dueAndLate ++ [.stop])))) := by
    refine resting_of_reachable (w := World.adding) ⟨fun _ _ => trivial, fun _ _ => trivial⟩
      (.start hMake _) ?_ rfl
    obtain ⟨clock, rfl⟩ := State.spec_of_make hMake
    rfl
  have hSend : ∀ r ∈ Request.dueAndLate, r.IsSend := by
    simp [Request.dueAndLate, Request.IsSend]
  obtain ⟨sent, -, -, hSettled⟩ := settled_of_schedule hQuiet hRest hWait hSend rfl
  obtain ⟨since, hSince⟩ := (hSettled _ M hFollow).1 hEnd
  exact ⟨s, M, since, hMake, hFollow, hResult, hSince⟩

end Machine

end VirtualLooper
