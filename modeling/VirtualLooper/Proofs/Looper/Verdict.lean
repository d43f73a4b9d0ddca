import VirtualLooper.Proofs.Looper.Session

/-!
# What a session comes to

While handlers neither start nor stop sessions, requests about sessions are answered by the state
that the looper is in, and a refusal changes nothing (`Verdict`).

* `Orderly`: sessions and dispatches exclude each other, and a worker has counted what was taken on
  its thread.
* `failsOn_iff_died`: a worker is ended by a failure if, and only if, a handler has failed on it in
  the course of the run.
* `isSome_step_of_join`: a main thread that waits for a worker and the worker do not both wait.
* `verdicts_of_run`: hence the answers to all requests of a run.
-/

namespace VirtualLooper

variable {σ κ : Type}

theorem Settings.checkWait_standard : Settings.standard.checkWait = .ok () := by
  have hOk : Settings.standard.checkWait.isOk = true := by decide +kernel
  cases hWait : Settings.standard.checkWait with
  | error e =>
    rw [hWait] at hOk
    cases hOk
  | ok u => rfl

/-- What the stop of a session says if its worker took so many messages and no handler failed. -/
def Settings.stopOutcome (settings : Settings) (count : Nat) : Except Failure Reply :=
  if count = 0 ∧ settings.requireDispatch.truthy = true then .error .nothingDispatched
  else .ok (.count count)

namespace State

variable {s : State σ κ} {session : Nat}

theorem stopResult_of_died {e : Failure} (h : s.phase? session = some (.died e)) :
    s.stopResult session = .error e := by
  rw [stopResult, error?_eq, h]
  rfl

theorem stopResult_of_not_died (h : ∀ e, s.phase? session ≠ some (.died e)) :
    s.stopResult session = s.settings.stopOutcome (s.dispatchedBy session) := by
  have hNone : (s.worker? session).bind Worker.error? = none := by
    rw [error?_eq]
    cases hPhase : s.phase? session with
    | none => rfl
    | some phase =>
      cases phase with
      | died e => exact absurd hPhase (h e)
      | _ => rfl
  rw [stopResult, hNone, Settings.stopOutcome]
  simp

end State

/-- The request neither starts a session nor stops one. -/
def Request.LeavesSessions (r : Request κ) : Prop := r ≠ .start ∧ r ≠ .stop

theorem Request.leavesSessions_not :
    ¬ (start : Request κ).LeavesSessions ∧ ¬ (stop : Request κ).LeavesSessions :=
  ⟨fun h => h.1 rfl, fun h => h.2 rfl⟩

namespace Machine

section Failing

variable {w : World σ κ} {ok : Request κ → Prop} {thread : Thread} {M M' : Machine σ κ}

theorem failing_finished {p : Program σ κ Unit} {callers : List (Caller σ κ)}
    {result : Except Failure Unit} {session : Nat} {e : Failure}
    (hStands : Task.Stands ok (.worker session) ⟨.run p, callers⟩)
    (hDied : ((M.finished (.worker session) result callers).tasks (.worker session)).phase =
      .died e) :
    result = .error e ∧ ∃ m last, callers = [.delivery m (.worker session last)] := by
  cases callers with
  | nil =>
    have hMain : none = (Thread.worker session).session? := hStands
    cases hMain
  | cons c below =>
    cases c with
    | handling target tag next =>
      simp [finished, answer, put, Task.phase, Control.result?] at hDied
    | delivery m loop =>
      cases result with
      | ok u => cases loop <;>
          simp [finished, delivered, answer, put, release, Task.phase, Control.result?] at hDied
      | error e' =>
        cases loop with
        | worker other last =>
          obtain ⟨rfl, hOwn⟩ := hStands.2.eq_nil id
          obtain rfl := Thread.worker.inj (Thread.eq_worker hOwn)
          simp only [finished, aborted, put_tasks_self, Task.phase, Control.result?,
            Phase.died.injEq] at hDied
          exact ⟨by rw [hDied], m, last, rfl⟩
        | _ => simp [finished, aborted, answer, put, release, Task.phase, Control.result?] at hDied

/-- A worker that can wait is ended by a failure only if a handler has failed on it. -/
theorem failing_of_move (hMove : Move w thread M M') (hStands : (M.tasks thread).Stands ok thread)
    (hWait : M.state.settings.checkWait = .ok ()) {session : Nat} {e : Failure}
    (hThread : thread = .worker session) (hDied : (M'.tasks thread).phase = .died e) :
    ∃ m last, M.tasks thread = ⟨.run (.fail e), [.delivery m (.worker session last)]⟩ := by
  subst hThread
  cases hMove with
  | done hTask => cases (failing_finished (hTask ▸ hStands) hDied).1
  | fail hTask =>
    obtain ⟨hFailure, m, last, rfl⟩ := failing_finished (hTask ▸ hStands) hDied
    obtain rfl := Except.error.inj hFailure
    exact ⟨m, last, hTask⟩
  | call hTask => rw [put_tasks_self] at hDied; cases hDied
  | take hTask hTake => rw [put_tasks_self] at hDied; cases hDied
  | @exhaust loop callers hTask hIdle =>
    cases loop with
    | worker other last => cases last <;>
        simp [exhausted, put, release, Task.phase, Control.result?] at hDied
    | _ => simp [exhausted, answer, put, release, Task.phase, Control.result?] at hDied
  | deliver hTask => rw [put_tasks_self] at hDied; cases hDied
  | idle hTask =>
    simp only [idle, hWait] at hDied
    split at hDied
    · rw [put_tasks_self] at hDied
      cases hDied
    · split at hDied <;> rw [put_tasks_self] at hDied <;> cases hDied
  | _ => simp [put, answer, Task.phase, Control.result?] at hDied

end Failing

/-! ### Dispatches and sessions exclude each other -/

end Machine

def Control.isDispatch : Control σ κ → Bool
  | acquire loop | take loop | deliver _ loop => loop.session?.isNone
  | _ => false

def Caller.isDispatch : Caller σ κ → Bool
  | delivery _ loop => loop.session?.isNone
  | handling .. => false

def Task.isDispatch (t : Task σ κ) : Bool :=
  t.control.isDispatch || t.callers.any Caller.isDispatch

namespace Machine

section Dispatching

variable {w : World σ κ} {ok : Request κ → Prop} {thread : Thread} {M M' : Machine σ κ}
  {callers : List (Caller σ κ)}

theorem isDispatch_finished {p : Program σ κ Unit} {result : Except Failure Unit}
    (h : ((M.finished thread result callers).tasks thread).isDispatch = true) :
    Task.isDispatch ⟨.run p, callers⟩ = true := by
  cases callers with
  | nil => simp [finished, Task.isDispatch, Control.isDispatch] at h
  | cons c below =>
    cases c with
    | handling target tag next =>
      simpa [finished, answer, put, Task.isDispatch, Control.isDispatch, Caller.isDispatch] using h
    | delivery m loop =>
      cases result <;> cases loop <;>
        simp_all [finished, delivered, aborted, answer, put, release, Task.isDispatch,
          Control.isDispatch, Caller.isDispatch, Loop.session?]

theorem isDispatch_of_move (hMove : Move w thread M M')
    (h : (M'.tasks thread).isDispatch = true) :
    (M.tasks thread).isDispatch = true ∨ M.state.session = none := by
  cases hMove with
  | done hTask => exact Or.inl (hTask ▸ isDispatch_finished h)
  | fail hTask => exact Or.inl (hTask ▸ isDispatch_finished h)
  | askAll hTask hIdle => exact Or.inr hIdle
  | askNext hTask hIdle => exact Or.inr hIdle
  | @take loop callers m s hTask hTake =>
    rw [put_tasks_self] at h
    rw [hTask]
    left
    simpa [Task.isDispatch, Control.isDispatch, loop.session?_counted] using h
  | @exhaust loop callers hTask hIdle =>
    rw [hTask]
    cases loop with
    | worker session last =>
      cases last <;> simp_all [exhausted, put, release, Task.isDispatch, Control.isDispatch]
    | _ => simp [Task.isDispatch, Control.isDispatch, Loop.session?]
  | idle hTask =>
    rw [hTask]
    left
    simp only [idle] at h
    split at h
    · simpa [Task.isDispatch, Control.isDispatch, Loop.session?] using h
    · split at h
      · simpa [Task.isDispatch, Control.isDispatch, Loop.session?] using h
      · split at h <;> simpa [Task.isDispatch, Control.isDispatch, Loop.session?] using h
  | _ =>
    simp_all [answer, put, Task.isDispatch, Control.isDispatch, Caller.isDispatch]

end Dispatching

/-- Workers go on counting what is taken on their threads, if loops that programs have asked for run
on the main thread. -/
theorem count_of_step {w : World σ κ} {ok : Request κ → Prop} {thread : Thread} {M M' : Machine σ κ}
    (hManned : Manned ok M) (hStep : M.step w thread = some M')
    (hMain : ∀ loop, (M.tasks thread).control = .take loop → loop.session? = none → thread = .main)
    (h : ∀ session, M.state.dispatchedBy session = (M.state.takenOn (.worker session)).length)
    (session : Nat) :
    M'.state.dispatchedBy session = (M'.state.takenOn (.worker session)).length := by
  cases tally_of_move (move_of_step hStep) with
  | keep hSame => rw [hSame.takenOn, hSame.dispatchedBy, h]
  | take m loop hControl hTaken hCount =>
    cases loop with
    | worker counting last =>
      obtain rfl := hManned.thread_of_worker hControl
      rw [hTaken, hCount session fun hOwn => ?_]
      · by_cases hSame : counting = session
        · simp [hSame, Loop.session?, h]
        · simp [hSame, Loop.session?, h]
      · rw [← Option.some.inj hOwn]
        exact State.phase?_ne_none_iff.2 (hasThread_of_step hStep)
    | _ =>
      obtain rfl := hMain _ hControl rfl
      rw [hTaken, hCount session (by simp [Loop.session?])]
      exact h session

/-- Sessions are attended to, no thread dispatches while one is going on, and a worker has counted
the messages that were taken on its thread. -/
structure Orderly (M : Machine σ κ) : Prop extends Attended M where
  dispatches : ∀ thread, (M.tasks thread).isDispatch = true → M.state.session = none
  count : ∀ session, M.state.dispatchedBy session = (M.state.takenOn (.worker session)).length

namespace Orderly

variable {w : World σ κ} {ok : Request κ → Prop} {thread : Thread} {M M' : Machine σ κ}

theorem isDispatch_worker (h : Orderly M) (hManned : Manned ok M) (hIdle : M.state.session = none)
    (session : Nat) : (M.tasks (.worker session)).isDispatch = false := by
  by_cases hUnborn : M.state.phase? session = none
  · rw [hManned.unborn session hUnborn]
    rfl
  · have hThread := State.phase?_ne_none_iff.1 hUnborn
    have hStands := hManned.stands (.worker session)
    cases hTask : M.tasks (.worker session) with
    | mk control callers =>
      cases control with
      | ended result =>
        rw [hTask] at hStands
        obtain ⟨rfl, -⟩ := hStands.eq_nil id
        rfl
      | _ =>
        have hMain := h.eq_main hManned hIdle hThread (by rw [hTask]; rfl)
        cases hMain

theorem step (h : Orderly M) (hManned : Manned ok M) (hOk : ¬ ok .start ∧ ¬ ok .stop)
    (hStep : M.step w thread = some M') : Orderly M' := by
  have hMove := move_of_step hStep
  have hStands := hManned.stands thread
  have hShift := shift_of_move hMove hStands
  have hOthers := (frame_step hStep).others
  refine ⟨h.shift hManned hShift hOthers (hManned.not_stopsSelf hOk.2), fun other hDispatch => ?_,
    count_of_step hManned hStep (fun loop hControl hNone => ?_) h.count⟩
  · -- who dispatches after the step has dispatched before it, or no session was going on
    have hBefore : (M.tasks other).isDispatch = true ∨ M.state.session = none := by
      by_cases hOther : other = thread
      · exact hOther ▸ isDispatch_of_move hMove (hOther ▸ hDispatch)
      · rw [hOthers other hOther] at hDispatch
        exact Or.inl hDispatch
    have hIdle : M.state.session = none := hBefore.elim (h.dispatches other) id
    cases hShift with
    | stay hSession => rw [hSession, hIdle]
    | gone ended hThread hSession => rw [hSession, hIdle]
    | stop stopped next hControl hGone hSession => exact hSession
    | start next hControl hIdle hSession hPhases hPhase hStops hTask =>
      -- the main thread starts it from its own program, and all others are at rest
      exfalso
      obtain rfl := h.eq_main hManned hIdle (hasThread_of_step hStep) (by rw [hControl]; rfl)
      cases other with
      | main =>
        rw [Task.Stands, hControl] at hStands
        obtain ⟨hNil, -⟩ := hStands.eq_nil fun hHandler => hOk.1 hHandler.1
        rw [hTask, hNil] at hDispatch
        cases hDispatch
      | worker session =>
        rw [hOthers _ (by simp), h.isDispatch_worker hManned hIdle] at hDispatch
        cases hDispatch
  · have hIdle :=
      h.dispatches thread (by simp [Task.isDispatch, hControl, Control.isDispatch, hNone])
    exact h.eq_main hManned hIdle (hasThread_of_step hStep) (by rw [hControl]; rfl)

end Orderly

theorem orderly_of_reachable {w : World σ κ} {ok : Request κ → Prop} (hAsks : w.Asks ok)
    (hOk : ¬ ok .start ∧ ¬ ok .stop) {M : Machine σ κ} (h : Reachable w M) : Orderly M := by
  induction h with
  | start h p =>
    obtain ⟨clock, rfl⟩ := State.spec_of_make h
    refine ⟨attended_start rfl p, fun other hDispatch => rfl, fun session => rfl⟩
  | step thread prior h ih => exact ih.step (manned_of_reachable hAsks prior) hOk h

/-! ### Handlers that fail on a worker -/

/-- In the course of a run a handler fails on the worker of a session: nothing is left for the
worker to do but to end the delivery with this failure. -/
def FailsOn (w : World σ κ) (M : Machine σ κ) (schedule : List Thread) (session : Nat)
    (e : Failure) : Prop :=
  ∃ prior M₀ m last, prior <+: schedule ∧ M.follow w prior = some M₀ ∧
    M₀.tasks (.worker session) = ⟨.run (.fail e), [.delivery m (.worker session last)]⟩

section Fails

variable {w : World σ κ} {ok : Request κ → Prop} {thread : Thread} {M M' : Machine σ κ}
  {schedule : List Thread} {session : Nat} {e : Failure}

theorem died_step (hManned : Manned ok M) (hDied : M.state.phase? session = some (.died e))
    (hStep : M.step w thread = some M') : M'.state.phase? session = some (.died e) := by
  cases shift_of_move (move_of_step hStep) (hManned.stands thread) with
  | stay hSession hPhases => rw [hPhases, hDied]
  | stop stopped next hControl hGone hSession hPhases => rw [hPhases, hDied]
  | start next hControl hIdle hSession hPhases =>
    rw [hPhases, if_neg, hDied]
    rintro rfl
    simp [State.phase?, State.worker?] at hDied
  | gone ended hThread hSession hPhases hLive =>
    rw [hPhases, if_neg, hDied]
    rintro rfl
    rw [hThread, hManned.phase session _ hDied] at hLive
    cases hLive

theorem died_of_fail {m : Message κ} {last : Bool} (hTask : M.tasks (.worker session) =
      ⟨.run (.fail e), [.delivery m (.worker session last)]⟩)
    (hStep : M.step w (.worker session) = some M') :
    M'.state.phase? session = some (.died e) := by
  have hBegun := hasThread_of_step hStep
  rw [step] at hStep
  simp only [hBegun, hTask, if_true, proceed, finished, aborted, Option.some.injEq] at hStep
  obtain ⟨phase, hPhase⟩ := Option.ne_none_iff_exists'.1 (State.phase?_ne_none_iff.2 hBegun)
  have hBefore : M.state.leave.phase? session = some phase := hPhase
  rw [← hStep]
  show (M.state.leave.killWorker session e).phase? session = _
  rw [phase?_killWorker, if_pos rfl, hBefore, Option.map_some]

/-- A step ends a worker that can wait by a failure only if a handler has failed on it. -/
theorem failing_of_died (hManned : Manned ok M) (hWait : M.state.settings.checkWait = .ok ())
    (hStep : M.step w thread = some M') (hBefore : M.state.phase? session ≠ some (.died e))
    (hDied : M'.state.phase? session = some (.died e)) :
    ∃ m last, M.tasks (.worker session) =
      ⟨.run (.fail e), [.delivery m (.worker session last)]⟩ := by
  have hMove := move_of_step hStep
  cases shift_of_move hMove (hManned.stands thread) with
  | stay hSession hPhases => exact absurd (hPhases session ▸ hDied) hBefore
  | stop stopped next hControl hGone hSession hPhases =>
    exact absurd (hPhases session ▸ hDied) hBefore
  | start next hControl hIdle hSession hPhases =>
    rw [hPhases] at hDied
    split at hDied
    · cases hDied
    · exact absurd hDied hBefore
  | gone ended hThread hSession hPhases =>
    rw [hPhases] at hDied
    split at hDied
    · rename_i hEnded
      obtain ⟨phase, -, hPhase⟩ := Option.map_eq_some_iff.1 hDied
      rw [hEnded, ← hThread]
      exact failing_of_move hMove (hManned.stands thread) hWait hThread hPhase
    · exact absurd hDied hBefore

theorem died_of_failing (hAsks : w.Asks ok) (hReach : Reachable w M)
    (hFailing : (∃ m last, M.tasks (.worker session) =
        ⟨.run (.fail e), [.delivery m (.worker session last)]⟩) ∨
      M.state.phase? session = some (.died e))
    (hFollow : M.follow w schedule = some M') (hOver : M'.state.isOver session = true) :
    M'.state.phase? session = some (.died e) := by
  induction schedule generalizing M with
  | nil =>
    obtain rfl := Option.some.inj hFollow
    obtain ⟨hBegun, hGone⟩ := State.isOver_iff.1 hOver
    refine hFailing.resolve_left ?_
    rintro ⟨m, last, hTask⟩
    have hLive := (manned_of_reachable hAsks hReach).isLive_of_result? hBegun (by rw [hTask]; rfl)
    rw [hLive] at hGone
    cases hGone
  | cons thread schedule ih =>
    obtain ⟨next, hStep, hRest⟩ := Option.bind_eq_some_iff.1 hFollow
    have hManned := manned_of_reachable hAsks hReach
    refine ih (hReach.step thread hStep) ?_ hRest
    rcases hFailing with ⟨m, last, hTask⟩ | hDied
    · by_cases hOwn : Thread.worker session = thread
      · subst hOwn
        exact Or.inr (died_of_fail hTask hStep)
      · rw [tasks_step hStep hOwn]
        exact Or.inl ⟨m, last, hTask⟩
    · exact Or.inr (died_step hManned hDied hStep)

/-- A worker that can wait was ended by a failure only if a handler has failed on it. -/
theorem failsOn_of_died (hAsks : w.Asks ok) (hReach : Reachable w M)
    (hWait : M.state.settings.checkWait = .ok ())
    (hBefore : M.state.phase? session ≠ some (.died e)) (hFollow : M.follow w schedule = some M')
    (hDied : M'.state.phase? session = some (.died e)) : FailsOn w M schedule session e := by
  induction schedule generalizing M with
  | nil =>
    obtain rfl := Option.some.inj hFollow
    exact absurd hDied hBefore
  | cons thread schedule ih =>
    obtain ⟨next, hStep, hRest⟩ := Option.bind_eq_some_iff.1 hFollow
    have hManned := manned_of_reachable hAsks hReach
    have hMove := move_of_step hStep
    by_cases hNow : next.state.phase? session = some (.died e)
    · obtain ⟨m, last, hTask⟩ := failing_of_died hManned hWait hStep hBefore hNow
      exact ⟨[], M, m, last, List.nil_prefix, rfl, hTask⟩
    · have hWait' : next.state.settings.checkWait = .ok () := by rw [settings_of_move hMove, hWait]
      obtain ⟨prior, M₀, m, last, hPrior, hFollow₀, hTask⟩ :=
        ih (hReach.step thread hStep) hWait' hNow hRest
      refine ⟨thread :: prior, M₀, m, last, ?_, ?_, hTask⟩
      · exact (List.prefix_cons_inj thread).2 hPrior
      · rw [follow, hStep]
        exact hFollow₀

end Fails

/-! ### Answers -/

/-- How requests are answered that concern sessions, given the failures of handlers on workers. -/
inductive Verdict (failsOn : Nat → Failure → Prop) (thread : Thread) (M M' : Machine σ κ) :
    Exchange κ → Prop
  | started (hIdle : M.state.session = none) (hState : M'.state = M.state.beginSession thread) :
      Verdict failsOn thread M M' ⟨thread, .start, .ok .nothing, M'.state.clock.now⟩
  | alreadyRunning (hRunning : M.state.running = true) (hState : M'.state = M.state) :
      Verdict failsOn thread M M' ⟨thread, .start, .error .alreadyRunning, M'.state.clock.now⟩
  | busyAll (hRunning : M.state.running = true) (hState : M'.state = M.state) :
      Verdict failsOn thread M M'
        ⟨thread, .dispatchAll, .error (.busy "dispatch_all"), M'.state.clock.now⟩
  | busyNext (hRunning : M.state.running = true) (hState : M'.state = M.state) :
      Verdict failsOn thread M M'
        ⟨thread, .dispatchNext, .error (.busy "dispatch_next"), M'.state.clock.now⟩
  /-- A dispatch is over. -/
  | dispatched (r : Request κ) (reply : Reply) (hDispatch : r = .dispatchAll ∨ r = .dispatchNext)
      (hIdle : M.state.session = none) :
      Verdict failsOn thread M M' ⟨thread, r, .ok reply, M'.state.clock.now⟩
  /-- A dispatch is ended by the failure of a delivery. -/
  | failed (r : Request κ) (e : Failure) (m : Message κ) (loop : Loop σ κ)
      (callers : List (Caller σ κ)) (hDispatch : r = .dispatchAll ∨ r = .dispatchNext)
      (hIdle : M.state.session = none)
      (hTask : M.tasks thread = ⟨.run (.fail e), .delivery m loop :: callers⟩) :
      Verdict failsOn thread M M' ⟨thread, r, .error e, M'.state.clock.now⟩
  | notRunning (hIdle : M.state.session = none) (hState : M'.state = M.state) :
      Verdict failsOn thread M M' ⟨thread, .stop, .error .notRunning, M'.state.clock.now⟩
  /-- A session is over, and no worker is left. -/
  | stopped (session : Nat) (result : Except Failure Reply)
      (hSession : M.state.session = some session) (hIdle : M'.state.session = none)
      (hGone : ∀ other, M'.state.isLive other = false)
      (hFailed : ∀ e, failsOn session e → result = .error e)
      (hEnded : (∀ e, ¬ failsOn session e) → result =
        if (M.state.takenOn (.worker session)).length = 0 ∧
          M.state.settings.requireDispatch.truthy = true
        then .error .nothingDispatched
        else .ok (.count (M.state.takenOn (.worker session)).length)) :
      Verdict failsOn thread M M' ⟨thread, .stop, result, M'.state.clock.now⟩
  /-- Other requests. -/
  | other (x : Exchange κ) (hSession : x.request ≠ .start ∧ x.request ≠ .stop)
      (hDispatch : x.request ≠ .dispatchAll ∧ x.request ≠ .dispatchNext) :
      Verdict failsOn thread M M' x

def Verdicts (failsOn : Nat → Failure → Prop) (thread : Thread) (M M' : Machine σ κ) : Prop :=
  ∃ xs, M'.exchanges = M.exchanges ++ xs ∧ ∀ x ∈ xs, Verdict failsOn thread M M' x

section Verdicts

variable {w : World σ κ} {ok : Request κ → Prop} {thread : Thread} {M M' : Machine σ κ}
  {callers : List (Caller σ κ)} {failsOn : Nat → Failure → Prop}

theorem verdict_of_reply {r : Request κ} {result : Except Failure Reply} {s : State σ κ}
    {next : Except Failure Reply → Program σ κ Unit}
    (hReply : M.state.respond w thread r = .reply result s) :
    Verdict failsOn thread M (M.answer thread r result next callers s)
      ⟨thread, r, result, s.clock.now⟩ := by
  cases r with
  | start =>
    simp only [State.respond] at hReply
    split at hReply
    · rename_i hRunning
      obtain ⟨rfl, rfl⟩ := Response.reply.inj hReply
      exact .alreadyRunning hRunning rfl
    · rename_i hIdle
      obtain ⟨rfl, rfl⟩ := Response.reply.inj hReply
      exact .started (by simpa [State.running] using hIdle) rfl
  | stop =>
    simp only [State.respond] at hReply
    split at hReply
    · rename_i hIdle
      obtain ⟨rfl, rfl⟩ := Response.reply.inj hReply
      exact .notRunning hIdle rfl
    · cases hReply
  | dispatchAll =>
    simp only [State.respond] at hReply
    split at hReply
    · rename_i hRunning
      obtain ⟨rfl, rfl⟩ := Response.reply.inj hReply
      exact .busyAll hRunning rfl
    · cases hReply
  | dispatchNext =>
    simp only [State.respond] at hReply
    split at hReply
    · rename_i hRunning
      obtain ⟨rfl, rfl⟩ := Response.reply.inj hReply
      exact .busyNext hRunning rfl
    · cases hReply
  | _ => exact .other _ (by simp) (by simp)

theorem verdicts_nil (h : M'.exchanges = M.exchanges) : Verdicts failsOn thread M M' :=
  ⟨[], by rw [h, List.append_nil], fun x hx => absurd hx List.not_mem_nil⟩

theorem verdicts_singleton {x : Exchange κ} (h : M'.exchanges = M.exchanges ++ [x])
    (hx : Verdict failsOn thread M M' x) : Verdicts failsOn thread M M' :=
  ⟨[x], h, fun _ hMem => List.mem_singleton.1 hMem ▸ hx⟩

theorem verdicts_exhausted {loop : Loop σ κ} (hOrderly : Orderly M)
    (hTask : M.tasks thread = ⟨.take loop, callers⟩) :
    Verdicts failsOn thread M (M.exhausted thread callers loop) := by
  have hIdle (hDispatch : loop.session? = none) : M.state.session = none :=
    hOrderly.dispatches thread (by simp [hTask, Task.isDispatch, Control.isDispatch, hDispatch])
  cases loop with
  | all count next =>
    exact verdicts_singleton rfl (.dispatched .dispatchAll _ (Or.inl rfl) (hIdle rfl))
  | one next =>
    exact verdicts_singleton rfl (.dispatched .dispatchNext _ (Or.inr rfl) (hIdle rfl))
  | worker session last => cases last <;> exact verdicts_nil rfl

theorem verdicts_finished {p : Program σ κ Unit} {result : Except Failure Unit}
    (hOrderly : Orderly M) (hTask : M.tasks thread = ⟨.run p, callers⟩)
    (hFail : ∀ e, result = .error e → p = .fail e) :
    Verdicts failsOn thread M (M.finished thread result callers) := by
  cases callers with
  | nil => exact verdicts_nil rfl
  | cons c below =>
    cases c with
    | handling target tag next =>
      exact verdicts_singleton rfl (.other _ (by simp) (by simp))
    | delivery m loop =>
      have hIdle (hDispatch : loop.session? = none) : M.state.session = none :=
        hOrderly.dispatches thread
          (by simp [hTask, Task.isDispatch, Caller.isDispatch, hDispatch])
      cases result with
      | ok u =>
        cases loop with
        | one next =>
          exact verdicts_singleton rfl (.dispatched .dispatchNext _ (Or.inr rfl) (hIdle rfl))
        | _ => exact verdicts_nil rfl
      | error e =>
        obtain rfl := hFail e rfl
        cases loop with
        | all count next =>
          exact verdicts_singleton rfl
            (.failed .dispatchAll e m _ below (Or.inl rfl) (hIdle rfl) hTask)
        | one next =>
          exact verdicts_singleton rfl
            (.failed .dispatchNext e m _ below (Or.inr rfl) (hIdle rfl) hTask)
        | worker session last => exact verdicts_nil rfl

theorem verdicts_join {session : Nat} {next : Except Failure Reply → Program σ κ Unit}
    (hOrderly : Orderly M) (hControl : (M.tasks thread).control = .join session next)
    (hGone : M.state.isLive session = false)
    (hFails : ∀ e, failsOn session e ↔ M.state.phase? session = some (.died e)) :
    Verdicts failsOn thread M (M.answer thread .stop
      ((M.state.closeSession thread session).stopResult session) next callers
      (M.state.closeSession thread session)) := by
  have hSession : M.state.session = some session :=
    hOrderly.stops thread session (by rw [hControl]; rfl)
  refine verdicts_singleton rfl (.stopped session _ hSession rfl (fun other => ?_)
    (fun e hFail => ?_) fun hNone => ?_)
  · show M.state.isLive other = false
    cases hLive : M.state.isLive other with
    | false => rfl
    | true =>
      have hSame := hSession.symm.trans (hOrderly.live other hLive)
      rw [← Option.some.inj hSame, hGone] at hLive
      cases hLive
  · exact State.stopResult_of_died (s := M.state) ((hFails e).1 hFail)
  · have hResult := State.stopResult_of_not_died (s := M.state) fun e hDied =>
      hNone e ((hFails e).2 hDied)
    rw [hOrderly.count] at hResult
    exact hResult

/-- **Every request about sessions is answered as the state of the looper says.** -/
theorem verdicts_of_move (hAsks : w.Asks ok) (hOk : ¬ ok .start ∧ ¬ ok .stop)
    (hReach : Reachable w M) (hMove : Move w thread M M')
    (hFails : ∀ session, M.state.isOver session = true →
      ∀ e, failsOn session e ↔ M.state.phase? session = some (.died e)) :
    Verdicts failsOn thread M M' := by
  have hManned := manned_of_reachable hAsks hReach
  have hOrderly := orderly_of_reachable hAsks hOk hReach
  cases hMove with
  | done hTask => exact verdicts_finished hOrderly hTask (by simp)
  | fail hTask =>
    exact verdicts_finished hOrderly hTask fun e he => by rw [Except.error.inj he]
  | reply hTask hReply => exact verdicts_singleton rfl (verdict_of_reply hReply)
  | exhaust hTask hIdle => exact verdicts_exhausted hOrderly hTask
  | idle hTask =>
    refine verdicts_nil ?_
    simp only [idle]
    split
    · rfl
    · split
      · rfl
      · split <;> rfl
  | @joinSelf session next callers hTask hSelf =>
    have hStands := hManned.stands thread
    rw [hSelf] at hStands hTask
    rw [hTask] at hStands
    cases (hStands.eq_nil fun hHandler => hOk.2 hHandler.1).2
  | @join session next callers hTask hOther hGone =>
    have hControl : (M.tasks thread).control = .join session next := by rw [hTask]
    have hOver := State.isOver_iff.2
      ⟨hManned.stops thread session (by rw [hControl]; rfl), hGone⟩
    exact verdicts_join hOrderly hControl hGone (hFails session hOver)
  | _ => exact verdicts_nil rfl

theorem isSome_step_of_join (hAsks : w.Asks ok) (hOk : ¬ ok .start ∧ ¬ ok .stop)
    (hReach : Reachable w M) {session : Nat} {next : Except Failure Reply → Program σ κ Unit}
    (hControl : (M.tasks .main).control = .join session next) :
    (M.step w .main).isSome = true ∨ (M.step w (.worker session)).isSome = true := by
  have hManned := manned_of_reachable hAsks hReach
  have hOrderly := orderly_of_reachable hAsks hOk hReach
  have hLock := exclusive_of_reachable hReach
  cases hLive : M.state.isLive session with
  | false =>
    left
    simp [step, State.hasThread, hControl, hLive]
  | true =>
    right
    have hThread := State.hasThread_of_isLive hLive
    have hSession := hOrderly.stops .main session (by rw [hControl]; rfl)
    have hStands := hManned.stands (.worker session)
    cases hTask : M.tasks (.worker session) with
    | mk control callers =>
      rw [hTask] at hStands
      cases control with
      | acquire loop =>
        have hFree : M.dispatcher = none ∨ M.dispatcher = some (.worker session) := by
          cases hDispatcher : M.dispatcher with
          | none => exact Or.inl rfl
          | some owner =>
            -- who takes messages is in a loop, and main, which waits, is in none
            have hDepth : M.state.depth ≠ 0 := fun hZero => by
              rw [hLock.free.2 hZero] at hDispatcher
              cases hDispatcher
            have hLoops := hLock.loops owner
            rw [if_pos hDispatcher] at hLoops
            cases owner with
            | main =>
              have hMain := hManned.stands .main
              rw [Task.Stands, hControl] at hMain
              obtain ⟨hNil, -⟩ := hMain.eq_nil fun hHandler => hOk.2 hHandler.1
              rw [Task.loops, Task.running, hNil, hControl] at hLoops
              exact absurd hLoops.symm hDepth
            | worker other =>
              have hOther := hOrderly.live other (hManned.isLive_of_loops (by omega))
              rw [hSession] at hOther
              rw [Option.some.inj hOther]
              exact Or.inr rfl
        simp [step, hThread, hTask, hFree]
      | take loop =>
        simp only [step, hThread, hTask, if_true]
        cases M.state.take? (.worker session) <;> rfl
      | halt other next =>
        cases (hStands.eq_nil fun hHandler => hOk.2 hHandler.1).2
      | join other next =>
        cases (hStands.eq_nil fun hHandler => hOk.2 hHandler.1).2
      | ended result =>
        have hPhase := hManned.phase session _ (State.isLive_iff.1 hLive)
        rw [hTask] at hPhase
        cases result <;> cases hPhase
      | _ => simp [step, hThread, hTask]

end Verdicts

theorem follow_append {w : World σ κ} (M : Machine σ κ) (prior rest : List Thread) :
    M.follow w (prior ++ rest) = (M.follow w prior).bind (follow w rest) := by
  induction prior generalizing M with
  | nil => rfl
  | cons thread prior ih =>
    rw [List.cons_append, follow, follow]
    cases M.step w thread with
    | none => rfl
    | some next => exact ih next

/-- In a run in which workers can wait, a worker that is gone was ended by a failure if, and only
if, a handler has failed on it. -/
theorem failsOn_iff_died {w : World σ κ} {ok : Request κ → Prop} (hAsks : w.Asks ok)
    {settings : Settings} {fallback : Option Target} {memory : σ} {s : State σ κ}
    (hMake : State.make settings fallback memory = .ok s)
    (hWait : settings.checkWait = .ok ()) {p : Program σ κ Unit} {schedule : List Thread}
    {M : Machine σ κ} (hFollow : (start s p).follow w schedule = some M) {session : Nat}
    (hOver : M.state.isOver session = true) (e : Failure) :
    FailsOn w (start s p) schedule session e ↔ M.state.phase? session = some (.died e) := by
  have hStart := Reachable.start (w := w) hMake p
  constructor
  · rintro ⟨prior, M₀, m, last, ⟨rest, rfl⟩, hPrior, hTask⟩
    rw [follow_append, hPrior] at hFollow
    exact died_of_failing hAsks (hStart.follow hPrior) (Or.inl ⟨m, last, hTask⟩) hFollow hOver
  · intro hDied
    obtain ⟨clock, rfl⟩ := State.spec_of_make hMake
    exact failsOn_of_died hAsks hStart hWait (by simp [start, State.phase?, State.worker?])
      hFollow hDied

/-- **What becomes of sessions.**  While handlers neither start nor stop any, and workers can wait,
every request is answered as the state says: a start is refused if, and only if, a session is going
on, and so is a dispatch; a stop is refused if none is; and a refusal leaves the looper as it is.
The stop of a session leaves no worker, and says how a handler has failed on the worker, or else how
many messages the worker took, which may be too few.  A dispatch that is not refused begins, and no
session is going on until it is over.  And a main thread that waits for a worker does not wait in
vain: one of the two can go on. -/
theorem verdicts_of_run {w : World σ κ} (hAsks : w.Asks Request.LeavesSessions)
    {settings : Settings} {fallback : Option Target} {memory : σ} {s : State σ κ}
    (hMake : State.make settings fallback memory = .ok s)
    (hWait : settings.checkWait = .ok ()) {p : Program σ κ Unit} {schedule : List Thread}
    {thread : Thread} {M M' : Machine σ κ}
    (hFollow : (start s p).follow w schedule = some M) (hStep : M.step w thread = some M') :
    Verdicts (FailsOn w (start s p) schedule) thread M M' ∧
      (∀ r next callers, M.tasks thread = ⟨.run (.ask r next), callers⟩ →
        r = .dispatchAll ∨ r = .dispatchNext → M.state.session = none →
          M'.state = M.state ∧ (M'.tasks thread).isDispatch = true) ∧
      (∀ other, (M.tasks other).isDispatch = true → M.state.session = none) ∧
      ∀ session next, (M.tasks .main).control = .join session next →
        (M.step w .main).isSome = true ∨ (M.step w (.worker session)).isSome = true := by
  have hReach := (Reachable.start (w := w) hMake p).follow hFollow
  have hOk : ¬ (Request.start : Request κ).LeavesSessions ∧
      ¬ (Request.stop : Request κ).LeavesSessions := Request.leavesSessions_not
  refine ⟨verdicts_of_move hAsks hOk hReach (move_of_step hStep) fun session hOver e =>
      failsOn_iff_died hAsks hMake hWait hFollow hOver e,
    fun r next callers hTask hDispatch hIdle => ?_,
    (orderly_of_reachable hAsks hOk hReach).dispatches,
    fun session next hControl => isSome_step_of_join hAsks hOk hReach hControl⟩
  have hBegun := hasThread_of_step hStep
  rcases hDispatch with rfl | rfl
  · simp only [step, hBegun, hTask, if_true, proceed, ask, State.respond, State.running, hIdle,
      Option.isSome_none, Bool.false_eq_true, if_false, Option.some.injEq] at hStep
    rw [← hStep, put_tasks_self]
    exact ⟨rfl, rfl⟩
  · simp only [step, hBegun, hTask, if_true, proceed, ask, State.respond, State.running, hIdle,
      Option.isSome_none, Bool.false_eq_true, if_false, Option.some.injEq] at hStep
    rw [← hStep, put_tasks_self]
    exact ⟨rfl, rfl⟩

/-- The callback of the first of two messages fails on the worker, and that is what the stop says,
though one message was taken. -/
theorem verdicts_while_failing :
    ∃ (s : State Unit Bool) (M M' : Machine Unit Bool),
      State.make .standard none () = .ok s ∧
      (start s (.twoInSession true)).follow World.flaky
        (List.replicate 3 .main ++ List.replicate 4 (.worker 0) ++ List.replicate 2 .main) =
          some M ∧
      M.step World.flaky .main = some M' ∧
      (M'.exchanges.map (·.result)).getLast? = some (.error .noReceiver) ∧
      Verdicts (FailsOn World.flaky (start s (.twoInSession true))
        (List.replicate 3 .main ++ List.replicate 4 (.worker 0) ++ List.replicate 2 .main))
        .main M M' := by
  have hRun : ∃ (s : State Unit Bool) (M M' : Machine Unit Bool),
      State.make .standard none () = .ok s ∧
      (start s (.twoInSession true)).follow World.flaky
        (List.replicate 3 .main ++ List.replicate 4 (.worker 0) ++ List.replicate 2 .main) =
          some M ∧
      M.step World.flaky .main = some M' ∧
      (M'.exchanges.map (·.result)).getLast? = some (.error .noReceiver) :=
    ⟨_, _, _, rfl, rfl, rfl, rfl⟩
  obtain ⟨s, M, M', hMake, hFollow, hStep, hResult⟩ := hRun
  exact ⟨s, M, M', hMake, hFollow, hStep, hResult,
    (verdicts_of_run (World.asks_flaky _) hMake Settings.checkWait_standard hFollow hStep).1⟩

end Machine

end VirtualLooper
