import VirtualLooper.Proofs.Looper.Lockstep
import VirtualLooper.Proofs.Looper.Verdict
import VirtualLooper.Proofs.Looper.Alike

/-!
# Blocks of auto-dispatch

A block begins a session, runs a body, and stops whatever session is going on then, even if the body
has failed (`autoBlock`).  On a machine a block is a program (`Program.block`): its body goes in
step with the same body alone (`Beside`, `body_of_follow`), whatever the threads do, until the body
is over.  Then the main thread stops the session, and what the stop comes to and how the body has
ended say what leaves the block (`leaves`, `leaving_of_step`).
-/

namespace VirtualLooper

variable {σ κ : Type}

/-- What leaves a block whose body has ended so, by what the stop of the session comes to. -/
def leaves (ended : Except Failure Unit) : Except Failure Reply → Except Failure Unit
  | .ok _ => ended
  | .error e' =>
    match ended with
    | .ok _ => .error (leaving e')
    | .error e => if e'.isMisuse then .error e else .error (leaving e')

namespace Program

def ofResult {α : Type} : Except Failure α → Program σ κ α
  | .ok a => .done a
  | .error e => .fail e

@[simp]
theorem attempt_ofResult {α β : Type} (result : Except Failure α)
    (k : Except Failure α → Program σ κ β) : (ofResult result).attempt k = k result := by
  cases result <;> rfl

def leave (ended : Except Failure Unit) (next : Except Failure Unit → Program σ κ Unit) :
    Program σ κ Unit :=
  .ask .stop fun stopped => next (leaves ended stopped)

/-- Goes on with a body and the end of the block, or without them if the start was refused. -/
def enter (body : Program σ κ Unit) (next : Except Failure Unit → Program σ κ Unit) :
    Except Failure Reply → Program σ κ Unit
  | .error e => next (.error e)
  | .ok _ => body.attempt fun ended => .leave ended next

/-- Runs a body with auto-dispatch on, and goes on with what leaves the block. -/
def block (body : Program σ κ Unit) (next : Except Failure Unit → Program σ κ Unit) :
    Program σ κ Unit :=
  .ask .start (.enter body next)

theorem run_attempt {α β : Type} (perform : Request κ → State σ κ → Outcome (State σ κ) Reply)
    (thread : Thread) (p : Program σ κ α) (k : Except Failure α → Program σ κ β) (s : State σ κ) :
    (p.attempt k).run perform thread s =
      (p.run perform thread s).attempt fun result s => (k result).run perform thread s := by
  induction p generalizing s with
  | done a => rfl
  | fail e => rfl
  | load next ih => exact ih _ s
  | store memory next ih => exact ih { s with memory }
  | look next ih => exact ih _ s
  | ask r next ih =>
    rw [attempt, run, run]
    cases perform r s with
    | ok reply t => exact ih (.ok reply) t
    | failed e t => exact ih (.error e) t
    | deadlock => rfl
    | unfinished => rfl

end Program

/-! ### Blocks by turns -/

section Turns

variable {w : World σ κ} {thread : Thread} {s t : State σ κ}

theorem session_of_stop {bound : Nat} {stopped : Except Failure Reply}
    (h : perform w bound thread .stop s = .ofResult stopped t) : t.session = none := by
  cases bound with
  | zero => cases stopped <;> cases h
  | succ bound =>
    cases hSession : s.session with
    | none =>
      simp only [perform, State.respond, hSession] at h
      rw [← (Outcome.ofResult_inj.1 h).2, hSession]
    | some session =>
      simp only [perform, State.respond, hSession, State.stopWith] at h
      split at h
      · obtain ⟨-, rfl⟩ := Outcome.ofResult_inj.1
          (show Outcome.ofResult (.error .joinSelf) ((s.requestStop session).endSession session) = _
            from h)
        rfl
      · generalize hLast : (if (s.requestStop session).isLive session then _ else _ :
          Outcome (State σ κ) Unit) = last at h
        cases last with
        | ok u v =>
          obtain ⟨-, rfl⟩ := Outcome.ofResult_inj.1
            (show Outcome.ofResult _ (v.closeSession thread session) = _ from h)
          rfl
        | failed e v =>
          -- a turn keeps its failure to itself
          split at hLast
          · split at hLast
            · exact absurd hLast State.turnWith_ne_failed
            · cases hLast
          · cases hLast
        | _ => cases stopped <;> cases h

theorem perform_start (w : World σ κ) (bound : Nat) (thread : Thread) (s : State σ κ) :
    perform w (bound + 1) thread .start s =
      if s.running then .ofResult (.error .alreadyRunning) s
      else .ofResult (.ok .nothing) (s.beginSession thread) := by
  cases hRunning : s.running with
  | true => simp [perform, State.respond, hRunning]
  | false => simp [perform, State.respond, hRunning]

theorem Outcome.exists_ofResult {S α : Type} (o : Outcome S α) :
    (∃ result s, o = .ofResult result s) ∨ o = .deadlock ∨ o = .unfinished := by
  cases o with
  | ok a t => exact Or.inl ⟨.ok a, t, rfl⟩
  | failed e t => exact Or.inl ⟨.error e, t, rfl⟩
  | deadlock => exact Or.inr (Or.inl rfl)
  | unfinished => exact Or.inr (Or.inr rfl)

/-- The end of a block by what the stop comes to; only the log may tell more. -/
theorem leaveBlock_of_stop {bound : Nat} {stopped : Except Failure Reply}
    (h : perform w bound thread .stop s = .ofResult stopped t) (ended : Except Failure Unit) :
    ∃ t', leaveBlock w bound thread ended s = .ofResult (leaves ended stopped) t' ∧
      (t' = t ∨ ∃ e, t' = t.note thread (.suppressed e)) := by
  simp only [leaveBlock, h, Outcome.attempt_ofResult]
  cases stopped with
  | ok reply => cases ended <;> exact ⟨t, rfl, Or.inl rfl⟩
  | error e' =>
    cases ended with
    | ok u => exact ⟨t, rfl, Or.inl rfl⟩
    | error e =>
      cases hMisuse : e'.isMisuse with
      | true => exact ⟨_, by simp [leaves, hMisuse, Outcome.ofResult], Or.inr ⟨e', rfl⟩⟩
      | false => exact ⟨t, by simp [leaves, hMisuse, Outcome.ofResult], Or.inl rfl⟩

/-- **What a block comes to, whatever its body does.**  While a session is going on it is refused.
Otherwise no session is going on in the end, and what leaves the block is what the end of the body
and the stop come to. -/
theorem autoBlock_eq_ok {β : Type} {bound : Nat}
    {body : State σ κ → Outcome (State σ κ) (β × Except Failure Unit)}
    {left : Except Failure Unit} {yielded : Option (β × Nat)}
    (h : autoBlock w bound thread body s = .ok (left, yielded) t) :
    (s.running = true ∧ left = .error .alreadyRunning ∧ yielded = none ∧ t = s) ∨
      (s.session = none ∧ t.session = none ∧
        ∃ b ended u stopped v, body (s.beginSession thread) = .ok (b, ended) u ∧
          perform w bound thread .stop u = .ofResult stopped v ∧ left = leaves ended stopped ∧
          yielded = some (b, s.workers.length) ∧
          (t = v ∨ ∃ e, t = v.note thread (.suppressed e))) := by
  cases bound with
  | zero => cases h
  | succ bound =>
    rw [autoBlock, perform_start] at h
    cases hRunning : s.running with
    | true =>
      simp only [hRunning, if_true, Outcome.attempt_ofResult] at h
      obtain ⟨hLeft, rfl⟩ := Outcome.ok.inj h
      obtain ⟨rfl, rfl⟩ := Prod.mk.inj hLeft
      exact Or.inl ⟨rfl, rfl, rfl, rfl⟩
    | false =>
      have hIdle : s.session = none := by simpa [State.running] using hRunning
      simp only [hRunning, Bool.false_eq_true, if_false, Outcome.attempt_ofResult] at h
      obtain ⟨⟨b, ended⟩, u, hBody, hLeave⟩ := Outcome.bind_eq_ok.1 h
      obtain ⟨stopped, v, hStop⟩ : ∃ stopped v,
          perform w (bound + 1) thread .stop u = .ofResult stopped v := by
        rcases (perform w (bound + 1) thread .stop u).exists_ofResult with hResult | hNone | hNone
        · exact hResult
        · simp [leaveBlock, hNone, Outcome.attempt] at hLeave
        · simp [leaveBlock, hNone, Outcome.attempt] at hLeave
      have hOver : v.session = none := session_of_stop hStop
      obtain ⟨t', hEnd, hState⟩ := leaveBlock_of_stop hStop ended
      simp only [hEnd, Outcome.attempt_ofResult] at hLeave
      obtain ⟨hPair, rfl⟩ := Outcome.ok.inj hLeave
      obtain ⟨rfl, rfl⟩ := Prod.mk.inj hPair
      refine Or.inr ⟨hIdle, ?_, b, ended, u, stopped, v, hBody, hStop, rfl, rfl, hState⟩
      rcases hState with rfl | ⟨e, rfl⟩
      · exact hOver
      · exact hOver

/-- The same looper, whatever it has logged. -/
def State.unlogged (s : State σ κ) : State σ κ := { s with log := [] }

theorem run_block (w : World σ κ) (bound : Nat) (thread : Thread) (body : Program σ κ Unit)
    (s : State σ κ) :
    ((autoBlock w bound thread (fun s => (body.run (perform w bound thread) thread s).attempt
        fun ended s => .ok ((), ended) s) s).map (·.1)).onState State.unlogged =
      ((Program.block body .ofResult).run (perform w bound thread) thread s).attempt
        fun left t => .ok left t.unlogged := by
  have hOfResult (left : Except Failure Unit) (t : State σ κ) :
      (Program.ofResult left).run (perform w bound thread) thread t = .ofResult left t := by
    cases left <;> rfl
  cases bound with
  | zero => rfl
  | succ bound =>
    rw [Program.block, Program.run, autoBlock, perform_start]
    cases s.running with
    | true => rfl
    | false =>
      have hLeave (ended : Except Failure Unit) (u : State σ κ) :
          (((leaveBlock w (bound + 1) thread ended u).attempt fun left t =>
              .ok (left, some ((), s.workers.length)) t).map (·.1)).onState State.unlogged =
            ((Program.leave ended .ofResult).run (perform w (bound + 1) thread) thread u).attempt
              fun left t => .ok left t.unlogged := by
        rw [Program.leave, Program.run]
        rcases (perform w (bound + 1) thread .stop u).exists_ofResult with
          ⟨stopped, v, hStop⟩ | hStop | hStop
        · obtain ⟨t', hEnd, hState⟩ := leaveBlock_of_stop hStop ended
          rw [hEnd, hStop, Outcome.attempt_ofResult, Outcome.attempt_ofResult, hOfResult,
            Outcome.attempt_ofResult]
          rcases hState with rfl | ⟨e, rfl⟩ <;> rfl
        · simp only [leaveBlock, hStop]
          rfl
        · simp only [leaveBlock, hStop]
          rfl
      simp only [Bool.false_eq_true, if_false, Outcome.attempt_ofResult]
      rw [Program.enter, Program.run_attempt]
      cases body.run (perform w (bound + 1) thread) thread (s.beginSession thread) with
      | ok a u => exact hLeave (.ok a) u
      | failed e u => exact hLeave (.error e) u
      | deadlock => rfl
      | unfinished => rfl

end Turns

namespace Machine

/-! ### The body -/

/-- The main thread runs a body in a block that goes on with `k`, as another one runs it alone; the
workers do the same. -/
def Beside (k : Except Failure Unit → Program σ κ Unit) :
    Thread → Program σ κ Unit → Program σ κ Unit → Prop
  | .main, p, p' => p' = p.attempt k
  | .worker _, p, p' => p = p'

section Body

variable {w : World σ κ} {k : Except Failure Unit → Program σ κ Unit} {N M M' : Machine σ κ}
  {prior prior' : List (Exchange κ)}

theorem agrees_attempt {p : Program σ κ Unit} (hOn : ∀ ended, p ≠ .ofResult ended) :
    p.Agrees (Beside k .main) (p.attempt k) := by
  cases p with
  | done u => exact absurd rfl (hOn (.ok u))
  | fail e => exact absurd rfl (hOn (.error e))
  | load next => exact .load fun _ => rfl
  | store memory next => exact .store memory rfl
  | look next => exact .look fun _ => rfl
  | ask r next => exact .ask r fun _ => rfl

/-- **A run of a block is one of its body alone, until that is over.** -/
theorem body_of_follow (hSame : InStep Eq (Beside k) prior prior' N M) {schedule : List Thread}
    (hFollow : M.follow w schedule = some M') :
    (∃ N', N.follow w schedule = some N' ∧ InStep Eq (Beside k) prior prior' N' M') ∨
      ∃ early late ended N₀ M₀, schedule = early ++ late ∧ N.follow w early = some N₀ ∧
        N₀.tasks .main = ⟨.run (.ofResult ended), []⟩ ∧ M.follow w early = some M₀ ∧
        InStep Eq (Beside k) prior prior' N₀ M₀ ∧ M₀.follow w late = some M' := by
  induction schedule generalizing N M with
  | nil =>
    obtain rfl := Option.some.inj hFollow
    exact Or.inl ⟨N, rfl, hSame⟩
  | cons thread schedule ih =>
    by_cases hEnd : ∃ ended, N.tasks .main = ⟨.run (.ofResult ended), []⟩
    · obtain ⟨ended, hTask⟩ := hEnd
      exact Or.inr ⟨[], thread :: schedule, ended, N, M, rfl, rfl, hTask, rfl, hSame, hFollow⟩
    · obtain ⟨M₁, hStep, hRest⟩ := Option.bind_eq_some_iff.1 hFollow
      have hAgrees : ∀ R p p' callers callers', N.tasks thread = ⟨.run p, callers⟩ →
          M.tasks thread = ⟨.run p', callers'⟩ → R p p' →
            Below Eq (Beside k thread) R callers callers' → p.Agrees R p' := by
        intro R p p' callers callers' hTask hTask' hRelated hBelow
        cases hBelow with
        | above hCaller hBelow =>
          obtain rfl := hRelated
          exact .refl Eq.refl p
        | bottom =>
          cases thread with
          | main =>
            obtain rfl := hRelated
            refine agrees_attempt ?_
            rintro ended rfl
            exact hEnd ⟨ended, hTask⟩
          | worker session =>
            obtain rfl := hRelated
            exact .refl Eq.refl p
      rcases hSame.step (.refl Eq.refl w) hAgrees with ⟨-, hNone⟩ | ⟨N₁, M₂, hAlone, hBlock, hNext⟩
      · rw [hStep] at hNone
        cases hNone
      · rw [hStep] at hBlock
        obtain rfl := Option.some.inj hBlock
        rcases ih hNext hRest with
          ⟨N', hAloneRest, hOn⟩ |
          ⟨early, late, ended, N₀, M₀, rfl, hEarly, hTask, hEarly', hOn, hLate⟩
        · exact Or.inl ⟨N', Option.bind_eq_some_iff.2 ⟨N₁, hAlone, hAloneRest⟩, hOn⟩
        · exact Or.inr ⟨thread :: early, late, ended, N₀, M₀, rfl,
            Option.bind_eq_some_iff.2 ⟨N₁, hAlone, hEarly⟩, hTask,
            Option.bind_eq_some_iff.2 ⟨M₁, hStep, hEarly'⟩, hOn, hLate⟩

end Body

/-! ### The end -/

/-- The main thread leaves a block whose body has ended so, and has not yet done so. -/
inductive Leaving (ended : Except Failure Unit) (next : Except Failure Unit → Program σ κ Unit) :
    Task σ κ → Prop
  | ask : Leaving ended next ⟨.run (.leave ended next), []⟩
  | halt (session : Nat) :
      Leaving ended next ⟨.halt session fun stopped => next (leaves ended stopped), []⟩
  | join (session : Nat) :
      Leaving ended next ⟨.join session fun stopped => next (leaves ended stopped), []⟩

/-- The step by which the main thread has left a block: the stop has come to what it says, given
what has ended the worker, and no session is going on. -/
structure Left (ended : Except Failure Unit) (stopped : Except Failure Reply)
    (next : Except Failure Unit → Program σ κ Unit) (M M' : Machine σ κ) : Prop where
  session : M'.state.session = none
  task : M'.tasks .main = ⟨.run (next (leaves ended stopped)), []⟩
  exchanges : M'.exchanges = M.exchanges ++ [⟨.main, .stop, stopped, M'.state.clock.now⟩]
  verdict : Verdict (fun session e => M.state.phase? session = some (.died e)) .main M M'
    ⟨.main, .stop, stopped, M'.state.clock.now⟩

section End

variable {w : World σ κ} {ok : Request κ → Prop} {thread : Thread} {M M' : Machine σ κ}
  {ended : Except Failure Unit} {next : Except Failure Unit → Program σ κ Unit}

theorem isSome_step_of_leaving (hAsks : w.Asks ok) (hOk : ¬ ok .start ∧ ¬ ok .stop)
    (hReach : Reachable w M) (h : Leaving ended next (M.tasks .main)) :
    ∃ thread, (M.step w thread).isSome = true := by
  cases hTask : M.tasks .main with
  | mk control callers =>
    rw [hTask] at h
    cases h with
    | ask => exact ⟨.main, by simp [step, State.hasThread, hTask]⟩
    | halt session => exact ⟨.main, by simp [step, State.hasThread, hTask]⟩
    | join session =>
      have hControl : (M.tasks .main).control =
          .join session fun stopped => next (leaves ended stopped) := by rw [hTask]
      rcases isSome_step_of_join hAsks hOk hReach hControl with hMain | hWorker
      · exact ⟨.main, hMain⟩
      · exact ⟨.worker session, hWorker⟩

/-- **A thread that leaves a block asks for the stop, waits for the worker, and has left.** -/
theorem leaving_of_step (hAsks : w.Asks ok) (hOk : ¬ ok .start ∧ ¬ ok .stop)
    (hReach : Reachable w M) (h : Leaving ended next (M.tasks .main))
    (hStep : M.step w thread = some M') :
    Leaving ended next (M'.tasks .main) ∨
      thread = .main ∧ ∃ stopped, Left ended stopped next M M' := by
  by_cases hThread : thread = .main
  · subst hThread
    have hMove := move_of_step hStep
    obtain ⟨xs, hExchanges, hVerdicts⟩ : Verdicts
        (fun session e => M.state.phase? session = some (.died e)) .main M M' :=
      verdicts_of_move hAsks hOk hReach hMove fun session _ e => Iff.rfl
    have hVerdict {x : Exchange κ} (hx : M'.exchanges = M.exchanges ++ [x]) :
        Verdict (fun session e => M.state.phase? session = some (.died e)) .main M M' x := by
      rw [hExchanges] at hx
      rw [List.append_cancel_left hx] at hVerdicts
      exact hVerdicts x (List.mem_singleton_self x)
    cases hTask : M.tasks .main with
    | mk control callers =>
      rw [hTask] at h
      cases h with
      | ask =>
        cases hSession : M.state.session with
        | none =>
          obtain rfl : M.answer .main .stop (.error .notRunning)
              (fun stopped => next (leaves ended stopped)) [] M.state = M' := by
            simpa [step, State.hasThread, hTask, proceed, Program.leave, ask, State.respond,
              hSession] using hStep
          exact Or.inr ⟨rfl, .error .notRunning, hSession, answer_tasks_self .., rfl, hVerdict rfl⟩
        | some session =>
          obtain rfl : M.put .main ⟨.halt session fun stopped => next (leaves ended stopped), []⟩
              M.state = M' := by
            simpa [step, State.hasThread, hTask, proceed, Program.leave, ask, State.respond,
              hSession] using hStep
          refine Or.inl ?_
          rw [put_tasks_self]
          exact .halt session
      | halt session =>
        obtain rfl : M.put .main ⟨.join session fun stopped => next (leaves ended stopped), []⟩
            (M.state.requestStop session) = M' := by
          simpa [step, State.hasThread, hTask] using hStep
        refine Or.inl ?_
        rw [put_tasks_self]
        exact .join session
      | join session =>
        cases hLive : M.state.isLive session with
        | true => simp [step, State.hasThread, hTask, hLive] at hStep
        | false =>
          obtain rfl : M.answer .main .stop
              ((M.state.closeSession .main session).stopResult session)
              (fun stopped => next (leaves ended stopped)) []
              (M.state.closeSession .main session) = M' := by
            simpa [step, State.hasThread, hTask, hLive] using hStep
          exact Or.inr ⟨rfl, _, rfl, answer_tasks_self .., rfl, hVerdict rfl⟩
  · left
    rw [tasks_step hStep (Ne.symm hThread)]
    exact h

theorem leaving_of_follow (hAsks : w.Asks ok) (hOk : ¬ ok .start ∧ ¬ ok .stop)
    (hReach : Reachable w M) (h : Leaving ended next (M.tasks .main)) {schedule : List Thread}
    (hFollow : M.follow w schedule = some M') :
    Leaving ended next (M'.tasks .main) ∨
      ∃ early late stopped M₁ M₂, schedule = early ++ .main :: late ∧
        M.follow w early = some M₁ ∧ M₁.step w .main = some M₂ ∧ Left ended stopped next M₁ M₂ ∧
        M₂.follow w late = some M' := by
  induction schedule generalizing M with
  | nil =>
    obtain rfl := Option.some.inj hFollow
    exact Or.inl h
  | cons thread schedule ih =>
    obtain ⟨M₁, hStep, hRest⟩ := Option.bind_eq_some_iff.1 hFollow
    rcases leaving_of_step hAsks hOk hReach h hStep with hOn | ⟨rfl, stopped, hLeft⟩
    · rcases ih (hReach.step thread hStep) hOn hRest with
        hEnd | ⟨early, late, stopped, M₂, M₃, rfl, hEarly, hLast, hLeft, hLate⟩
      · exact Or.inl hEnd
      · exact Or.inr ⟨thread :: early, late, stopped, M₂, M₃, rfl,
          Option.bind_eq_some_iff.2 ⟨M₁, hStep, hEarly⟩, hLast, hLeft, hLate⟩
    · exact Or.inr ⟨[], schedule, stopped, M, M₁, rfl, rfl, hStep, hLeft, hRest⟩

/-- While no session is going on, the count of a session that has begun is final. -/
theorem dispatchedBy_of_idle (hAsks : w.Asks ok) (hOk : ¬ ok .start ∧ ¬ ok .stop)
    (hReach : Reachable w M) (hIdle : M.state.session = none) {session : Nat}
    (hBegun : M.state.hasThread (.worker session) = true) {schedule : List Thread}
    (hFollow : M.follow w schedule = some M') :
    M'.state.dispatchedBy session = M.state.dispatchedBy session := by
  have hOrderly := orderly_of_reachable hAsks hOk hReach
  have hOver : M.state.isOver session = true :=
    State.isOver_iff.2 ⟨State.phase?_ne_none_iff.2 hBegun, hOrderly.isLive_eq_false hIdle session⟩
  rw [hOrderly.count, (orderly_of_reachable hAsks hOk (hReach.follow hFollow)).count,
    takenOn_of_isOver hReach hOver hFollow]

end End

/-! ### The whole block -/

/-- Where the run of a block is after some steps, given a machine on which the body runs alone. -/
inductive Course (w : World σ κ) (next : Except Failure Unit → Program σ κ Unit) (session : Nat)
    (alone M : Machine σ κ) (schedule : List Thread) (M' : Machine σ κ) : Prop
  /-- The body runs, as it does alone. -/
  | inside (N : Machine σ κ) (hAlone : alone.follow w schedule = some N)
      (hState : M'.state = N.state) (hExchanges : M'.exchanges = N.exchanges)
  /-- The body has ended as it does alone, and the main thread leaves the block. -/
  | leaving (early late : List Thread) (N M₀ : Machine σ κ) (ended : Except Failure Unit)
      (hSchedule : schedule = early ++ late) (hAlone : alone.follow w early = some N)
      (hEnd : N.tasks .main = ⟨.run (.ofResult ended), []⟩) (hEarly : M.follow w early = some M₀)
      (hState : M₀.state = N.state) (hLate : M₀.follow w late = some M')
      (hLeaving : Leaving ended next (M'.tasks .main))
      (hOn : ∃ thread, (M'.step w thread).isSome = true)
  /-- The main thread has left the block. -/
  | left (early middle late : List Thread) (N M₀ M₁ M₂ : Machine σ κ) (ended : Except Failure Unit)
      (stopped : Except Failure Reply) (hSchedule : schedule = early ++ (middle ++ .main :: late))
      (hAlone : alone.follow w early = some N)
      (hEnd : N.tasks .main = ⟨.run (.ofResult ended), []⟩) (hEarly : M.follow w early = some M₀)
      (hState : M₀.state = N.state) (hMiddle : M₀.follow w middle = some M₁)
      (hStep : M₁.step w .main = some M₂) (hLeft : Left ended stopped next M₁ M₂)
      (hLate : M₂.follow w late = some M')
      (hCount : M'.state.dispatchedBy session = M₂.state.dispatchedBy session)

section Whole

variable {w : World σ κ} {ok : Request κ → Prop} {M M' : Machine σ κ} {body : Program σ κ Unit}
  {next : Except Failure Unit → Program σ κ Unit}

/-- A machine whose main thread runs a body in a block goes in step with one on which it runs it
alone. -/
theorem inStep_put (k : Except Failure Unit → Program σ κ Unit)
    (hTask : M.tasks .main = ⟨.run (body.attempt k), []⟩) :
    InStep Eq (Beside k) M.exchanges M.exchanges (M.put .main ⟨.run body, []⟩ M.state) M := by
  refine ⟨rfl, rfl, ?_, [], by simp [Machine.put]⟩
  intro thread
  cases thread with
  | main =>
    rw [put_tasks_self, hTask]
    exact ⟨Beside k .main, .run rfl, .bottom⟩
  | worker session => exact .refl Eq.refl (M.tasks (.worker session))

theorem course_of_follow (hAsks : w.Asks ok) (hOk : ¬ ok .start ∧ ¬ ok .stop)
    (hReach : Reachable w M) {session : Nat}
    (hTask : M.tasks .main = ⟨.run (body.attempt fun ended => .leave ended next), []⟩)
    (hBegun : M.state.hasThread (.worker session) = true) {schedule : List Thread}
    (hFollow : M.follow w schedule = some M') :
    Course w next session (M.put .main ⟨.run body, []⟩ M.state) M schedule M' := by
  rcases body_of_follow (inStep_put _ hTask) hFollow with
    ⟨N, hAlone, hSame⟩ | ⟨early, late, ended, N, M₀, rfl, hAlone, hEnd, hEarly, hSame, hLate⟩
  · obtain ⟨xs, hFirst, hSecond⟩ := hSame.exchanges
    exact .inside N hAlone hSame.state (hSecond.trans hFirst.symm)
  · have hReach₀ := hReach.follow hEarly
    have hLeaving : Leaving ended next (M₀.tasks .main) := by
      obtain ⟨R, hControl, hBelow⟩ := (hSame.tasks .main).lift
      cases hTask₀ : M₀.tasks .main with
      | mk control callers =>
        rw [hEnd, hTask₀] at hControl hBelow
        cases hBelow
        cases hControl with
        | run hRelated =>
          obtain rfl := hRelated
          rw [Program.attempt_ofResult]
          exact .ask
    rcases leaving_of_follow hAsks hOk hReach₀ hLeaving hLate with
      hOn | ⟨middle, late, stopped, M₁, M₂, rfl, hMiddle, hStep, hLeft, hLate'⟩
    · exact .leaving early late N M₀ ended rfl hAlone hEnd hEarly hSame.state hLate hOn
        (isSome_step_of_leaving hAsks hOk (hReach₀.follow hLate) hOn)
    · have hReach₂ := (hReach₀.follow hMiddle).step .main hStep
      have hAges : M.state.Ages M₂.state :=
        ((ages_follow hEarly).trans (ages_follow hMiddle)).trans (frame_step hStep).ages
      exact .left early middle late N M₀ M₁ M₂ ended stopped rfl hAlone hEnd hEarly hSame.state
        hMiddle hStep hLeft hLate'
        (dispatchedBy_of_idle hAsks hOk hReach₂ hLeft.session (hAges.hasThread hBegun) hLate')

end Whole

/-- **What leaves a block of auto-dispatch.**  While handlers neither start nor stop sessions, a
block is refused if a session is going on, and nothing else happens.  Otherwise it begins a session,
and its body goes on as it would alone, whatever it does and whatever the threads do.  When the body
has ended, the main thread stops the session that is going on then, if one is, and does not wait in
vain.  It leaves the block while no session is going on, by the failure of the body, or else by that
of the stop; the failure of the body gives way to one of the stop that is no misuse, and the end of
an iteration does not leave a block as such.  The session that the block has begun has counted its
last message then.  So it is of blocks by turns, too. -/
theorem left_of_block {w : World σ κ} (hAsks : w.Asks Request.LeavesSessions) {M : Machine σ κ}
    (hReach : Reachable w M) {body : Program σ κ Unit}
    {next : Except Failure Unit → Program σ κ Unit}
    (hTask : M.tasks .main = ⟨.run (.block body next), []⟩) :
    (∀ session, M.state.session = some session → ∃ M', M.step w .main = some M' ∧
      M'.state = M.state ∧ M'.tasks .main = ⟨.run (next (.error .alreadyRunning)), []⟩ ∧
      ∀ other, M'.tasks (.worker other) = M.tasks (.worker other)) ∧
    (M.state.session = none → ∃ M₁, M.step w .main = some M₁ ∧
      M₁.state = M.state.beginSession .main ∧
      ∀ schedule M', M₁.follow w schedule = some M' →
        Course w next M.state.workers.length (M₁.put .main ⟨.run body, []⟩ M₁.state) M₁ schedule
          M') ∧
    ∀ {β : Type} (bound : Nat) (thread : Thread)
      (body : State σ κ → Outcome (State σ κ) (β × Except Failure Unit)) (s t : State σ κ)
      (left : Except Failure Unit) (yielded : Option (β × Nat)),
      autoBlock w bound thread body s = .ok (left, yielded) t →
        (s.running = true ∧ left = .error .alreadyRunning ∧ yielded = none ∧ t = s) ∨
          (s.session = none ∧ t.session = none ∧
            ∃ b ended u stopped v, body (s.beginSession thread) = .ok (b, ended) u ∧
              perform w bound thread .stop u = .ofResult stopped v ∧ left = leaves ended stopped ∧
              yielded = some (b, s.workers.length) ∧
              (t = v ∨ ∃ e, t = v.note thread (.suppressed e))) := by
  have hOk : ¬ (Request.start : Request κ).LeavesSessions ∧
      ¬ (Request.stop : Request κ).LeavesSessions := Request.leavesSessions_not
  refine ⟨?_, ?_, fun bound thread body s t left yielded h => autoBlock_eq_ok h⟩
  · intro session hSession
    refine ⟨M.answer .main .start (.error .alreadyRunning) (.enter body next) [] M.state, ?_, rfl,
      answer_tasks_self .., fun other => rfl⟩
    simp [step, State.hasThread, hTask, proceed, Program.block, ask, State.respond, State.running,
      hSession]
  · intro hIdle
    let M₁ :=
      M.answer .main .start (.ok .nothing) (.enter body next) [] (M.state.beginSession .main)
    have hStep : M.step w .main = some M₁ := by
      simp [step, State.hasThread, hTask, proceed, Program.block, ask, State.respond,
        State.running, hIdle, M₁]
    refine ⟨M₁, hStep, rfl, ?_⟩
    intro schedule M' hFollow
    have hBegun : M₁.state.hasThread (.worker M.state.workers.length) = true := by
      simp [State.hasThread, M₁, answer, put, State.beginSession, State.note]
    exact course_of_follow hAsks hOk (hReach.step .main hStep) (answer_tasks_self ..) hBegun hFollow

end Machine

def World.failing (e : Failure) : World Unit Unit where
  receive _ _ := .done ()
  invoke _ := .fail e
  records _ := false

/-- A block in which a message is queued, whose callback is called on the worker. -/
def Program.oneInBlock : Program Unit Unit Unit :=
  .block (.ask (.enqueue (.str "tag") (.int 0) none (some ())) fun _ => .done ()) .ofResult

namespace Machine

/-- The body ends well, and the failure of the callback leaves the block. -/
theorem left_of_failing :
    ∃ (s : State Unit Unit) (M₁ M' : Machine Unit Unit),
      State.make .standard none () = .ok s ∧
      (start s .oneInBlock).step (.failing .noReceiver) .main = some M₁ ∧
      M₁.follow (.failing .noReceiver)
        (List.replicate 3 .main ++ List.replicate 4 (.worker 0) ++ [.main]) = some M' ∧
      M'.tasks .main = ⟨.run (.fail .noReceiver), []⟩ ∧ M'.state.session = none ∧
      Course (.failing .noReceiver) .ofResult 0
        (M₁.put .main
          ⟨.run (.ask (.enqueue (.str "tag") (.int 0) none (some ())) fun _ => .done ()), []⟩
          M₁.state)
        M₁ (List.replicate 3 .main ++ List.replicate 4 (.worker 0) ++ [.main]) M' := by
  have hRun : ∃ (s : State Unit Unit) (M₁ M' : Machine Unit Unit),
      State.make .standard none () = .ok s ∧
      (start s .oneInBlock).step (.failing .noReceiver) .main = some M₁ ∧
      M₁.follow (.failing .noReceiver)
        (List.replicate 3 .main ++ List.replicate 4 (.worker 0) ++ [.main]) = some M' ∧
      M'.tasks .main = ⟨.run (.fail .noReceiver), []⟩ ∧ M'.state.session = none :=
    ⟨_, _, _, rfl, rfl, rfl, rfl, rfl⟩
  obtain ⟨s, M₁, M', hMake, hStep, hFollow, hTask, hSession⟩ := hRun
  have hAsks : (World.failing .noReceiver).Asks Request.LeavesSessions :=
    ⟨fun _ _ => trivial, fun _ => trivial⟩
  have hStart : s.session = none ∧ s.workers = [] := by
    obtain ⟨clock, rfl⟩ := State.spec_of_make hMake
    exact ⟨rfl, rfl⟩
  obtain ⟨-, hIdle, -⟩ := left_of_block hAsks (.start hMake .oneInBlock) rfl
  obtain ⟨M₂, hStep₂, -, hCourse⟩ := hIdle hStart.1
  obtain rfl := Option.some.inj (hStep.symm.trans hStep₂)
  have hZero : (start s Program.oneInBlock).state.workers.length = 0 := by
    show s.workers.length = 0
    rw [hStart.2]
    rfl
  have hWhole := hCourse _ M' hFollow
  rw [hZero] at hWhole
  exact ⟨s, M₁, M', hMake, hStep, hFollow, hTask, hSession, hWhole⟩

/-- The body ends well and the stop fails by the end of an iteration, but that is not what leaves
the block. -/
theorem left_by_stray_end :
    ∃ (e : Failure) (M M' : Machine Unit Unit),
      after (.failing e) .standard none () .oneInBlock
        (List.replicate 4 .main ++ List.replicate 4 (.worker 0)) = some M ∧
      M.step (.failing e) .main = some M' ∧
      (M'.exchanges.getLast?.map fun x => (x.request, x.result)) = some (.stop, .error e) ∧
      M'.tasks .main = ⟨.run (.fail .strayEnd), []⟩ ∧ Failure.strayEnd ≠ e :=
  ⟨.thrown .endOfIteration (.str "done"), _, _, rfl, rfl, rfl, rfl, nofun⟩

end Machine

end VirtualLooper
