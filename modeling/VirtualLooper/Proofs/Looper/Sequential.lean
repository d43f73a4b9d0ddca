import VirtualLooper.Proofs.Looper.Shift

/-!
# Running by turns is one way of running side by side

`perform` lets the thread that makes a request run alone until it has its answer, and `settle` gives
workers their turns one after the other.  A machine can do the same: whatever a run by turns comes
to, threads that take single steps can come to, in some order.  So what holds of all machines that
can be reached holds of every state that a run by turns comes to.

While one thread runs alone, the workers of all sessions that are not over wait to begin
(`Machine.Calm`), and the lock is free or its own.  From there, step by step:

* `comes_run`: a program runs to its end, if its requests come to what `perform` says.
* `comes_drain`: a loop takes the messages that a drain takes.
* `comes_answer`, `comes_deliverAll`, `comes_deliverNext`, `comes_call`, `comes_stop`: so do
  requests, one lemma for each way to respond; a stop gives the worker its last turn (`comes_turn`).
* `simulates`: hence all requests, by induction on the bound of `perform`.
* `reachable_of_byTurns`: hence whole runs, whatever the main thread goes on with.
-/

namespace VirtualLooper

variable {σ κ : Type}

/-! ### Loops that count -/

namespace Loop

def isDrain : Loop σ κ → Bool
  | one _ => false
  | _ => true

def countedBy (loop : Loop σ κ) : Nat → Loop σ κ
  | 0 => loop
  | n + 1 => loop.counted.countedBy n

theorem countedBy_all (count n : Nat) (next : Except Failure Reply → Program σ κ Unit) :
    (all count next).countedBy n = all (count + n) next := by
  induction n generalizing count with
  | zero => rfl
  | succ n ih =>
    rw [countedBy, counted, ih]
    congr 1
    omega

theorem countedBy_worker (session n : Nat) (last : Bool) :
    (worker session last : Loop σ κ).countedBy n = worker session last := by
  induction n with
  | zero => rfl
  | succ n ih => exact ih

theorem tally_counted (loop : Loop σ κ) : loop.counted.tally = loop.tally := by
  cases loop <;> rfl

theorem isDrain_counted (loop : Loop σ κ) : loop.counted.isDrain = loop.isDrain := by
  cases loop <;> rfl

end Loop

namespace Machine

/-! ### Steps of any threads -/

/-- Threads can take steps from one machine to another. -/
def Leads (w : World σ κ) (M M' : Machine σ κ) : Prop := ∃ schedule, M.follow w schedule = some M'

namespace Leads

variable {w : World σ κ} {M M' M'' : Machine σ κ}

theorem refl (M : Machine σ κ) : Leads w M M := ⟨[], rfl⟩

theorem of_step {thread : Thread} (h : M.step w thread = some M') : Leads w M M' :=
  ⟨[thread], by rw [follow, h]; rfl⟩

theorem trans (h : Leads w M M') (h' : Leads w M' M'') : Leads w M M'' := by
  obtain ⟨schedule, hFollow⟩ := h
  obtain ⟨rest, hRest⟩ := h'
  refine ⟨schedule ++ rest, ?_⟩
  induction schedule generalizing M with
  | nil =>
    obtain rfl := Option.some.inj hFollow
    exact hRest
  | cons thread schedule ih =>
    obtain ⟨next, hStep, hNext⟩ := Option.bind_eq_some_iff.1 hFollow
    rw [List.cons_append, follow, hStep]
    exact ih hNext

end Leads

/-! ### A thread that runs alone -/

/-- A thread may run alone: the workers of all other sessions that are not over wait to begin, and
nobody else holds the lock. -/
structure Calm (thread : Thread) (M : Machine σ κ) : Prop where
  waiting : ∀ session, .worker session ≠ thread → M.state.isOver session = false →
    M.tasks (.worker session) = ⟨.acquire (.worker session false), []⟩
  present : M.state.hasThread thread = true
  lock : M.dispatcher = if M.state.depth = 0 then none else some thread

/-- A thread that ran alone has come to a machine. -/
structure Goes (w : World σ κ) (thread : Thread) (M M' : Machine σ κ) : Prop where
  leads : Leads w M M'
  calm : Calm thread M'
  ages : M.state.Ages M'.state
  main : thread ≠ .main → M'.tasks .main = M.tasks .main

/-- It is there as deep in loops as before. -/
structure Comes (w : World σ κ) (thread : Thread) (M M' : Machine σ κ) : Prop extends
    Goes w thread M M' where
  depth : M'.state.depth = M.state.depth

abbrev ComesTo (w : World σ κ) (thread : Thread) (M : Machine σ κ) (s : State σ κ)
    (t : Task σ κ) : Prop :=
  ∃ M', Comes w thread M M' ∧ M'.state = s ∧ M'.tasks thread = t

variable {w : World σ κ} {thread : Thread} {M M' M'' : Machine σ κ}

theorem Goes.trans (h : Goes w thread M M') (h' : Goes w thread M' M'') : Goes w thread M M'' :=
  ⟨h.leads.trans h'.leads, h'.calm, h.ages.trans h'.ages,
    fun hMain => (h'.main hMain).trans (h.main hMain)⟩

theorem Goes.of_step (h : Calm thread M) (hStep : M.step w thread = some M')
    (hLock : M'.dispatcher = if M'.state.depth = 0 then none else some thread) :
    Goes w thread M M' where
  leads := .of_step hStep
  calm :=
    { waiting := fun session hOther hOver => by
        rw [(frame_step hStep).others _ hOther]
        refine h.waiting session hOther ?_
        cases hBefore : M.state.isOver session with
        | false => rfl
        | true => rw [(frame_step hStep).ages.isOver hBefore] at hOver; exact hOver
      present := (frame_step hStep).ages.hasThread h.present
      lock := hLock }
  ages := (frame_step hStep).ages
  main hMain := (frame_step hStep).others _ (Ne.symm hMain)

namespace Comes

theorem refl (h : Calm thread M) : Comes w thread M M :=
  ⟨⟨.refl M, h, .refl _, fun _ => rfl⟩, rfl⟩

theorem trans (h : Comes w thread M M') (h' : Comes w thread M' M'') : Comes w thread M M'' :=
  ⟨h.toGoes.trans h'.toGoes, h'.depth.trans h.depth⟩

theorem inside (h : Comes w thread M M') (hInside : thread ≠ .main → 0 < M.state.depth) :
    thread ≠ .main → 0 < M'.state.depth := by
  rw [h.depth]
  exact hInside

theorem of_step (h : Calm thread M) (hStep : M.step w thread = some M')
    (hLock : M'.dispatcher = M.dispatcher) (hDepth : M'.state.depth = M.state.depth) :
    Comes w thread M M' :=
  ⟨.of_step h hStep (by rw [hLock, hDepth, h.lock]), hDepth⟩

end Comes

theorem goes_enter {loop : Loop σ κ} {callers : List (Caller σ κ)} (h : Calm thread M)
    (hTask : M.tasks thread = ⟨.acquire loop, callers⟩) :
    ∃ M', Goes w thread M M' ∧ M'.state.depth = M.state.depth + 1 ∧
      M'.state = M.state.enter ∧ M'.tasks thread = ⟨.take loop, callers⟩ := by
  have hFree : M.dispatcher = none ∨ M.dispatcher = some thread := by
    rw [h.lock]
    split
    · exact Or.inl rfl
    · exact Or.inr rfl
  have hStep : M.step w thread = some { M.put thread ⟨.take loop, callers⟩ M.state.enter with
      dispatcher := some thread } := by
    simp [step, h.present, hTask, hFree]
  exact ⟨_, .of_step h hStep rfl, rfl, rfl, if_pos rfl⟩

theorem Goes.of_leave (h : Calm thread M) (hInside : 0 < M.state.depth)
    (hStep : M.step w thread = some M') (hLock : M'.dispatcher = M.release.dispatcher)
    (hDepth : M'.state.depth = M.state.depth - 1) : Goes w thread M M' := by
  refine .of_step h hStep ?_
  rw [hLock, hDepth, release, h.lock, if_neg (Nat.ne_of_gt hInside)]
  rfl

theorem Comes.of_loop (h : Goes w thread M M') (hDeep : M'.state.depth = M.state.depth + 1)
    (hStep : M'.step w thread = some M'') (hLock : M''.dispatcher = M'.release.dispatcher)
    (hDepth : M''.state.depth = M'.state.depth - 1) : Comes w thread M M'' :=
  ⟨h.trans (.of_leave h.calm (by omega) hStep hLock hDepth), by omega⟩

theorem step_run {p : Program σ κ Unit} {callers : List (Caller σ κ)} (h : Calm thread M)
    (hTask : M.tasks thread = ⟨.run p, callers⟩) :
    M.step w thread = some (M.proceed w thread callers p) := by
  simp [step, h.present, hTask]

/-! ### Requests -/

/-- What `perform` says a request comes to, a machine can come to. -/
def Simulates (w : World σ κ) (bound : Nat) : Prop :=
  ∀ (thread : Thread) (M : Machine σ κ) (r : Request κ)
    (next : Except Failure Reply → Program σ κ Unit) (callers : List (Caller σ κ))
    (result : Except Failure Reply) (s : State σ κ), Calm thread M →
    (thread ≠ .main → 0 < M.state.depth) → M.tasks thread = ⟨.run (.ask r next), callers⟩ →
    perform w bound thread r M.state = .ofResult result s →
    ComesTo w thread M s ⟨.run (next result), callers⟩

def ended (result : Except Failure Unit) : Program σ κ Unit :=
  match result with
  | .ok u => .done u
  | .error e => .fail e

section Simulation

variable {bound : Nat} {callers : List (Caller σ κ)}

theorem comes_run (hSim : Simulates w bound) {p : Program σ κ Unit}
    (result : Except Failure Unit) {s : State σ κ} (h : Calm thread M)
    (hInside : thread ≠ .main → 0 < M.state.depth)
    (hTask : M.tasks thread = ⟨.run p, callers⟩)
    (hRun : p.run (perform w bound thread) thread M.state = .ofResult result s) :
    ComesTo w thread M s ⟨.run (ended result), callers⟩ := by
  induction p generalizing M with
  | done u =>
    cases result with
    | ok u' =>
      obtain ⟨-, rfl⟩ := Outcome.ok.inj hRun
      exact ⟨M, .refl h, rfl, hTask⟩
    | error e => cases hRun
  | fail e =>
    cases result with
    | ok u => cases hRun
    | error e' =>
      obtain ⟨rfl, rfl⟩ := Outcome.failed.inj hRun
      exact ⟨M, .refl h, rfl, hTask⟩
  | load next ih =>
    have hComes : Comes w thread M (M.put thread ⟨.run (next M.state.memory), callers⟩ M.state) :=
      .of_step h (step_run h hTask) rfl rfl
    obtain ⟨M', hMore, hState, hEnd⟩ := ih _ hComes.calm hInside (put_tasks_self _ _) hRun
    exact ⟨M', hComes.trans hMore, hState, hEnd⟩
  | store memory next ih =>
    have hComes : Comes w thread M
        (M.put thread ⟨.run next, callers⟩ { M.state with memory }) :=
      .of_step h (step_run h hTask) rfl rfl
    obtain ⟨M', hMore, hState, hEnd⟩ := ih hComes.calm hInside (put_tasks_self _ _) hRun
    exact ⟨M', hComes.trans hMore, hState, hEnd⟩
  | look next ih =>
    have hComes : Comes w thread M
        (M.put thread ⟨.run (next (M.state.sight thread)), callers⟩ M.state) :=
      .of_step h (step_run h hTask) rfl rfl
    obtain ⟨M', hMore, hState, hEnd⟩ := ih _ hComes.calm hInside (put_tasks_self _ _) hRun
    exact ⟨M', hComes.trans hMore, hState, hEnd⟩
  | ask r next ih =>
    rw [Program.run] at hRun
    cases hPerform : perform w bound thread r M.state with
    | ok reply t =>
      rw [hPerform] at hRun
      obtain ⟨M₁, hComes, rfl, hTask₁⟩ := hSim thread M r next callers (.ok reply) t h hInside
        hTask hPerform
      obtain ⟨M', hMore, hState, hEnd⟩ := ih _ hComes.calm (hComes.inside hInside) hTask₁ hRun
      exact ⟨M', hComes.trans hMore, hState, hEnd⟩
    | failed e t =>
      rw [hPerform] at hRun
      obtain ⟨M₁, hComes, rfl, hTask₁⟩ := hSim thread M r next callers (.error e) t h hInside
        hTask hPerform
      obtain ⟨M', hMore, hState, hEnd⟩ := ih _ hComes.calm (hComes.inside hInside) hTask₁ hRun
      exact ⟨M', hComes.trans hMore, hState, hEnd⟩
    | deadlock =>
      rw [hPerform] at hRun
      cases result <;> cases hRun
    | unfinished =>
      rw [hPerform] at hRun
      cases result <;> cases hRun

theorem comes_deliver (hSim : Simulates w bound) {m : Message κ} {loop : Loop σ κ}
    (result : Except Failure Unit) {s : State σ κ} (h : Calm thread M)
    (hInside : 0 < M.state.depth) (hTask : M.tasks thread = ⟨.deliver m loop, callers⟩)
    (hDeliver : w.deliver (perform w bound thread) thread m M.state = .ofResult result s) :
    ComesTo w thread M s ⟨.run (ended result), .delivery m loop :: callers⟩ := by
  have hStep : M.step w thread = some (M.put thread
      ⟨.run (w.delivery m), .delivery m loop :: callers⟩ (w.atDelivery thread m M.state)) := by
    simp [step, h.present, hTask]
  have hComes := Comes.of_step h hStep rfl (depth_atDelivery _ _)
  obtain ⟨M', hMore, hState, hEnd⟩ := comes_run hSim result hComes.calm
    (hComes.inside fun _ => hInside) (put_tasks_self _ _) hDeliver
  exact ⟨M', hComes.trans hMore, hState, hEnd⟩

theorem delivered_of_isDrain {loop : Loop σ κ} (h : loop.isDrain = true) :
    M.delivered thread callers loop = M.put thread ⟨.take loop, callers⟩ M.state := by
  cases loop with
  | one next => cases h
  | _ => rfl

/-- A loop that delivers all that is due takes the messages of a drain, until nothing is due or a
delivery fails. -/
theorem comes_drain (hSim : Simulates w bound) {loop : Loop σ κ} (hDrain : loop.isDrain = true)
    (k : Nat) (h : Calm thread M) (hInside : 0 < M.state.depth)
    (hTask : M.tasks thread = ⟨.take loop, callers⟩) :
    (∀ n s, drainWith thread loop.tally (w.deliver (perform w bound thread) thread) k M.state =
        .ok n s →
      ComesTo w thread M s ⟨.take (loop.countedBy n), callers⟩) ∧
    ∀ e s, drainWith thread loop.tally (w.deliver (perform w bound thread) thread) k M.state =
        .failed e s →
      ∃ M' m n, Comes w thread M M' ∧ M'.state = s ∧
        M'.tasks thread = ⟨.run (.fail e), .delivery m (loop.countedBy n) :: callers⟩ := by
  induction k generalizing M loop with
  | zero =>
    rw [drainWith]
    exact ⟨by simp, by simp⟩
  | succ k ih =>
    rw [drainWith]
    cases hTake : M.state.take? thread with
    | none =>
      refine ⟨fun n s hRun => ?_, by simp⟩
      obtain ⟨rfl, rfl⟩ := Outcome.ok.inj hRun
      exact ⟨M, .refl h, rfl, hTask⟩
    | some taken =>
      obtain ⟨m, t⟩ := taken
      have hStep : M.step w thread =
          some (M.put thread ⟨.deliver m loop.counted, callers⟩ (loop.tally t)) := by
        simp [step, h.present, hTask, hTake]
      have hTaken := Comes.of_step h hStep rfl (depth_taken hTake loop)
      have hInside' := hTaken.depth ▸ hInside
      simp only
      cases hDeliver : w.deliver (perform w bound thread) thread m (loop.tally t) with
      | ok u t' =>
        obtain ⟨M₁, hComes, rfl, hTask₁⟩ := comes_deliver hSim (.ok u) hTaken.calm
          hInside' (put_tasks_self _ _) hDeliver
        have hDrain' : loop.counted.isDrain = true := loop.isDrain_counted.trans hDrain
        have hBack : Comes w thread M₁
            (M₁.put thread ⟨.take loop.counted, callers⟩ M₁.state) := by
          refine .of_step hComes.calm ?_ rfl rfl
          rw [step_run hComes.calm hTask₁, ← delivered_of_isDrain hDrain']
          rfl
        have hAll := (hTaken.trans hComes).trans hBack
        obtain ⟨hOk, hFailed⟩ := ih hDrain' hBack.calm (hAll.depth ▸ hInside) (put_tasks_self _ _)
        rw [loop.tally_counted] at hOk hFailed
        refine ⟨fun n s hRun => ?_, fun e s hRun => ?_⟩
        · obtain ⟨n, hRest, rfl⟩ := Outcome.map_eq_ok.1 hRun
          obtain ⟨M', hMore, hState, hEnd⟩ := hOk n s hRest
          exact ⟨M', hAll.trans hMore, hState, hEnd⟩
        · obtain ⟨M', m', n, hMore, hState, hEnd⟩ := hFailed e s (Outcome.map_eq_failed.1 hRun)
          exact ⟨M', m', n + 1, hAll.trans hMore, hState, hEnd⟩
      | failed e t' =>
        refine ⟨by simp [Outcome.bind], fun e' s hRun => ?_⟩
        obtain ⟨rfl, rfl⟩ := Outcome.failed.inj hRun
        obtain ⟨M₁, hComes, hState, hEnd⟩ := comes_deliver hSim (.error e) hTaken.calm
          hInside' (put_tasks_self _ _) hDeliver
        exact ⟨M₁, m, 1, hTaken.trans hComes, hState, hEnd⟩
      | deadlock => exact ⟨by simp [Outcome.bind], by simp [Outcome.bind]⟩
      | unfinished => exact ⟨by simp [Outcome.bind], by simp [Outcome.bind]⟩

theorem step_ended {m : Message κ} {loop : Loop σ κ} (result : Except Failure Unit)
    (h : Calm thread M)
    (hTask : M.tasks thread = ⟨.run (ended result), .delivery m loop :: callers⟩) :
    M.step w thread = some (M.finished thread result (.delivery m loop :: callers)) := by
  rw [step_run h hTask]
  cases result <;> rfl

/-- A loop that delivers all that is due is entered, and taken as far as a drain gets. -/
theorem goes_drain (hSim : Simulates w bound) {loop : Loop σ κ} (hDrain : loop.isDrain = true)
    (h : Calm thread M) (hTask : M.tasks thread = ⟨.acquire loop, callers⟩) :
    (∀ n s, drainWith thread loop.tally (w.deliver (perform w bound thread) thread) bound
        M.state.enter = .ok n s →
      ∃ M', Goes w thread M M' ∧ M'.state.depth = M.state.depth + 1 ∧ M'.state = s ∧
        M'.tasks thread = ⟨.take (loop.countedBy n), callers⟩) ∧
    ∀ e s, drainWith thread loop.tally (w.deliver (perform w bound thread) thread) bound
        M.state.enter = .failed e s →
      ∃ M' m n, Goes w thread M M' ∧ M'.state.depth = M.state.depth + 1 ∧ M'.state = s ∧
        M'.tasks thread = ⟨.run (.fail e), .delivery m (loop.countedBy n) :: callers⟩ := by
  obtain ⟨M₁, hEnter, hDeep, hState, hTask₁⟩ := goes_enter (w := w) h hTask
  obtain ⟨hOk, hFailed⟩ := comes_drain hSim hDrain bound hEnter.calm (by omega) hTask₁
  rw [← hState]
  refine ⟨fun n s hRun => ?_, fun e s hRun => ?_⟩
  · obtain ⟨M', hComes, hState', hTask'⟩ := hOk n s hRun
    exact ⟨M', hEnter.trans hComes.toGoes, hComes.depth.trans hDeep, hState', hTask'⟩
  · obtain ⟨M', m, n, hComes, hState', hTask'⟩ := hFailed e s hRun
    exact ⟨M', m, n, hEnter.trans hComes.toGoes, hComes.depth.trans hDeep, hState', hTask'⟩

/-! ### Requests that are no stop -/

variable {r : Request κ} {next : Except Failure Reply → Program σ κ Unit}
  {result : Except Failure Reply} {s : State σ κ}

theorem comes_answer (h : Calm thread M)
    (hTask : M.tasks thread = ⟨.run (.ask r next), callers⟩)
    (hReply : M.state.respond w thread r = .reply result s) :
    ComesTo w thread M s ⟨.run (next result), callers⟩ := by
  have hStep : M.step w thread = some (M.answer thread r result next callers s) := by
    rw [step_run h hTask, proceed, ask, hReply]
  have hComes := Comes.of_step h hStep rfl (spec_of_respond hReply 0).1
  exact ⟨_, hComes, rfl, if_pos rfl⟩

theorem comes_deliverAll (hSim : Simulates w bound) (h : Calm thread M)
    (hTask : M.tasks thread = ⟨.run (.ask r next), callers⟩)
    (hResponse : M.state.respond w thread r = .deliverAll)
    (hRun : (State.closeDispatch (drainWith thread id (w.deliver (perform w bound thread) thread)
      bound M.state.enter)).bind (fun n s => .ok (.count n) (s.note thread (.delivered n))) =
        .ofResult result s) :
    ComesTo w thread M s ⟨.run (next result), callers⟩ := by
  have hStep : M.step w thread =
      some (M.put thread ⟨.acquire (.all 0 next), callers⟩ M.state) := by
    rw [step_run h hTask, proceed, ask, hResponse]
  have hAsk := Comes.of_step h hStep rfl rfl
  obtain ⟨hOk, hFailed⟩ := goes_drain hSim rfl hAsk.calm (put_tasks_self _ _)
  cases result with
  | ok reply =>
    obtain ⟨n, t, hClose, hReply⟩ := Outcome.bind_eq_ok.1 hRun
    obtain ⟨last, hDrain, rfl⟩ := State.closeDispatch_eq_ok.1 hClose
    obtain ⟨rfl, rfl⟩ := Outcome.ok.inj hReply
    obtain ⟨M₂, hGoes, hDeep, rfl, hTask₂⟩ := hOk n last hDrain
    have hNone := take?_of_drainWith hDrain
    rw [Loop.countedBy_all, Nat.zero_add] at hTask₂
    have hLeave : M₂.step w thread = some (M₂.exhausted thread callers (.all n next)) := by
      simp [step, hGoes.calm.present, hTask₂, hNone]
    exact ⟨_, hAsk.trans (.of_loop hGoes hDeep hLeave rfl rfl), rfl, if_pos rfl⟩
  | error e =>
    have hClose : State.closeDispatch (drainWith thread id
        (w.deliver (perform w bound thread) thread) bound M.state.enter) = .failed e s := by
      rcases Outcome.bind_eq_failed.1 hRun with hClose | ⟨n, t, -, hReply⟩
      · exact hClose
      · cases hReply
    obtain ⟨last, hDrain, rfl⟩ := State.closeDispatch_eq_failed.1 hClose
    obtain ⟨M₂, m, n, hGoes, hDeep, rfl, hTask₂⟩ := hFailed e last hDrain
    rw [Loop.countedBy_all, Nat.zero_add] at hTask₂
    have hLeave : M₂.step w thread = some (M₂.aborted thread e callers (.all n next)) :=
      step_ended (.error e) hGoes.calm hTask₂
    exact ⟨_, hAsk.trans (.of_loop hGoes hDeep hLeave rfl rfl), rfl, if_pos rfl⟩

theorem comes_deliverNext (hSim : Simulates w bound) (h : Calm thread M)
    (hTask : M.tasks thread = ⟨.run (.ask r next), callers⟩)
    (hResponse : M.state.respond w thread r = .deliverNext)
    (hRun : (match M.state.take? thread with
      | none => .ok (.flag false) M.state
      | some (m, s) =>
        (State.closeDispatch ((w.deliver (perform w bound thread) thread m s.enter).map
          fun _ => 1)).map fun _ => .flag true) = Outcome.ofResult result s) :
    ComesTo w thread M s ⟨.run (next result), callers⟩ := by
  have hStep : M.step w thread = some (M.put thread ⟨.acquire (.one next), callers⟩ M.state) := by
    rw [step_run h hTask, proceed, ask, hResponse]
  have hAsk := Comes.of_step h hStep rfl rfl
  obtain ⟨M₁, hEnter, hDeep, hState, hTask₁⟩ :=
    goes_enter (w := w) hAsk.calm (put_tasks_self _ _)
  replace hState : M₁.state = M.state.enter := hState
  cases hTake : M.state.take? thread with
  | none =>
    rw [hTake] at hRun
    have hNone : M₁.state.take? thread = none := by
      rw [hState, State.take?_enter, hTake]
      rfl
    have hLeave : M₁.step w thread = some (M₁.exhausted thread callers (.one next)) := by
      simp [step, hEnter.calm.present, hTask₁, hNone]
    have hEnd : M₁.state.leave = M.state := by rw [hState, State.leave_enter]
    cases result with
    | ok reply =>
      obtain ⟨rfl, rfl⟩ := Outcome.ok.inj hRun
      exact ⟨_, hAsk.trans (.of_loop hEnter hDeep hLeave rfl rfl), hEnd, if_pos rfl⟩
    | error e => cases hRun
  | some taken =>
    obtain ⟨m, t⟩ := taken
    rw [hTake] at hRun
    have hSome : M₁.state.take? thread = some (m, t.enter) := by
      rw [hState, State.take?_enter, hTake]
      rfl
    have hTook : M₁.step w thread =
        some (M₁.put thread ⟨.deliver m (.one next), callers⟩ t.enter) := by
      simp only [step, hEnter.calm.present, hTask₁, hSome]
      rfl
    have hTaken := Comes.of_step hEnter.calm hTook rfl (depth_taken hSome (.one next))
    have hGoes := hEnter.trans hTaken.toGoes
    have hInside := hTaken.depth.trans hDeep
    cases result with
    | ok reply =>
      obtain ⟨n, hClose, rfl⟩ := Outcome.map_eq_ok.1 hRun
      obtain ⟨last, hMap, rfl⟩ := State.closeDispatch_eq_ok.1 hClose
      obtain ⟨u, hDeliver, rfl⟩ := Outcome.map_eq_ok.1 hMap
      obtain ⟨M₂, hComes, rfl, hTask₂⟩ := comes_deliver hSim (.ok u) hTaken.calm (by omega)
        (put_tasks_self _ _) hDeliver
      have hLeave : M₂.step w thread = some (M₂.delivered thread callers (.one next)) :=
        step_ended (.ok u) hComes.calm hTask₂
      have hDeep₂ := hComes.depth.trans hInside
      exact ⟨_, hAsk.trans (.of_loop (hGoes.trans hComes.toGoes) hDeep₂ hLeave rfl rfl), rfl,
        if_pos rfl⟩
    | error e =>
      obtain ⟨last, hMap, rfl⟩ := State.closeDispatch_eq_failed.1 (Outcome.map_eq_failed.1 hRun)
      obtain ⟨M₂, hComes, rfl, hTask₂⟩ := comes_deliver hSim (.error e) hTaken.calm (by omega)
        (put_tasks_self _ _) (Outcome.map_eq_failed.1 hMap)
      have hLeave : M₂.step w thread = some (M₂.aborted thread e callers (.one next)) :=
        step_ended (.error e) hComes.calm hTask₂
      have hDeep₂ := hComes.depth.trans hInside
      exact ⟨_, hAsk.trans (.of_loop (hGoes.trans hComes.toGoes) hDeep₂ hLeave rfl rfl), rfl,
        if_pos rfl⟩

theorem comes_call (hSim : Simulates w bound) {target : Target} {tag : Value}
    (h : Calm thread M)
    (hInside : thread ≠ .main → 0 < M.state.depth)
    (hTask : M.tasks thread = ⟨.run (.ask r next), callers⟩)
    (hResponse : M.state.respond w thread r = .call target tag)
    (hRun : ((w.program (.receiver target tag)).run (perform w bound thread) thread
      (w.atCall thread (.receiver target tag)
        (M.state.recordHistory (.handed target tag M.state.clock.now)))).map
          (fun _ => .nothing) = .ofResult result s) :
    ComesTo w thread M s ⟨.run (next result), callers⟩ := by
  have hStep : M.step w thread = some (M.put thread
      ⟨.run (w.program (.receiver target tag)), .handling target tag next :: callers⟩
      (w.atCall thread (.receiver target tag)
        (M.state.recordHistory (.handed target tag M.state.clock.now)))) := by
    rw [step_run h hTask, proceed, ask, hResponse]
  have hCall := Comes.of_step h hStep rfl (depth_atCall _ _)
  have hRan : ∃ ended, result = ended.map (fun _ => Reply.nothing) ∧
      (w.program (.receiver target tag)).run (perform w bound thread) thread
        (w.atCall thread (.receiver target tag)
          (M.state.recordHistory (.handed target tag M.state.clock.now))) = .ofResult ended s := by
    cases result with
    | ok reply =>
      obtain ⟨u, hProgram, rfl⟩ := Outcome.map_eq_ok.1 hRun
      exact ⟨.ok u, rfl, hProgram⟩
    | error e => exact ⟨.error e, rfl, Outcome.map_eq_failed.1 hRun⟩
  obtain ⟨last, rfl, hProgram⟩ := hRan
  obtain ⟨M₁, hComes, rfl, hTask₁⟩ := comes_run hSim last hCall.calm (hCall.inside hInside)
    (put_tasks_self _ _) hProgram
  have hBack : M₁.step w thread = some (M₁.answer thread (.handle target tag)
      (last.map fun _ => .nothing) next callers M₁.state) := by
    rw [step_run hComes.calm hTask₁]
    cases last <;> rfl
  exact ⟨_, (hCall.trans hComes).trans (.of_step hComes.calm hBack rfl rfl), rfl, if_pos rfl⟩

/-! ### Turns of workers -/

theorem Calm.worker (h : Calm .main M) (hFree : M.state.depth = 0) {session : Nat}
    (hThread : M.state.hasThread (.worker session) = true) : Calm (.worker session) M where
  waiting other _ := h.waiting other (by simp)
  present := hThread
  lock := by rw [h.lock, if_pos hFree, if_pos hFree]

theorem Comes.of_worker {session : Nat} (h : Comes w (.worker session) M M')
    (hFree : M.state.depth = 0) (hRest : M'.state.isOver session = false →
      M'.tasks (.worker session) = ⟨.acquire (.worker session false), []⟩) :
    Comes w .main M M' where
  leads := h.leads
  calm :=
    { waiting := fun other _ hOver => by
        by_cases hOther : other = session
        · subst hOther
          exact hRest hOver
        · exact h.calm.waiting other (by simpa using hOther) hOver
      present := rfl
      lock := by
        have hStill := h.depth.trans hFree
        rw [h.calm.lock, if_pos hStill, if_pos hStill] }
  ages := h.ages
  main hMain := absurd rfl hMain
  depth := h.depth

/-- A worker that found nothing due, and is to stop, looks once more and exits. -/
theorem comes_exit {session : Nat} (h : Calm (.worker session) M)
    (hTask : M.tasks (.worker session) = ⟨.wait session, []⟩)
    (hNone : M.state.take? (.worker session) = none) (hStop : M.state.isStopping session = true) :
    ∃ M', Comes w (.worker session) M M' ∧ M'.state = M.state.exitWorker session := by
  have hStep : M.step w (.worker session) =
      some (M.put (.worker session) ⟨.acquire (.worker session true), []⟩ M.state) := by
    simp [step, h.present, hTask, idle, hStop]
  have hAgain := Comes.of_step h hStep rfl rfl
  obtain ⟨M₁, hEnter, hDeep, hState, hTask₁⟩ :=
    goes_enter (w := w) hAgain.calm (put_tasks_self _ _)
  replace hState : M₁.state = M.state.enter := hState
  have hNone₁ : M₁.state.take? (.worker session) = none := by
    rw [hState, State.take?_enter, hNone]
    rfl
  have hLeave : M₁.step w (.worker session) =
      some (M₁.exhausted (.worker session) [] (.worker session true)) := by
    simp [step, hEnter.calm.present, hTask₁, hNone₁]
  refine ⟨_, hAgain.trans (.of_loop hEnter hDeep hLeave rfl rfl), ?_⟩
  show M₁.state.leave.exitWorker session = M.state.exitWorker session
  rw [hState, State.leave_enter]

/-- A worker that found nothing due exits if it is to stop, and waits if it can. -/
theorem comes_idle {session : Nat} (h : Calm (.worker session) M)
    (hTask : M.tasks (.worker session) = ⟨.wait session, []⟩)
    (hNone : M.state.take? (.worker session) = none)
    (hRest : (if M.state.isStopping session then
        Outcome.ok () (M.state.exitWorker session)
      else
        match M.state.settings.checkWait with
        | .error e => .ok () (M.state.killWorker session e)
        | .ok () => .ok () M.state) = .ok () s) :
    ∃ M', Comes w (.worker session) M M' ∧ M'.state = s ∧
      (M'.state.isOver session = false →
        M'.tasks (.worker session) = ⟨.acquire (.worker session false), []⟩) ∧
      (M.state.isStopping session = true → s.isOver session = true) := by
  by_cases hStop : M.state.isStopping session = true
  · rw [if_pos hStop] at hRest
    obtain ⟨-, rfl⟩ := Outcome.ok.inj hRest
    obtain ⟨M', hComes, hState⟩ := comes_exit h hTask hNone hStop
    have hOver := State.isOver_exitWorker (s := M.state) h.present
    refine ⟨M', hComes, hState, fun hNot => ?_, fun _ => hOver⟩
    rw [hState, hOver] at hNot
    cases hNot
  · rw [if_neg hStop] at hRest
    have hNothing : M.state.queue.hasDueAt M.state.clock.now = false := by
      rw [← M.state.isSome_take? (.worker session), hNone]
      rfl
    cases hWait : M.state.settings.checkWait with
    | error e =>
      rw [hWait] at hRest
      obtain ⟨-, rfl⟩ := Outcome.ok.inj hRest
      have hStep : M.step w (.worker session) = some (M.put (.worker session)
          ⟨.ended (.error e), []⟩ (M.state.killWorker session e)) := by
        simp [step, h.present, hTask, idle, hStop, hNothing, hWait]
      have hOver := State.isOver_killWorker e h.present
      refine ⟨_, .of_step h hStep rfl rfl, rfl, fun hNot => ?_, fun hNow => absurd hNow hStop⟩
      exact absurd (hOver.symm.trans hNot) (by simp)
    | ok u =>
      rw [hWait] at hRest
      obtain ⟨-, rfl⟩ := Outcome.ok.inj hRest
      have hStep : M.step w (.worker session) = some (M.put (.worker session)
          ⟨.acquire (.worker session false), []⟩ M.state) := by
        simp [step, h.present, hTask, idle, hStop, hNothing, hWait]
      exact ⟨_, .of_step h hStep rfl rfl, rfl, fun _ => put_tasks_self _ _,
        fun hNow => absurd hNow hStop⟩

/-- A worker has its turn.  It is gone afterwards if it was asked to stop before. -/
theorem comes_turn (hSim : Simulates w bound) {session : Nat} (h : Calm .main M)
    (hFree : M.state.depth = 0) (hLive : M.state.isLive session = true)
    (hTurn : turn w bound session M.state = .ok () s) :
    ∃ M', Comes w .main M M' ∧ M'.state = s ∧ M'.tasks .main = M.tasks .main ∧
      (M.state.isStopping session = true → s.isOver session = true) := by
  have hCalm := h.worker hFree (State.hasThread_of_isLive hLive)
  have hTask := h.waiting session (by simp) (State.isOver_of_isLive hLive)
  obtain ⟨hOk, hFailed⟩ := goes_drain hSim rfl hCalm hTask
  unfold turn State.turnWith at hTurn
  cases hDrain : drainWith (.worker session) (·.countFor session)
      (w.deliver (perform w bound (.worker session)) (.worker session)) bound M.state.enter with
  | ok n t =>
    rw [hDrain] at hTurn
    simp only [Outcome.onState, Outcome.attempt] at hTurn
    obtain ⟨M₁, hGoes, hDeep, rfl, hTask₁⟩ := hOk n t hDrain
    have hNone := take?_of_drainWith hDrain
    rw [Loop.countedBy_worker] at hTask₁
    have hLeave : M₁.step w (.worker session) =
        some (M₁.exhausted (.worker session) [] (.worker session false)) := by
      simp [step, hGoes.calm.present, hTask₁, hNone]
    have hWaits := Comes.of_loop hGoes hDeep hLeave rfl rfl
    have hIdle := State.take?_eq_none_iff.1 hNone
    have hStill : M₁.state.leave.take? (.worker session) = none :=
      State.take?_eq_none_iff.2 hIdle
    obtain ⟨M', hComes, hState, hRest, hGone⟩ := comes_idle hWaits.calm (if_pos rfl) hStill hTurn
    have hBack := hWaits.trans hComes
    exact ⟨M', hBack.of_worker hFree hRest, hState, hBack.main (by simp),
      fun hStop => hGone (hWaits.ages.isStopping hStop)⟩
  | failed e t =>
    rw [hDrain] at hTurn
    obtain ⟨-, rfl⟩ := Outcome.ok.inj hTurn
    obtain ⟨M₁, m, n, hGoes, hDeep, rfl, hTask₁⟩ := hFailed e t hDrain
    rw [Loop.countedBy_worker] at hTask₁
    have hLeave : M₁.step w (.worker session) =
        some (M₁.aborted (.worker session) e [] (.worker session false)) :=
      step_ended (.error e) hGoes.calm hTask₁
    have hOver : (M₁.state.leave.killWorker session e).isOver session = true :=
      State.isOver_killWorker e hGoes.calm.present
    have hComes := Comes.of_loop hGoes hDeep hLeave rfl rfl
    refine ⟨_, hComes.of_worker hFree fun hNot => ?_, rfl, hComes.main (by simp), fun _ => hOver⟩
    exact absurd (hOver.symm.trans hNot) (by simp)
  | deadlock =>
    rw [hDrain] at hTurn
    cases hTurn
  | unfinished =>
    rw [hDrain] at hTurn
    cases hTurn

theorem comes_halt {session : Nat} (h : Calm thread M)
    (hTask : M.tasks thread = ⟨.run (.ask r next), callers⟩)
    (hResponse : M.state.respond w thread r = .stop session) :
    ∃ M', Comes w thread M M' ∧ M'.state = M.state.requestStop session ∧
      M'.tasks thread = ⟨.join session next, callers⟩ := by
  have hStep : M.step w thread = some (M.put thread ⟨.halt session next, callers⟩ M.state) := by
    rw [step_run h hTask, proceed, ask, hResponse]
  have hHalts := Comes.of_step h hStep rfl rfl
  have hAsked : (M.put thread ⟨.halt session next, callers⟩ M.state).step w thread =
      some ((M.put thread ⟨.halt session next, callers⟩ M.state).put thread
        ⟨.join session next, callers⟩ (M.state.requestStop session)) := by
    have hPresent := hHalts.calm.present
    simp only [step, hPresent, put_tasks_self, if_true]
    rfl
  exact ⟨_, hHalts.trans (.of_step hHalts.calm hAsked rfl rfl), rfl, put_tasks_self _ _⟩

theorem comes_join {session : Nat} (h : Calm thread M)
    (hTask : M.tasks thread = ⟨.join session next, callers⟩)
    (hOther : thread ≠ .worker session) (hGone : M.state.isLive session = false)
    (hRun : Outcome.ofResult ((M.state.closeSession thread session).stopResult session)
      (M.state.closeSession thread session) = .ofResult result s) :
    ComesTo w thread M s ⟨.run (next result), callers⟩ := by
  obtain ⟨rfl, rfl⟩ := Outcome.ofResult_inj.1 hRun
  have hStep : M.step w thread = some (M.answer thread .stop
      ((M.state.closeSession thread session).stopResult session) next callers
      (M.state.closeSession thread session)) := by
    simp [step, h.present, hTask, hOther, hGone]
  exact ⟨_, .of_step h hStep rfl rfl, rfl, if_pos rfl⟩

theorem comes_stop (hSim : Simulates w bound) {session : Nat} (h : Calm thread M)
    (hInside : thread ≠ .main → 0 < M.state.depth)
    (hTask : M.tasks thread = ⟨.run (.ask r next), callers⟩)
    (hResponse : M.state.respond w thread r = .stop session)
    (hRun : M.state.stopWith thread session (turn w bound session) = .ofResult result s) :
    ComesTo w thread M s ⟨.run (next result), callers⟩ := by
  obtain ⟨M₁, hJoins, hState, hTask₁⟩ := comes_halt h hTask hResponse
  simp only [State.stopWith, ← hState] at hRun
  by_cases hSelf : thread = .worker session
  · rw [if_pos hSelf] at hRun
    have hStep : M₁.step w thread = some (M₁.answer thread .stop (.error .joinSelf) next callers
        (M₁.state.endSession session)) := by
      simp only [step, hJoins.calm.present, hTask₁, if_pos hSelf, if_true]
    cases result with
    | ok reply => cases hRun
    | error e =>
      obtain ⟨rfl, rfl⟩ := Outcome.failed.inj hRun
      exact ⟨_, hJoins.trans (.of_step hJoins.calm hStep rfl rfl), rfl, if_pos rfl⟩
  · rw [if_neg hSelf] at hRun
    cases hLive : M₁.state.isLive session with
    | false =>
      simp only [hLive, Bool.false_eq_true, if_false, Outcome.bind] at hRun
      obtain ⟨M', hComes, hEnd⟩ := comes_join hJoins.calm hTask₁ hSelf hLive hRun
      exact ⟨M', hJoins.trans hComes, hEnd⟩
    | true =>
      by_cases hFree : M₁.state.depth = 0
      · have hMain : thread = .main := by
          by_cases hMain : thread = .main
          · exact hMain
          · have := hJoins.inside hInside hMain
            omega
        subst hMain
        rw [if_pos hLive, if_pos hFree] at hRun
        have hStop : M₁.state.isStopping session = true := by
          rw [hState] at hLive ⊢
          exact State.isStopping_requestStop hLive
        cases hTurn : turn w bound session M₁.state with
        | ok u t =>
          rw [hTurn] at hRun
          obtain ⟨M₂, hTurned, rfl, hMain, hOver⟩ :=
            comes_turn hSim hJoins.calm hFree hLive hTurn
          obtain ⟨M', hComes, hEnd⟩ := comes_join hTurned.calm (hMain.trans hTask₁) hSelf
            (State.isLive_of_isOver (hOver hStop)) hRun
          exact ⟨M', (hJoins.trans hTurned).trans hComes, hEnd⟩
        | failed e t => exact absurd hTurn State.turnWith_ne_failed
        | deadlock =>
          rw [hTurn] at hRun
          cases result <;> cases hRun
        | unfinished =>
          rw [hTurn] at hRun
          cases result <;> cases hRun
      · rw [if_pos hLive, if_neg hFree] at hRun
        cases result <;> cases hRun

/-! ### All requests -/

theorem simulates (w : World σ κ) (bound : Nat) : Simulates w bound := by
  induction bound with
  | zero =>
    intro thread M r next callers result s h hInside hTask hRun
    cases result <;> cases hRun
  | succ bound ih =>
    intro thread M r next callers result s h hInside hTask hRun
    rw [perform] at hRun
    cases hResponse : M.state.respond w thread r with
    | reply answer t =>
      rw [hResponse] at hRun
      obtain ⟨rfl, rfl⟩ := Outcome.ofResult_inj.1 hRun
      exact comes_answer h hTask hResponse
    | deliverAll =>
      rw [hResponse] at hRun
      exact comes_deliverAll ih h hTask hResponse hRun
    | deliverNext =>
      rw [hResponse] at hRun
      exact comes_deliverNext ih h hTask hResponse hRun
    | stop session =>
      rw [hResponse] at hRun
      exact comes_stop ih h hInside hTask hResponse hRun
    | call target tag =>
      rw [hResponse] at hRun
      exact comes_call ih h hInside hTask hResponse hRun

theorem comes_settleFrom {session : Nat} {s : State σ κ} (k : Nat) (h : Calm .main M)
    (hFree : M.state.depth = 0) (hRun : settleFrom w k session M.state = .ok () s) :
    ∃ M', Comes w .main M M' ∧ M'.state = s ∧ M'.tasks .main = M.tasks .main := by
  induction k generalizing M session with
  | zero => cases hRun
  | succ k ih =>
    rw [settleFrom] at hRun
    cases hWorker : M.state.worker? session with
    | none =>
      rw [hWorker] at hRun
      obtain ⟨-, rfl⟩ := Outcome.ok.inj hRun
      exact ⟨M, .refl h, rfl, rfl⟩
    | some u =>
      rw [hWorker] at hRun
      obtain ⟨_, t, hTurn, hRest⟩ := Outcome.bind_eq_ok.1 hRun
      by_cases hLive : u.isLive = true
      · rw [if_pos hLive] at hTurn
        have hLive' : M.state.isLive session = true := by
          rw [State.isLive, hWorker]
          exact hLive
        obtain ⟨M₁, hComes, rfl, hMain, -⟩ := comes_turn (simulates w k) h hFree hLive' hTurn
        obtain ⟨M', hMore, hState, hTask⟩ := ih hComes.calm (hComes.depth.trans hFree) hRest
        exact ⟨M', hComes.trans hMore, hState, hTask.trans hMain⟩
      · rw [if_neg hLive] at hTurn
        obtain ⟨-, rfl⟩ := Outcome.ok.inj hTurn
        exact ih h hFree hRest

end Simulation

end Machine

/-! ### Runs by turns -/

/-- The states that a looper comes to if the main thread makes one request after the other, and
workers have their turns between. -/
inductive ByTurns (w : World σ κ) : State σ κ → Prop
  | make {settings : Settings} {fallback : Option Target} {memory : σ} {s : State σ κ}
      (h : State.make settings fallback memory = .ok s) : ByTurns w s
  | perform {s s' : State σ κ} (bound : Nat) (r : Request κ) (result : Except Failure Reply)
      (prior : ByTurns w s) (h : perform w bound .main r s = .ofResult result s') : ByTurns w s'
  | store {s : State σ κ} (memory : σ) (prior : ByTurns w s) : ByTurns w { s with memory }
  | settle {s s' : State σ κ} (bound : Nat) (prior : ByTurns w s)
      (h : settle w bound s = .ok () s') : ByTurns w s'

namespace ByTurns

variable {w : World σ κ} {s s' : State σ κ}

theorem run {α : Type} (h : ByTurns w s) {p : Program σ κ α} {bound : Nat}
    {result : Except Failure α}
    (hRun : p.run (VirtualLooper.perform w bound .main) .main s = .ofResult result s') :
    ByTurns w s' := by
  induction p generalizing s with
  | done a =>
    obtain ⟨-, rfl⟩ := Outcome.ofResult_inj.1 (show Outcome.ofResult (.ok a) s = _ from hRun)
    exact h
  | fail e =>
    obtain ⟨-, rfl⟩ := Outcome.ofResult_inj.1 (show Outcome.ofResult (.error e) s = _ from hRun)
    exact h
  | load next ih => exact ih _ h hRun
  | store memory next ih => exact ih (h.store memory) hRun
  | look next ih => exact ih _ h hRun
  | ask r next ih =>
    rw [Program.run] at hRun
    cases hPerform : VirtualLooper.perform w bound .main r s with
    | ok reply t =>
      rw [hPerform] at hRun
      exact ih (.ok reply) (h.perform bound r (.ok reply) hPerform) hRun
    | failed e t =>
      rw [hPerform] at hRun
      exact ih (.error e) (h.perform bound r (.error e) hPerform) hRun
    | deadlock =>
      rw [hPerform] at hRun
      cases result <;> cases hRun
    | unfinished =>
      rw [hPerform] at hRun
      cases result <;> cases hRun

end ByTurns

open Machine in
/-- **What a looper comes to by turns, threads that run side by side can come to**, whatever the
main thread goes on with. -/
theorem reachable_of_byTurns {w : World σ κ} {s : State σ κ} (h : ByTurns w s)
    (p : Program σ κ Unit) :
    ∃ M, Reachable w M ∧ Calm .main M ∧ M.state = s ∧ s.depth = 0 ∧
      M.tasks .main = ⟨.run p, []⟩ := by
  induction h generalizing p with
  | make h =>
    obtain ⟨clock, rfl⟩ := State.spec_of_make h
    exact ⟨_, .start h p, ⟨fun _ _ _ => rfl, rfl, rfl⟩, rfl, rfl, rfl⟩
  | @perform s s' bound r result prior h ih =>
    -- the program that makes the request first, whatever it is told
    obtain ⟨M, hReach, hCalm, rfl, hFree, hTask⟩ := ih (.ask r fun _ => p)
    obtain ⟨M', hComes, rfl, hTask'⟩ := simulates w bound .main M r _ [] result s' hCalm
      (absurd rfl) hTask h
    obtain ⟨schedule, hFollow⟩ := hComes.leads
    exact ⟨M', hReach.follow hFollow, hComes.calm, rfl, hComes.depth.trans hFree, hTask'⟩
  | @store s memory prior ih =>
    obtain ⟨M, hReach, hCalm, rfl, hFree, hTask⟩ := ih (.store memory p)
    have hStep := step_run (w := w) hCalm hTask
    have hComes := Comes.of_step hCalm hStep rfl rfl
    exact ⟨_, hReach.step .main hStep, hComes.calm, rfl, hFree, put_tasks_self _ _⟩
  | settle bound prior h ih =>
    obtain ⟨M, hReach, hCalm, rfl, hFree, hTask⟩ := ih p
    obtain ⟨M', hComes, rfl, hMain⟩ := comes_settleFrom bound hCalm hFree h
    obtain ⟨schedule, hFollow⟩ := hComes.leads
    exact ⟨M', hReach.follow hFollow, hComes.calm, rfl, hComes.depth.trans hFree,
      hMain.trans hTask⟩

end VirtualLooper
