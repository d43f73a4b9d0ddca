import Mathlib.Data.List.Basic
import VirtualLooper.Proofs.Scenario.Working
import VirtualLooper.Scenario.Player

/-!
# The course of a scenario

The steps of a scenario are played one after the other against one looper, on the main thread, and
after each of them the worker of the session comes as far as it likes.  This file follows such a
run, whatever the settings are, whatever the steps ask for, and whatever is around the run.

The looper stays in play.  So a stop has nobody to wait for but a worker that it gives its last
turn, and all other requests are answered without a wait; nothing waits forever, and no bound is
reached:

* `InPlay.exists_stop`: a stop comes to an end, and the session with it.
* `InPlay.ends_act`: so does every action, with or without a failure.
* `InPlay.exists_runSteps`: the steps are played in order, all of them or those before one that ends
  the run.  What was played is their `Course`.
* `InPlay.exists_finish`: what is still on at the end is stopped.
-/

namespace VirtualLooper.Scenario

/-- Something comes to an end, with or without a failure, and leaves the looper in play. -/
def EndsInPlay {α : Type} (given : Settings) (o : Outcome Looper α) : Prop :=
  ∃ result t, o = .ofResult result t ∧ InPlay given t

section Requests

variable {strict : Bool} {s : Looper}

theorem ask_of_reply {r : Request Empty} (hr : r ≠ .stop) {result : Except Failure Reply}
    {t : Looper} (h : s.respond (world strict) .main r = .reply result t) :
    ask strict r s = .ofResult result t := by
  have hAsk : ask strict r s = perform (world strict) (bound s) .main r s := by
    cases r with
    | stop => exact absurd rfl hr
    | _ => rfl
  rw [hAsk]
  exact perform_of_reply h _

/-- An action that cannot be written is no action that there is. -/
theorem isWritable_of_ofValue? {v : Value} {a : Action} (h : Action.ofValue? v = some a) :
    v.isWritable = true := by
  rw [Action.ofValue?] at h
  have hEqual := List.find?_some h
  cases v with
  | str t => rfl
  | float x => cases x <;> simp [Value.equal, Value.same, Value.place?] at hEqual
  | _ => simp [Value.equal, Value.same, Value.place?] at hEqual

/-- What is logged about the end of an action changes nothing but the log, and cannot be logged only
if the action cannot be written. -/
theorem noteEnd_eq (strict : Bool) (step : Step) (s : Looper)
    (result : Except Failure (List Check)) :
    (∃ log, noteEnd strict step s result = .ok { s with log }) ∨
      noteEnd strict step s result = .error .tooLongToWrite ∧ strict = true ∧
        step.action.isWritable = false := by
  cases result with
  | ok checks => exact Or.inl ⟨s.log, rfl⟩
  | error e =>
    have hWrite : ∀ n : Notice, n.isWritable = step.action.isWritable →
        (∃ log, s.write strict .main n = .ok { s with log }) ∨
          s.write strict .main n = .error .tooLongToWrite ∧ strict = true ∧
            step.action.isWritable = false := by
      intro n hn
      rw [← hn]
      exact (s.write_eq strict .main n).imp_left fun h => ⟨_, h⟩
    rw [noteEnd]
    split
    · split
      · exact Or.inl ⟨s.log, rfl⟩
      · exact hWrite _ rfl
    · exact hWrite _ rfl

end Requests

namespace InPlay

variable {given : Settings} {strict : Bool} {s : Looper}

/-! ### Stops -/

theorem spec_stopResult (h : InPlay given s) (session : Nat) :
    (∃ n, s.stopResult session = .ok (.count n)) ∨
      ∃ e, s.stopResult session = .error e ∧ (e.isMisuse = true ∨ given.checkWait = .error e) := by
  unfold State.stopResult
  cases hError : (s.worker? session).bind Worker.error? with
  | some e =>
    obtain ⟨worker, hWorker, hDied⟩ := Option.bind_eq_some_iff.1 hError
    exact Or.inr ⟨e, rfl, Or.inr (h.staffed.died session worker e hWorker hDied)⟩
  | none =>
    simp only
    split
    · exact Or.inr ⟨_, rfl, Or.inl rfl⟩
    · exact Or.inl ⟨_, rfl⟩

theorem closeSession (h : InPlay given s) (hEmpty : s.memory = .empty) {session : Nat}
    (hSession : s.session = some session) (hGone : s.isLive session = false) :
    InPlay given (s.closeSession .main session) := by
  have hStaffed : Staffed given none s.workers := by
    refine Staffed.close (hSession ▸ h.staffed) fun worker hWorker => ?_
    simpa [State.isLive, State.worker?, hWorker] using hGone
  have hOver : InPlay given { s with session := none } :=
    ⟨h.settings, h.depth, hStaffed, h.pending, s.takings, [], (List.append_nil _).symm,
      h.taken_of_empty hEmpty, .nothing hEmpty⟩
  exact (hOver.recordHistory rfl).note _ _

theorem exists_stop_session (h : InPlay given s) (hEmpty : s.memory = .empty) (strict : Bool)
    {session : Nat} (hSession : s.session = some session) :
    ∃ result t, perform (world strict) (bound s) .main .stop s = .ofResult result t ∧
      InPlay given t ∧ t.session = none ∧
      ((∃ n, result = .ok (.count n)) ∨
        ∃ e, result = .error e ∧ (e.isMisuse = true ∨ given.checkWait = .error e)) := by
  have hAsked : InPlay given (s.requestStop session) :=
    h.updateWorker session (fun _ => rfl) fun _ _ => Or.inr
  -- the worker has its last turn, unless it is gone already
  obtain ⟨t, hLast, hPlay, hMemory, hSame, hGone⟩ : ∃ t,
      (if (s.requestStop session).isLive session then
        if (s.requestStop session).depth = 0 then
          turn (world strict) (s.queue.size + s.workers.length + 2) session (s.requestStop session)
        else .deadlock
      else .ok () (s.requestStop session)) = .ok () t ∧ InPlay given t ∧ t.memory = .empty ∧
      t.session = some session ∧ t.isLive session = false := by
    cases hLive : (s.requestStop session).isLive session with
    | false => exact ⟨s.requestStop session, rfl, hAsked, hEmpty, hSession, hLive⟩
    | true =>
      have hDue := dueNow_le s
      have hBound : (s.requestStop session).dueNow.length <
          s.queue.size + s.workers.length + 2 := by
        show s.dueNow.length < s.queue.size + s.workers.length + 2
        omega
      obtain ⟨t, hTurn, hPlay, hMemory, hSame, hGone⟩ :=
        hAsked.exists_last_turn hEmpty strict hBound (State.isStopping_requestStop hLive)
      refine ⟨t, ?_, hPlay, hMemory, hSame.trans hSession, hGone⟩
      rw [if_pos rfl, if_pos hAsked.depth, hTurn]
  have hClosed := hPlay.closeSession hMemory hSame hGone
  have hRespond : s.respond (world strict) .main .stop = .stop session := by
    simp only [State.respond, hSession]
  have hStop : perform (world strict) (bound s) .main .stop s = s.stopWith .main session
      (turn (world strict) (s.queue.size + s.workers.length + 2) session) := by
    rw [bound, perform, hRespond]
    rfl
  refine ⟨_, _, ?_, hClosed, rfl, hClosed.spec_stopResult session⟩
  rw [hStop, State.stopWith]
  simp only [reduceCtorEq, if_false, hLast, Outcome.bind]

theorem exists_stop (h : InPlay given s) (strict : Bool) :
    ∃ result t, ask strict .stop s = .ofResult result t ∧ InPlay given t ∧ t.session = none ∧
      ((∃ n, result = .ok (.count n)) ∨
        ∃ e, result = .error e ∧ (e.isMisuse = true ∨ given.checkWait = .error e)) := by
  obtain ⟨hEmpty, hSame, hQueue, hWorkers⟩ := h.spec_land
  have hLanded : InPlay given (land s) := h.workFor _
  have hAsk : ask strict .stop s = perform (world strict) (bound (land s)) .main .stop (land s) := by
    rw [ask, bound, bound, hQueue, hWorkers]
  rw [hAsk]
  cases hSession : s.session with
  | none =>
    have hReply : (land s).respond (world strict) .main .stop =
        .reply (.error .notRunning) (land s) := by
      simp only [State.respond, hSame, hSession]
    exact ⟨_, land s, perform_of_reply hReply _, hLanded, hSame.trans hSession,
      Or.inr ⟨.notRunning, rfl, Or.inl rfl⟩⟩
  | some session => exact hLanded.exists_stop_session hEmpty strict (hSame.trans hSession)

/-! ### Other requests of steps -/

theorem ends_send (h : InPlay given s) {r : Request Empty} (hr : r.IsSend)
    (hTarget : r.handler? = some recorder) : EndsInPlay given (ask strict r s) := by
  have hNoStop : r ≠ .stop := by
    rintro rfl
    cases hr
  rcases State.respond_send (world strict) s.clock hr hTarget with ⟨e, hRefused⟩ | ⟨x, hx, hQueued⟩
  · exact ⟨_, s, ask_of_reply hNoStop (hRefused s rfl), h⟩
  · exact ⟨_, _, ask_of_reply hNoStop (hQueued s rfl), h.queued hx⟩

theorem ends_start (h : InPlay given s) : EndsInPlay given (ask strict .start s) := by
  cases hSession : s.session with
  | some session =>
    have hReply : s.respond (world strict) .main .start = .reply (.error .alreadyRunning) s := by
      simp [State.respond, State.running, hSession]
    exact ⟨_, s, ask_of_reply (by simp) hReply, h⟩
  | none =>
    have hReply : s.respond (world strict) .main .start =
        .reply (.ok .nothing) (s.beginSession .main) := by
      simp [State.respond, State.running, hSession]
    exact ⟨_, _, ask_of_reply (by simp) hReply, h.beginSession hSession .main⟩

theorem exists_dispatchAll (h : InPlay given s) (strict : Bool) :
    ∃ result t, ask strict .dispatchAll s = .ofResult result t ∧ InPlay given t ∧
      ∀ reply, result = .ok reply → ∃ n, reply = .count n := by
  cases hSession : s.session with
  | some session =>
    exact ⟨.error (.busy "dispatch_all"), s, ask_of_reply (by simp)
      (by simp [State.respond, State.running, hSession]), h, nofun⟩
  | none =>
    have hBound : s.dueNow.length < s.queue.size + s.workers.length + 2 := by
      have := dueNow_le s
      omega
    obtain ⟨t, hAnswer, hServed, -, hWorkers⟩ :=
      State.exists_served_all (quiet_world strict) hSession .main hBound
    have hPlay : InPlay given t :=
      h.served (h.memory_of_none hSession) hServed (hWorkers ▸ h.staffed)
    exact ⟨.ok (.count s.dueNow.length), _, hAnswer, (hPlay.recordHistory rfl).note _ _,
      fun reply hReply => ⟨_, (Except.ok.inj hReply).symm⟩⟩

theorem exists_dispatchNext (h : InPlay given s) (strict : Bool) :
    ∃ result t, ask strict .dispatchNext s = .ofResult result t ∧ InPlay given t ∧
      ∀ reply, result = .ok reply → ∃ b, reply = .flag b := by
  cases hSession : s.session with
  | some session =>
    exact ⟨.error (.busy "dispatch_next"), s, ask_of_reply (by simp)
      (by simp [State.respond, State.running, hSession]), h, nofun⟩
  | none =>
    rcases State.exists_served_next (quiet_world strict) hSession .main
      (s.queue.size + s.workers.length + 2) with
      ⟨-, hAnswer⟩ | ⟨m, t, -, -, hAnswer, hServed, hWorkers⟩
    · exact ⟨.ok (.flag false), s, hAnswer, h, fun reply hReply => ⟨_, (Except.ok.inj hReply).symm⟩⟩
    · have hPlay : InPlay given t :=
        h.served (h.memory_of_none hSession) hServed (hWorkers ▸ h.staffed)
      exact ⟨.ok (.flag true), _, hAnswer, hPlay.recordHistory rfl,
        fun reply hReply => ⟨_, (Except.ok.inj hReply).symm⟩⟩

/-! ### Actions -/

theorem ends_askQuietly {r : Request Empty} (h : EndsInPlay given (ask strict r s)) :
    EndsInPlay given (askQuietly strict r s) := by
  obtain ⟨result, t, hAsk, hPlay⟩ := h
  cases result with
  | error e => exact ⟨.error e, t, by rw [askQuietly, hAsk]; rfl, hPlay⟩
  | ok reply => exact ⟨.ok [], t, by rw [askQuietly, hAsk]; rfl, hPlay⟩

theorem ends_askCount (step : Step) {r : Request Empty} (h : EndsInPlay given (ask strict r s)) :
    EndsInPlay given (askCount strict step r s) := by
  obtain ⟨result, t, hAsk, hPlay⟩ := h
  cases result with
  | error e => exact ⟨.error e, t, by rw [askCount, hAsk]; rfl, hPlay⟩
  | ok reply => cases reply <;> exact ⟨.ok _, t, by rw [askCount, hAsk]; rfl, hPlay⟩

theorem ends_withDuration (h : InPlay given s) (v : Value) {k : Int → Outcome Looper (List Check)}
    (hk : ∀ n, EndsInPlay given (k n)) : EndsInPlay given (withDuration v s k) := by
  rw [withDuration]
  cases Duration.parse v with
  | error e => exact ⟨.error e, s, rfl, h⟩
  | ok n => exact hk n

/-- **Every action comes to an end**, and leaves the looper in play. -/
theorem ends_act (h : InPlay given s) (strict : Bool) (step : Step) :
    EndsInPlay given (act strict step s) := by
  rw [act]
  cases Action.ofValue? step.action with
  | none =>
    rcases s.write_eq strict .main (.unknownAction step.action) with hWrite | ⟨hWrite, -⟩
    · rw [hWrite]
      exact ⟨.ok [], _, rfl, h.note _ _⟩
    · rw [hWrite]
      exact ⟨.error _, s, rfl, h⟩
  | some action =>
    cases action with
    | send =>
      simp only [send]
      cases Value.field? step.fields "at" with
      | some due =>
        exact h.ends_withDuration due fun n => ends_askQuietly (h.ends_send trivial rfl)
      | none =>
        exact h.ends_withDuration _ fun n => ends_askQuietly (h.ends_send trivial rfl)
    | remove =>
      simp only [Scenario.remove]
      split
      · exact ⟨.error .endlessComparison, s, rfl, h⟩
      · exact ends_askQuietly ⟨_, _, ask_of_reply (by simp) rfl, h.remove _ _⟩
    | moveTime =>
      exact h.ends_withDuration _ fun n =>
        ends_askQuietly ⟨_, _, ask_of_reply (by simp) rfl, h.move _ _ _⟩
    | dispatchAll =>
      obtain ⟨result, t, hAsk, hPlay, -⟩ := h.exists_dispatchAll strict
      exact ends_askCount step ⟨result, t, hAsk, hPlay⟩
    | dispatchNext =>
      obtain ⟨result, t, hAsk, hPlay, -⟩ := h.exists_dispatchNext strict
      exact ends_askCount step ⟨result, t, hAsk, hPlay⟩
    | start =>
      simp only [start]
      split
      · exact ends_askQuietly h.ends_start
      · exact ⟨.error .tooLongToWrite, s, rfl, h⟩
    | stop =>
      obtain ⟨result, t, hAsk, hPlay, -⟩ := h.exists_stop strict
      exact ends_askCount step ⟨result, t, hAsk, hPlay⟩
    | expectDispatched =>
      simp only [expectDispatched]
      split
      · exact ⟨.error _, s, rfl, h⟩
      · split
        · exact ⟨.error .endlessComparison, s, rfl, h⟩
        · exact ⟨.ok _, s, rfl, h⟩
    | expectPending => exact ⟨.ok _, s, rfl, h⟩

theorem act_of_unwritable {step : Step} (hAction : step.action.isWritable = false) (strict : Bool)
    (s : Looper) :
    act strict step s =
      if strict then .failed .tooLongToWrite s
      else .ok [] (s.note .main (.unknownAction step.action)) := by
  have hNone : Action.ofValue? step.action = none := by
    cases hFound : Action.ofValue? step.action with
    | none => rfl
    | some a => cases hAction.symm.trans (isWritable_of_ofValue? hFound)
  have hNotice : (Notice.unknownAction step.action).isWritable = false := hAction
  rw [act, hNone]
  cases strict <;> simp [State.write, hNotice]

end InPlay

/-! ### Steps -/

/-- A step as it was played: where its action began, and how and where it ended. -/
structure Played where
  step : Step
  before : Looper
  result : Except Failure (List Check)
  after : Looper

def Played.adds (x : Played) : List Check := contribution x.step x.after x.result

/-- Steps are played one after the other, with these surroundings.  After each of them its end is
logged, and then the worker does as much as it does. -/
inductive Course (e : Surroundings) : Nat → Looper → List Played → Looper → Prop
  | nil (index : Nat) (s : Looper) : Course e index s [] s
  | cons {index : Nat} {step : Step} {s t u v : Looper} {result : Except Failure (List Check)}
      {xs : List Played} (hAct : act e.strictLog step s = .ofResult result t)
      (hNote : noteEnd e.strictLog step t result = .ok u)
      (hRest : Course e (index + 1) (workFor (e.pace index u) u) xs v) :
      Course e index s (⟨step, s, result, t⟩ :: xs) v

/-- The action of the step cannot be written, and would have to be: in the log, if that is strict,
or in the report. -/
def Step.IsUnwritten (step : Step) (strict : Bool) : Prop :=
  step.action.isWritable = false ∧ (strict = true ∨ step.expectsMisuse = true)

/-- A value that is no step, or a step whose action would have to be written and cannot be, with
what ends the run there. -/
def EndsRun (strict : Bool) (index : Nat) (v : Value) (f : Failure) : Prop :=
  Step.ofValue index v = .error f ∨
    ∃ step, Step.ofValue index v = .ok step ∧ step.IsUnwritten strict ∧ f = .tooLongToWrite

namespace InPlay

variable {given : Settings} {e : Surroundings} {s t : Looper} {xs : List Played}

theorem isUnwritten_of_shown {strict : Bool} {step : Step} {result : Except Failure (List Check)}
    (hAct : act strict step s = .ofResult result t) (hAction : step.action.isWritable = false)
    (hShows : showsAction step result = true) : step.IsUnwritten strict := by
  refine ⟨hAction, ?_⟩
  cases strict with
  | true => exact Or.inl rfl
  | false =>
    rw [act_of_unwritable hAction] at hAct
    obtain ⟨rfl, -⟩ := Outcome.ofResult_inj.1
      (show Outcome.ofResult (.ok []) _ = Outcome.ofResult result t from hAct)
    exact Or.inr hShows

theorem runStep_of_unwritten {strict : Bool} {step : Step} (h : step.IsUnwritten strict)
    (s : Looper) : ∃ log, runStep strict step s = .failed .tooLongToWrite { s with log } := by
  obtain ⟨hAction, hShown⟩ := h
  have hAct := act_of_unwritable hAction strict s
  cases strict with
  | true =>
    have hNotice : (Notice.errorInStep step.index step.action).isWritable = false := hAction
    have hNote : noteEnd true step s (.error .tooLongToWrite) = .error .tooLongToWrite := by
      rw [noteEnd, if_neg (by decide), State.write, hNotice]
      rfl
    refine ⟨s.log, ?_⟩
    rw [runStep, hAct, if_pos rfl, Outcome.attempt]
    simp only [hNote]
  | false =>
    have hExpects : step.expectsMisuse = true := hShown.resolve_left Bool.false_ne_true
    refine ⟨(s.note .main (.unknownAction step.action)).log, ?_⟩
    rw [runStep, hAct, if_neg Bool.false_ne_true, Outcome.attempt]
    simp only [noteEnd, showsAction, hExpects, hAction]
    rfl

/-- A step is played, or it ends the run and leaves the looper as it was but for the log. -/
theorem spec_runStep (h : InPlay given s) (strict : Bool) (step : Step) :
    (∃ result t u, act strict step s = .ofResult result t ∧
      noteEnd strict step t result = .ok u ∧ InPlay given u ∧
      runStep strict step s = .ok (contribution step t result) u) ∨
    ∃ log, step.IsUnwritten strict ∧
      runStep strict step s = .failed .tooLongToWrite { s with log } := by
  by_cases hUnwritten : step.IsUnwritten strict
  · obtain ⟨log, hRun⟩ := runStep_of_unwritten hUnwritten s
    exact Or.inr ⟨log, hUnwritten, hRun⟩
  · refine Or.inl ?_
    obtain ⟨result, t, hAct, hPlay⟩ := h.ends_act strict step
    rcases noteEnd_eq strict step t result with ⟨log, hNote⟩ | ⟨-, hStrict, hAction⟩
    · have hNot : ¬(showsAction step result && !step.action.isWritable) = true := by
        intro hBoth
        obtain ⟨hShows, hAction⟩ := Bool.and_eq_true_iff.1 hBoth
        exact hUnwritten (isUnwritten_of_shown hAct (by simpa using hAction) hShows)
      refine ⟨result, t, _, hAct, hNote, hPlay.withLog log, ?_⟩
      rw [runStep, hAct, Outcome.attempt_ofResult]
      simp only [hNote, if_neg hNot]
      rfl
    · exact absurd ⟨hAction, Or.inl hStrict⟩ hUnwritten

theorem course {index : Nat} (hCourse : Course e index s xs t) (h : InPlay given s) :
    InPlay given t ∧
      ∀ x ∈ xs, InPlay given x.before ∧
        act e.strictLog x.step x.before = .ofResult x.result x.after := by
  induction hCourse with
  | nil index s => exact ⟨h, fun x hx => absurd hx List.not_mem_nil⟩
  | @cons index step s t u v result xs hAct hNote _ ih =>
    obtain ⟨result', t', hAct', hPlay⟩ := h.ends_act e.strictLog step
    obtain ⟨rfl, rfl⟩ := Outcome.ofResult_inj.1 (hAct.symm.trans hAct')
    have hNoted : InPlay given u := by
      rcases noteEnd_eq e.strictLog step t result with ⟨log, hLog⟩ | ⟨hFailed, -⟩
      · obtain rfl := Except.ok.inj (hLog.symm.trans hNote)
        exact hPlay.withLog log
      · cases hFailed.symm.trans hNote
    obtain ⟨hLast, hAll⟩ := ih (hNoted.workFor _)
    exact ⟨hLast, List.forall_mem_cons.2 ⟨⟨h, hAct⟩, hAll⟩⟩

/-- **Steps are played in order**, all of them or up to one that ends the run. -/
theorem exists_runSteps (h : InPlay given s) (e : Surroundings) (index : Nat)
    (values : List Value) :
    (∃ xs t, Course e index s xs t ∧ runSteps e index values s = .ok (xs.flatMap Played.adds) t ∧
      values.mapIdx (fun i v => Step.ofValue (index + i) v) = xs.map (.ok ·.step)) ∨
    ∃ xs t early v late f log, Course e index s xs t ∧
      runSteps e index values s = .failed f { t with log } ∧ values = early ++ v :: late ∧
      early.mapIdx (fun i v => Step.ofValue (index + i) v) = xs.map (.ok ·.step) ∧
      EndsRun e.strictLog (index + early.length) v f := by
  induction values generalizing s index with
  | nil => exact Or.inl ⟨[], s, .nil index s, rfl, rfl⟩
  | cons v rest ih =>
    cases hStep : Step.ofValue index v with
    | error f =>
      refine Or.inr ⟨[], s, [], v, rest, f, s.log, .nil index s, ?_, rfl, rfl, Or.inl hStep⟩
      rw [runSteps, hStep]
    | ok step =>
      rcases h.spec_runStep e.strictLog step with ⟨result, t, u, hAct, hNote, hPlay, hRun⟩ |
        ⟨log, hUnwritten, hRun⟩
      · have hShift (vs : List Value) :
            vs.mapIdx (fun i v => Step.ofValue (index + (i + 1)) v) =
              vs.mapIdx (fun i v => Step.ofValue (index + 1 + i) v) := by
          refine congrArg (fun f => vs.mapIdx f) (funext fun i => ?_)
          rw [Nat.add_assoc, Nat.add_comm 1 i]
        rcases ih (hPlay.workFor (e.pace index u)) (index + 1) with
          ⟨xs, v', hCourse, hSteps, hAll⟩ |
          ⟨xs, v', early, w, late, f, log, hCourse, hSteps, hSplit, hAll, hEnds⟩
        · refine Or.inl ⟨⟨step, s, result, t⟩ :: xs, v', .cons hAct hNote hCourse, ?_, ?_⟩
          · rw [runSteps, hStep]
            simp only [hRun, Outcome.bind, hSteps, Outcome.map, List.flatMap_cons, Played.adds]
          · rw [List.mapIdx_cons, hShift, hAll]
            exact congrArg (· :: _) hStep
        · refine Or.inr ⟨⟨step, s, result, t⟩ :: xs, v', v :: early, w, late, f, log,
            .cons hAct hNote hCourse, ?_, by rw [hSplit]; rfl, ?_, ?_⟩
          · rw [runSteps, hStep]
            simp only [hRun, Outcome.bind, hSteps, Outcome.map]
          · rw [List.mapIdx_cons, hShift, hAll]
            exact congrArg (· :: _) hStep
          · rwa [List.length_cons, Nat.add_comm early.length, ← Nat.add_assoc]
      · refine Or.inr ⟨[], s, [], v, rest, .tooLongToWrite, log, .nil index s, ?_, rfl, rfl,
          Or.inr ⟨step, hStep, hUnwritten, rfl⟩⟩
        rw [runSteps, hStep]
        simp only [hRun, Outcome.bind]

/-- What is on at the end is stopped.  What that is refused for can leave the run only if it is no
misuse. -/
theorem exists_finish (h : InPlay given s) (e : Surroundings) :
    ∃ result t, finish e s = .ofResult result t ∧ InPlay given t ∧ t.session = none ∧
      ∀ f, result = .error f → given.checkWait = .error f := by
  cases hSession : s.session with
  | none =>
    refine ⟨.ok (), s, ?_, h, hSession, nofun⟩
    rw [finish, State.running, hSession]
    rfl
  | some session =>
    have hRunning : s.running = true := by rw [State.running, hSession]; rfl
    obtain ⟨result, t, hAsk, hPlay, hNone, hResult⟩ := h.exists_stop e.strictLog
    rw [finish, if_pos hRunning, hAsk, Outcome.attempt_ofResult]
    rcases hResult with ⟨n, rfl⟩ | ⟨f, rfl, hWhy⟩
    · exact ⟨.ok (), t, rfl, hPlay, hNone, nofun⟩
    · cases hMisuse : f.isMisuse with
      | true =>
        refine ⟨.ok (), t.note .main (.leftRunning f), ?_, hPlay.note _ _, hNone, nofun⟩
        simp only [hMisuse, if_true]
        rfl
      | false =>
        refine ⟨.error f, t, ?_, hPlay, hNone, ?_⟩
        · simp only [hMisuse, Bool.false_eq_true, if_false]
          rfl
        · rintro f' ⟨⟩
          exact hWhy.resolve_left (by rw [hMisuse]; exact Bool.false_ne_true)

end InPlay

end VirtualLooper.Scenario
