import VirtualLooper.Proofs.Looper.Draining
import VirtualLooper.Proofs.Looper.Sequential

/-!
# After a handler has failed on a worker

A handler that fails on the worker of a session ends the worker, and nothing else: the session goes
on without a worker until somebody stops it, and the stop is answered by the failure.  This file
follows a looper from the failure to the stop, and beyond, for handlers that stop no session
themselves.

* `Guarded`: what holds of such handlers all along.  A worker dispatches for its own session only,
  and has counted what was taken on its thread; whoever waits for the lock to dispatch has asked
  while no session was going on.
* `Stricken`: the session has lost its worker, and the main thread is in no loop.  Then the main
  thread is the only one that goes on, and `Stricken.stall` says of its steps that they leave the
  looper so, or stop the session.
* `State.exists_dispatched`: handlers that are quiet let a dispatch come to its end.
* `contained_failure`: hence all of it.
-/

namespace VirtualLooper

variable {σ κ : Type}

/-! ### What was taken where -/

theorem Occurrence.taken?_eq_some_iff {o : Occurrence κ} {m : Message κ} :
    o.taken? = some m ↔ ∃ thread, o.takenOn? thread = some m := by
  cases o with
  | taken m' time other =>
    simp only [taken?, takenOn?, Option.some.injEq]
    constructor
    · intro h
      exact ⟨other, by rw [if_pos rfl, h]⟩
    · rintro ⟨thread, h⟩
      split at h
      · exact Option.some.inj h
      · cases h
  | _ => simp [taken?, takenOn?]

namespace Machine

section Taken

variable {w : World σ κ} {thread : Thread} {M M' : Machine σ κ}

theorem mem_taken_iff {m : Message κ} :
    m ∈ M.ledger.taken ↔ ∃ thread, m ∈ M.state.takenOn thread := by
  have hTaken : M.ledger.taken = M.state.history.filterMap Occurrence.taken? := rfl
  simp only [hTaken, State.takenOn, List.mem_filterMap, Occurrence.taken?_eq_some_iff]
  constructor
  · rintro ⟨o, ho, other, hm⟩
    exact ⟨other, o, ho, hm⟩
  · rintro ⟨other, o, ho, hm⟩
    exact ⟨o, ho, other, hm⟩

theorem mem_takenOn_of_delivering (h : Reachable w M) {m : Message κ}
    (hm : m ∈ (M.tasks thread).delivering) : m ∈ M.state.takenOn thread := by
  induction h generalizing thread m with
  | start h p =>
    cases thread with
    | main => cases hm
    | worker session => cases hm
  | @step M M' mover prior hStep ih =>
    cases tally_of_move (move_of_step hStep) with
    | take m' loop hControl hTaken hCount hTask =>
      rw [hTaken]
      by_cases hOther : mover = thread
      · subst hOther
        rw [if_pos rfl]
        rw [hTask] at hm
        rcases List.mem_cons.1 hm with rfl | hm
        · exact List.mem_append_right _ (List.mem_singleton_self _)
        · exact List.mem_append_left _ (ih (List.mem_append_right _ hm))
      · rw [if_neg hOther]
        rw [tasks_step hStep (Ne.symm hOther)] at hm
        exact ih hm
    | keep hSame =>
      rw [hSame.takenOn]
      by_cases hOther : thread = mover
      · subst hOther
        cases turn_of_step hStep with
        | go _ _ _ _ _ _ hDelivering => exact ih (hDelivering hm)
        | enter _ _ _ _ _ _ _ hDelivering => exact ih (hDelivering ▸ hm)
        | leave _ _ _ _ _ _ hDelivering => exact ih (hDelivering hm)
        | call m' loop p hControl _ _ _ hTask =>
          refine ih ?_
          rw [hTask] at hm
          rw [Task.delivering, hControl]
          exact hm
        | take m' q loop hControl hPop hLedger =>
          -- the message that is taken would have been taken before
          exfalso
          have hNow : m' ∈ M'.ledger.taken := by
            rw [hLedger]
            exact List.mem_append_right _ (List.mem_singleton_self _)
          obtain ⟨other, hOn⟩ := mem_taken_iff.1 hNow
          rw [hSame.takenOn] at hOn
          have hPending := (Queue.spec_of_popAt? hPop).2.1.mem_iff.2 List.mem_cons_self
          exact (kept_of_reachable prior).conserved.seq_ne (mem_taken_iff.2 ⟨other, hOn⟩) hPending
            rfl
      · rw [tasks_step hStep hOther] at hm
        exact ih hm

end Taken

/-! ### Handlers that stop no session -/

/-- Sessions are attended to, workers dispatch nothing but for their own sessions and have counted
what was taken on their threads, and the main thread waits for the lock only while no session is
going on. -/
structure Guarded (M : Machine σ κ) : Prop extends Attended M where
  workers : ∀ session, (M.tasks (.worker session)).isDispatch = false
  waits : ∀ loop, (M.tasks .main).control = .acquire loop → M.state.session = none
  count : ∀ session, M.state.dispatchedBy session = (M.state.takenOn (.worker session)).length

section Guards

variable {w : World σ κ} {ok : Request κ → Prop} {thread : Thread} {M M' : Machine σ κ}

theorem idle_of_acquire (hMove : Move w .main M M') (hStands : (M.tasks .main).Stands ok .main)
    {loop : Loop σ κ} (h : (M'.tasks .main).control = .acquire loop) :
    M'.state.session = none := by
  have hFinished {result : Except Failure Unit} {callers : List (Caller σ κ)} :
      ((M.finished .main result callers).tasks .main).control ≠ .acquire loop := by
    cases callers with
    | nil => simp [finished]
    | cons c below =>
      cases c with
      | handling target tag next => simp [finished, answer, put]
      | delivery m loop =>
        cases result <;> cases loop <;>
          simp [finished, delivered, aborted, answer, put, release]
  cases hMove with
  | done hTask => exact absurd h hFinished
  | fail hTask => exact absurd h hFinished
  | askAll hTask hIdle => exact hIdle
  | askNext hTask hIdle => exact hIdle
  | @exhaust loop callers hTask hIdle =>
    cases loop with
    | worker session last => cases last <;> simp [exhausted, put, release] at h
    | _ => simp [exhausted, answer, put, release] at h
  | idle hTask =>
    -- the main thread is no worker
    rw [hTask] at hStands
    cases (hStands.eq_nil id).2
  | _ => simp [answer, put] at h

namespace Guarded

theorem step (h : Guarded M) (hManned : Manned ok M) (hOk : ¬ ok .stop)
    (hStep : M.step w thread = some M') : Guarded M' := by
  have hMove := move_of_step hStep
  have hShift := shift_of_move hMove (hManned.stands thread)
  have hOthers := (frame_step hStep).others
  have hAttended := h.toAttended.shift hManned hShift hOthers (hManned.not_stopsSelf hOk)
  have hBegun := hasThread_of_step hStep
  have hResult : (M.tasks thread).control.result? = none := by
    cases hControl : (M.tasks thread).control with
    | ended result => simp [Machine.step, hControl] at hStep
    | _ => rfl
  -- a worker takes steps only while a session is going on
  have hMain : M.state.session = none → thread = .main := by
    intro hIdle
    exact h.eq_main hManned hIdle hBegun hResult
  refine ⟨hAttended, ?_, ?_, count_of_step hManned hStep ?_ h.count⟩
  · intro session
    by_cases hOwn : Thread.worker session = thread
    · subst hOwn
      cases hDispatch : (M'.tasks (.worker session)).isDispatch with
      | false => rfl
      | true =>
        rcases isDispatch_of_move hMove hDispatch with hBefore | hIdle
        · rw [h.workers session] at hBefore
          cases hBefore
        · cases hMain hIdle
    · rw [hOthers _ hOwn]
      exact h.workers session
  · intro loop hControl
    by_cases hOwn : thread = .main
    · subst hOwn
      exact idle_of_acquire hMove (hManned.stands .main) hControl
    · rw [hOthers _ (Ne.symm hOwn)] at hControl
      exact absurd (hMain (h.waits loop hControl)) hOwn
  · intro loop hControl hNone
    cases thread with
    | main => rfl
    | worker session =>
      have hDispatch := h.workers session
      rw [Task.isDispatch, hControl, Control.isDispatch, hNone] at hDispatch
      cases hDispatch

end Guarded

theorem guarded_of_reachable (hAsks : w.Asks ok) (hOk : ¬ ok .stop) (h : Reachable w M) :
    Guarded M := by
  induction h with
  | start h p =>
    obtain ⟨clock, rfl⟩ := State.spec_of_make h
    refine ⟨attended_start rfl p, ?_, ?_, ?_⟩
    · intro session
      rfl
    · intro loop hControl
      cases hControl
    · intro session
      rfl
  | step thread prior h ih => exact ih.step (manned_of_reachable hAsks prior) hOk h

end Guards

/-! ### A session without its worker -/

/-- The worker of the session that is going on was ended by a failure, and the main thread is in no
loop. -/
structure Stricken (session : Nat) (e : Failure) (M : Machine σ κ) : Prop where
  current : M.state.session = some session
  died : M.state.phase? session = some (.died e)
  main : (M.tasks .main).loops = 0

end Machine

/-- If it was asked for a dispatch or for a session, a looper has refused because a session was
going on. -/
structure Exchange.IsKeptOut (x : Exchange κ) : Prop where
  dispatchAll : x.request = .dispatchAll → x.result = .error (.busy "dispatch_all")
  dispatchNext : x.request = .dispatchNext → x.result = .error (.busy "dispatch_next")
  start : x.request = .start → x.result = .error .alreadyRunning

namespace Machine

/-- Nothing was taken, counted or delivered in between. -/
structure Still (M M' : Machine σ κ) : Prop extends State.SameTaken M.state M'.state where
  taken : M'.ledger.taken = M.ledger.taken
  called : M'.ledger.called = M.ledger.called

theorem Still.refl (M : Machine σ κ) : Still M M := ⟨.refl _, rfl, rfl⟩

theorem Still.trans {M M' M'' : Machine σ κ} (h : Still M M') (h' : Still M' M'') : Still M M'' :=
  ⟨h.toSameTaken.trans h'.toSameTaken, h'.taken.trans h.taken, h'.called.trans h.called⟩

/-- What a step does while the session that is going on has no worker. -/
inductive Stall (session : Nat) (e : Failure) (M M' : Machine σ κ) : Prop
  | goes (xs : List (Exchange κ)) (hExchanges : M'.exchanges = M.exchanges ++ xs)
      (hXs : ∀ x ∈ xs, x.request ≠ .stop ∧ x.IsKeptOut) (h : Stricken session e M')
  /-- The session is stopped, and its failure comes to light. -/
  | stops (hExchanges : M'.exchanges = M.exchanges ++
        [⟨.main, .stop, .error e, M.state.clock.now⟩])
      (hLedger : M'.ledger = M.ledger) (hSession : M'.state.session = none)
      (hMain : (M'.tasks .main).loops = 0)

section Stricken

variable {w : World σ κ} {ok : Request κ → Prop} {thread : Thread} {M M' : Machine σ κ}
  {session : Nat} {m : Message κ} {last : Bool} {e : Failure}

theorem stricken_of_fail (hAsks : w.Asks ok) (hOk : ¬ ok .stop) (hReach : Reachable w M)
    (hTask : M.tasks (.worker session) = ⟨.run (.fail e), [.delivery m (.worker session last)]⟩)
    (hStep : M.step w (.worker session) = some M') : Stricken session e M' := by
  have hGuarded := guarded_of_reachable hAsks hOk hReach
  have hManned := manned_of_reachable hAsks hReach
  have hLock := exclusive_of_reachable hReach
  have hLoops : 0 < (M.tasks (.worker session)).loops := by
    rw [hTask]
    exact Nat.one_pos
  have hSession := hGuarded.live session (hManned.isLive_of_loops hLoops)
  refine ⟨?_, died_of_fail hTask hStep, ?_⟩
  · cases shift_of_move (move_of_step hStep) (hManned.stands _) with
    | stay hSame => rw [hSame, hSession]
    | gone ended hThread hSame => rw [hSame, hSession]
    | start next hControl => rw [hTask] at hControl; cases hControl
    | stop stopped next hControl => rw [hTask] at hControl; cases hControl
  · -- the worker has the lock
    rw [tasks_step hStep (by simp), hLock.loops, if_neg]
    rw [hLock.owns hLoops]
    simp

namespace Stricken

theorem eq_main (h : Stricken session e M) (hManned : Manned ok M) (hAttended : Attended M)
    (hStep : M.step w thread = some M') : thread = .main := by
  cases thread with
  | main => rfl
  | worker other =>
    exfalso
    have hBegun := State.phase?_ne_none_iff.2 (hasThread_of_step hStep)
    have hLive : M.state.isLive other = true := by
      cases hOver : M.state.isLive other with
      | true => rfl
      | false =>
        rw [hManned.step_eq_none (State.isOver_iff.2 ⟨hBegun, hOver⟩)] at hStep
        cases hStep
    have hSame := h.current.symm.trans (hAttended.live other hLive)
    rw [← Option.some.inj hSame, State.isLive_iff, h.died] at hLive
    cases hLive

theorem control_ne (h : Stricken session e M) (hGuarded : Guarded M) (loop : Loop σ κ) :
    (M.tasks .main).control ≠ .acquire loop ∧ (M.tasks .main).control ≠ .take loop ∧
      ∀ m, (M.tasks .main).control ≠ .deliver m loop := by
  have hMain := h.main
  rw [Task.loops] at hMain
  refine ⟨?_, ?_, ?_⟩
  · intro hControl
    have hIdle := hGuarded.waits loop hControl
    rw [h.current] at hIdle
    cases hIdle
  · intro hControl
    rw [hControl, Control.loops] at hMain
    omega
  · intro m hControl
    rw [hControl, Control.loops] at hMain
    omega

theorem still (h : Stricken session e M) (hGuarded : Guarded M) (hStep : M.step w .main = some M') :
    Still M M' := by
  have hNot := h.control_ne hGuarded
  have hLedger : M'.ledger.taken = M.ledger.taken ∧ M'.ledger.called = M.ledger.called := by
    cases turn_of_step hStep with
    | go hEdit => exact ⟨hEdit.taken_eq, hEdit.called_eq⟩
    | enter hLedger => rw [hLedger]; exact ⟨rfl, rfl⟩
    | take m q loop hControl => exact absurd hControl (hNot loop).2.1
    | call m loop p hControl => exact absurd hControl ((hNot loop).2.2 m)
    | leave hLedger => rw [hLedger]; exact ⟨rfl, rfl⟩
  cases tally_of_move (move_of_step hStep) with
  | keep hSame => exact ⟨hSame, hLedger.1, hLedger.2⟩
  | take m loop hControl => exact absurd hControl (hNot loop).2.1

theorem of_step (h : Stricken session e M) (hManned : Manned ok M)
    (hStep : M.step w .main = some M')
    (hNoJoin : ∀ other next, (M.tasks .main).control ≠ .join other next)
    (hMain : (M'.tasks .main).loops = 0) : Stricken session e M' := by
  refine ⟨?_, died_step hManned h.died hStep, hMain⟩
  cases shift_of_move (move_of_step hStep) (hManned.stands .main) with
  | stay hSame => rw [hSame, h.current]
  | start next hControl hIdle =>
    rw [h.current] at hIdle
    cases hIdle
  | gone ended hThread => cases hThread
  | stop stopped next hControl => exact absurd hControl (hNoJoin stopped next)

theorem goes_put {t : Task σ κ} {s : State σ κ} (h : Stricken session e M)
    (hManned : Manned ok M) (hStep : M.step w .main = some (M.put .main t s))
    (hNoJoin : ∀ other next, (M.tasks .main).control ≠ .join other next) (hMain : t.loops = 0) :
    Stall session e M (M.put .main t s) := by
  refine .goes [] (List.append_nil _).symm (by simp) (h.of_step hManned hStep hNoJoin ?_)
  rw [put_tasks_self, hMain]

theorem goes_answer {r : Request κ} {result : Except Failure Reply}
    {next : Except Failure Reply → Program σ κ Unit} {callers : List (Caller σ κ)} {s : State σ κ}
    (h : Stricken session e M) (hManned : Manned ok M)
    (hStep : M.step w .main = some (M.answer .main r result next callers s))
    (hNoJoin : ∀ other next, (M.tasks .main).control ≠ .join other next)
    (hMain : callers.filterMap Caller.message? = []) (hStop : r ≠ .stop)
    (hKept : (⟨.main, r, result, s.clock.now⟩ : Exchange κ).IsKeptOut) :
    Stall session e M (M.answer .main r result next callers s) := by
  refine .goes _ rfl ?_ (h.of_step hManned hStep hNoJoin ?_)
  · intro x hx
    rw [List.mem_singleton.1 hx]
    exact ⟨hStop, hKept⟩
  · rw [answer_tasks_self, Task.loops, Task.running, hMain]
    rfl

theorem isKeptOut_of_respond {s s' : State σ κ} {r : Request κ} {result : Except Failure Reply}
    (hSession : s.session ≠ none) (hReply : s.respond w thread r = .reply result s') (time : Int) :
    r ≠ .stop ∧ (⟨thread, r, result, time⟩ : Exchange κ).IsKeptOut := by
  have hRunning : s.running = true := Option.isSome_iff_ne_none.2 hSession
  refine ⟨?_, ?_, ?_, ?_⟩
  · rintro rfl
    obtain ⟨other, hOther⟩ := Option.ne_none_iff_exists'.1 hSession
    simp [State.respond, hOther] at hReply
  · rintro rfl
    simp only [State.respond, hRunning, if_true] at hReply
    exact (Response.reply.inj hReply).1.symm
  · rintro rfl
    simp only [State.respond, hRunning, if_true] at hReply
    exact (Response.reply.inj hReply).1.symm
  · rintro rfl
    simp only [State.respond, hRunning, if_true] at hReply
    exact (Response.reply.inj hReply).1.symm

theorem goes_finished {p : Program σ κ Unit} {callers : List (Caller σ κ)}
    {result : Except Failure Unit} (h : Stricken session e M) (hManned : Manned ok M)
    (hTask : M.tasks .main = ⟨.run p, callers⟩)
    (hStep : M.step w .main = some (M.finished .main result callers)) :
    Stall session e M (M.finished .main result callers) := by
  have hNoJoin (other : Nat) (next : Except Failure Reply → Program σ κ Unit) :
      (M.tasks .main).control ≠ .join other next := by
    rw [hTask]
    simp
  have hMain := h.main
  rw [hTask] at hMain
  cases callers with
  | nil => exact h.goes_put hManned hStep hNoJoin rfl
  | cons c below =>
    cases c with
    | handling target tag next =>
      refine h.goes_answer hManned hStep hNoJoin ?_ (by simp) ⟨by simp, by simp, by simp⟩
      exact List.eq_nil_of_length_eq_zero hMain
    | delivery m loop => simp [Task.loops, Task.running, Caller.message?] at hMain

/-- **A session without its worker refuses what a session refuses, until it is stopped.** -/
theorem stall (h : Stricken session e M) (hManned : Manned ok M) (hGuarded : Guarded M)
    (hStep : M.step w .main = some M') : Stall session e M M' := by
  have hMain := h.main
  have hMove := move_of_step hStep
  have hNot := h.control_ne hGuarded
  -- a program runs in no loop
  have hBelow {c : Control σ κ} {callers : List (Caller σ κ)}
      (hTask : M.tasks .main = ⟨c, callers⟩) : callers.filterMap Caller.message? = [] := by
    rw [hTask] at hMain
    exact List.eq_nil_of_length_eq_zero (Nat.eq_zero_of_add_eq_zero_right hMain)
  have hLoops {c c' : Control σ κ} {callers : List (Caller σ κ)}
      (hTask : M.tasks .main = ⟨c, callers⟩) (hc : c'.loops = 0) :
      (⟨c', callers⟩ : Task σ κ).loops = 0 := by
    rw [Task.loops, Task.running, hBelow hTask, hc]
    rfl
  cases hMove with
  | done hTask => exact h.goes_finished hManned hTask hStep
  | fail hTask => exact h.goes_finished hManned hTask hStep
  | load hTask => exact h.goes_put hManned hStep (by simp [hTask]) (hLoops hTask rfl)
  | store hTask => exact h.goes_put hManned hStep (by simp [hTask]) (hLoops hTask rfl)
  | look hTask => exact h.goes_put hManned hStep (by simp [hTask]) (hLoops hTask rfl)
  | @reply r next callers result s hTask hReply =>
    obtain ⟨hStop, hKept⟩ := isKeptOut_of_respond (by rw [h.current]; simp) hReply s.clock.now
    exact h.goes_answer hManned hStep (by simp [hTask]) (hBelow hTask) hStop hKept
  | askAll hTask hIdle =>
    rw [h.current] at hIdle
    cases hIdle
  | askNext hTask hIdle =>
    rw [h.current] at hIdle
    cases hIdle
  | askStop hTask hSession => exact h.goes_put hManned hStep (by simp [hTask]) (hLoops hTask rfl)
  | @call target tag next callers hTask =>
    refine h.goes_put hManned hStep (by simp [hTask]) ?_
    show (callers.filterMap Caller.message?).length + 0 = 0
    rw [hBelow hTask]
    rfl
  | acquire hTask hFree => exact absurd (by rw [hTask]) (hNot _).1
  | take hTask hTake => exact absurd (by rw [hTask]) (hNot _).2.1
  | exhaust hTask hIdle => exact absurd (by rw [hTask]) (hNot _).2.1
  | deliver hTask => exact absurd (by rw [hTask]) ((hNot _).2.2 _)
  | idle hTask =>
    have hStands := hManned.stands .main
    rw [hTask] at hStands
    cases (hStands.eq_nil id).2
  | halt hTask => exact h.goes_put hManned hStep (by simp [hTask]) (hLoops hTask rfl)
  | joinSelf hTask hSelf => cases hSelf
  | @join other next callers hTask hOther hGone =>
    have hSame := hGuarded.stops .main other (by rw [hTask]; rfl)
    obtain rfl := Option.some.inj (h.current.symm.trans hSame)
    have hResult : (M.state.closeSession .main session).stopResult session = .error e :=
      State.stopResult_of_died (s := M.state) h.died
    refine .stops ?_ ?_ rfl ?_
    · rw [hResult]
      rfl
    · have hQuiet : (⟨.main, .stop, (M.state.closeSession .main session).stopResult session,
          (M.state.closeSession .main session).clock.now⟩ : Exchange κ).IsQuiet := ⟨rfl, rfl, rfl⟩
      exact (Ledger.of_append_quiet _ _ hQuiet).trans (Ledger.of_closeSession _ _ _ _)
    · rw [answer_tasks_self]
      exact hLoops hTask rfl

theorem exists_stop (h : Stricken session e M)
    {next : Except Failure Reply → Program σ κ Unit} {callers : List (Caller σ κ)}
    (hTask : M.tasks .main = ⟨.run (.ask .stop next), callers⟩) :
    ∃ M₁ M₂, M.follow w [.main, .main] = some M₁ ∧ M₁.exchanges = M.exchanges ∧
      M₁.step w .main = some M₂ ∧ M₂.tasks .main = ⟨.run (next (.error e)), callers⟩ ∧
      M₂.exchanges = M₁.exchanges ++ [⟨.main, .stop, .error e, M₁.state.clock.now⟩] := by
  let asked := M.put .main ⟨.halt session next, callers⟩ M.state
  let halted := asked.put .main ⟨.join session next, callers⟩ (M.state.requestStop session)
  have hAsk : M.step w .main = some asked := by
    simp [Machine.step, State.hasThread, hTask, proceed, ask, State.respond, h.current, asked]
  have hHalt : asked.step w .main = some halted := by
    have hTask' : asked.tasks .main = ⟨.halt session next, callers⟩ := put_tasks_self _ _
    simp only [Machine.step, State.hasThread, hTask', if_true]
    rfl
  have hPhase : halted.state.phase? session = some (.died e) :=
    (State.phase?_updateWorker_same (f := fun u => { u with stopRequested := true })
      fun _ => rfl).trans h.died
  have hGone : halted.state.isLive session = false := by
    cases hLive : halted.state.isLive session with
    | false => rfl
    | true =>
      rw [State.isLive_iff, hPhase] at hLive
      cases hLive
  have hResult : (halted.state.closeSession .main session).stopResult session = .error e :=
    State.stopResult_of_died (s := halted.state) hPhase
  have hJoin : halted.step w .main = some (halted.answer .main .stop (.error e) next callers
      (halted.state.closeSession .main session)) := by
    have hTask' : halted.tasks .main = ⟨.join session next, callers⟩ := put_tasks_self _ _
    simp [Machine.step, State.hasThread, hTask', hGone, hResult]
  refine ⟨halted, _, ?_, rfl, hJoin, answer_tasks_self _ _ _ _ _, rfl⟩
  rw [Machine.follow, hAsk, Option.bind_some, Machine.follow, hHalt]
  rfl

end Stricken

/-! ### Whole runs -/

theorem prefixes_follow {schedule : List Thread} (h : M.follow w schedule = some M') :
    M.ledger.accepted <+: M'.ledger.accepted ∧ M.ledger.removed <+: M'.ledger.removed := by
  refine follow_induction (R := fun M M' => M.ledger.accepted <+: M'.ledger.accepted ∧
    M.ledger.removed <+: M'.ledger.removed) ?_ ?_ h
  · intro M
    exact ⟨List.prefix_refl _, List.prefix_refl _⟩
  · intro thread M M' M'' hStep hRest
    obtain ⟨hAccepted, hRemoved⟩ := (turn_of_step hStep).step.prefixes
    exact ⟨hAccepted.trans hRest.1, hRemoved.trans hRest.2⟩

/-- As long as the session is not stopped, nothing is taken and nothing comes between. -/
theorem Stricken.follow (hAsks : w.Asks ok) (hOk : ¬ ok .stop) (hReach : Reachable w M)
    (h : Stricken session e M) {schedule : List Thread} {xs : List (Exchange κ)}
    (hFollow : M.follow w schedule = some M') (hExchanges : M'.exchanges = M.exchanges ++ xs)
    (hNone : ∀ x ∈ xs, x.request ≠ .stop) :
    Stricken session e M' ∧ Still M M' ∧ ∀ x ∈ xs, x.IsKeptOut := by
  induction schedule generalizing M xs with
  | nil =>
    obtain rfl := Option.some.inj hFollow
    obtain rfl : xs = [] := by simpa using hExchanges
    exact ⟨h, .refl _, by simp⟩
  | cons thread schedule ih =>
    obtain ⟨next, hStep, hRest⟩ := Option.bind_eq_some_iff.1 hFollow
    have hManned := manned_of_reachable hAsks hReach
    have hGuarded := guarded_of_reachable hAsks hOk hReach
    obtain rfl := h.eq_main hManned hGuarded.toAttended hStep
    have hStill := h.still hGuarded hStep
    obtain ⟨zs, hZs⟩ := exchanges_follow hRest
    cases h.stall hManned hGuarded hStep with
    | goes ys hYs hKept hNext =>
      have hAll : xs = ys ++ zs := by
        rw [← hZs, hYs, List.append_assoc] at hExchanges
        exact (List.append_cancel_left hExchanges).symm
      subst hAll
      have hLater : ∀ x ∈ zs, x.request ≠ .stop := by
        intro x hx
        exact hNone x (List.mem_append_right _ hx)
      obtain ⟨hEnd, hStill', hKept'⟩ :=
        ih (hReach.step .main hStep) hNext hRest hZs.symm hLater
      refine ⟨hEnd, hStill.trans hStill', ?_⟩
      intro x hx
      rcases List.mem_append.1 hx with hx | hx
      · exact (hKept x hx).2
      · exact hKept' x hx
    | stops hStop =>
      -- the session was not stopped
      exfalso
      have hAll : xs = [⟨.main, .stop, .error e, M.state.clock.now⟩] ++ zs := by
        rw [← hZs, hStop, List.append_assoc] at hExchanges
        exact (List.append_cancel_left hExchanges).symm
      refine hNone ⟨.main, .stop, .error e, M.state.clock.now⟩ ?_ rfl
      rw [hAll]
      exact List.mem_append_left _ (List.mem_singleton_self _)

end Stricken

end Machine

/-! ### A dispatch after that -/

namespace State

/-- All that was due has been delivered, in order, and all else is still pending. -/
structure Drained (s t : State σ κ) : Prop where
  clock : t.clock = s.clock
  session : t.session = s.session
  pending : t.queue.pending.Perm s.dueLater
  taken : (Ledger.of t []).taken = (Ledger.of s []).taken ++ Message.inOrder s.dueNow
  called : (Ledger.of t []).called =
    (Ledger.of s []).called ++ (Message.inOrder s.dueNow).map Message.withCall

theorem exists_dispatched {w : World σ κ} (hQuiet : w.Quiet) {s : State σ κ}
    (hSession : s.session = none) {bound : Nat} (hBound : s.dueNow.length < bound) :
    ∃ t, perform w (bound + 1) .main .dispatchAll s = .ok (.count s.dueNow.length) t ∧
      s.Drained t := by
  obtain ⟨t, hRun, hServed, hPending, -⟩ := exists_served_all hQuiet hSession .main hBound
  have hLedger : Ledger.of ((t.recordHistory (.returned s.dueNow.length)).note .main
      (.delivered s.dueNow.length)) [] = Ledger.of t [] := by
    rw [Ledger.of_note, Ledger.of_recordHistory _ _ rfl]
  refine ⟨_, hRun, hServed.clock, hServed.session, hPending, ?_, ?_⟩
  · rw [hLedger]
    exact hServed.taken
  · rw [hLedger]
    exact hServed.called

end State

namespace Machine

section Recovery

variable {w : World σ κ} {ok : Request κ → Prop} {thread : Thread} {M M' : Machine σ κ}

/-- While no session is going on and the main thread is in no loop, it may run alone. -/
theorem calm_of_idle (hManned : Manned ok M) (hAttended : Attended M) (hLock : Exclusive M)
    (hIdle : M.state.session = none) (hMain : (M.tasks .main).loops = 0) : Calm .main M := by
  have hDepth := hAttended.depth_eq_zero hManned hLock hIdle hMain
  refine ⟨?_, rfl, ?_⟩
  · intro session hOther hOver
    refine hManned.unborn session (Classical.byContradiction ?_)
    intro hBegun
    have hGone := State.isOver_iff.2 ⟨hBegun, hAttended.isLive_eq_false hIdle session⟩
    rw [hGone] at hOver
    cases hOver
  · rw [if_pos hDepth, hLock.free.2 hDepth]

/-- The session that begins by a start is the next one, and its worker has not done anything. -/
theorem start_of_idle {next : Except Failure Reply → Program σ κ Unit}
    {callers : List (Caller σ κ)} (hIdle : M.state.session = none)
    (hTask : M.tasks thread = ⟨.run (.ask .start next), callers⟩)
    (hStep : M.step w thread = some M') :
    M'.exchanges = M.exchanges ++ [⟨thread, .start, .ok .nothing, M.state.clock.now⟩] ∧
      M'.state.session = some M.state.workers.length ∧
      M'.state.worker? M.state.workers.length = some .fresh := by
  have hRunning : M.state.running = false := by
    rw [State.running, hIdle]
    rfl
  have hBegins : M.answer thread .start (.ok .nothing) next callers
      (M.state.beginSession thread) = M' := by
    simpa [step, hasThread_of_step hStep, hTask, proceed, ask, State.respond, hRunning] using hStep
  subst hBegins
  refine ⟨rfl, rfl, ?_⟩
  show (M.state.workers ++ [Worker.fresh])[M.state.workers.length]? = some .fresh
  exact List.getElem?_concat_length

end Recovery

/-! ### All of it -/

/-- What has become of a looper since the worker of a session was ended by a failure, if the session
was not stopped since: it is still going on, no messages were taken or delivered, requests that were
answered were answered so, and each message that was pending or was accepted is pending or was
removed. -/
structure Stalled (session : Nat) (M M' : Machine σ κ) (xs : List (Exchange κ)) : Prop where
  current : M'.state.session = some session
  still : Still M M'
  refused : ∀ x ∈ xs, x.IsKeptOut
  kept : ∃ accepted removed, M'.ledger.accepted = M.ledger.accepted ++ accepted ∧
    M'.ledger.removed = M.ledger.removed ++ removed ∧
    (M.state.queue.pending ++ accepted.map (·.1)).Perm (M'.state.queue.pending ++ removed.flatten)

/-- A looper that has lost a session can go on: quiet handlers are delivered all that is due, and a
new session has nothing of the old one. -/
structure Recovered (w : World σ κ) (session : Nat) (M : Machine σ κ) : Prop where
  idle : M.state.session = none
  dispatch : ∀ calm : World σ κ, calm.Quiet → ∀ bound, M.state.dueNow.length < bound →
    ∃ s, perform calm (bound + 1) .main .dispatchAll M.state =
        .ok (.count M.state.dueNow.length) s ∧
      M.state.Drained s ∧
      ∀ next callers, M.tasks .main = ⟨.run (.ask .dispatchAll next), callers⟩ →
        ComesTo calm .main M s ⟨.run (next (.ok (.count M.state.dueNow.length))), callers⟩
  anew : ∀ schedule M₁ thread next callers M₂, M.follow w schedule = some M₁ →
    M₁.state.session = none → M₁.tasks thread = ⟨.run (.ask .start next), callers⟩ →
    M₁.step w thread = some M₂ →
      ∃ fresh, fresh ≠ session ∧ M₂.state.session = some fresh ∧
        M₂.state.worker? fresh = some .fresh ∧ M₂.state.takenOn (.worker fresh) = [] ∧
        M₂.exchanges = M₁.exchanges ++ [⟨thread, .start, .ok .nothing, M₁.state.clock.now⟩]

section Failing

variable {w : World σ κ} {ok : Request κ → Prop} {thread : Thread} {M M' : Machine σ κ}
  {session : Nat} {e : Failure}

theorem recovered_of_idle (hAsks : w.Asks ok) (hOk : ¬ ok .stop) (hReach : Reachable w M)
    (hBegun : M.state.hasThread (.worker session) = true) (hIdle : M.state.session = none)
    (hMain : (M.tasks .main).loops = 0) : Recovered w session M := by
  have hManned := manned_of_reachable hAsks hReach
  have hAttended := (guarded_of_reachable hAsks hOk hReach).toAttended
  have hCalm := calm_of_idle hManned hAttended (exclusive_of_reachable hReach) hIdle hMain
  refine ⟨hIdle, ?_, ?_⟩
  · intro calm hQuiet bound hBound
    obtain ⟨s, hRun, hDrained⟩ := State.exists_dispatched hQuiet hIdle hBound
    refine ⟨s, hRun, hDrained, ?_⟩
    intro next callers hTask
    exact simulates calm (bound + 1) .main M .dispatchAll next callers
      (.ok (.count M.state.dueNow.length)) s hCalm (absurd rfl) hTask hRun
  · intro schedule M₁ starter next callers M₂ hFollow hIdle₁ hTask hStep
    have hReach₁ := hReach.follow hFollow
    have hGuarded := guarded_of_reachable hAsks hOk (hReach₁.step starter hStep)
    obtain ⟨hExchanges, hSession, hFresh⟩ := start_of_idle hIdle₁ hTask hStep
    refine ⟨M₁.state.workers.length, ?_, hSession, hFresh, ?_, hExchanges⟩
    · -- the old session has begun before
      have hOld := (ages_follow hFollow).hasThread hBegun
      rw [State.hasThread, decide_eq_true_eq] at hOld
      omega
    · have hCount := hGuarded.count M₁.state.workers.length
      rw [State.dispatchedBy, hFresh] at hCount
      exact List.eq_nil_of_length_eq_zero hCount.symm

/-- **A failure of a handler on a worker is contained, and is not lost.**  Handlers stop no session.
If one fails while the worker of a session delivers a message, then the message is no longer
pending, and was counted.  Until the session is stopped, nothing is delivered, the session goes on,
and dispatches and starts are refused; no other message is lost.  The main thread may stop the
session whenever it asks to; that stop is answered by the failure, and the looper can go on. -/
theorem contained_failure {w : World σ κ} (hAsks : w.Asks fun r => r ≠ .stop)
    {M M₁ : Machine σ κ} {session : Nat} {m : Message κ} {last : Bool} {e : Failure}
    (hReach : Reachable w M)
    (hTask : M.tasks (.worker session) = ⟨.run (.fail e), [.delivery m (.worker session last)]⟩)
    (hStep : M.step w (.worker session) = some M₁) :
    M₁.ledger = M.ledger ∧ M₁.exchanges = M.exchanges ∧
      m ∈ M₁.state.takenOn (.worker session) ∧
      M₁.state.dispatchedBy session = (M₁.state.takenOn (.worker session)).length ∧
      (∀ schedule M₂, M₁.follow w schedule = some M₂ →
        ∀ x ∈ M₂.state.queue.pending, x.seq ≠ m.seq) ∧
      ∀ schedule M₂ xs, M₁.follow w schedule = some M₂ → M₂.exchanges = M₁.exchanges ++ xs →
        (∀ x ∈ xs, x.request ≠ .stop) →
          Stalled session M₁ M₂ xs ∧
          (∀ next callers, M₂.tasks .main = ⟨.run (.ask .stop next), callers⟩ →
            ∃ M₃ M₄, M₂.follow w [.main, .main] = some M₃ ∧ M₃.exchanges = M₂.exchanges ∧
              M₃.step w .main = some M₄ ∧ M₄.tasks .main = ⟨.run (next (.error e)), callers⟩ ∧
              M₄.exchanges = M₃.exchanges ++ [⟨.main, .stop, .error e, M₃.state.clock.now⟩]) ∧
          ∀ thread M₃ ys, M₂.step w thread = some M₃ → M₃.exchanges = M₂.exchanges ++ ys →
            (∃ y ∈ ys, y.request = .stop) →
              ys = [⟨.main, .stop, .error e, M₂.state.clock.now⟩] ∧
                M₃.ledger = M₂.ledger ∧ Recovered w session M₃ := by
  have hOk : ¬ (fun r : Request κ => r ≠ .stop) .stop := fun h => h rfl
  have hReach₁ := hReach.step (.worker session) hStep
  have hStricken := stricken_of_fail hAsks hOk hReach hTask hStep
  have hDies : M.aborted (.worker session) e [] (.worker session last) = M₁ := by
    simpa [step, hasThread_of_step hStep, hTask, proceed, finished] using hStep
  have hTaken : m ∈ M₁.state.takenOn (.worker session) := by
    subst hDies
    refine mem_takenOn_of_delivering hReach ?_
    rw [hTask]
    exact List.mem_singleton_self _
  refine ⟨by rw [← hDies]; rfl, by rw [← hDies]; rfl, hTaken,
    (guarded_of_reachable hAsks hOk hReach₁).count session, ?_, ?_⟩
  · intro schedule M₂ hFollow x hx
    have hLater := (kept_of_reachable (hReach₁.follow hFollow)).conserved
    exact hLater.seq_ne ((taken_follow hFollow).subset (mem_taken_iff.2 ⟨_, hTaken⟩)) hx
  · intro schedule M₂ xs hFollow hExchanges hNone
    have hReach₂ := hReach₁.follow hFollow
    obtain ⟨hStricken₂, hStill, hKept⟩ :=
      hStricken.follow hAsks hOk hReach₁ hFollow hExchanges hNone
    refine ⟨⟨hStricken₂.current, hStill, hKept, ?_⟩,
      fun next callers hMain => hStricken₂.exists_stop hMain, ?_⟩
    · obtain ⟨⟨accepted, hAccepted⟩, ⟨removed, hRemoved⟩⟩ := prefixes_follow hFollow
      exact ⟨accepted, removed, hAccepted.symm, hRemoved.symm,
        (kept_of_reachable hReach₁).conserved.perm_pending
          (kept_of_reachable hReach₂).conserved hStill.taken hAccepted.symm hRemoved.symm⟩
    · intro thread M₃ ys hStep₃ hYs hStop
      have hManned := manned_of_reachable hAsks hReach₂
      have hGuarded := guarded_of_reachable hAsks hOk hReach₂
      obtain rfl := hStricken₂.eq_main hManned hGuarded.toAttended hStep₃
      cases hStricken₂.stall hManned hGuarded hStep₃ with
      | goes zs hZs hKept =>
        exfalso
        obtain ⟨y, hy, hRequest⟩ := hStop
        rw [hYs] at hZs
        exact (hKept y (List.append_cancel_left hZs ▸ hy)).1 hRequest
      | stops hExchanges₃ hLedger hIdle hMain =>
        rw [hYs] at hExchanges₃
        have hBegun := (frame_step hStep).ages.hasThread (hasThread_of_step hStep)
        have hBegun₂ := (ages_follow hFollow).hasThread hBegun
        exact ⟨List.append_cancel_left hExchanges₃, hLedger,
          recovered_of_idle hAsks hOk (hReach₂.step .main hStep₃)
            ((frame_step hStep₃).ages.hasThread hBegun₂) hIdle hMain⟩

/-- The callback of the first of two messages fails on the worker; the stop says so, and the second
message is still to be delivered. -/
theorem contained_while_flaky :
    ∃ (M M₁ M₂ M₃ : Machine Unit Bool) (m : Message Bool),
      after World.flaky .standard none () (.twoInSession true)
        (List.replicate 3 .main ++ List.replicate 3 (.worker 0)) = some M ∧
      M.tasks (.worker 0) = ⟨.run (.fail .noReceiver), [.delivery m (.worker 0 false)]⟩ ∧
      M.step World.flaky (.worker 0) = some M₁ ∧
      M₁.follow World.flaky [.main, .main] = some M₂ ∧
      M₂.step World.flaky .main = some M₃ ∧
      M₃.exchanges = M₂.exchanges ++ [⟨.main, .stop, .error .noReceiver, 0⟩] ∧
      m.seq = 0 ∧ m ∈ M₁.state.takenOn (.worker 0) ∧ M₁.state.dispatchedBy 0 = 1 ∧
      M₃.state.dueNow.map (·.seq) = [1] ∧ Recovered World.flaky 0 M₃ := by
  have hRun : ∃ (M M₁ M₂ M₃ : Machine Unit Bool) (m : Message Bool),
      after World.flaky .standard none () (.twoInSession true)
        (List.replicate 3 .main ++ List.replicate 3 (.worker 0)) = some M ∧
      M.tasks (.worker 0) = ⟨.run (.fail .noReceiver), [.delivery m (.worker 0 false)]⟩ ∧
      M.step World.flaky (.worker 0) = some M₁ ∧
      M₁.follow World.flaky [.main, .main] = some M₂ ∧ M₂.exchanges = M₁.exchanges ∧
      M₂.step World.flaky .main = some M₃ ∧
      M₃.exchanges = M₂.exchanges ++ [⟨.main, .stop, .error .noReceiver, 0⟩] ∧
      m.seq = 0 ∧ M₁.state.dispatchedBy 0 = 1 ∧ M₃.state.dueNow.map (·.seq) = [1] :=
    ⟨_, _, _, _, _, rfl, rfl, rfl, rfl, rfl, rfl, rfl, rfl, rfl, rfl⟩
  obtain ⟨M, M₁, M₂, M₃, m, hAfter, hTask, hStep, hFollow, hNone, hStop, hExchanges, hSeq, hCount,
    hDue⟩ := hRun
  obtain ⟨-, -, hTaken, -, -, hLater⟩ :=
    contained_failure (World.asks_flaky _) (reachable_of_after hAfter) hTask hStep
  obtain ⟨-, -, hStopped⟩ := hLater [.main, .main] M₂ [] hFollow (by simpa using hNone) (by simp)
  obtain ⟨-, -, hRecovered⟩ := hStopped .main M₃ _ hStop hExchanges
    ⟨_, List.mem_singleton_self _, rfl⟩
  exact ⟨M, M₁, M₂, M₃, m, hAfter, hTask, hStep, hFollow, hStop, hExchanges, hSeq, hTaken, hCount,
    hDue, hRecovered⟩

end Failing

end Machine

end VirtualLooper
