import VirtualLooper.Proofs.Looper.Duty

/-!
# Sessions and their workers

`Shift` says what a step does to sessions: mostly nothing, but one may begin, a worker may be over,
and a session may be ended by a stop.  It follows that a looper knows how far its workers have come:
a worker is gone if, and only if, its thread is over (`Manned`).
-/

namespace VirtualLooper

variable {σ κ : Type}

/-! ### Workers that are gone -/

def State.isOver (s : State σ κ) (session : Nat) : Bool :=
  ((s.worker? session).map fun u => !u.isLive).getD false

namespace State

variable {s : State σ κ} {session : Nat}

theorem isOver_of_isLive (h : s.isLive session = true) : s.isOver session = false := by
  unfold isLive at h
  unfold isOver
  cases hWorker : s.worker? session with
  | none => rfl
  | some u =>
    rw [hWorker] at h
    simpa using h

theorem isLive_of_isOver (h : s.isOver session = true) : s.isLive session = false := by
  cases hLive : s.isLive session with
  | false => rfl
  | true =>
    rw [isOver_of_isLive hLive] at h
    cases h

theorem hasThread_of_isLive (h : s.isLive session = true) :
    s.hasThread (.worker session) = true := by
  unfold isLive at h
  cases hWorker : s.worker? session with
  | none => simp [hWorker] at h
  | some u =>
    have hLt : session < s.workers.length := (List.getElem?_eq_some_iff.1 hWorker).1
    simpa [hasThread] using hLt

theorem isOver_updateWorker {f : Worker → Worker} (hf : ∀ u, (f u).isLive = false)
    (h : s.hasThread (.worker session) = true) :
    (s.updateWorker session f).isOver session = true := by
  have hLt : session < s.workers.length := by simpa [hasThread] using h
  simp [isOver, worker?, updateWorker, List.getElem?_eq_getElem hLt, hf]

theorem isOver_exitWorker (h : s.hasThread (.worker session) = true) :
    (s.exitWorker session).isOver session = true := isOver_updateWorker (fun _ => rfl) h

theorem isOver_killWorker (e : Failure) (h : s.hasThread (.worker session) = true) :
    (s.killWorker session e).isOver session = true := isOver_updateWorker (fun _ => rfl) h

/-- A worker that was asked to stop, and is there at all, is to stop. -/
theorem isStopping_requestStop (h : (s.requestStop session).isLive session = true) :
    (s.requestStop session).isStopping session = true := by
  cases hWorker : s.worker? session with
  | none =>
    have hNone : s.workers[session]? = none := hWorker
    simp [isLive, worker?, requestStop, updateWorker, hNone] at h
  | some u =>
    have hSome : s.workers[session]? = some u := hWorker
    simp [isStopping, worker?, requestStop, updateWorker, hSome]

end State

namespace State.Ages

variable {s s' : State σ κ}

theorem isOver (h : s.Ages s') {session : Nat} (hOver : s.isOver session = true) :
    s'.isOver session = true := by
  cases hWorker : s.worker? session with
  | none => simp [State.isOver, hWorker] at hOver
  | some u =>
    obtain ⟨v, hv, hAges⟩ := h session u hWorker
    have hGone : u.isLive = false := by simpa [State.isOver, hWorker] using hOver
    simp [State.isOver, hv, hAges.isLive hGone]

theorem isStopping (h : s.Ages s') {session : Nat} (hStop : s.isStopping session = true) :
    s'.isStopping session = true := by
  cases hWorker : s.worker? session with
  | none => simp [State.isStopping, hWorker] at hStop
  | some u =>
    obtain ⟨v, hv, hAges⟩ := h session u hWorker
    have hAsked : u.stopRequested = true := by simpa [State.isStopping, hWorker] using hStop
    simp [State.isStopping, hv, hAges.stopRequested hAsked]

end State.Ages

/-! ### What a step does to sessions -/

def State.phase? (s : State σ κ) (session : Nat) : Option Phase :=
  (s.worker? session).map (·.phase)

section Phases

variable {s s' : State σ κ} {session other : Nat}

theorem State.isLive_iff : s.isLive session = true ↔ s.phase? session = some .live := by
  rw [isLive, phase?]
  cases s.worker? session with
  | none => simp
  | some u => cases hPhase : u.phase <;> simp [Worker.isLive, hPhase]

theorem State.error?_eq : (s.worker? session).bind Worker.error? =
    (s.phase? session).bind fun phase => match phase with | .died e => some e | _ => none := by
  rw [phase?]
  cases s.worker? session with
  | none => rfl
  | some u => rfl

theorem State.phase?_updateWorker {f : Worker → Worker} (phase : Phase → Phase)
    (hf : ∀ u, (f u).phase = phase u.phase) :
    (s.updateWorker session f).phase? other =
      if other = session then (s.phase? other).map phase else s.phase? other := by
  by_cases hSame : other = session
  · subst hSame
    cases hWorker : s.workers[other]? <;>
      simp [phase?, worker?, updateWorker, hWorker, hf]
  · have hOther : ¬ session = other := Ne.symm hSame
    simp [phase?, worker?, updateWorker, hSame, hOther]

/-- A worker of whom something else is noted has come as far as before. -/
theorem State.phase?_updateWorker_same {f : Worker → Worker} (hf : ∀ u, (f u).phase = u.phase) :
    (s.updateWorker session f).phase? other = s.phase? other := by
  rw [phase?_updateWorker id hf, Option.map_id_fun, id]
  split <;> rfl

theorem State.phase?_beginSession (thread : Thread) :
    (s.beginSession thread).phase? other =
      if other = s.workers.length then some .live else s.phase? other := by
  show ((s.workers ++ [Worker.fresh])[other]?).map (·.phase) = _
  by_cases hSame : other = s.workers.length
  · rw [if_pos hSame, hSame, List.getElem?_concat_length]
    rfl
  · rw [if_neg hSame]
    by_cases hLt : other < s.workers.length
    · rw [List.getElem?_append_left hLt]
      rfl
    · rw [phase?, worker?, List.getElem?_eq_none (by simp; omega),
        List.getElem?_eq_none (by omega)]

theorem State.phase?_ne_none_iff :
    s.phase? session ≠ none ↔ s.hasThread (.worker session) = true := by
  simp [phase?, worker?, hasThread]

theorem State.isOver_iff :
    s.isOver session = true ↔ s.phase? session ≠ none ∧ s.isLive session = false := by
  rw [isOver, phase?, isLive]
  cases s.worker? session with
  | none => simp
  | some u => simp

end Phases

namespace State

/-- What concerns neither messages nor what handlers remember and log is the same. -/
structure SameFrame (s s' : State σ κ) : Prop where
  fallback : s'.fallback = s.fallback
  settings : s'.settings = s.settings
  session : s'.session = s.session
  workers : s'.workers = s.workers

namespace SameFrame

variable {w : World σ κ} {thread : Thread} {s s' s'' : State σ κ}

theorem refl (s : State σ κ) : SameFrame s s := ⟨rfl, rfl, rfl, rfl⟩

theorem trans (h : SameFrame s s') (h' : SameFrame s' s'') : SameFrame s s'' :=
  ⟨h'.fallback.trans h.fallback, h'.settings.trans h.settings, h'.session.trans h.session,
    h'.workers.trans h.workers⟩

theorem phase? (h : SameFrame s s') (session : Nat) : s'.phase? session = s.phase? session := by
  rw [State.phase?, State.phase?, worker?, worker?, h.workers]

theorem take {m : Message κ} (h : s.take? thread = some (m, s')) : SameFrame s s' := by
  obtain ⟨q, -, rfl⟩ := spec_of_take h
  exact ⟨rfl, rfl, rfl, rfl⟩

theorem atCall (w : World σ κ) (thread : Thread) (call : Call κ) (s : State σ κ) :
    SameFrame s (w.atCall thread call s) := by
  cases call with
  | callback c => exact .refl s
  | receiver target tag =>
    rw [World.atCall]
    split <;> exact ⟨rfl, rfl, rfl, rfl⟩

theorem atDelivery (w : World σ κ) (thread : Thread) (m : Message κ) (s : State σ κ) :
    SameFrame s (w.atDelivery thread m s) := by
  have hCalled (call? : Option (Call κ)) :
      SameFrame s (s.recordHistory (.called m call? thread)) := ⟨rfl, rfl, rfl, rfl⟩
  rw [World.atDelivery]
  cases m.call? with
  | some call => exact (hCalled (some call)).trans (.atCall w thread call _)
  | none => exact hCalled none

/-- What is answered at once concerns nothing of the kind, unless it begins a session. -/
theorem respond {r : Request κ} {result : Except Failure Reply}
    (h : s.respond w thread r = .reply result s') :
    SameFrame s s' ∨
      r = .start ∧ s.session = none ∧ result = .ok .nothing ∧ s' = s.beginSession thread := by
  cases r with
  | enqueue tag delay target callback =>
    rcases Response.ofExcept_map h with ⟨e, -, -, rfl⟩ | ⟨receipt, hSent, rfl⟩
    · exact Or.inl (.refl _)
    · obtain ⟨m, hm, -, -, -, -, -, rfl⟩ := State.spec_of_enqueue hSent
      exact Or.inl ⟨rfl, rfl, rfl, rfl⟩
  | enqueueAt tag due target callback =>
    rcases Response.ofExcept_map h with ⟨e, -, -, rfl⟩ | ⟨receipt, hSent, rfl⟩
    · exact Or.inl (.refl _)
    · obtain ⟨m, hm, -, -, -, -, -, rfl⟩ := State.spec_of_enqueueAt hSent
      exact Or.inl ⟨rfl, rfl, rfl, rfl⟩
  | advance amount =>
    obtain ⟨rfl, rfl⟩ := Response.reply.inj h
    obtain ⟨n, log, -, hMove⟩ := s.spec_move w.strictLog thread amount
    rw [hMove]
    exact Or.inl ⟨rfl, rfl, rfl, rfl⟩
  | has tag target =>
    obtain ⟨rfl, rfl⟩ := Response.reply.inj h
    exact Or.inl (.refl _)
  | remove tag target =>
    obtain ⟨rfl, rfl⟩ := Response.reply.inj h
    exact Or.inl ⟨rfl, rfl, rfl, rfl⟩
  | start =>
    cases hSession : s.session with
    | none =>
      simp only [State.respond, running, hSession, Option.isSome_none, Bool.false_eq_true,
        if_false] at h
      obtain ⟨rfl, rfl⟩ := Response.reply.inj h
      exact Or.inr ⟨rfl, rfl, rfl, rfl⟩
    | some session =>
      simp only [State.respond, running, hSession, Option.isSome_some, if_true] at h
      obtain ⟨rfl, rfl⟩ := Response.reply.inj h
      exact Or.inl (.refl _)
  | handle target tag => cases h
  | _ =>
    simp only [State.respond] at h
    split at h <;> cases h <;> exact Or.inl ⟨rfl, rfl, rfl, rfl⟩

end SameFrame

end State

namespace Machine

/-- What a step of a thread does to sessions and their workers. -/
inductive Shift (thread : Thread) (M M' : Machine σ κ) : Prop
  /-- No session begins or ends, and no worker is over. -/
  | stay (hSession : M'.state.session = M.state.session)
      (hPhases : ∀ session, M'.state.phase? session = M.state.phase? session)
      (hPhase : thread ≠ .main → (M'.tasks thread).phase = (M.tasks thread).phase)
      (hStops : ∀ session, (M'.tasks thread).control.stops? = some session →
        (M.tasks thread).control.stops? = some session ∨ M.state.session = some session)
  | start (next : Except Failure Reply → Program σ κ Unit)
      (hControl : (M.tasks thread).control = .run (.ask .start next))
      (hIdle : M.state.session = none)
      (hSession : M'.state.session = some M.state.workers.length)
      (hPhases : ∀ session, M'.state.phase? session =
        if session = M.state.workers.length then some .live else M.state.phase? session)
      (hPhase : thread ≠ .main → (M'.tasks thread).phase = (M.tasks thread).phase)
      (hStops : (M'.tasks thread).control.stops? = none)
      (hTask : M'.tasks thread = ⟨.run (next (.ok .nothing)), (M.tasks thread).callers⟩)
  /-- A worker is over. -/
  | gone (session : Nat) (hThread : thread = .worker session)
      (hSession : M'.state.session = M.state.session)
      (hPhases : ∀ other, M'.state.phase? other = if other = session
        then (M.state.phase? other).map fun _ => (M'.tasks thread).phase
        else M.state.phase? other)
      (hLive : (M.tasks thread).phase = .live) (hStops : (M'.tasks thread).control.stops? = none)
  /-- A stop is answered, on the thread of that worker or after the worker was over. -/
  | stop (session : Nat) (next : Except Failure Reply → Program σ κ Unit)
      (hControl : (M.tasks thread).control = .join session next)
      (hGone : thread = .worker session ∨ M.state.isLive session = false)
      (hSession : M'.state.session = none)
      (hPhases : ∀ other, M'.state.phase? other = M.state.phase? other)
      (hPhase : (M'.tasks thread).phase = (M.tasks thread).phase)
      (hStops : (M'.tasks thread).control.stops? = none)

section Shifts

variable {w : World σ κ} {ok : Request κ → Prop} {thread : Thread} {M M' : Machine σ κ}
  {callers : List (Caller σ κ)}

/-- A thread that is not over goes on, and nothing about sessions changes. -/
theorem shift_stay {t t' : Task σ κ} {s : State σ κ} (hTask : M.tasks thread = t)
    (hTask' : M'.tasks thread = t') (hState : M'.state = s)
    (hSession : s.session = M.state.session)
    (hPhases : ∀ session, s.phase? session = M.state.phase? session)
    (hPhase : t'.phase = t.phase) (hStops : t'.control.stops? = none) : Shift thread M M' := by
  subst hTask hTask' hState
  exact .stay hSession hPhases (fun _ => hPhase) fun session h => by simp [hStops] at h

theorem shift_over {c : Control σ κ} {t' : Task σ κ} {session : Nat} {s : State σ κ}
    (hTask : M.tasks thread = ⟨c, callers⟩) (hTask' : M'.tasks thread = t') (hState : M'.state = s)
    (hBottom : some session = thread.session?) (hSession : s.session = M.state.session)
    (hPhases : ∀ other, s.phase? other = if other = session
      then (M.state.phase? other).map fun _ => t'.phase else M.state.phase? other)
    (hLive : c.result? = none) (hStops : t'.control.stops? = none) : Shift thread M M' := by
  subst hTask' hState
  refine .gone session (Thread.eq_worker hBottom) hSession hPhases ?_ hStops
  rw [hTask, Task.phase, hLive]

theorem phase?_exitWorker (s : State σ κ) (session other : Nat) :
    (s.exitWorker session).phase? other =
      if other = session then (s.phase? other).map fun _ => .exited else s.phase? other :=
  State.phase?_updateWorker (fun _ => .exited) fun _ => rfl

theorem phase?_killWorker (s : State σ κ) (session other : Nat) (e : Failure) :
    (s.killWorker session e).phase? other =
      if other = session then (s.phase? other).map fun _ => .died e else s.phase? other :=
  State.phase?_updateWorker (fun _ => .died e) fun _ => rfl

theorem sessions_of_take {s s' : State σ κ} {m : Message κ} (h : s.take? thread = some (m, s'))
    (loop : Loop σ κ) : (loop.tally s').session = s.session ∧
      ∀ session, (loop.tally s').phase? session = s.phase? session := by
  have hFrame := State.SameFrame.take h
  cases loop with
  | worker session last =>
    refine ⟨hFrame.session, fun other => Eq.trans ?_ (hFrame.phase? other)⟩
    exact State.phase?_updateWorker_same fun _ => rfl
  | _ => exact ⟨hFrame.session, hFrame.phase?⟩

theorem shift_exhausted {loop : Loop σ κ} (hTask : M.tasks thread = ⟨.take loop, callers⟩)
    (h : Task.Stands ok thread ⟨.take loop, callers⟩) :
    Shift thread M (M.exhausted thread callers loop) := by
  cases loop with
  | all count next => exact shift_stay hTask (if_pos rfl) rfl rfl (fun _ => rfl) rfl rfl
  | one next => exact shift_stay hTask (if_pos rfl) rfl rfl (fun _ => rfl) rfl rfl
  | worker session last =>
    cases last with
    | false => exact shift_stay hTask (if_pos rfl) rfl rfl (fun _ => rfl) rfl rfl
    | true =>
      exact shift_over hTask (if_pos rfl) rfl (h.eq_nil id).2 rfl
        (fun other => phase?_exitWorker _ session other) rfl rfl

/-- The loop of a delivery that has failed is left, unless it is that of a worker, who is over. -/
theorem shift_aborted {p : Program σ κ Unit} {m : Message κ} {loop : Loop σ κ} (e : Failure)
    (hTask : M.tasks thread = ⟨.run p, .delivery m loop :: callers⟩)
    (h : Task.Stands ok thread ⟨.run p, .delivery m loop :: callers⟩) :
    Shift thread M (M.aborted thread e callers loop) := by
  cases loop with
  | all count next => exact shift_stay hTask (if_pos rfl) rfl rfl (fun _ => rfl) rfl rfl
  | one next => exact shift_stay hTask (if_pos rfl) rfl rfl (fun _ => rfl) rfl rfl
  | worker session last =>
    have hBelow : VirtualLooper.Stands ok thread False (some session = thread.session?) callers :=
      h.2
    exact shift_over hTask (if_pos rfl) rfl (hBelow.eq_nil id).2 rfl
      (fun other => phase?_killWorker _ session other e) rfl rfl

theorem shift_finished {p : Program σ κ Unit} (result : Except Failure Unit)
    (hTask : M.tasks thread = ⟨.run p, callers⟩) (h : Task.Stands ok thread ⟨.run p, callers⟩) :
    Shift thread M (M.finished thread result callers) := by
  cases callers with
  | nil =>
    -- only the main thread is over when its program is
    refine .stay rfl (fun _ => rfl) (fun hNot => ?_) fun session hStops => ?_
    · have hMain : none = thread.session? := h
      cases thread with
      | main => exact absurd rfl hNot
      | worker session => cases hMain
    · rw [finished, put_tasks_self] at hStops
      cases hStops
  | cons c below =>
    cases c with
    | handling target tag next =>
      exact shift_stay hTask (if_pos rfl) rfl rfl (fun _ => rfl) rfl rfl
    | delivery m loop =>
      cases result with
      | ok u =>
        cases loop with
        | one next => exact shift_stay hTask (if_pos rfl) rfl rfl (fun _ => rfl) rfl rfl
        | _ => exact shift_stay hTask (if_pos rfl) rfl rfl (fun _ => rfl) rfl rfl
      | error e => exact shift_aborted e hTask h

theorem shift_idle {session : Nat} (hTask : M.tasks thread = ⟨.wait session, callers⟩)
    (h : Task.Stands ok thread ⟨.wait session, callers⟩) :
    Shift thread M (M.idle thread callers session) := by
  simp only [idle]
  split
  · exact shift_stay hTask (put_tasks_self _ _) rfl rfl (fun _ => rfl) rfl rfl
  · split
    · exact shift_stay hTask (put_tasks_self _ _) rfl rfl (fun _ => rfl) rfl rfl
    · split
      · rename_i e hWait
        exact shift_over hTask (put_tasks_self _ _) rfl (h.eq_nil id).2 rfl
          (fun other => phase?_killWorker _ session other e) rfl rfl
      · exact shift_stay hTask (put_tasks_self _ _) rfl rfl (fun _ => rfl) rfl rfl

/-- **Sessions begin by a start, and end by a stop.** -/
theorem shift_of_move (hMove : Move w thread M M') (h : (M.tasks thread).Stands ok thread) :
    Shift thread M M' := by
  cases hMove with
  | done hTask => exact shift_finished _ hTask (hTask ▸ h)
  | fail hTask => exact shift_finished _ hTask (hTask ▸ h)
  | load hTask => exact shift_stay hTask (put_tasks_self _ _) rfl rfl (fun _ => rfl) rfl rfl
  | store hTask => exact shift_stay hTask (put_tasks_self _ _) rfl rfl (fun _ => rfl) rfl rfl
  | look hTask => exact shift_stay hTask (put_tasks_self _ _) rfl rfl (fun _ => rfl) rfl rfl
  | @reply r next callers result s hTask hReply =>
    have hTask' : (M.answer thread r result next callers s).tasks thread =
        ⟨.run (next result), callers⟩ := if_pos rfl
    rcases State.SameFrame.respond hReply with hFrame | ⟨rfl, hIdle, rfl, rfl⟩
    · exact shift_stay hTask hTask' rfl hFrame.session hFrame.phase? rfl rfl
    · exact .start next (by rw [hTask]) hIdle rfl (fun _ => State.phase?_beginSession thread)
        (fun _ => by rw [hTask, hTask']; rfl) (by rw [hTask']; rfl) (by rw [hTask', hTask])
  | askAll hTask hIdle =>
    exact shift_stay hTask (put_tasks_self _ _) rfl rfl (fun _ => rfl) rfl rfl
  | askNext hTask hIdle =>
    exact shift_stay hTask (put_tasks_self _ _) rfl rfl (fun _ => rfl) rfl rfl
  | @askStop session next callers hTask hSession =>
    refine .stay rfl (fun _ => rfl) (fun _ => ?_) fun other hStops => Or.inr ?_
    · rw [hTask, put_tasks_self]
      rfl
    · rw [put_tasks_self] at hStops
      rw [hSession, ← hStops]
      rfl
  | @call target tag next callers hTask =>
    have hFrame := State.SameFrame.atCall w thread (.receiver target tag)
      (M.state.recordHistory (.handed target tag M.state.clock.now))
    exact shift_stay hTask (put_tasks_self _ _) rfl hFrame.session hFrame.phase? rfl rfl
  | @acquire loop callers hTask hFree =>
    exact shift_stay hTask (if_pos rfl) rfl rfl (fun _ => rfl) rfl rfl
  | @take loop callers m s hTask hTake =>
    obtain ⟨hSession, hPhases⟩ := sessions_of_take hTake loop
    exact shift_stay hTask (put_tasks_self _ _) rfl hSession hPhases rfl rfl
  | exhaust hTask hIdle => exact shift_exhausted hTask (hTask ▸ h)
  | @deliver m loop callers hTask =>
    have hFrame := State.SameFrame.atDelivery w thread m M.state
    exact shift_stay hTask (put_tasks_self _ _) rfl hFrame.session hFrame.phase? rfl rfl
  | idle hTask => exact shift_idle hTask (hTask ▸ h)
  | @halt session next callers hTask =>
    refine .stay rfl (fun other => ?_) (fun _ => ?_) fun other hStops => Or.inl ?_
    · exact State.phase?_updateWorker_same fun _ => rfl
    · rw [hTask, put_tasks_self]
      rfl
    · rw [put_tasks_self] at hStops
      rw [hTask]
      exact hStops
  | @joinSelf session next callers hTask hSelf =>
    have hTask' : (M.answer thread .stop (.error .joinSelf) next callers
        (M.state.endSession session)).tasks thread =
          ⟨.run (next (.error .joinSelf)), callers⟩ := if_pos rfl
    exact .stop session next (by rw [hTask]) (Or.inl hSelf) rfl (fun _ => rfl)
      (by rw [hTask, hTask']; rfl) (by rw [hTask']; rfl)
  | @join session next callers hTask hOther hGone =>
    have hTask' : (M.answer thread .stop
        ((M.state.closeSession thread session).stopResult session) next callers
        (M.state.closeSession thread session)).tasks thread = ⟨.run (next _), callers⟩ :=
      if_pos rfl
    exact .stop session next (by rw [hTask]) (Or.inr hGone) rfl (fun _ => rfl)
      (by rw [hTask, hTask']; rfl) (by rw [hTask']; rfl)

theorem settings_of_respond {s s' : State σ κ} {r : Request κ} {result : Except Failure Reply}
    (h : s.respond w thread r = .reply result s') : s'.settings = s.settings := by
  rcases State.SameFrame.respond h with hFrame | ⟨-, -, -, rfl⟩
  · exact hFrame.settings
  · rfl

theorem settings_finished (result : Except Failure Unit) :
    (M.finished thread result callers).state.settings = M.state.settings := by
  cases callers with
  | nil => rfl
  | cons c below =>
    cases c with
    | handling target tag next => rfl
    | delivery m loop => cases result <;> cases loop <;> rfl

theorem settings_of_move (hMove : Move w thread M M') : M'.state.settings = M.state.settings := by
  cases hMove with
  | done hTask => exact settings_finished _
  | fail hTask => exact settings_finished _
  | reply hTask hReply => exact settings_of_respond hReply
  | call hTask => exact (State.SameFrame.atCall _ _ _ _).settings
  | @take loop callers m s hTask hTake =>
    have hFrame := State.SameFrame.take hTake
    cases loop <;> exact hFrame.settings
  | @exhaust loop callers hTask hIdle =>
    cases loop with
    | worker session last => cases last <;> rfl
    | _ => rfl
  | deliver hTask => exact (State.SameFrame.atDelivery _ _ _ _).settings
  | idle hTask =>
    simp only [idle]
    split
    · rfl
    · split
      · rfl
      · split <;> rfl
  | _ => rfl

/-- A thread stops a session that it was stopping already, or that is going on. -/
theorem Shift.stops (hShift : Shift thread M M') {session : Nat}
    (h : (M'.tasks thread).control.stops? = some session) :
    (M.tasks thread).control.stops? = some session ∨ M.state.session = some session := by
  cases hShift with
  | stay _ _ _ hStops => exact hStops session h
  | start _ _ _ _ _ _ hStops => rw [hStops] at h; cases h
  | gone _ _ _ _ _ hStops => rw [hStops] at h; cases h
  | stop _ _ _ _ _ _ _ hStops => rw [hStops] at h; cases h

end Shifts

/-! ### What a looper knows of its workers -/

/-- Every thread has to do what it should, and the looper knows how far its workers have come. -/
structure Manned (ok : Request κ → Prop) (M : Machine σ κ) : Prop where
  stands : ∀ thread, (M.tasks thread).Stands ok thread
  phase : ∀ session phase, M.state.phase? session = some phase →
    (M.tasks (.worker session)).phase = phase
  /-- A worker that has not begun is about to take messages. -/
  unborn : ∀ session, M.state.phase? session = none →
    M.tasks (.worker session) = ⟨.acquire (.worker session false), []⟩
  /-- The session that is going on has begun. -/
  begun : ∀ session, M.state.session = some session → M.state.phase? session ≠ none
  stops : ∀ thread session, (M.tasks thread).control.stops? = some session →
    M.state.phase? session ≠ none

namespace Manned

variable {w : World σ κ} {ok : Request κ → Prop} {thread : Thread} {M M' : Machine σ κ}

theorem phase_of_shift (h : Manned ok M) (hShift : Shift thread M M')
    (hOthers : ∀ other, other ≠ thread → M'.tasks other = M.tasks other) (session : Nat)
    (phase : Phase) (hPhase : M'.state.phase? session = some phase) :
    (M'.tasks (.worker session)).phase = phase := by
  -- unless a worker is over, no thread of a worker comes further
  have hSame (hStill : thread ≠ .main → (M'.tasks thread).phase = (M.tasks thread).phase) :
      (M'.tasks (.worker session)).phase = (M.tasks (.worker session)).phase := by
    by_cases hThread : Thread.worker session = thread
    · rw [hThread]
      exact hStill (by rw [← hThread]; simp)
    · rw [hOthers _ hThread]
  cases hShift with
  | stay hSession hPhases hStill =>
    rw [hSame hStill]
    exact h.phase session phase (hPhases session ▸ hPhase)
  | start next hControl hIdle hSession hPhases hStill =>
    rw [hSame hStill]
    rw [hPhases] at hPhase
    split at hPhase
    · rename_i hNew
      have hUnborn : M.state.phase? session = none := by
        simp [State.phase?, State.worker?, hNew]
      rw [h.unborn session hUnborn, ← Option.some.inj hPhase]
      rfl
    · exact h.phase session phase hPhase
  | gone ended hThread hSession hPhases =>
    rw [hPhases] at hPhase
    split at hPhase
    · rename_i hEnded
      obtain ⟨_, -, rfl⟩ := Option.map_eq_some_iff.1 hPhase
      rw [hThread, hEnded]
    · rename_i hEnded
      rw [hOthers _ (by rw [hThread]; exact fun hEq => hEnded (Thread.worker.inj hEq))]
      exact h.phase session phase hPhase
  | stop stopped next hControl hGone hSession hPhases hStill =>
    rw [hSame fun _ => hStill]
    exact h.phase session phase (hPhases session ▸ hPhase)

theorem step (hAsks : w.Asks ok) (h : Manned ok M) (hStep : M.step w thread = some M') :
    Manned ok M' := by
  have hMove := move_of_step hStep
  have hShift := shift_of_move hMove (h.stands thread)
  have hFrame := frame_step hStep
  have hBegun {session : Nat} (hPhase : M.state.phase? session ≠ none) :
      M'.state.phase? session ≠ none :=
    State.phase?_ne_none_iff.2 (hFrame.ages.hasThread (State.phase?_ne_none_iff.1 hPhase))
  refine ⟨fun other => ?_, h.phase_of_shift hShift hFrame.others, fun session hUnborn => ?_,
    fun session hSession => ?_, fun other session hStops => ?_⟩
  · by_cases hOther : other = thread
    · rw [hOther]
      exact stands_of_move hAsks hMove (h.stands thread)
    · rw [hFrame.others other hOther]
      exact h.stands other
  · have hBefore : M.state.phase? session = none :=
      Classical.byContradiction fun hPhase => hBegun hPhase hUnborn
    have hOther : Thread.worker session ≠ thread := by
      intro hSame
      have hThread := hasThread_of_step hStep
      rw [← hSame] at hThread
      exact State.phase?_ne_none_iff.2 hThread hBefore
    rw [hFrame.others _ hOther]
    exact h.unborn session hBefore
  · cases hShift with
    | stay hSame => exact hBegun (h.begun session (hSame ▸ hSession))
    | start next hControl hIdle hNew hPhases =>
      obtain rfl := Option.some.inj (hNew.symm.trans hSession)
      rw [hPhases, if_pos rfl]
      simp
    | gone ended hThread hSame => exact hBegun (h.begun session (hSame ▸ hSession))
    | stop stopped next hControl hGone hNone =>
      rw [hNone] at hSession
      cases hSession
  · by_cases hOther : other = thread
    · rw [hOther] at hStops
      rcases hShift.stops hStops with hBefore | hSession
      · exact hBegun (h.stops thread session hBefore)
      · exact hBegun (h.begun session hSession)
    · rw [hFrame.others other hOther] at hStops
      exact hBegun (h.stops other session hStops)

theorem isLive_of_result? (h : Manned ok M) {session : Nat}
    (hBegun : M.state.phase? session ≠ none)
    (hResult : (M.tasks (.worker session)).control.result? = none) :
    M.state.isLive session = true := by
  obtain ⟨phase, hPhase⟩ := Option.ne_none_iff_exists'.1 hBegun
  have hTask := h.phase session phase hPhase
  rw [Task.phase, hResult] at hTask
  rw [State.isLive_iff, hPhase, ← hTask]

theorem step_eq_none (h : Manned ok M) {session : Nat} (hOver : M.state.isOver session = true) :
    M.step w (.worker session) = none := by
  obtain ⟨hBegun, hGone⟩ := State.isOver_iff.1 hOver
  cases hControl : (M.tasks (.worker session)).control with
  | ended result => simp [Machine.step, hControl]
  | _ =>
    have hLive := h.isLive_of_result? hBegun (by rw [hControl]; rfl)
    rw [hLive] at hGone
    cases hGone

theorem isLive_of_loops (h : Manned ok M) {session : Nat}
    (hLoops : 0 < (M.tasks (.worker session)).loops) : M.state.isLive session = true := by
  refine h.isLive_of_result? (fun hUnborn => ?_) ?_
  · rw [h.unborn session hUnborn] at hLoops
    cases hLoops
  · have hStands := h.stands (.worker session)
    cases hTask : M.tasks (.worker session) with
    | mk control callers =>
      rw [hTask] at hStands hLoops
      cases control with
      | ended result =>
        obtain ⟨rfl, -⟩ := hStands.eq_nil id
        cases hLoops
      | _ => rfl

theorem thread_of_worker (h : Manned ok M) {session : Nat} {last : Bool}
    (hControl : (M.tasks thread).control = .take (.worker session last)) :
    thread = .worker session := by
  have hStands := h.stands thread
  rw [Task.Stands, hControl] at hStands
  exact Thread.eq_worker (hStands.eq_nil id).2

end Manned

theorem manned_start {ok : Request κ → Prop} {s : State σ κ} (hWorkers : s.workers = [])
    (hSession : s.session = none) (p : Program σ κ Unit) : Manned ok (start s p) where
  stands
    | .main => rfl
    | .worker session => rfl
  phase session phase hPhase := by
    simp [start, State.phase?, State.worker?, hWorkers] at hPhase
  unborn session hUnborn := rfl
  begun session hBegun := by
    rw [start, hSession] at hBegun
    cases hBegun
  stops thread session hStops := by cases thread <;> cases hStops

theorem manned_of_reachable {w : World σ κ} {ok : Request κ → Prop} (hAsks : w.Asks ok)
    {M : Machine σ κ} (h : Reachable w M) : Manned ok M := by
  induction h with
  | start h p =>
    obtain ⟨clock, rfl⟩ := State.spec_of_make h
    exact manned_start rfl rfl p
  | step thread prior h ih => exact ih.step hAsks h

end Machine

end VirtualLooper
