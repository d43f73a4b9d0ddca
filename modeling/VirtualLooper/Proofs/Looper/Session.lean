import VirtualLooper.Proofs.Looper.Shift

/-!
# What goes on while no session does

Unless a worker was stopped from its own thread, a worker that is not gone belongs to the session
that is going on (`Attended`).  So while none is, messages are taken by synchronous dispatches only.

A worker that is stopped from its own thread is the exception: it cannot wait for itself, so that
the stop is refused, and yet the session is over from then on.  The worker goes on.
-/

namespace VirtualLooper

variable {σ κ : Type}

/-! ### Who has taken what -/

def Occurrence.takenOn? (thread : Thread) : Occurrence κ → Option (Message κ)
  | taken m _ other => if other = thread then some m else none
  | _ => none

namespace State

def takenOn (s : State σ κ) (thread : Thread) : List (Message κ) :=
  s.history.filterMap (Occurrence.takenOn? thread)

/-- No message was taken in between, and no worker has counted one. -/
structure SameTaken (s s' : State σ κ) : Prop where
  takenOn : ∀ thread, s'.takenOn thread = s.takenOn thread
  dispatchedBy : ∀ session, s'.dispatchedBy session = s.dispatchedBy session

namespace SameTaken

variable {s s' s'' : State σ κ}

theorem refl (s : State σ κ) : SameTaken s s := ⟨fun _ => rfl, fun _ => rfl⟩

theorem trans (h : SameTaken s s') (h' : SameTaken s' s'') : SameTaken s s'' where
  takenOn thread := (h'.takenOn thread).trans (h.takenOn thread)
  dispatchedBy session := (h'.dispatchedBy session).trans (h.dispatchedBy session)

theorem of_eq (hHistory : s'.history = s.history) (hWorkers : s'.workers = s.workers) :
    SameTaken s s' where
  takenOn thread := by rw [State.takenOn, hHistory, State.takenOn]
  dispatchedBy session := by
    rw [State.dispatchedBy, State.worker?, hWorkers, State.dispatchedBy, State.worker?]

theorem of_append (o : Occurrence κ) (ho : ∀ thread, o.takenOn? thread = none)
    (hHistory : s'.history = s.history ++ [o]) (hWorkers : s'.workers = s.workers) :
    SameTaken s s' where
  takenOn thread := by
    simp [State.takenOn, hHistory, List.filterMap_append, ho]
  dispatchedBy session := by
    rw [State.dispatchedBy, State.worker?, hWorkers, State.dispatchedBy, State.worker?]

theorem leave (s : State σ κ) : SameTaken s s.leave := of_eq rfl rfl

theorem updateWorker (s : State σ κ) (session : Nat) {f : Worker → Worker}
    (hf : ∀ u, (f u).dispatched = u.dispatched) : SameTaken s (s.updateWorker session f) where
  takenOn thread := rfl
  dispatchedBy other := by
    by_cases hSame : session = other
    · subst hSame
      cases hWorker : s.workers[session]? <;>
        simp [State.dispatchedBy, worker?, State.updateWorker, hWorker, hf]
    · simp [State.dispatchedBy, worker?, State.updateWorker, hSame]

theorem beginSession (s : State σ κ) (thread : Thread) : SameTaken s (s.beginSession thread) where
  takenOn thread := rfl
  dispatchedBy session := by
    show (((s.workers ++ [Worker.fresh])[session]?).map (·.dispatched)).getD 0 = _
    by_cases hLt : session < s.workers.length
    · rw [List.getElem?_append_left hLt]
      rfl
    · have hNone : s.workers[session]? = none := List.getElem?_eq_none (by omega)
      rw [List.getElem?_append_right (by omega), State.dispatchedBy, worker?, hNone]
      cases session - s.workers.length <;> rfl

theorem atCall (w : World σ κ) (thread : Thread) (call : Call κ) (s : State σ κ) :
    SameTaken s (w.atCall thread call s) := by
  cases call with
  | callback c => exact refl s
  | receiver target tag =>
    rw [World.atCall]
    split
    · exact of_eq rfl rfl
    · exact refl s

theorem atDelivery (w : World σ κ) (thread : Thread) (m : Message κ) (s : State σ κ) :
    SameTaken s (w.atDelivery thread m s) := by
  unfold World.atDelivery
  cases m.call? with
  | some call =>
    have hCalled : SameTaken s (s.recordHistory (.called m (some call) thread)) :=
      of_append (.called m (some call) thread) (fun _ => rfl) rfl rfl
    exact hCalled.trans (atCall w thread call _)
  | none => exact of_append (.called m none thread) (fun _ => rfl) rfl rfl

theorem closeSession (s : State σ κ) (thread : Thread) (session : Nat) :
    SameTaken s (s.closeSession thread session) :=
  of_append (.ended session) (fun _ => rfl) rfl rfl

theorem exitWorker (s : State σ κ) (session : Nat) : SameTaken s (s.exitWorker session) :=
  (updateWorker s session (f := fun u => { u with phase := .exited }) fun _ => rfl).trans
    (of_eq rfl rfl)

theorem killWorker (s : State σ κ) (session : Nat) (e : Failure) :
    SameTaken s (s.killWorker session e) :=
  (updateWorker s session (f := fun u => { u with phase := .died e }) fun _ => rfl).trans
    (of_eq rfl rfl)

theorem respond {w : World σ κ} {thread : Thread} {r : Request κ} {result : Except Failure Reply}
    (h : s.respond w thread r = .reply result s') : SameTaken s s' := by
  cases r with
  | enqueue tag delay target callback =>
    rcases Response.ofExcept_map h with ⟨e, -, -, rfl⟩ | ⟨receipt, hSent, rfl⟩
    · exact refl _
    · obtain ⟨m, hm, -, -, -, -, -, rfl⟩ := State.spec_of_enqueue hSent
      exact of_append (.accepted m s.clock.now) (fun _ => rfl) rfl rfl
  | enqueueAt tag due target callback =>
    rcases Response.ofExcept_map h with ⟨e, -, -, rfl⟩ | ⟨receipt, hSent, rfl⟩
    · exact refl _
    · obtain ⟨m, hm, -, -, -, -, -, rfl⟩ := State.spec_of_enqueueAt hSent
      exact of_append (.accepted m s.clock.now) (fun _ => rfl) rfl rfl
  | advance amount =>
    obtain ⟨-, rfl⟩ := Response.reply.inj h
    obtain ⟨n, log, -, hMove⟩ := s.spec_move w.strictLog thread amount
    rw [hMove]
    exact of_eq rfl rfl
  | has tag target =>
    obtain ⟨-, rfl⟩ := Response.reply.inj h
    exact refl _
  | remove tag target =>
    obtain ⟨-, rfl⟩ := Response.reply.inj h
    exact of_append (.removed _) (fun _ => rfl) rfl rfl
  | start =>
    simp only [State.respond] at h
    split at h
    · obtain ⟨-, rfl⟩ := Response.reply.inj h
      exact refl _
    · obtain ⟨-, rfl⟩ := Response.reply.inj h
      exact beginSession s thread
  | reset target =>
    simp only [State.respond] at h
    split at h
    · obtain ⟨-, rfl⟩ := Response.reply.inj h
      exact of_append (.forgotten target) (fun _ => rfl) rfl rfl
    · obtain ⟨-, rfl⟩ := Response.reply.inj h
      exact refl _
  | handle target tag => cases h
  | _ =>
    simp only [State.respond] at h
    split at h <;> cases h <;> exact refl _

end SameTaken

end State

theorem State.dispatchedBy_countFor {s : State σ κ} {session other : Nat}
    (hBegun : some session = some other → s.phase? other ≠ none) :
    (s.countFor session).dispatchedBy other =
      if some session = some other then s.dispatchedBy other + 1 else s.dispatchedBy other := by
  by_cases hSame : session = other
  · subst hSame
    cases hWorker : s.workers[session]? with
    | none => exact absurd (by simp [phase?, worker?, hWorker]) (hBegun rfl)
    | some u => simp [State.dispatchedBy, worker?, countFor, updateWorker, hWorker]
  · simp [State.dispatchedBy, worker?, countFor, updateWorker, hSame]

namespace Machine

/-- What a step of a thread does to the messages that threads have taken. -/
inductive Tally (thread : Thread) (M M' : Machine σ κ) : Prop
  | keep (hSame : M.state.SameTaken M'.state)
  /-- The thread takes a message, and a worker counts it. -/
  | take (m : Message κ) (loop : Loop σ κ) (hControl : (M.tasks thread).control = .take loop)
      (hTaken : ∀ other, M'.state.takenOn other =
        if thread = other then M.state.takenOn other ++ [m] else M.state.takenOn other)
      (hCount : ∀ session, (loop.session? = some session → M.state.phase? session ≠ none) →
        M'.state.dispatchedBy session =
          if loop.session? = some session then M.state.dispatchedBy session + 1
          else M.state.dispatchedBy session)
      (hTask : M'.tasks thread = ⟨.deliver m loop.counted, (M.tasks thread).callers⟩)

section Tallies

variable {w : World σ κ} {thread : Thread} {M M' : Machine σ κ} {callers : List (Caller σ κ)}

theorem sameTaken_exhausted (loop : Loop σ κ) :
    M.state.SameTaken (M.exhausted thread callers loop).state := by
  cases loop with
  | all count next =>
    exact .of_append (.returned count) (fun _ => rfl) rfl rfl
  | one next => exact .of_eq rfl rfl
  | worker session last =>
    cases last with
    | false => exact .of_eq rfl rfl
    | true => exact (State.SameTaken.leave M.state).trans (.exitWorker _ session)

theorem sameTaken_finished (result : Except Failure Unit) :
    M.state.SameTaken (M.finished thread result callers).state := by
  cases callers with
  | nil => exact .refl _
  | cons c below =>
    cases c with
    | handling target tag next => exact .refl _
    | delivery m loop =>
      cases result with
      | ok u =>
        cases loop with
        | one next => exact .of_append (.returned 1) (fun _ => rfl) rfl rfl
        | _ => exact .refl _
      | error e =>
        cases loop with
        | worker session last =>
          exact (State.SameTaken.leave M.state).trans (.killWorker _ session e)
        | _ => exact .of_append .aborted (fun _ => rfl) rfl rfl

theorem sameTaken_idle (session : Nat) :
    M.state.SameTaken (M.idle thread callers session).state := by
  simp only [idle]
  split
  · exact .refl _
  · split
    · exact .refl _
    · split
      · exact .killWorker M.state session _
      · exact .refl _

/-- A message that is taken is taken on the thread whose step it is, and the worker counts it whose
loop has taken it. -/
theorem tally_of_move (hMove : Move w thread M M') : Tally thread M M' := by
  cases hMove with
  | done hTask => exact .keep (sameTaken_finished _)
  | fail hTask => exact .keep (sameTaken_finished _)
  | reply hTask hReply => exact .keep (.respond hReply)
  | @call target tag next callers hTask =>
    have hHanded : M.state.SameTaken
        (M.state.recordHistory (.handed target tag M.state.clock.now)) :=
      .of_append (.handed target tag M.state.clock.now) (fun _ => rfl) rfl rfl
    exact .keep (hHanded.trans (.atCall w thread (.receiver target tag) _))
  | acquire hTask hFree => exact .keep (.of_eq rfl rfl)
  | @take loop callers m s hTask hTake =>
    obtain ⟨q, -, rfl⟩ := State.spec_of_take hTake
    refine .take m loop (by rw [hTask]) (fun other => ?_) (fun session hBegun => ?_)
      (by rw [put_tasks_self, hTask])
    · have hTally {s : State σ κ} : (loop.tally s).takenOn other = s.takenOn other := by
        cases loop <;> rfl
      show (loop.tally _).takenOn other = _
      rw [hTally]
      by_cases hOther : thread = other
      · simp [State.takenOn, State.recordHistory, List.filterMap_append, Occurrence.takenOn?,
          hOther]
      · simp [State.takenOn, State.recordHistory, List.filterMap_append, Occurrence.takenOn?,
          hOther]
    · cases loop with
      | worker counting last => exact State.dispatchedBy_countFor hBegun
      | _ => rfl
  | exhaust hTask hIdle => exact .keep (sameTaken_exhausted _)
  | deliver hTask => exact .keep (.atDelivery w thread _ _)
  | idle hTask => exact .keep (sameTaken_idle _)
  | @halt session next callers hTask =>
    exact .keep (.updateWorker M.state session fun _ => rfl)
  | @joinSelf session next callers hTask hSelf =>
    exact .keep (.of_append (.ended session) (fun _ => rfl) rfl rfl)
  | @join session next callers hTask hOther hGone =>
    exact .keep (.closeSession M.state thread session)
  | _ => exact .keep (.of_eq rfl rfl)

end Tallies

/-! ### Workers belong to the session that is going on -/

/-- Is the thread a worker that is about to wait for itself? -/
def StopsSelf (M : Machine σ κ) (thread : Thread) : Prop :=
  ∃ session next, (M.tasks thread).control = .join session next ∧ thread = .worker session

/-- A worker that is not gone belongs to the session that is going on, and so does a session that is
being stopped. -/
structure Attended (M : Machine σ κ) : Prop where
  live : ∀ session, M.state.isLive session = true → M.state.session = some session
  stops : ∀ thread session, (M.tasks thread).control.stops? = some session →
    M.state.session = some session

namespace Attended

variable {w : World σ κ} {ok : Request κ → Prop} {thread : Thread} {M M' : Machine σ κ}

theorem isLive_eq_false (h : Attended M) (hIdle : M.state.session = none) (session : Nat) :
    M.state.isLive session = false := by
  cases hLive : M.state.isLive session with
  | false => rfl
  | true =>
    rw [h.live session hLive] at hIdle
    cases hIdle

theorem eq_main_of_stops (h : Attended M) (hManned : Manned ok M) {session : Nat}
    (hStops : (M.tasks thread).control.stops? = some session)
    (hGone : M.state.isLive session = false) : thread = .main := by
  cases thread with
  | main => rfl
  | worker other =>
    have hLive : M.state.isLive other = true := by
      refine hManned.isLive_of_result? (fun hUnborn => ?_) ?_
      · rw [hManned.unborn other hUnborn] at hStops
        cases hStops
      · cases hControl : (M.tasks (.worker other)).control with
        | ended result => rw [hControl] at hStops; cases hStops
        | _ => rfl
    have hSession := h.stops _ session hStops
    rw [h.live other hLive] at hSession
    rw [Option.some.inj hSession, hGone] at hLive
    cases hLive

theorem shift (h : Attended M) (hManned : Manned ok M) (hShift : Shift thread M M')
    (hOthers : ∀ other, other ≠ thread → M'.tasks other = M.tasks other)
    (hSelf : ¬ M.StopsSelf thread) : Attended M' := by
  cases hShift with
  | stay hSession hPhases hPhase hStops =>
    refine ⟨fun session hLive => ?_, fun other session hStopping => ?_⟩
    · rw [State.isLive_iff, hPhases, ← State.isLive_iff] at hLive
      rw [hSession]
      exact h.live session hLive
    · rw [hSession]
      by_cases hOther : other = thread
      · rw [hOther] at hStopping
        exact (hStops session hStopping).elim (h.stops thread session) id
      · rw [hOthers other hOther] at hStopping
        exact h.stops other session hStopping
  | start next hControl hIdle hSession hPhases hPhase hStops =>
    refine ⟨fun session hLive => ?_, fun other session hStopping => ?_⟩
    · rw [State.isLive_iff, hPhases] at hLive
      split at hLive
      · rename_i hNew
        rw [hSession, hNew]
      · rw [← State.isLive_iff, h.isLive_eq_false hIdle] at hLive
        cases hLive
    · by_cases hOther : other = thread
      · rw [hOther, hStops] at hStopping
        cases hStopping
      · rw [hOthers other hOther] at hStopping
        have hNone := h.stops other session hStopping
        rw [hIdle] at hNone
        cases hNone
  | gone ended hThread hSession hPhases hBefore hStops =>
    refine ⟨fun session hLive => ?_, fun other session hStopping => ?_⟩
    · rw [hSession]
      refine h.live session (State.isLive_iff.2 ?_)
      rw [State.isLive_iff, hPhases] at hLive
      split at hLive
      · rename_i hEnded
        obtain ⟨phase, hPhase, -⟩ := Option.map_eq_some_iff.1 hLive
        rw [hPhase, ← hManned.phase session phase hPhase, hEnded, ← hThread, hBefore]
      · exact hLive
    · rw [hSession]
      by_cases hOther : other = thread
      · rw [hOther, hStops] at hStopping
        cases hStopping
      · rw [hOthers other hOther] at hStopping
        exact h.stops other session hStopping
  | stop stopped next hControl hGone hSession hPhases hPhase hStops =>
    have hStopped : (M.tasks thread).control.stops? = some stopped := by rw [hControl]; rfl
    have hGone : M.state.isLive stopped = false :=
      hGone.resolve_left fun hOwn => hSelf ⟨stopped, next, hControl, hOwn⟩
    refine ⟨fun session hLive => ?_, fun other session hStopping => ?_⟩
    · -- the worker of the session that is over is gone, and there is no other
      rw [State.isLive_iff, hPhases, ← State.isLive_iff] at hLive
      have hSame := (h.live session hLive).symm.trans (h.stops thread stopped hStopped)
      rw [Option.some.inj hSame, hGone] at hLive
      cases hLive
    · by_cases hOther : other = thread
      · rw [hOther, hStops] at hStopping
        cases hStopping
      · rw [hOthers other hOther] at hStopping
        have hSame := (h.stops other session hStopping).symm.trans (h.stops thread stopped hStopped)
        rw [Option.some.inj hSame] at hStopping
        exact absurd ((h.eq_main_of_stops hManned hStopping hGone).trans
          (h.eq_main_of_stops hManned hStopped hGone).symm) hOther

/-- While no session is going on, only the main thread has anything to do. -/
theorem eq_main (h : Attended M) (hManned : Manned ok M) (hIdle : M.state.session = none)
    (hBegun : M.state.hasThread thread = true)
    (hResult : (M.tasks thread).control.result? = none) : thread = .main := by
  cases thread with
  | main => rfl
  | worker session =>
    have hLive := hManned.isLive_of_result? (State.phase?_ne_none_iff.2 hBegun) hResult
    rw [h.isLive_eq_false hIdle] at hLive
    cases hLive

/-- While no session is going on and the main thread is in no loop, no thread is. -/
theorem depth_eq_zero (h : Attended M) (hManned : Manned ok M) (hLock : Exclusive M)
    (hIdle : M.state.session = none) (hMain : (M.tasks .main).loops = 0) : M.state.depth = 0 := by
  cases hOwner : M.dispatcher with
  | none => exact hLock.free.1 hOwner
  | some owner =>
    have hLoops := hLock.loops owner
    rw [if_pos hOwner] at hLoops
    cases owner with
    | main => rw [← hLoops, hMain]
    | worker session =>
      rcases Nat.eq_zero_or_pos M.state.depth with hZero | hPos
      · exact hZero
      · have hLive := hManned.isLive_of_loops (hLoops ▸ hPos)
        rw [h.isLive_eq_false hIdle] at hLive
        cases hLive

/-- A loop that runs while no session is going on is not that of a worker. -/
theorem session?_of_take (h : Attended M) (hManned : Manned ok M) (hIdle : M.state.session = none)
    (hBegun : M.state.hasThread thread = true) {loop : Loop σ κ}
    (hControl : (M.tasks thread).control = .take loop) : loop.session? = none := by
  cases loop with
  | worker session last =>
    obtain rfl := hManned.thread_of_worker hControl
    have hMain := h.eq_main hManned hIdle hBegun (by rw [hControl]; rfl)
    cases hMain
  | _ => rfl

end Attended

/-- Handlers that ask for no stop do not stop the session of their own worker. -/
theorem Manned.not_stopsSelf {ok : Request κ → Prop} {thread : Thread} {M : Machine σ κ}
    (h : Manned ok M) (hOk : ¬ ok .stop) : ¬ M.StopsSelf thread := by
  rintro ⟨session, next, hControl, rfl⟩
  have hStands := h.stands (.worker session)
  rw [Task.Stands, hControl] at hStands
  cases (hStands.eq_nil fun hHandler => hOk hHandler.1).2

end Machine

def Exchange.IsSelfStop (x : Exchange κ) : Prop :=
  x.thread ≠ .main ∧ x.request = .stop ∧ x.result = .error .joinSelf

/-- Receivers do nothing; a callback says whether it stops the session, whatever comes of that. -/
def World.stopper : World Unit Bool where
  receive _ _ := .done ()
  invoke stops := if stops then .ask .stop fun _ => .done () else .done ()
  records _ := false

def Program.twoInSession (stops : Bool) : Program Unit Bool Unit :=
  .ask (.enqueueAt (.str "first") (.int 0) none (some stops)) fun _ =>
    .ask (.enqueueAt (.str "second") (.int 0) none (some false)) fun _ =>
      .ask .start fun _ =>
        .ask .stop fun _ => .done ()

namespace Machine

section Stopped

variable {w : World σ κ} {thread : Thread} {M M' : Machine σ κ}

theorem Turn.exchanges_grow (h : Turn thread M M') : M.exchanges <+: M'.exchanges := by
  cases h with
  | go _ _ _ _ _ _ _ xs hExchanges => exact hExchanges ▸ List.prefix_append _ _
  | leave _ _ _ _ _ _ _ xs hExchanges => exact hExchanges ▸ List.prefix_append _ _
  | enter _ _ _ _ _ _ _ _ hExchanges => exact hExchanges ▸ List.prefix_refl _
  | take _ _ _ _ _ _ _ _ _ hExchanges => exact hExchanges ▸ List.prefix_refl _
  | call _ _ _ _ _ _ _ _ hExchanges => exact hExchanges ▸ List.prefix_refl _

theorem exchanges_follow {schedule : List Thread} (h : M.follow w schedule = some M') :
    M.exchanges <+: M'.exchanges :=
  follow_induction (R := fun M M' => M.exchanges <+: M'.exchanges) (fun _ => List.prefix_refl _)
    (fun hStep hRest => (turn_of_step hStep).exchanges_grow.trans hRest) h

/-- A thread that waits for a worker has its answer next, and no session is going on then. -/
theorem stop_of_join {session : Nat} {next : Except Failure Reply → Program σ κ Unit}
    (hControl : (M.tasks thread).control = .join session next) (h : M.step w thread = some M') :
    M'.state.session = none ∧
      (∃ result, M'.exchanges = M.exchanges ++ [⟨thread, .stop, result, M.state.clock.now⟩] ∧
        (thread = .worker session → result = .error .joinSelf)) ∧
      (thread = .worker session ∨ M.state.isLive session = false) := by
  rw [step] at h
  simp only [hasThread_of_step h, hControl, if_true] at h
  split at h
  · rename_i hSelf
    obtain rfl := Option.some.inj h
    exact ⟨rfl, ⟨_, rfl, fun _ => rfl⟩, Or.inl hSelf⟩
  · rename_i hOther
    split at h
    · cases h
    · rename_i hGone
      obtain rfl := Option.some.inj h
      exact ⟨rfl, ⟨_, rfl, fun hSelf => absurd hSelf hOther⟩, Or.inr (by simpa using hGone)⟩

theorem attended_start {s : State σ κ} (hWorkers : s.workers = []) (p : Program σ κ Unit) :
    Attended (start s p) where
  live session hLive := by simp [start, State.isLive, State.worker?, hWorkers] at hLive
  stops thread session hStops := by cases thread <;> cases hStops

theorem attended_of_reachable (h : Reachable w M)
    (hNone : ∀ x ∈ M.exchanges, ¬ x.IsSelfStop) : Attended M := by
  induction h with
  | start h p =>
    obtain ⟨clock, rfl⟩ := State.spec_of_make h
    exact attended_start rfl p
  | @step M M' thread prior h ih =>
    have hPrefix := (turn_of_step h).exchanges_grow
    have hManned := manned_of_reachable w.asks_true prior
    have hShift := shift_of_move (move_of_step h) (hManned.stands thread)
    refine (ih fun x hx => hNone x (hPrefix.subset hx)).shift hManned hShift
      (frame_step h).others fun hSelf => ?_
    obtain ⟨session, next, hControl, hThread⟩ := hSelf
    obtain ⟨-, ⟨result, hExchanges, hResult⟩, -⟩ := stop_of_join hControl h
    refine hNone ⟨thread, .stop, result, M.state.clock.now⟩ ?_ ⟨?_, rfl, hResult hThread⟩
    · rw [hExchanges]
      exact List.mem_append_right _ (List.mem_singleton_self _)
    · rw [hThread]
      simp

theorem takenOn_of_isOver {session : Nat} (hReach : Reachable w M)
    (hOver : M.state.isOver session = true) {schedule : List Thread}
    (h : M.follow w schedule = some M') :
    M'.state.takenOn (.worker session) = M.state.takenOn (.worker session) := by
  induction schedule generalizing M with
  | nil =>
    obtain rfl := Option.some.inj h
    rfl
  | cons thread schedule ih =>
    obtain ⟨next, hStep, hRest⟩ := Option.bind_eq_some_iff.1 h
    have hSame : next.state.takenOn (.worker session) = M.state.takenOn (.worker session) := by
      cases tally_of_move (move_of_step hStep) with
      | keep hSame => exact hSame.takenOn _
      | take m loop hControl hTaken =>
        rw [hTaken, if_neg]
        intro hOwn
        rw [hOwn, (manned_of_reachable w.asks_true hReach).step_eq_none hOver] at hStep
        cases hStep
    rw [← hSame]
    exact ih (hReach.step thread hStep) ((frame_step hStep).ages.isOver hOver) hRest

/-- **An idle looper dispatches nothing by itself.**  Once a stop is answered, no session is going
on, and the worker that was stopped takes nothing more, unless the stop was made on its own thread.
And while nobody has made such a stop, a message that is taken while no session is going on is taken
by a loop that some program has asked for. -/
theorem takes_nothing_while_idle (hReach : Reachable w M) (h : M.step w thread = some M') :
    (∀ session next, (M.tasks thread).control = .join session next →
      (∃ result, M'.exchanges = M.exchanges ++ [⟨thread, .stop, result, M.state.clock.now⟩]) ∧
        M'.state.session = none ∧
        (thread ≠ .worker session → ∀ schedule M'', M'.follow w schedule = some M'' →
          M''.state.takenOn (.worker session) = M'.state.takenOn (.worker session))) ∧
      ((∀ x ∈ M.exchanges, ¬ x.IsSelfStop) → M.state.session = none →
        M'.ledger.taken = M.ledger.taken ∨
          ∃ loop, (M.tasks thread).control = .take loop ∧ loop.session? = none) := by
  have hManned := manned_of_reachable w.asks_true hReach
  refine ⟨fun session next hControl => ?_, fun hNone hIdle => ?_⟩
  · obtain ⟨hIdle, ⟨result, hExchanges, -⟩, hGone⟩ := stop_of_join hControl h
    refine ⟨⟨result, hExchanges⟩, hIdle, fun hOther schedule M'' hFollow => ?_⟩
    refine takenOn_of_isOver (hReach.step thread h) ((frame_step h).ages.isOver ?_) hFollow
    exact State.isOver_iff.2 ⟨hManned.stops thread session (by rw [hControl]; rfl),
      hGone.resolve_left hOther⟩
  · have hAttended := attended_of_reachable hReach hNone
    cases turn_of_step h with
    | take m q loop hControl =>
      exact Or.inr ⟨loop, hControl,
        hAttended.session?_of_take hManned hIdle (hasThread_of_step h) hControl⟩
    | go hEdit => exact Or.inl hEdit.taken_eq
    | enter hLedger => exact Or.inl (by rw [hLedger])
    | call m loop p hControl hLedger => exact Or.inl (by rw [hLedger])
    | leave hLedger => exact Or.inl (by rw [hLedger])

/-- The main thread sends two messages and starts and stops a session, whose worker takes both of
them; then no worker takes a third one. -/
theorem takes_nothing_after_two :
    ∃ M M' : Machine Unit Bool,
      after World.stopper .standard none () (.twoInSession false)
        (List.replicate 3 .main ++ List.replicate 8 (.worker 0) ++ List.replicate 2 .main ++
          List.replicate 3 (.worker 0)) = some M ∧
      M.step World.stopper .main = some M' ∧
      (M'.state.takenOn (.worker 0)).map (·.seq) = [0, 1] ∧
      ∀ schedule M'', M'.follow World.stopper schedule = some M'' →
        M''.state.takenOn (.worker 0) = M'.state.takenOn (.worker 0) := by
  have hRun : ∃ M M' next,
      after World.stopper .standard none () (.twoInSession false)
        (List.replicate 3 .main ++ List.replicate 8 (.worker 0) ++ List.replicate 2 .main ++
          List.replicate 3 (.worker 0)) = some M ∧
      M.step World.stopper .main = some M' ∧
      (M'.state.takenOn (.worker 0)).map (·.seq) = [0, 1] ∧
      (M.tasks .main).control = .join 0 next := ⟨_, _, _, rfl, rfl, rfl, rfl⟩
  obtain ⟨M, M', next, hAfter, hStep, hTaken, hControl⟩ := hRun
  have hStopped := takes_nothing_while_idle (reachable_of_after hAfter) hStep
  exact ⟨M, M', hAfter, hStep, hTaken, (hStopped.1 0 next hControl).2.2 (by simp)⟩

/-- The first of two messages stops the session from the thread of its worker, which goes on with
the second one while the looper is idle. -/
theorem takes_second_while_idle :
    ∃ M M' : Machine Unit Bool,
      after World.stopper .standard none () (.twoInSession true)
        (List.replicate 3 .main ++ List.replicate 7 (.worker 0)) = some M ∧
      M.state.session = none ∧ M.exchanges.map (fun x => (x.thread, x.result.isOk)) =
        [(.main, true), (.main, true), (.main, true), (.worker 0, false)] ∧
      M.step World.stopper (.worker 0) = some M' ∧
      (M.state.takenOn (.worker 0)).map (·.seq) = [0] ∧
      (M'.state.takenOn (.worker 0)).map (·.seq) = [0, 1] :=
  ⟨_, _, rfl, rfl, rfl, rfl, rfl, rfl⟩

end Stopped

end Machine

end VirtualLooper
