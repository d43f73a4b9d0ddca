import VirtualLooper.Proofs.Looper.Conservation

/-!
# Which message is delivered, and when a dispatch is over

Loops look at the clock and the queue anew before each message that they take, so handlers may
change both.  The message that is taken is at that time due and the first of all that are pending
(`Machine.Takes`), and a dispatch answers only when it has found nothing due, or when it has
delivered the one message that it was to deliver.  The same is said twice: for every step of threads
side by side, and for a dispatch that runs to its end.
-/

namespace VirtualLooper

variable {σ κ : Type}

namespace Machine

/-! ### One step -/

/-- The next message is taken: it was due, came before all others, and all others stay. -/
structure Takes (M M' : Machine σ κ) (m : Message κ) : Prop where
  taken : M'.ledger.taken = M.ledger.taken ++ [m]
  due : m.due ≤ M.state.clock.now
  perm : M.state.queue.pending.Perm (m :: M'.state.queue.pending)
  first : ∀ x ∈ M'.state.queue.pending, m.due < x.due ∨ m.due = x.due ∧ m.seq < x.seq

section Step

variable {w : World σ κ} {thread : Thread} {M M' : Machine σ κ}

theorem takes_of_step (h : M.step w thread = some M') :
    M'.ledger.taken = M.ledger.taken ∨ ∃ m, Takes M M' m := by
  cases turn_of_step h with
  | go hEdit => exact Or.inl hEdit.taken_eq
  | enter hLedger => exact Or.inl (by rw [hLedger])
  | take m q loop hControl hPop hLedger =>
    obtain ⟨hDue, hPerm, hFirst, -⟩ := Queue.spec_of_popAt? hPop
    have hQueue : M'.state.queue = q := congrArg Ledger.queue hLedger
    refine Or.inr ⟨m, congrArg Ledger.taken hLedger, hDue, ?_, fun x hx => ?_⟩
    · rw [hQueue]
      exact hPerm
    · rw [hQueue] at hx
      exact Message.before_iff.1 (hFirst x hx)
  | call m loop p hControl hLedger => exact Or.inl (by rw [hLedger])
  | leave hLedger => exact Or.inl (by rw [hLedger])

/-- A loop that looks for a message takes one unless nothing is due. -/
theorem taken_eq_iff_isIdle {loop : Loop σ κ} (hControl : (M.tasks thread).control = .take loop)
    (h : M.step w thread = some M') : M'.ledger.taken = M.ledger.taken ↔ M.IsIdle := by
  constructor
  · intro hSame
    rw [step] at h
    simp only [hasThread_of_step h, hControl, if_true] at h
    cases hTake : M.state.take? thread with
    | none => exact State.take?_eq_none_iff.1 hTake
    | some taken =>
      obtain ⟨m, s⟩ := taken
      obtain ⟨q, -, hLedger⟩ := Ledger.of_take M.exchanges hTake
      simp only [hTake, Option.some.injEq] at h
      have hTaken : M'.ledger.taken = M.ledger.taken ++ [m] := by
        rw [← h]
        exact congrArg Ledger.taken ((Ledger.of_tally _ _ _).trans hLedger)
      rw [hTaken] at hSame
      simp at hSame
  · intro hIdle
    rcases takes_of_step h with hSame | ⟨m, hTakes⟩
    · exact hSame
    · have hLate := hIdle m (hTakes.perm.mem_iff.2 List.mem_cons_self)
      have hDue := hTakes.due
      omega

/-! ### A second dispatch -/

/-- Should a thread ask at once for a dispatch of all that is due, it would get nothing. -/
def DeliversNothing (w : World σ κ) (thread : Thread) (M : Machine σ κ) : Prop :=
  ∀ next callers, M.tasks thread = ⟨.run (.ask .dispatchAll next), callers⟩ →
    M.state.running = false →
      ∃ M', M.follow w [thread, thread, thread] = some M' ∧
        M'.exchanges = M.exchanges ++ [⟨thread, .dispatchAll, .ok (.count 0), M.state.clock.now⟩] ∧
        M'.ledger = M.ledger ∧ M'.tasks thread = ⟨.run (next (.ok (.count 0))), callers⟩

theorem deliversNothing_of_isIdle (hIdle : M.IsIdle) (hThread : M.state.hasThread thread = true)
    (hFree : M.dispatcher = none ∨ M.dispatcher = some thread) :
    M.DeliversNothing w thread := by
  intro next callers hTask hRunning
  let asked := M.put thread ⟨.acquire (.all 0 next), callers⟩ M.state
  let entered : Machine σ κ :=
    { asked.put thread ⟨.take (.all 0 next), callers⟩ asked.state.enter with
      dispatcher := some thread }
  have hAsk : M.step w thread = some asked := by
    simp [step, hThread, hTask, proceed, ask, State.respond, hRunning, asked]
  have hEnter : asked.step w thread = some entered := by
    have hTask' : asked.tasks thread = ⟨.acquire (.all 0 next), callers⟩ := put_tasks_self _ _
    have hThread' : asked.state.hasThread thread = true := hThread
    have hFree' : asked.dispatcher = none ∨ asked.dispatcher = some thread := hFree
    simp [step, hThread', hTask', hFree', entered]
  have hLeave : entered.step w thread = some (entered.exhausted thread callers (.all 0 next)) := by
    have hTask' : entered.tasks thread = ⟨.take (.all 0 next), callers⟩ := if_pos rfl
    have hThread' : entered.state.hasThread thread = true := by
      cases thread with
      | main => rfl
      | worker session => exact hThread
    have hNone : entered.state.take? thread = none := State.take?_eq_none_iff.2 hIdle
    simp [step, hThread', hTask', hNone]
  refine ⟨entered.exhausted thread callers (.all 0 next), ?_, rfl, ?_, if_pos rfl⟩
  · rw [follow, hAsk, Option.bind_some, follow, hEnter, Option.bind_some, follow, hLeave]
    rfl
  · have hQuiet : (⟨thread, .dispatchAll, .ok (.count 0), M.state.clock.now⟩ :
        Exchange κ).IsQuiet := ⟨rfl, rfl, rfl⟩
    show Ledger.of ((entered.state.leave.recordHistory (.returned 0)).note thread (.delivered 0))
      (M.exchanges ++ [⟨thread, .dispatchAll, .ok (.count 0), M.state.clock.now⟩]) = M.ledger
    rw [Ledger.of_append_quiet _ _ hQuiet, Ledger.of_note, Ledger.of_recordHistory _ _ rfl]
    rfl

/-! ### Answers -/

/-- What it means that a dispatch is answered without a failure. -/
inductive Answers (w : World σ κ) (thread : Thread) (M M' : Machine σ κ) : Exchange κ → Prop
  /-- Nothing is due any more, and a second dispatch would deliver nothing. -/
  | all (count : Nat) (hIdle : M'.IsIdle) (hAgain : M'.DeliversNothing w thread) :
      Answers w thread M M' ⟨thread, .dispatchAll, .ok (.count count), M.state.clock.now⟩
  /-- The thread was looking for the next message, and nothing was due. -/
  | none (next : Except Failure Reply → Program σ κ Unit)
      (hControl : (M.tasks thread).control = .take (.one next)) (hIdle : M.IsIdle) :
      Answers w thread M M' ⟨thread, .dispatchNext, .ok (.flag false), M.state.clock.now⟩
  /-- The thread was delivering a message, which it had taken as the next one. -/
  | one (m : Message κ) (hRunning : m ∈ (M.tasks thread).running) (hTaken : m ∈ M.ledger.taken) :
      Answers w thread M M' ⟨thread, .dispatchNext, .ok (.flag true), M.state.clock.now⟩

theorem answers_of_step (hReach : Reachable w M) (h : M.step w thread = some M') :
    ∃ xs, M'.exchanges = M.exchanges ++ xs ∧
      ∀ x ∈ xs, x.dispatch? = none ∨ Answers w thread M M' x := by
  cases turn_of_step h with
  | go _ _ _ _ _ _ _ xs hExchanges hNone =>
    exact ⟨xs, hExchanges, fun x hx => Or.inl (hNone x hx)⟩
  | enter _ _ _ _ _ _ _ _ hExchanges => exact ⟨[], by simpa using hExchanges, by simp⟩
  | take _ _ _ _ _ _ _ _ _ hExchanges => exact ⟨[], by simpa using hExchanges, by simp⟩
  | call _ _ _ _ _ _ _ _ hExchanges => exact ⟨[], by simpa using hExchanges, by simp⟩
  | leave hLedger hLock hDepth hLoops hHand hHand' hDelivering xs hExchanges hLeave =>
    refine ⟨xs, hExchanges, fun x hx => ?_⟩
    cases hLeave with
    | all count next hControl hIdle =>
      obtain rfl := List.mem_singleton.1 hx
      have hQueue : M'.state.queue = M.state.queue := congrArg Ledger.queue hLedger
      have hNow : M'.state.clock.now = M.state.clock.now := congrArg Ledger.now hLedger
      have hIdle' : M'.IsIdle := by
        rw [IsIdle, hQueue, hNow]
        exact hIdle
      have hOwn := (exclusive_of_reachable hReach).owns
        (show 0 < (M.tasks thread).loops by omega)
      have hFree : M'.dispatcher = Option.none ∨ M'.dispatcher = some thread := by
        rw [hLock, hOwn]
        split
        · exact Or.inl rfl
        · exact Or.inr rfl
      have hThread := (frame_step h).ages.hasThread (hasThread_of_step h)
      exact Or.inr (Answers.all count hIdle' (deliversNothing_of_isIdle hIdle' hThread hFree))
    | none next hControl hIdle =>
      obtain rfl := List.mem_singleton.1 hx
      exact Or.inr (Answers.none next hControl hIdle)
    | one m next callers hCallers =>
      obtain rfl := List.mem_singleton.1 hx
      have hRunning : m ∈ (M.tasks thread).running := by
        rw [Task.running, hCallers]
        exact List.mem_cons_self
      exact Or.inr (Answers.one m hRunning ((kept_of_reachable hReach).delivering thread m
        (List.mem_append_right _ hRunning)))
    | failed r e =>
      obtain rfl := List.mem_singleton.1 hx
      cases r <;> exact Or.inl rfl
    | worker => simp at hx

end Step

end Machine

/-! ### Dispatches that run to their end -/

section Dispatch

variable {w : World σ κ} {thread : Thread} {s s' : State σ κ}

theorem lt_due_of_dispatchAll {bound : Nat} {reply : Reply}
    (h : perform w bound thread .dispatchAll s = .ok reply s') :
    ∀ m ∈ s'.queue.pending, s'.clock.now < m.due := by
  cases bound with
  | zero => cases h
  | succ bound =>
    by_cases hRunning : s.running = true
    · simp [perform, State.respond, hRunning, Outcome.ofResult] at h
    · simp only [perform, State.respond, hRunning] at h
      obtain ⟨n, t, hClose, hReply⟩ := Outcome.bind_eq_ok.1 h
      obtain ⟨last, hDrain, rfl⟩ := State.closeDispatch_eq_ok.1 hClose
      cases hReply
      have hNone := State.take?_eq_none_iff.1 (take?_of_drainWith hDrain)
      exact hNone

theorem dispatchAll_of_lt_due (hIdle : ∀ m ∈ s.queue.pending, s.clock.now < m.due)
    (hRunning : s.running = false) (bound : Nat) :
    perform w (bound + 2) thread .dispatchAll s =
      .ok (.count 0) ((s.recordHistory (.returned 0)).note thread (.delivered 0)) := by
  have hNone : s.enter.take? thread = none := State.take?_eq_none_iff.2 hIdle
  simp only [perform, State.respond, hRunning, drainWith, hNone]
  rfl

theorem flag_of_dispatchNext {bound : Nat} {reply : Reply}
    (h : perform w bound thread .dispatchNext s = .ok reply s') :
    reply = .flag (s.queue.hasDueAt s.clock.now) := by
  cases bound with
  | zero => cases h
  | succ bound =>
    by_cases hRunning : s.running = true
    · simp [perform, State.respond, hRunning, Outcome.ofResult] at h
    · rw [← s.isSome_take? thread]
      simp only [perform, State.respond, hRunning] at h
      cases hTake : s.take? thread with
      | none =>
        simp only [hTake] at h
        cases h
        rfl
      | some taken =>
        simp only [hTake] at h
        obtain ⟨n, -, rfl⟩ := Outcome.map_eq_ok.1 h
        rfl

end Dispatch

namespace Machine

/-- **The right message is delivered, and a dispatch leaves none out.**  A step of any thread takes
no message, or the one that is due and comes before all others; a loop that looks for one takes one
unless nothing is due; and a dispatch is answered as it should be.  A dispatch that runs to its end
tells whether a message was due, if it was for the next one; if it was for all, nothing is due at
its end, and a second one delivers nothing. -/
theorem deliveries_of_step {w : World σ κ} {M M' : Machine σ κ} {thread : Thread}
    (hReach : Reachable w M) (h : M.step w thread = some M') :
    (M'.ledger.taken = M.ledger.taken ∨ ∃ m, Takes M M' m) ∧
      (∀ loop, (M.tasks thread).control = .take loop →
        (M'.ledger.taken = M.ledger.taken ↔ M.IsIdle)) ∧
      (∃ xs, M'.exchanges = M.exchanges ++ xs ∧
        ∀ x ∈ xs, x.dispatch? = none ∨ Answers w thread M M' x) ∧
      (∀ (bound : Nat) (s s' : State σ κ) (reply : Reply),
        perform w bound thread .dispatchNext s = .ok reply s' →
          reply = .flag (s.queue.hasDueAt s.clock.now)) ∧
      ∀ (bound : Nat) (s s' : State σ κ) (reply : Reply),
        perform w bound thread .dispatchAll s = .ok reply s' →
          (∀ m ∈ s'.queue.pending, s'.clock.now < m.due) ∧
            (s'.running = false → ∀ more, perform w (more + 2) thread .dispatchAll s' =
              .ok (.count 0) ((s'.recordHistory (.returned 0)).note thread (.delivered 0))) := by
  refine ⟨takes_of_step h, fun loop hControl => taken_eq_iff_isIdle hControl h,
    answers_of_step hReach h, fun bound s s' reply hNext => flag_of_dispatchNext hNext,
    fun bound s s' reply hAll => ?_⟩
  have hIdle := lt_due_of_dispatchAll hAll
  exact ⟨hIdle, fun hRunning more => dispatchAll_of_lt_due hIdle hRunning more⟩

/-- Of three messages the second is taken first. -/
theorem takes_second :
    ∃ M M', after World.flaky .standard none () (.threeMessages true) (List.replicate 5 .main) =
        some M ∧ M.step World.flaky .main = some M' ∧ M'.ledger.taken.map (·.seq) = [1] ∧
      (M'.ledger.taken = M.ledger.taken ∨ ∃ m, Takes M M' m) := by
  have hRun : ∃ M M', after World.flaky .standard none () (.threeMessages true)
      (List.replicate 5 .main) = some M ∧ M.step World.flaky .main = some M' ∧
        M'.ledger.taken.map (·.seq) = [1] := ⟨_, _, rfl, rfl, rfl⟩
  obtain ⟨M, M', hAfter, hStep, hTaken⟩ := hRun
  exact ⟨M, M', hAfter, hStep, hTaken, (deliveries_of_step (reachable_of_after hAfter) hStep).1⟩

end Machine

end VirtualLooper
