import VirtualLooper.Proofs.Looper.Turn

/-!
# The steps of a machine, one by one

`Turn` says what a step does to messages and to the lock.  `Move` says which step it is: it has one
constructor for each thing that a thread may be about to do, with the machine that comes of it.
What is proved of the tasks of threads, of workers and of sessions is proved by cases on it.
-/

namespace VirtualLooper

variable {σ κ : Type}

namespace Machine

/-! ### The steps, one by one -/

/-- A step of a thread, by what the thread was about to do. -/
inductive Move (w : World σ κ) (thread : Thread) (M : Machine σ κ) : Machine σ κ → Prop
  | done {u : Unit} {callers : List (Caller σ κ)}
      (hTask : M.tasks thread = ⟨.run (.done u), callers⟩) :
      Move w thread M (M.finished thread (.ok ()) callers)
  | fail {e : Failure} {callers : List (Caller σ κ)}
      (hTask : M.tasks thread = ⟨.run (.fail e), callers⟩) :
      Move w thread M (M.finished thread (.error e) callers)
  | load {next : σ → Program σ κ Unit} {callers : List (Caller σ κ)}
      (hTask : M.tasks thread = ⟨.run (.load next), callers⟩) :
      Move w thread M (M.put thread ⟨.run (next M.state.memory), callers⟩ M.state)
  | store {memory : σ} {next : Program σ κ Unit} {callers : List (Caller σ κ)}
      (hTask : M.tasks thread = ⟨.run (.store memory next), callers⟩) :
      Move w thread M (M.put thread ⟨.run next, callers⟩ { M.state with memory })
  | look {next : Sight → Program σ κ Unit} {callers : List (Caller σ κ)}
      (hTask : M.tasks thread = ⟨.run (.look next), callers⟩) :
      Move w thread M (M.put thread ⟨.run (next (M.state.sight thread)), callers⟩ M.state)
  /-- A request is answered at once. -/
  | reply {r : Request κ} {next : Except Failure Reply → Program σ κ Unit}
      {callers : List (Caller σ κ)} {result : Except Failure Reply} {s : State σ κ}
      (hTask : M.tasks thread = ⟨.run (.ask r next), callers⟩)
      (hReply : M.state.respond w thread r = .reply result s) :
      Move w thread M (M.answer thread r result next callers s)
  | askAll {next : Except Failure Reply → Program σ κ Unit} {callers : List (Caller σ κ)}
      (hTask : M.tasks thread = ⟨.run (.ask .dispatchAll next), callers⟩)
      (hIdle : M.state.session = none) :
      Move w thread M (M.put thread ⟨.acquire (.all 0 next), callers⟩ M.state)
  | askNext {next : Except Failure Reply → Program σ κ Unit} {callers : List (Caller σ κ)}
      (hTask : M.tasks thread = ⟨.run (.ask .dispatchNext next), callers⟩)
      (hIdle : M.state.session = none) :
      Move w thread M (M.put thread ⟨.acquire (.one next), callers⟩ M.state)
  | askStop {session : Nat} {next : Except Failure Reply → Program σ κ Unit}
      {callers : List (Caller σ κ)}
      (hTask : M.tasks thread = ⟨.run (.ask .stop next), callers⟩)
      (hSession : M.state.session = some session) :
      Move w thread M (M.put thread ⟨.halt session next, callers⟩ M.state)
  /-- A tag is handed to a receiver past the queue. -/
  | call {target : Target} {tag : Value} {next : Except Failure Reply → Program σ κ Unit}
      {callers : List (Caller σ κ)}
      (hTask : M.tasks thread = ⟨.run (.ask (.handle target tag) next), callers⟩) :
      Move w thread M (M.put thread
        ⟨.run (w.program (.receiver target tag)), .handling target tag next :: callers⟩
        (w.atCall thread (.receiver target tag)
          (M.state.recordHistory (.handed target tag M.state.clock.now))))
  | acquire {loop : Loop σ κ} {callers : List (Caller σ κ)}
      (hTask : M.tasks thread = ⟨.acquire loop, callers⟩)
      (hFree : M.dispatcher = none ∨ M.dispatcher = some thread) :
      Move w thread M { M.put thread ⟨.take loop, callers⟩ M.state.enter with
        dispatcher := some thread }
  | take {loop : Loop σ κ} {callers : List (Caller σ κ)} {m : Message κ} {s : State σ κ}
      (hTask : M.tasks thread = ⟨.take loop, callers⟩)
      (hTake : M.state.take? thread = some (m, s)) :
      Move w thread M (M.put thread ⟨.deliver m loop.counted, callers⟩ (loop.tally s))
  | exhaust {loop : Loop σ κ} {callers : List (Caller σ κ)}
      (hTask : M.tasks thread = ⟨.take loop, callers⟩) (hIdle : M.IsIdle) :
      Move w thread M (M.exhausted thread callers loop)
  | deliver {m : Message κ} {loop : Loop σ κ} {callers : List (Caller σ κ)}
      (hTask : M.tasks thread = ⟨.deliver m loop, callers⟩) :
      Move w thread M (M.put thread ⟨.run (w.delivery m), .delivery m loop :: callers⟩
        (w.atDelivery thread m M.state))
  | idle {session : Nat} {callers : List (Caller σ κ)}
      (hTask : M.tasks thread = ⟨.wait session, callers⟩) :
      Move w thread M (M.idle thread callers session)
  | halt {session : Nat} {next : Except Failure Reply → Program σ κ Unit}
      {callers : List (Caller σ κ)} (hTask : M.tasks thread = ⟨.halt session next, callers⟩) :
      Move w thread M (M.put thread ⟨.join session next, callers⟩ (M.state.requestStop session))
  /-- A worker waits for itself, which is refused. -/
  | joinSelf {session : Nat} {next : Except Failure Reply → Program σ κ Unit}
      {callers : List (Caller σ κ)} (hTask : M.tasks thread = ⟨.join session next, callers⟩)
      (hSelf : thread = .worker session) :
      Move w thread M (M.answer thread .stop (.error .joinSelf) next callers
        (M.state.endSession session))
  | join {session : Nat} {next : Except Failure Reply → Program σ κ Unit}
      {callers : List (Caller σ κ)} (hTask : M.tasks thread = ⟨.join session next, callers⟩)
      (hOther : thread ≠ .worker session) (hGone : M.state.isLive session = false) :
      Move w thread M (M.answer thread .stop
        ((M.state.closeSession thread session).stopResult session) next callers
        (M.state.closeSession thread session))

section Moves

variable {w : World σ κ} {thread : Thread} {M M' : Machine σ κ}

theorem spec_of_respond_late (w : World σ κ) (thread : Thread) (s : State σ κ) (r : Request κ) :
    (s.respond w thread r = .deliverAll → r = .dispatchAll ∧ s.session = none) ∧
      (s.respond w thread r = .deliverNext → r = .dispatchNext ∧ s.session = none) ∧
      (∀ session, s.respond w thread r = .stop session → r = .stop ∧ s.session = some session) ∧
      ∀ target tag, s.respond w thread r = .call target tag → r = .handle target tag := by
  have hExcept (o : Except Failure (Reply × State σ κ)) :
      ∃ result s', Response.ofExcept s o = .reply result s' := by
    cases o with
    | error e => exact ⟨_, _, rfl⟩
    | ok answer => exact ⟨_, _, rfl⟩
  cases r with
  | enqueue tag delay target callback =>
    rw [State.respond]
    generalize (s.enqueue tag delay target callback).map _ = o
    obtain ⟨result, s', hReply⟩ := hExcept o
    simp [hReply]
  | enqueueAt tag due target callback =>
    rw [State.respond]
    generalize (s.enqueueAt tag due target callback).map _ = o
    obtain ⟨result, s', hReply⟩ := hExcept o
    simp [hReply]
  | stop => cases hSession : s.session <;> simp [State.respond, hSession]
  | records target used => cases hRecords : w.records target <;> simp [State.respond, hRecords]
  | reset target => cases hRecords : w.records target <;> simp [State.respond, hRecords]
  | _ => cases hSession : s.session <;> simp [State.respond, State.running, hSession]

/-- **Every step is one of these.** -/
theorem move_of_step (h : M.step w thread = some M') : Move w thread M M' := by
  unfold step at h
  simp only at h
  split at h
  · cases hTask : M.tasks thread with
    | mk control callers =>
      rw [hTask] at h
      cases control with
      | run p =>
        obtain rfl := Option.some.inj h
        cases p with
        | done u => exact .done hTask
        | fail e => exact .fail hTask
        | load next => exact .load hTask
        | store memory next => exact .store hTask
        | look next => exact .look hTask
        | ask r next =>
          obtain ⟨hAll, hNext, hStop, hCall⟩ := spec_of_respond_late w thread M.state r
          simp only [proceed, ask]
          cases hResponse : M.state.respond w thread r with
          | reply result s => exact .reply hTask hResponse
          | deliverAll =>
            obtain ⟨rfl, hIdle⟩ := hAll hResponse
            exact .askAll hTask hIdle
          | deliverNext =>
            obtain ⟨rfl, hIdle⟩ := hNext hResponse
            exact .askNext hTask hIdle
          | stop session =>
            obtain ⟨rfl, hSession⟩ := hStop session hResponse
            exact .askStop hTask hSession
          | call target tag =>
            obtain rfl := hCall target tag hResponse
            exact .call hTask
      | acquire loop =>
        simp only at h
        split at h
        · rename_i hFree
          obtain rfl := Option.some.inj h
          exact .acquire hTask hFree
        · cases h
      | take loop =>
        simp only at h
        split at h
        · rename_i m s hTake
          obtain rfl := Option.some.inj h
          exact .take hTask hTake
        · rename_i hTake
          obtain rfl := Option.some.inj h
          exact .exhaust hTask (State.take?_eq_none_iff.1 hTake)
      | deliver m loop =>
        obtain rfl := Option.some.inj h
        exact .deliver hTask
      | wait session =>
        obtain rfl := Option.some.inj h
        exact .idle hTask
      | halt session next =>
        obtain rfl := Option.some.inj h
        exact .halt hTask
      | join session next =>
        simp only at h
        split at h
        · rename_i hSelf
          obtain rfl := Option.some.inj h
          exact .joinSelf hTask hSelf
        · rename_i hOther
          split at h
          · cases h
          · rename_i hGone
            obtain rfl := Option.some.inj h
            exact .join hTask hOther (by simpa using hGone)
      | ended result => cases h
  · cases h

end Moves

end Machine

end VirtualLooper
