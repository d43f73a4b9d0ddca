import VirtualLooper.Looper.State

/-! # Running a looper

`perform` answers a request on a thread.  The dispatching requests take due messages one at a time
and run the programs of their receivers, which may make requests in turn, so `perform` counts down a
bound on how deep and how long this goes; a run that reaches the bound is `unfinished`, and a larger
bound never changes a run that finished.

The workers of sessions do not run by themselves.  `settle` gives each of them a turn: it takes all
that is due, and then waits, or exits if it was asked to.  `stop` gives the worker that it stops its
last turn.  Only one thread dispatches at a time, so a thread in the middle of a dispatch that stops
another's session would wait for a worker that waits for it: a deadlock.
-/

namespace VirtualLooper

/-- What came of a run. -/
inductive Outcome (S α : Type)
  | ok (a : α) (s : S)
  | failed (e : Failure) (s : S)
  /-- Two threads wait for each other. -/
  | deadlock
  /-- The bound was reached. -/
  | unfinished

namespace Outcome

variable {S α β : Type}

def bind : Outcome S α → (α → S → Outcome S β) → Outcome S β
  | ok a s, k => k a s
  | failed e s, _ => failed e s
  | deadlock, _ => deadlock
  | unfinished, _ => unfinished

def attempt : Outcome S α → (Except Failure α → S → Outcome S β) → Outcome S β
  | ok a s, k => k (.ok a) s
  | failed e s, k => k (.error e) s
  | deadlock, _ => deadlock
  | unfinished, _ => unfinished

def onState (f : S → S) : Outcome S α → Outcome S α
  | ok a s => ok a (f s)
  | failed e s => failed e (f s)
  | deadlock => deadlock
  | unfinished => unfinished

def state? : Outcome S α → Option S
  | ok _ s => some s
  | failed _ s => some s
  | _ => none

def ofResult (result : Except Failure α) (s : S) : Outcome S α :=
  match result with
  | .ok a => ok a s
  | .error e => failed e s

def map (f : α → β) (o : Outcome S α) : Outcome S β := o.bind fun a s => ok (f a) s

theorem ofResult_inj {r r' : Except Failure α} {s s' : S} :
    ofResult r s = ofResult r' s' ↔ r = r' ∧ s = s' := by
  cases r <;> cases r' <;> simp [ofResult]

theorem bind_eq_ok {o : Outcome S α} {k : α → S → Outcome S β} {b : β} {s : S} :
    o.bind k = ok b s ↔ ∃ a t, o = ok a t ∧ k a t = ok b s := by
  cases o <;> simp [bind, and_assoc]

theorem bind_eq_failed {o : Outcome S α} {k : α → S → Outcome S β} {e : Failure} {s : S} :
    o.bind k = failed e s ↔ o = failed e s ∨ ∃ a t, o = ok a t ∧ k a t = failed e s := by
  cases o <;> simp [bind, and_assoc]

theorem map_eq_ok {o : Outcome S α} {f : α → β} {b : β} {s : S} :
    o.map f = ok b s ↔ ∃ a, o = ok a s ∧ f a = b := by
  cases o <;> simp [map, bind, and_assoc, and_comm]

theorem map_eq_failed {o : Outcome S α} {f : α → β} {e : Failure} {s : S} :
    o.map f = failed e s ↔ o = failed e s := by
  cases o <;> simp [map, bind]

end Outcome

/-- What a looper works with: its receivers, what they do and which of them record what they
receive, and the log. -/
structure World (σ κ : Type) where
  receive : Target → Value → Program σ κ Unit
  invoke : κ → Program σ κ Unit
  records : Target → Bool
  /-- Does the log let out that a line cannot be written?  It may as well keep that to itself, or
  write no lines at all. -/
  strictLog : Bool := true

variable {σ κ : Type}

namespace Program

def run {α : Type} (perform : Request κ → State σ κ → Outcome (State σ κ) Reply)
    (thread : Thread) : Program σ κ α → State σ κ → Outcome (State σ κ) α
  | done a, s => .ok a s
  | fail e, s => .failed e s
  | load next, s => (next s.memory).run perform thread s
  | store memory next, s => next.run perform thread { s with memory }
  | look next, s => (next (s.sight thread)).run perform thread s
  | ask r next, s => (perform r s).attempt fun reply s => (next reply).run perform thread s

end Program

namespace World

/-- The same receivers, with a log that is strict or not. -/
def withLog (w : World σ κ) (strict : Bool) : World σ κ := { w with strictLog := strict }

def program (w : World σ κ) : Call κ → Program σ κ Unit
  | .callback c => w.invoke c
  | .receiver target tag => w.receive target tag

/-- The state in which the program of a call begins.  That a recording receiver is called, looks at
the clock and adds its record is taken together here. -/
def atCall (w : World σ κ) (thread : Thread) (call : Call κ) (s : State σ κ) : State σ κ :=
  match call with
  | .callback _ => s
  | .receiver target tag => if w.records target then s.record target tag thread else s

def delivery (w : World σ κ) (m : Message κ) : Program σ κ Unit :=
  match m.call? with
  | some call => w.program call
  | none => .done ()

def atDelivery (w : World σ κ) (thread : Thread) (m : Message κ) (s : State σ κ) : State σ κ :=
  let s := s.recordHistory (.called m m.call? thread)
  match m.call? with
  | some call => w.atCall thread call s
  | none => s

/-- Delivers a message that was taken: its callback runs, or else its target receives the tag. -/
def deliver (w : World σ κ) (perform : Request κ → State σ κ → Outcome (State σ κ) Reply)
    (thread : Thread) (m : Message κ) (s : State σ κ) : Outcome (State σ κ) Unit :=
  (w.delivery m).run perform thread (w.atDelivery thread m s)

end World

/-- Takes and delivers due messages until none is left, and counts them; `tally` is what a thread
does between taking a message and delivering it. -/
def drainWith (thread : Thread) (tally : State σ κ → State σ κ)
    (deliver : Message κ → State σ κ → Outcome (State σ κ) Unit) :
    (bound : Nat) → State σ κ → Outcome (State σ κ) Nat
  | 0, _ => .unfinished
  | bound + 1, s =>
    match s.take? thread with
    | none => .ok 0 s
    | some (m, s) =>
      (deliver m (tally s)).bind fun _ s => (drainWith thread tally deliver bound s).map (· + 1)

theorem take?_of_drainWith {thread : Thread} {tally : State σ κ → State σ κ}
    {deliver : Message κ → State σ κ → Outcome (State σ κ) Unit} {bound n : Nat}
    {s s' : State σ κ} (h : drainWith thread tally deliver bound s = .ok n s') :
    s'.take? thread = none := by
  induction bound generalizing s n with
  | zero => cases h
  | succ bound ih =>
    rw [drainWith] at h
    split at h
    · rename_i hNone
      cases h
      exact hNone
    · obtain ⟨u, t, -, hRest⟩ := Outcome.bind_eq_ok.1 h
      obtain ⟨n, hRest, -⟩ := Outcome.map_eq_ok.1 hRest
      exact ih hRest

namespace State

def enter (s : State σ κ) : State σ κ := { s with depth := s.depth + 1 }

def leave (s : State σ κ) : State σ κ := { s with depth := s.depth - 1 }

theorem leave_enter (s : State σ κ) : s.enter.leave = s := rfl

theorem take?_enter (s : State σ κ) (thread : Thread) :
    s.enter.take? thread = (s.take? thread).map fun (m, s) => (m, s.enter) := by
  rw [take?, take?, Option.map_map]
  rfl

/-- A synchronous dispatch is over, with the number of messages that it took itself, or by a
failure. -/
def closeDispatch (o : Outcome (State σ κ) Nat) : Outcome (State σ κ) Nat :=
  o.attempt fun result s =>
    match result with
    | .ok n => .ok n (s.leave.recordHistory (.returned n))
    | .error e => .failed e (s.leave.recordHistory .aborted)

theorem closeDispatch_eq_ok {o : Outcome (State σ κ) Nat} {n : Nat} {s : State σ κ} :
    closeDispatch o = .ok n s ↔
      ∃ t, o = .ok n t ∧ t.leave.recordHistory (.returned n) = s := by
  cases o with
  | ok k t =>
    simp only [closeDispatch, Outcome.attempt, Outcome.ok.injEq]
    constructor
    · rintro ⟨rfl, rfl⟩
      exact ⟨t, ⟨rfl, rfl⟩, rfl⟩
    · rintro ⟨_, ⟨rfl, rfl⟩, rfl⟩
      exact ⟨rfl, rfl⟩
  | _ => simp [closeDispatch, Outcome.attempt]

theorem closeDispatch_eq_failed {o : Outcome (State σ κ) Nat} {e : Failure} {s : State σ κ} :
    closeDispatch o = .failed e s ↔
      ∃ t, o = .failed e t ∧ t.leave.recordHistory .aborted = s := by
  cases o <;> simp [closeDispatch, Outcome.attempt, and_assoc]

/-- Moves the clock forward and logs that.  The clock stays moved if the log fails. -/
def move (s : State σ κ) (strict : Bool) (thread : Thread) (amount : Value) :
    Except Failure Reply × State σ κ :=
  match s.advance amount with
  | .error e => (.error e, s)
  | .ok moved =>
    match moved.write strict thread (.moved (moved.clock.now - s.clock.now) moved.clock.now) with
    | .error e => (.error e, moved)
    | .ok noted => (.ok (.time noted.clock.now), noted)

/-- A move changes nothing but the clock, never backwards, and the log. -/
theorem spec_move (s : State σ κ) (strict : Bool) (thread : Thread) (amount : Value) :
    ∃ (n : Int) (log : List (Thread × Notice)), 0 ≤ n ∧
      (s.move strict thread amount).2 = { s with clock := ⟨s.clock.now + n⟩, log := log } := by
  unfold move
  cases hMoved : s.advance amount with
  | error e => exact ⟨0, s.log, Int.le_refl 0, by simp only [Int.add_zero]⟩
  | ok moved =>
    obtain ⟨n, hPos, -, rfl⟩ := spec_of_advance hMoved
    simp only
    rcases write_eq { s with clock := ⟨s.clock.now + n⟩ } strict thread
        (.moved (s.clock.now + n - s.clock.now) (s.clock.now + n)) with hWrite | ⟨hWrite, -⟩
    · exact ⟨n, _, hPos, by rw [hWrite]; rfl⟩
    · exact ⟨n, s.log, hPos, by rw [hWrite]⟩

/-- What a stop comes to once the worker is gone: the failure that ended the worker, a complaint
that the worker delivered nothing, or the number of messages that it took. -/
def stopResult (s : State σ κ) (session : Nat) : Except Failure Reply :=
  match (s.worker? session).bind Worker.error? with
  | some e => .error e
  | none =>
    if s.dispatchedBy session = 0 && s.settings.requireDispatch.truthy then
      .error .nothingDispatched
    else .ok (.count (s.dispatchedBy session))

def isLive (s : State σ κ) (session : Nat) : Bool :=
  ((s.worker? session).map Worker.isLive).getD false

def isStopping (s : State σ κ) (session : Nat) : Bool :=
  ((s.worker? session).map (·.stopRequested)).getD false

/-- The worker of a session is gone, and the session is over. -/
def closeSession (s : State σ κ) (thread : Thread) (session : Nat) : State σ κ :=
  (s.endSession session).note thread (.stopped (s.dispatchedBy session))

/-- A turn of a worker: it takes all that is due, and then waits, or exits if it was asked to.  A
failure of a handler, or of the wait, ends it. -/
def turnWith (s : State σ κ) (session : Nat)
    (drain : State σ κ → Outcome (State σ κ) Nat) : Outcome (State σ κ) Unit :=
  ((drain s.enter).onState leave).attempt fun result s =>
    match result with
    | .error e => .ok () (s.killWorker session e)
    | .ok _ =>
      if s.isStopping session then .ok () (s.exitWorker session)
      else
        match s.settings.checkWait with
        | .error e => .ok () (s.killWorker session e)
        | .ok () => .ok () s

/-- A turn keeps its failure to itself. -/
theorem turnWith_ne_failed {s t : State σ κ} {session : Nat}
    {drain : State σ κ → Outcome (State σ κ) Nat} {e : Failure} :
    s.turnWith session drain ≠ .failed e t := by
  unfold turnWith
  cases drain s.enter with
  | ok n u =>
    simp only [Outcome.onState, Outcome.attempt]
    split
    · nofun
    · split
      · nofun
      · nofun
  | _ => nofun

/-- Stops a session.  The session is over whatever comes of it. -/
def stopWith (s : State σ κ) (thread : Thread) (session : Nat)
    (turn : State σ κ → Outcome (State σ κ) Unit) : Outcome (State σ κ) Reply :=
  let s := s.requestStop session
  if thread = .worker session then .failed .joinSelf (s.endSession session)
  else
    let last : Outcome (State σ κ) Unit :=
      if s.isLive session then if s.depth = 0 then turn s else .deadlock else .ok () s
    last.bind fun _ s =>
      let s := s.closeSession thread session
      .ofResult (s.stopResult session) s

end State

/-- What a looper does about a request: most are answered at once, the others take time. -/
inductive Response (σ κ : Type)
  | reply (result : Except Failure Reply) (s : State σ κ)
  /-- All due messages are to be delivered. -/
  | deliverAll
  /-- The next message is to be delivered, if it is due. -/
  | deliverNext
  /-- A session is to be stopped. -/
  | stop (session : Nat)
  /-- A receiver is to be called with a tag. -/
  | call (target : Target) (tag : Value)

/-- An answer that changes the state, or a refusal that leaves it alone. -/
def Response.ofExcept (s : State σ κ) : Except Failure (Reply × State σ κ) → Response σ κ
  | .ok (answer, s) => .reply (.ok answer) s
  | .error e => .reply (.error e) s

theorem Response.ofExcept_map {α : Type} {s s' : State σ κ} {o : Except Failure (α × State σ κ)}
    {f : α → Reply} {result : Except Failure Reply}
    (h : ofExcept s (o.map fun (a, s) => (f a, s)) = .reply result s') :
    (∃ e, o = .error e ∧ result = .error e ∧ s' = s) ∨
      ∃ a, o = .ok (a, s') ∧ result = .ok (f a) := by
  cases o with
  | error e =>
    simp only [Except.map, ofExcept, Response.reply.injEq] at h
    obtain ⟨rfl, rfl⟩ := h
    exact Or.inl ⟨e, rfl, rfl, rfl⟩
  | ok queued =>
    obtain ⟨a, s''⟩ := queued
    simp only [Except.map, ofExcept, Response.reply.injEq] at h
    obtain ⟨rfl, rfl⟩ := h
    exact Or.inr ⟨a, rfl, rfl⟩

def State.respond (s : State σ κ) (w : World σ κ) (thread : Thread) : Request κ → Response σ κ
  | .enqueue tag delay target callback =>
    .ofExcept s ((s.enqueue tag delay target callback).map fun (r, s) => (.receipt r, s))
  | .enqueueAt tag due target callback =>
    .ofExcept s ((s.enqueueAt tag due target callback).map fun (r, s) => (.receipt r, s))
  | .has tag target => .reply (.ok (.flag (s.queue.hasTag tag target))) s
  | .remove tag target => .reply (.ok (.count (s.remove tag target).1)) (s.remove tag target).2
  | .advance amount =>
    .reply (s.move w.strictLog thread amount).1 (s.move w.strictLog thread amount).2
  | .dispatchAll => if s.running then .reply (.error (.busy "dispatch_all")) s else .deliverAll
  | .dispatchNext => if s.running then .reply (.error (.busy "dispatch_next")) s else .deliverNext
  | .start =>
    if s.running then .reply (.error .alreadyRunning) s
    else .reply (.ok .nothing) (s.beginSession thread)
  | .stop =>
    match s.session with
    | none => .reply (.error .notRunning) s
    | some session => .stop session
  | .handle target tag => .call target tag
  | .records target used =>
    if w.records target then .reply (.ok (.records (s.recordsOf target))) s
    else .reply (.error (.noRecords used)) s
  | .reset target =>
    if w.records target then .reply (.ok .nothing) (s.reset target)
    else .reply (.error (.noRecords "reset")) s

def perform (w : World σ κ) :
    (bound : Nat) → Thread → Request κ → State σ κ → Outcome (State σ κ) Reply
  | 0, _, _, _ => .unfinished
  | bound + 1, thread, r, s =>
    let deliverOn (thread : Thread) := w.deliver (perform w bound thread) thread
    match s.respond w thread r with
    | .reply result s => .ofResult result s
    | .deliverAll =>
      (State.closeDispatch (drainWith thread id (deliverOn thread) bound s.enter)).bind
        fun n s => .ok (.count n) (s.note thread (.delivered n))
    | .deliverNext =>
      match s.take? thread with
      | none => .ok (.flag false) s
      | some (m, s) =>
        (State.closeDispatch ((deliverOn thread m s.enter).map fun _ => 1)).map
          fun _ => .flag true
    | .stop session =>
      s.stopWith thread session fun s => s.turnWith session
        (drainWith (.worker session) (·.countFor session) (deliverOn (.worker session)) bound)
    | .call target tag =>
      ((w.program (.receiver target tag)).run (perform w bound thread) thread
        (w.atCall thread (.receiver target tag)
          (s.recordHistory (.handed target tag s.clock.now)))).map fun _ => .nothing

def turn (w : World σ κ) (bound session : Nat) (s : State σ κ) : Outcome (State σ κ) Unit :=
  s.turnWith session
    (drainWith (.worker session) (·.countFor session)
      (w.deliver (perform w bound (.worker session)) (.worker session)) bound)

/-- Gives a turn to each live worker, from the given session on.  A turn may begin a session, whose
worker then has its turn too. -/
def settleFrom (w : World σ κ) : (bound session : Nat) → State σ κ → Outcome (State σ κ) Unit
  | 0, _, _ => .unfinished
  | bound + 1, session, s =>
    match s.worker? session with
    | none => .ok () s
    | some worker =>
      (if worker.isLive then turn w bound session s else .ok () s).bind fun _ s =>
        settleFrom w bound (session + 1) s

/-- Lets all workers come to rest: afterwards each waits with nothing due, or is gone. -/
def settle (w : World σ κ) (bound : Nat) (s : State σ κ) : Outcome (State σ κ) Unit :=
  settleFrom w bound 0 s

/-- What a failure of the stop at the end of a block leaves the block as: the end of an iteration is
replaced, since a block is itself a step of an iteration. -/
def leaving (e : Failure) : Failure := if e.errorClass = .endOfIteration then .strayEnd else e

/-- Leaves a block of auto-dispatch in which the body came to the given end: the session is stopped.
A misuse that the stop reports is only logged if the body has failed, so that the failure of the
body is what leaves the block. -/
def leaveBlock (w : World σ κ) (bound : Nat) (thread : Thread) (body : Except Failure Unit)
    (s : State σ κ) : Outcome (State σ κ) Unit :=
  (perform w bound thread .stop s).attempt fun stopped s =>
    match body, stopped with
    | .ok (), .ok _ => .ok () s
    | .ok (), .error e => .failed (leaving e) s
    | .error e, .ok _ => .failed e s
    | .error e, .error e' =>
      if e'.isMisuse then .failed e (s.note thread (.suppressed e')) else .failed (leaving e') s

/-- Runs a body with auto-dispatch on.  The body reports how it ended, besides a result of its own.
The block ends with what leaves it and, unless it was refused because a session was going on
already, with the body's result and the number of the session that it began. -/
def autoBlock {β : Type} (w : World σ κ) (bound : Nat) (thread : Thread)
    (body : State σ κ → Outcome (State σ κ) (β × Except Failure Unit)) (s : State σ κ) :
    Outcome (State σ κ) (Except Failure Unit × Option (β × Nat)) :=
  let session := s.workers.length
  (perform w bound thread .start s).attempt fun started s =>
    match started with
    | .error e => .ok (.error e, none) s
    | .ok _ =>
      (body s).bind fun (b, ended) s =>
        (leaveBlock w bound thread ended s).attempt fun left s => .ok (left, some (b, session)) s

end VirtualLooper
