import VirtualLooper.Looper.Run

/-! # Threads side by side

`perform` lets a thread run until it has its answer, and workers only have turns between.  Here the
threads of a looper run side by side: a machine holds what each of them is about to do, and `step`
lets one of them take its next step, whichever that is.  A step is what a looper does at once about
a request, the taking of one message, or the beginning of one call.  Messages are taken by one thread
at a time, the dispatcher, which lets no other in until all of its loops are over.

The beginning of a call is coarser than the others: a receiver that records looks at the clock and
adds its record in the same step.  Whatever another thread could do in between (hand the receiver a
tag, move the clock, make it forget) comes before that step or after it, so the order and the times
of records are told for runs in which no call is interrupted there.
-/

namespace VirtualLooper

variable {σ κ : Type}

/-- A loop that takes due messages and delivers them. -/
inductive Loop (σ κ : Type)
  /-- Delivers all that is due, for the program that goes on with the answer; so many messages have
  been taken. -/
  | all (count : Nat) (next : Except Failure Reply → Program σ κ Unit)
  /-- Delivers the next message, for the program that goes on with the answer. -/
  | one (next : Except Failure Reply → Program σ κ Unit)
  /-- A worker delivers all that is due; this is its last time once it has seen that it is to
  stop. -/
  | worker (session : Nat) (last : Bool)

namespace Loop

def counted : Loop σ κ → Loop σ κ
  | all count next => all (count + 1) next
  | loop => loop

def tally : Loop σ κ → State σ κ → State σ κ
  | worker session _, s => s.countFor session
  | _, s => s

end Loop

/-- Why a program runs: for a message that a loop is delivering, or because the program below has
handed a tag to a receiver. -/
inductive Caller (σ κ : Type)
  | delivery (m : Message κ) (loop : Loop σ κ)
  | handling (target : Target) (tag : Value) (next : Except Failure Reply → Program σ κ Unit)

/-- What a thread is about to do. -/
inductive Control (σ κ : Type)
  | run (p : Program σ κ Unit)
  /-- Wait until it may take messages. -/
  | acquire (loop : Loop σ κ)
  | take (loop : Loop σ κ)
  /-- Deliver a message that it has taken. -/
  | deliver (m : Message κ) (loop : Loop σ κ)
  /-- Look, as a worker that has found nothing due, whether it is to stop, and wait if not. -/
  | wait (session : Nat)
  /-- Ask a worker to stop. -/
  | halt (session : Nat) (next : Except Failure Reply → Program σ κ Unit)
  /-- Wait until a worker is gone. -/
  | join (session : Nat) (next : Except Failure Reply → Program σ κ Unit)
  | ended (result : Except Failure Unit)

/-- What a thread is about to do, and what it will come back to, innermost first. -/
structure Task (σ κ : Type) where
  control : Control σ κ
  callers : List (Caller σ κ)

/-- A request that was answered, and the time then. -/
structure Exchange (κ : Type) where
  thread : Thread
  request : Request κ
  result : Except Failure Reply
  time : Int

/-- A looper and its threads. -/
structure Machine (σ κ : Type) where
  state : State σ κ
  tasks : Thread → Task σ κ
  /-- The thread that takes messages, if one does. -/
  dispatcher : Option Thread
  exchanges : List (Exchange κ)

def State.hasThread (s : State σ κ) : Thread → Bool
  | .main => true
  | .worker session => session < s.workers.length

theorem State.Ages.hasThread {s s' : State σ κ} (h : s.Ages s') {thread : Thread}
    (hThread : s.hasThread thread = true) : s'.hasThread thread = true := by
  cases thread with
  | main => rfl
  | worker session =>
    have hLt : session < s.workers.length := by simpa [State.hasThread] using hThread
    obtain ⟨v, hv, -⟩ := h session s.workers[session] (List.getElem?_eq_getElem hLt)
    have hLt' : session < s'.workers.length := (List.getElem?_eq_some_iff.1 hv).1
    simpa [State.hasThread] using hLt'

namespace Machine

/-- The main thread is about to run a program; workers are about to take messages, once they have
begun. -/
def start (s : State σ κ) (p : Program σ κ Unit) : Machine σ κ where
  state := s
  tasks
    | .main => ⟨.run p, []⟩
    | .worker session => ⟨.acquire (.worker session false), []⟩
  dispatcher := none
  exchanges := []

def put (M : Machine σ κ) (thread : Thread) (t : Task σ κ) (s : State σ κ) : Machine σ κ :=
  { M with state := s, tasks := fun other => if other = thread then t else M.tasks other }

def answer (M : Machine σ κ) (thread : Thread) (r : Request κ) (result : Except Failure Reply)
    (next : Except Failure Reply → Program σ κ Unit) (callers : List (Caller σ κ))
    (s : State σ κ) : Machine σ κ :=
  { M.put thread ⟨.run (next result), callers⟩ s with
    exchanges := M.exchanges ++ [⟨thread, r, result, s.clock.now⟩] }

/-- The dispatcher leaves a loop; other threads may take messages after its last one. -/
def release (M : Machine σ κ) : Machine σ κ :=
  { M with
    state := M.state.leave
    dispatcher := if M.state.leave.depth = 0 then none else M.dispatcher }

def exhausted (M : Machine σ κ) (thread : Thread) (callers : List (Caller σ κ)) :
    Loop σ κ → Machine σ κ
  | .all count next =>
    let M := M.release
    M.answer thread .dispatchAll (.ok (.count count)) next callers
      ((M.state.recordHistory (.returned count)).note thread (.delivered count))
  | .one next =>
    let M := M.release
    M.answer thread .dispatchNext (.ok (.flag false)) next callers M.state
  | .worker session false =>
    let M := M.release
    M.put thread ⟨.wait session, callers⟩ M.state
  | .worker session true =>
    let M := M.release
    M.put thread ⟨.ended (.ok ()), callers⟩ (M.state.exitWorker session)

def delivered (M : Machine σ κ) (thread : Thread) (callers : List (Caller σ κ)) :
    Loop σ κ → Machine σ κ
  | .one next =>
    let M := M.release
    M.answer thread .dispatchNext (.ok (.flag true)) next callers
      (M.state.recordHistory (.returned 1))
  | loop => M.put thread ⟨.take loop, callers⟩ M.state

def aborted (M : Machine σ κ) (thread : Thread) (e : Failure) (callers : List (Caller σ κ)) :
    Loop σ κ → Machine σ κ
  | .all _ next =>
    let M := M.release
    M.answer thread .dispatchAll (.error e) next callers (M.state.recordHistory .aborted)
  | .one next =>
    let M := M.release
    M.answer thread .dispatchNext (.error e) next callers (M.state.recordHistory .aborted)
  | .worker session _ =>
    let M := M.release
    M.put thread ⟨.ended (.error e), callers⟩ (M.state.killWorker session e)

def finished (M : Machine σ κ) (thread : Thread) (result : Except Failure Unit) :
    List (Caller σ κ) → Machine σ κ
  | [] => M.put thread ⟨.ended result, []⟩ M.state
  | .handling target tag next :: callers =>
    M.answer thread (.handle target tag) (result.map fun _ => .nothing) next callers M.state
  | .delivery _ loop :: callers =>
    match result with
    | .ok _ => M.delivered thread callers loop
    | .error e => M.aborted thread e callers loop

def ask (M : Machine σ κ) (w : World σ κ) (thread : Thread) (r : Request κ)
    (next : Except Failure Reply → Program σ κ Unit) (callers : List (Caller σ κ)) :
    Machine σ κ :=
  let s := M.state
  match s.respond w thread r with
  | .reply result s => M.answer thread r result next callers s
  | .deliverAll => M.put thread ⟨.acquire (.all 0 next), callers⟩ s
  | .deliverNext => M.put thread ⟨.acquire (.one next), callers⟩ s
  | .stop session => M.put thread ⟨.halt session next, callers⟩ s
  | .call target tag =>
    M.put thread ⟨.run (w.program (.receiver target tag)), .handling target tag next :: callers⟩
      (w.atCall thread (.receiver target tag) (s.recordHistory (.handed target tag s.clock.now)))

def proceed (M : Machine σ κ) (w : World σ κ) (thread : Thread) (callers : List (Caller σ κ)) :
    Program σ κ Unit → Machine σ κ
  | .done _ => M.finished thread (.ok ()) callers
  | .fail e => M.finished thread (.error e) callers
  | .load next => M.put thread ⟨.run (next M.state.memory), callers⟩ M.state
  | .store memory next => M.put thread ⟨.run next, callers⟩ { M.state with memory }
  | .look next => M.put thread ⟨.run (next (M.state.sight thread)), callers⟩ M.state
  | .ask r next => M.ask w thread r next callers

/-- A worker that has found nothing due goes on for the last time if it is to stop, and waits if
nothing has become due since. -/
def idle (M : Machine σ κ) (thread : Thread) (callers : List (Caller σ κ)) (session : Nat) :
    Machine σ κ :=
  let s := M.state
  if s.isStopping session then M.put thread ⟨.acquire (.worker session true), callers⟩ s
  else if s.queue.hasDueAt s.clock.now then
    M.put thread ⟨.acquire (.worker session false), callers⟩ s
  else
    match s.settings.checkWait with
    | .error e => M.put thread ⟨.ended (.error e), callers⟩ (s.killWorker session e)
    | .ok () => M.put thread ⟨.acquire (.worker session false), callers⟩ s

/-- The next step of a thread; none if it has to wait for another thread, or is over. -/
def step (w : World σ κ) (thread : Thread) (M : Machine σ κ) : Option (Machine σ κ) :=
  let s := M.state
  let callers := (M.tasks thread).callers
  if s.hasThread thread then
    match (M.tasks thread).control with
    | .run p => some (M.proceed w thread callers p)
    | .acquire loop =>
      if M.dispatcher = none ∨ M.dispatcher = some thread then
        some { M.put thread ⟨.take loop, callers⟩ s.enter with dispatcher := some thread }
      else none
    | .take loop =>
      match s.take? thread with
      | some (m, s) => some (M.put thread ⟨.deliver m loop.counted, callers⟩ (loop.tally s))
      | none => some (M.exhausted thread callers loop)
    | .deliver m loop =>
      some (M.put thread ⟨.run (w.delivery m), .delivery m loop :: callers⟩
        (w.atDelivery thread m s))
    | .wait session => some (M.idle thread callers session)
    | .halt session next =>
      some (M.put thread ⟨.join session next, callers⟩ (s.requestStop session))
    | .join session next =>
      if thread = .worker session then
        some (M.answer thread .stop (.error .joinSelf) next callers (s.endSession session))
      else if s.isLive session then none
      else
        let s := s.closeSession thread session
        some (M.answer thread .stop (s.stopResult session) next callers s)
    | .ended _ => none
  else none

theorem hasThread_of_step {w : World σ κ} {thread : Thread} {M M' : Machine σ κ}
    (h : M.step w thread = some M') : M.state.hasThread thread = true := by
  unfold step at h
  simp only at h
  split at h
  · assumption
  · cases h

/-- Lets threads take their steps in the given order; none if one of them cannot. -/
def follow (w : World σ κ) : List Thread → Machine σ κ → Option (Machine σ κ)
  | [], M => some M
  | thread :: schedule, M => (M.step w thread).bind (follow w schedule)

/-- A new looper, after its threads have taken the given steps. -/
def after (w : World σ κ) (settings : Settings) (fallback : Option Target) (memory : σ)
    (p : Program σ κ Unit) (schedule : List Thread) : Option (Machine σ κ) :=
  match State.make settings fallback memory with
  | .ok s => (start s p).follow w schedule
  | .error _ => none

/-- The machines that a looper and its threads may come to, whatever the order of steps. -/
inductive Reachable (w : World σ κ) : Machine σ κ → Prop
  | start {settings : Settings} {fallback : Option Target} {memory : σ} {s : State σ κ}
      (h : State.make settings fallback memory = .ok s) (p : Program σ κ Unit) :
      Reachable w (start s p)
  | step {M M' : Machine σ κ} (thread : Thread) (prior : Reachable w M)
      (h : M.step w thread = some M') : Reachable w M'

namespace Reachable

variable {w : World σ κ} {M M' : Machine σ κ}

theorem follow (h : Reachable w M) {schedule : List Thread}
    (hFollow : M.follow w schedule = some M') : Reachable w M' := by
  induction schedule generalizing M with
  | nil =>
    obtain rfl := Option.some.inj hFollow
    exact h
  | cons thread schedule ih =>
    obtain ⟨next, hStep, hRest⟩ := Option.bind_eq_some_iff.1 hFollow
    exact ih (h.step thread hStep) hRest

end Reachable

theorem reachable_of_after {w : World σ κ} {settings : Settings} {fallback : Option Target}
    {memory : σ} {p : Program σ κ Unit} {schedule : List Thread} {M : Machine σ κ}
    (h : after w settings fallback memory p schedule = some M) : Reachable w M := by
  unfold after at h
  cases hMake : State.make settings fallback memory with
  | error e =>
    rw [hMake] at h
    cases h
  | ok s =>
    rw [hMake] at h
    exact (Reachable.start hMake p).follow h

end Machine

/-! ### A small run -/

def World.flaky : World Unit Bool where
  receive _ _ := .done ()
  invoke fails := if fails then .fail .noReceiver else .done ()
  records _ := false

/-- Three messages are queued, the first of them for later; then all that is due is delivered. -/
def Program.threeMessages (fails : Bool) : Program Unit Bool Unit :=
  .ask (.enqueueAt (.str "late") (.int 1) none (some fails)) fun _ =>
    .ask (.enqueueAt (.str "early") (.int 0) none (some fails)) fun _ =>
      .ask (.enqueueAt (.str "early") (.int 0) none (some fails)) fun _ =>
        .ask .dispatchAll fun _ => .done ()

end VirtualLooper
