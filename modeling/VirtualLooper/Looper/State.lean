import VirtualLooper.Looper.Program
import VirtualLooper.Queue
import VirtualLooper.Settings

/-! # The state of a looper

A looper holds a clock, a queue and the workers of its sessions of auto-dispatch.  At most one
session is going on at a time; a worker that was told to stop from its own thread outlives its
session for a while.

The state also keeps what recording receivers have received, the notices that were logged, and the
history of all messages, which is what the laws of delivery speak about.
-/

namespace VirtualLooper

/-- How far a worker has come. -/
inductive Phase
  | live
  | exited
  | died (e : Failure)

/-- The worker of one session. -/
structure Worker where
  /-- The number of messages that the worker has taken. -/
  dispatched : Nat
  stopRequested : Bool
  phase : Phase

namespace Worker

def fresh : Worker := ⟨0, false, .live⟩

def error? (w : Worker) : Option Failure :=
  match w.phase with
  | .died e => some e
  | _ => none

def isLive (w : Worker) : Bool :=
  match w.phase with
  | .live => true
  | _ => false

/-- A worker that was asked to stop stays so, and one that is gone stays gone. -/
structure Ages (u v : Worker) : Prop where
  stopRequested : u.stopRequested = true → v.stopRequested = true
  isLive : u.isLive = false → v.isLive = false

theorem Ages.refl (u : Worker) : Ages u u := ⟨id, id⟩

theorem Ages.trans {u v w : Worker} (h : Ages u v) (h' : Ages v w) : Ages u w :=
  ⟨h'.stopRequested ∘ h.stopRequested, h'.isLive ∘ h.isLive⟩

end Worker

inductive Level
  | debug | warning | error
  deriving DecidableEq, Repr

def Level.name : Level → String
  | debug => "DEBUG"
  | warning => "WARNING"
  | error => "ERROR"

/-- What gets logged. -/
inductive Notice
  | moved (amount now : Int)
  | delivered (count : Nat)
  | started
  | stopped (count : Nat)
  | handlerError
  | exiting (count : Nat)
  | suppressed (e : Failure)
  | misuseInStep (index : Nat) (action : Value)
  | errorInStep (index : Nat) (action : Value)
  | unknownAction (action : Value)
  | leftRunning (e : Failure)

namespace Notice

def level : Notice → Level
  | handlerError | misuseInStep .. | errorInStep .. => .error
  | unknownAction _ | leftRunning _ => .warning
  | _ => .debug

def text : Notice → Text
  | moved amount now =>
    "Virtual time moved forward by " ++ toString amount ++ " to " ++ toString now
  | delivered count => "dispatch_all delivered " ++ toString count ++ " message(s)"
  | started => "Auto-dispatch started"
  | stopped count => "Auto-dispatch stopped after " ++ toString count ++ " message(s)"
  | handlerError => "Auto-dispatch stopped by handler error"
  | exiting count => "Auto-dispatch thread exiting after " ++ toString count ++ " message(s)"
  | suppressed e => "Suppressed " ++ e.message ++ " while unwinding auto-dispatch"
  | misuseInStep index action =>
    "Usage error in step " ++ toString index ++ " (" ++ action.shown ++ ")"
  | errorInStep index action =>
    "Error in step " ++ toString index ++ " (" ++ action.shown ++ ")"
  | unknownAction action => "Unknown action: " ++ action.shown
  | leftRunning e => "Auto-dispatch left running at end of scenario: " ++ e.message

/-- Are all integers that the text of a notice shows short enough to be written? -/
def isWritable : Notice → Bool
  | moved amount now => Value.isShort amount && Value.isShort now
  | misuseInStep _ action | errorInStep _ action | unknownAction action => action.isWritable
  | _ => true

def line (n : Notice) : Text := n.level.name ++ " " ++ n.text

end Notice

/-- Something that happened to messages, or to those who deliver them. -/
inductive Occurrence (κ : Type)
  /-- A message was queued, at a time. -/
  | accepted (m : Message κ) (time : Int)
  | removed (ms : List (Message κ))
  /-- A message was taken for delivery, at a time and on a thread. -/
  | taken (m : Message κ) (time : Int) (thread : Thread)
  /-- The delivery of a message made its call, on a thread. -/
  | called (m : Message κ) (call : Option (Call κ)) (thread : Thread)
  /-- A receiver was handed a tag past the queue. -/
  | handed (target : Target) (tag : Value) (time : Int)
  /-- A receiver forgot what it had received. -/
  | forgotten (target : Target)
  /-- A synchronous dispatch was over, after it had itself taken so many messages. -/
  | returned (count : Nat)
  /-- A synchronous dispatch was ended by a failure. -/
  | aborted
  /-- A session was over, whatever became of its worker. -/
  | ended (session : Nat)

/-- A message that was taken: its tag and its number, when it was due, when it was taken, and on
which thread. -/
structure Taking where
  tag : Value
  seq : Nat
  due : Int
  time : Int
  thread : Thread

def Occurrence.taking? {κ : Type} : Occurrence κ → Option Taking
  | .taken m time thread => some ⟨m.tag, m.seq, m.due, time, thread⟩
  | _ => none

/-- A looper, with the memory of its handlers. -/
structure State (σ κ : Type) where
  settings : Settings
  /-- Who receives messages that were queued without a target. -/
  fallback : Option Target
  clock : Clock
  queue : Queue κ
  /-- The workers of all sessions so far, oldest first. -/
  workers : List Worker
  /-- The number of the session that is going on. -/
  session : Option Nat
  /-- How many dispatches are going on inside one another. -/
  depth : Nat
  records : List Record
  log : List (Thread × Notice)
  history : List (Occurrence κ)
  memory : σ

namespace State

variable {σ κ : Type}

def make (settings : Settings) (fallback : Option Target) (memory : σ) :
    Except Failure (State σ κ) :=
  (Clock.start settings.startTime).map fun clock =>
    { settings, fallback, clock, queue := .empty, workers := [], session := none, depth := 0,
      records := [], log := [], history := [], memory }

theorem spec_of_make {settings : Settings} {fallback : Option Target} {memory : σ}
    {s : State σ κ} (h : make settings fallback memory = .ok s) :
    ∃ clock, s =
      { settings, fallback, clock, queue := .empty, workers := [], session := none, depth := 0,
        records := [], log := [], history := [], memory } := by
  unfold make at h
  cases hClock : Clock.start settings.startTime with
  | error e => simp [hClock, Except.map] at h
  | ok clock =>
    simp only [hClock, Except.map, Except.ok.injEq] at h
    exact ⟨clock, h.symm⟩

def note (s : State σ κ) (thread : Thread) (n : Notice) : State σ κ :=
  { s with log := s.log ++ [(thread, n)] }

/-- Logs a notice whose text may be one that cannot be written.  A strict log lets out that it
cannot; any other keeps that to itself. -/
def write (s : State σ κ) (strict : Bool) (thread : Thread) (n : Notice) :
    Except Failure (State σ κ) :=
  if strict && !n.isWritable then .error .tooLongToWrite else .ok (s.note thread n)

theorem write_eq (s : State σ κ) (strict : Bool) (thread : Thread) (n : Notice) :
    s.write strict thread n = .ok (s.note thread n) ∨
      s.write strict thread n = .error .tooLongToWrite ∧ strict = true ∧ n.isWritable = false := by
  cases strict <;> cases hWritable : n.isWritable <;> simp [write, hWritable]

def recordHistory (s : State σ κ) (o : Occurrence κ) : State σ κ :=
  { s with history := s.history ++ [o] }

def takings (s : State σ κ) : List Taking := s.history.filterMap Occurrence.taking?

def running (s : State σ κ) : Bool := s.session.isSome

def sight (s : State σ κ) (thread : Thread) : Sight where
  now := s.clock.now
  pending := s.queue.size
  nextDue := s.queue.nextDue?
  isIdle := !s.queue.hasDueAt s.clock.now
  running := s.running
  thread := thread

/-! ### Queueing -/

/-- Who is to receive a message, if anybody; a message needs a target or a callback. -/
def resolve (s : State σ κ) (target : Option Target) (callback : Option κ) :
    Except Failure (Option Target) :=
  match target.or s.fallback, callback with
  | none, none => .error .noReceiver
  | t, _ => .ok t

def accept (s : State σ κ) (m : Message κ) (q : Queue κ) : State σ κ :=
  { s with queue := q }.recordHistory (.accepted m s.clock.now)

def enqueue (s : State σ κ) (tag delay : Value) (target : Option Target) (callback : Option κ) :
    Except Failure (Receipt × State σ κ) := do
  let target ← s.resolve target callback
  let (m, q) ← s.queue.enqueue tag delay (.int s.clock.now) target callback
  return (m.receipt, s.accept m q)

def enqueueAt (s : State σ κ) (tag due : Value) (target : Option Target) (callback : Option κ) :
    Except Failure (Receipt × State σ κ) := do
  let target ← s.resolve target callback
  let (m, q) ← s.queue.enqueueAt tag due target callback
  return (m.receipt, s.accept m q)

theorem isSome_call?_of_resolve {s : State σ κ} {target found : Option Target}
    {callback : Option κ} (h : s.resolve target callback = .ok found) {m : Message κ}
    (hTarget : m.target = found) (hCallback : m.callback = callback) : m.call?.isSome = true := by
  rw [Message.call?, hTarget, hCallback]
  cases callback with
  | some c => rfl
  | none =>
    cases hFound : target.or s.fallback with
    | none => simp [resolve, hFound] at h
    | some t =>
      simp only [resolve, hFound, Except.ok.injEq] at h
      subst h
      rfl

/-- An absolute send that is not refused adds the message that it is told of. -/
theorem spec_of_enqueueAt {s s' : State σ κ} {tag due : Value} {target : Option Target}
    {callback : Option κ} {r : Receipt}
    (h : s.enqueueAt tag due target callback = .ok (r, s')) :
    ∃ (m : Message κ) (hm : m.seq = s.queue.accepted), m.call?.isSome = true ∧
      due = .int m.due ∧ m.tag = tag ∧ m.callback = callback ∧ r = m.receipt ∧
      s' = s.accept m (s.queue.add m hm) := by
  rw [enqueueAt] at h
  cases hFound : s.resolve target callback with
  | error e => simp [hFound, bind, Except.bind] at h
  | ok found =>
    cases hQueued : s.queue.enqueueAt tag due found callback with
    | error e => simp [hFound, hQueued, bind, Except.bind] at h
    | ok queued =>
      obtain ⟨m, q⟩ := queued
      simp only [hFound, hQueued, bind, Except.bind, pure, Except.pure, Except.ok.injEq,
        Prod.mk.injEq] at h
      obtain ⟨rfl, rfl⟩ := h
      obtain ⟨hDue, hTag, hTarget, hCallback, hm, rfl⟩ := Queue.spec_of_enqueueAt hQueued
      exact ⟨m, hm, isSome_call?_of_resolve hFound hTarget hCallback, hDue, hTag, hCallback, rfl,
        rfl⟩

/-- A delayed send that is not refused is an absolute send, for a time that is not before now. -/
theorem enqueueAt_of_enqueue {s s' : State σ κ} {tag delay : Value} {target : Option Target}
    {callback : Option κ} {r : Receipt}
    (h : s.enqueue tag delay target callback = .ok (r, s')) :
    ∃ n : Int, delay = .int n ∧ 0 ≤ n ∧
      s.enqueueAt tag (.int (s.clock.now + n)) target callback = .ok (r, s') := by
  rw [enqueue] at h
  cases hFound : s.resolve target callback with
  | error e => simp [hFound, bind, Except.bind] at h
  | ok found =>
    cases hQueued : s.queue.enqueue tag delay (.int s.clock.now) found callback with
    | error e => simp [hFound, hQueued, bind, Except.bind] at h
    | ok queued =>
      obtain ⟨m, q⟩ := queued
      obtain ⟨n, rfl, hPos⟩ := Queue.delay_of_enqueue hQueued
      refine ⟨n, rfl, hPos, ?_⟩
      rw [hFound] at h
      simp only [bind, Except.bind] at h
      rw [Queue.enqueue_int _ _ hPos] at h
      rw [enqueueAt, hFound]
      exact h

/-- A delayed send that is accepted adds a message that is not due before now. -/
theorem spec_of_enqueue {s s' : State σ κ} {tag delay : Value} {target : Option Target}
    {callback : Option κ} {r : Receipt}
    (h : s.enqueue tag delay target callback = .ok (r, s')) :
    ∃ (m : Message κ) (hm : m.seq = s.queue.accepted), m.call?.isSome = true ∧
      s.clock.now ≤ m.due ∧ m.tag = tag ∧ m.callback = callback ∧ r = m.receipt ∧
      s' = s.accept m (s.queue.add m hm) := by
  obtain ⟨n, -, hPos, hAt⟩ := enqueueAt_of_enqueue h
  obtain ⟨m, hm, hCall, hDue, hTag, hCallback, hr, hs⟩ := spec_of_enqueueAt hAt
  have hDue : s.clock.now + n = m.due := by simpa using hDue
  exact ⟨m, hm, hCall, by omega, hTag, hCallback, hr, hs⟩

def remove (s : State σ κ) (tag : Value) (target : Option Target) : Nat × State σ κ :=
  let dropped := s.queue.pending.filter fun m => m.hasTag tag target
  let (n, q) := s.queue.removeTag tag target
  (n, { s with queue := q }.recordHistory (.removed dropped))

def advance (s : State σ κ) (amount : Value) : Except Failure (State σ κ) :=
  (s.clock.advance amount).map fun clock => { s with clock }

theorem spec_of_advance {s s' : State σ κ} {amount : Value} (h : s.advance amount = .ok s') :
    ∃ n : Int, 0 ≤ n ∧ amount = .int n ∧ s' = { s with clock := ⟨s.clock.now + n⟩ } := by
  unfold advance at h
  cases hMoved : s.clock.advance amount with
  | error e => simp [hMoved, Except.map] at h
  | ok clock =>
    obtain ⟨n, hPos, hAmount, hNow⟩ := Clock.spec_of_advance hMoved
    simp only [hMoved, Except.map, Except.ok.injEq] at h
    exact ⟨n, hPos, hAmount, by rw [← h, ← hNow]⟩

def take? (s : State σ κ) (thread : Thread) : Option (Message κ × State σ κ) :=
  (s.queue.popAt? s.clock.now).map fun (m, q) =>
    (m, { s with queue := q }.recordHistory (.taken m s.clock.now thread))

theorem spec_of_take {s s' : State σ κ} {thread : Thread} {m : Message κ}
    (h : s.take? thread = some (m, s')) :
    ∃ q, s.queue.popAt? s.clock.now = some (m, q) ∧
      s' = { s with queue := q }.recordHistory (.taken m s.clock.now thread) := by
  rw [take?, Option.map_eq_some_iff] at h
  obtain ⟨⟨m', q⟩, hPop, hTaken⟩ := h
  obtain ⟨rfl, rfl⟩ := Prod.mk.inj hTaken
  exact ⟨q, hPop, rfl⟩

theorem take?_eq_none_iff {s : State σ κ} {thread : Thread} :
    s.take? thread = none ↔ ∀ m ∈ s.queue.pending, s.clock.now < m.due := by
  rw [take?, Option.map_eq_none_iff, Queue.popAt?_eq_none_iff]

theorem isSome_take? (s : State σ κ) (thread : Thread) :
    (s.take? thread).isSome = s.queue.hasDueAt s.clock.now := by
  rw [take?, Option.isSome_map, Queue.hasDueAt_eq]

/-! ### Receivers -/

def record (s : State σ κ) (target : Target) (tag : Value) (thread : Thread) : State σ κ :=
  { s with records := s.records ++ [⟨target, tag, s.clock.now, thread⟩] }

def recordsOf (s : State σ κ) (target : Target) : List Record := Record.of target s.records

def reset (s : State σ κ) (target : Target) : State σ κ :=
  { s with records := s.records.filter fun r => r.target ≠ target }.recordHistory
    (.forgotten target)

/-! ### Sessions -/

def worker? (s : State σ κ) (session : Nat) : Option Worker := s.workers[session]?

def updateWorker (s : State σ κ) (session : Nat) (f : Worker → Worker) : State σ κ :=
  { s with workers := s.workers.modify session f }

def dispatchedBy (s : State σ κ) (session : Nat) : Nat :=
  ((s.worker? session).map (·.dispatched)).getD 0

def countFor (s : State σ κ) (session : Nat) : State σ κ :=
  s.updateWorker session fun w => { w with dispatched := w.dispatched + 1 }

def requestStop (s : State σ κ) (session : Nat) : State σ κ :=
  s.updateWorker session fun w => { w with stopRequested := true }

/-- Begins a session, with a worker that has not done anything yet. -/
def beginSession (s : State σ κ) (thread : Thread) : State σ κ :=
  { s with
    workers := s.workers ++ [Worker.fresh]
    session := some s.workers.length }.note thread .started

/-- Ends the session that is going on, whatever its worker does. -/
def endSession (s : State σ κ) (session : Nat) : State σ κ :=
  { s with session := none }.recordHistory (.ended session)

def exitWorker (s : State σ κ) (session : Nat) : State σ κ :=
  (s.updateWorker session fun w => { w with phase := .exited }).note (.worker session)
    (.exiting (s.dispatchedBy session))

def killWorker (s : State σ κ) (session : Nat) (e : Failure) : State σ κ :=
  ((s.updateWorker session fun w => { w with phase := .died e }).note (.worker session)
    .handlerError).note (.worker session) (.exiting (s.dispatchedBy session))

/-- No worker is lost, and all of them age. -/
def Ages (s s' : State σ κ) : Prop :=
  ∀ session u, s.worker? session = some u → ∃ v, s'.worker? session = some v ∧ u.Ages v

namespace Ages

theorem refl (s : State σ κ) : Ages s s := fun _ u h => ⟨u, h, .refl u⟩

theorem trans {s s' s'' : State σ κ} (h : Ages s s') (h' : Ages s' s'') : Ages s s'' := by
  intro session u hu
  obtain ⟨v, hv, huv⟩ := h session u hu
  obtain ⟨x, hx, hvx⟩ := h' session v hv
  exact ⟨x, hx, huv.trans hvx⟩

theorem updateWorker (s : State σ κ) (session : Nat) {f : Worker → Worker}
    (hf : ∀ u : Worker, u.Ages (f u)) : Ages s (s.updateWorker session f) := by
  intro other u hu
  by_cases hSame : session = other
  · exact ⟨f u, by simp_all [State.updateWorker, worker?], hf u⟩
  · exact ⟨u, by simp_all [State.updateWorker, worker?], .refl u⟩

theorem countFor (s : State σ κ) (session : Nat) : Ages s (s.countFor session) :=
  updateWorker s session fun _ => ⟨id, id⟩

theorem requestStop (s : State σ κ) (session : Nat) : Ages s (s.requestStop session) :=
  updateWorker s session fun _ => ⟨fun _ => rfl, id⟩

theorem exitWorker (s : State σ κ) (session : Nat) : Ages s (s.exitWorker session) :=
  updateWorker s session fun _ => ⟨id, fun _ => rfl⟩

theorem killWorker (s : State σ κ) (session : Nat) (e : Failure) :
    Ages s (s.killWorker session e) :=
  updateWorker s session fun _ => ⟨id, fun _ => rfl⟩

theorem beginSession (s : State σ κ) (thread : Thread) : Ages s (s.beginSession thread) := by
  intro session u hu
  refine ⟨u, ?_, .refl u⟩
  have hLt : session < s.workers.length := (List.getElem?_eq_some_iff.1 hu).1
  exact (List.getElem?_append_left hLt).trans hu

end Ages

def linesOf (s : State σ κ) (main : Bool) : List Text :=
  (s.log.filter fun entry => (entry.1 = .main) = main).map fun entry => entry.2.line

end State

/-- What a thread is called.  A worker without a name of its own gets one from its number among all
threads of the process that were begun without a name. -/
def Settings.nameAmong (s : Settings) (number : Nat → Nat) : Thread → Text
  | .main => "MainThread"
  | .worker session =>
    if s.threadName.truthy then s.threadName.shown else "Thread-" ++ toString (number session)

/-- What a thread is called in a process in which no other threads begin. -/
def Settings.nameOf (s : Settings) : Thread → Text := s.nameAmong (· + 1)

/-- Workers with a name of their own do not depend on other threads. -/
theorem Settings.nameAmong_congr {s : Settings} (h : s.threadName.truthy = true)
    (number number' : Nat → Nat) (thread : Thread) :
    s.nameAmong number thread = s.nameAmong number' thread := by
  cases thread with
  | main => rfl
  | worker session => rw [nameAmong, nameAmong, if_pos h, if_pos h]

/-- The most seconds that fit into a clock that counts nanoseconds in 63 bits. -/
def nanosecondLimit : Nat := Nat.pow 2 63

def nanosecondsPerSecond : Nat := 1000000000

/-- Can a worker wait as long as the settings say?  Nothing stands for a wait without end, and a
wait that is not positive for none at all. -/
def Settings.checkWait (s : Settings) : Except Failure Unit :=
  match s.idleWait with
  | .none => .ok ()
  | .bool _ => .ok ()
  | .int n =>
    if (nanosecondLimit : Int) ≤ n * nanosecondsPerSecond then .error (.waitTooLong .int)
    else .ok ()
  | .float x =>
    match (x.mul (.ofInt nanosecondsPerSecond)).place? with
    | some .above => .error (.waitTooLong .float)
    | some (.at steps) =>
      if (nanosecondLimit * Binary64.stepsPerUnit : Int) ≤ steps then .error (.waitTooLong .float)
      else .ok ()
    | _ => .ok ()
  | v => .error (.cannotCompare ">" v.kind .int)

end VirtualLooper
