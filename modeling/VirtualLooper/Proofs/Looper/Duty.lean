import VirtualLooper.Proofs.Looper.Move

/-!
# What each thread has to do

At the bottom of what a thread will come back to is, on the main thread, its program, and on the
worker of a session, the loop of that worker; all above runs for a handler (`Task.Stands`).  A
handler asks only for what `ok` allows, where `ok` is any bound on what handlers ask for.
-/

namespace VirtualLooper

variable {σ κ : Type}

/-! ### Programs that ask for some things only -/

/-- All that a program may ask for, whatever it is told, is allowed. -/
def Program.Asks (ok : Request κ → Prop) {α : Type} : Program σ κ α → Prop
  | .done _ | .fail _ => True
  | .load next => ∀ memory, (next memory).Asks ok
  | .store _ next => next.Asks ok
  | .look next => ∀ sight, (next sight).Asks ok
  | .ask r next => ok r ∧ ∀ reply, (next reply).Asks ok

/-- What holds of all handlers, and of doing nothing, holds of a delivery. -/
theorem World.delivery_of {w : World σ κ} {holds : Program σ κ Unit → Prop}
    (hReceive : ∀ target tag, holds (w.receive target tag)) (hInvoke : ∀ c, holds (w.invoke c))
    (hDone : holds (.done ())) (m : Message κ) : holds (w.delivery m) := by
  rw [World.delivery]
  cases m.call? with
  | some call =>
    cases call with
    | callback c => exact hInvoke c
    | receiver target tag => exact hReceive target tag
  | none => exact hDone

/-- All that handlers may ask for is allowed. -/
structure World.Asks (w : World σ κ) (ok : Request κ → Prop) : Prop where
  receive : ∀ target tag, (w.receive target tag).Asks ok
  invoke : ∀ c, (w.invoke c).Asks ok

theorem Program.asks_true {α : Type} (p : Program σ κ α) : p.Asks fun _ => True := by
  induction p with
  | done a => exact trivial
  | fail e => exact trivial
  | load next ih => exact ih
  | store memory next ih => exact ih
  | look next ih => exact ih
  | ask r next ih => exact ⟨trivial, ih⟩

theorem Program.Asks.mono {ok ok' : Request κ → Prop} (hOk : ∀ r, ok r → ok' r) {α : Type}
    {p : Program σ κ α} (h : p.Asks ok) : p.Asks ok' := by
  induction p with
  | done a => exact trivial
  | fail e => exact trivial
  | load next ih => exact fun memory => ih memory (h memory)
  | store memory next ih => exact ih h
  | look next ih => exact fun sight => ih sight (h sight)
  | ask r next ih => exact ⟨hOk r h.1, fun reply => ih reply (h.2 reply)⟩

theorem World.asks_true (w : World σ κ) : w.Asks fun _ => True :=
  ⟨fun _ _ => Program.asks_true _, fun _ => Program.asks_true _⟩

/-- Receivers that do nothing, and callbacks that only fail, ask for nothing. -/
theorem World.asks_flaky (ok : Request Bool → Prop) : World.flaky.Asks ok := by
  refine ⟨fun target tag => trivial, fun fails => ?_⟩
  cases fails <;> exact trivial

namespace World.Asks

variable {w : World σ κ} {ok : Request κ → Prop}

theorem mono {ok' : Request κ → Prop} (hOk : ∀ r, ok r → ok' r) (h : w.Asks ok) : w.Asks ok' :=
  ⟨fun target tag => (h.receive target tag).mono hOk, fun c => (h.invoke c).mono hOk⟩

theorem program (h : w.Asks ok) (call : Call κ) : (w.program call).Asks ok := by
  cases call with
  | callback c => exact h.invoke c
  | receiver target tag => exact h.receive target tag

theorem delivery (h : w.Asks ok) (m : Message κ) : (w.delivery m).Asks ok :=
  World.delivery_of h.receive h.invoke trivial m

end World.Asks

/-! ### What a thread will come back to -/

def Thread.session? : Thread → Option Nat
  | main => none
  | worker session => some session

theorem Thread.eq_worker {thread : Thread} {session : Nat} (h : some session = thread.session?) :
    thread = .worker session := by
  cases thread with
  | main => cases h
  | worker other => rw [Option.some.inj h]

namespace Loop

def session? : Loop σ κ → Option Nat
  | worker session _ => some session
  | _ => none

def IsHandler (ok : Request κ → Prop) : Loop σ κ → Prop
  | all _ next => ok .dispatchAll ∧ ∀ reply, (next reply).Asks ok
  | one next => ok .dispatchNext ∧ ∀ reply, (next reply).Asks ok
  | worker .. => False

end Loop

namespace Control

def session? : Control σ κ → Option Nat
  | acquire loop | take loop | deliver _ loop => loop.session?
  | wait session => some session
  | _ => none

def IsHandler (ok : Request κ → Prop) : Control σ κ → Prop
  | run p => p.Asks ok
  | acquire loop | take loop | deliver _ loop => loop.IsHandler ok
  | halt _ next | join _ next => ok .stop ∧ ∀ reply, (next reply).Asks ok
  | wait _ | ended _ => False

/-- May this be at the bottom of what a thread will come back to? -/
def IsBottom (thread : Thread) : Control σ κ → Prop
  | ended _ => True
  | c => c.session? = thread.session?

def result? : Control σ κ → Option (Except Failure Unit)
  | ended result => some result
  | _ => none

def stops? : Control σ κ → Option Nat
  | halt session _ | join session _ => some session
  | _ => none

end Control

namespace Caller

def session? : Caller σ κ → Option Nat
  | delivery _ loop => loop.session?
  | handling .. => none

def IsHandler (ok : Request κ → Prop) : Caller σ κ → Prop
  | delivery _ loop => loop.IsHandler ok
  | handling target tag next => ok (.handle target tag) ∧ ∀ reply, (next reply).Asks ok

end Caller

/-- Of what a thread is about to do, given whether that is a handler's or may be at the bottom, and
of all that it will come back to: the last is at the bottom, all above it is a handler's. -/
def Stands (ok : Request κ → Prop) (thread : Thread) :
    (handler bottom : Prop) → List (Caller σ κ) → Prop
  | _, bottom, [] => bottom
  | handler, _, c :: below =>
    handler ∧ Stands ok thread (c.IsHandler ok) (c.session? = thread.session?) below

namespace Stands

variable {ok : Request κ → Prop} {thread : Thread} {handler handler' bottom bottom' : Prop}
  {callers : List (Caller σ κ)}

theorem imp (h : Stands ok thread handler bottom callers) (hHandler : handler → handler')
    (hBottom : bottom → bottom') : Stands ok thread handler' bottom' callers := by
  cases callers with
  | nil => exact hBottom h
  | cons c below => exact ⟨hHandler h.1, h.2⟩

theorem eq_nil (h : Stands ok thread handler bottom callers) (hNot : ¬ handler) :
    callers = [] ∧ bottom := by
  cases callers with
  | nil => exact ⟨rfl, h⟩
  | cons c below => exact absurd h.1 hNot

end Stands

namespace Task

/-- What the thread has to do: at the bottom its own, above it what handlers do. -/
def Stands (ok : Request κ → Prop) (thread : Thread) (t : Task σ κ) : Prop :=
  VirtualLooper.Stands ok thread (t.control.IsHandler ok) (t.control.IsBottom thread) t.callers

def phase (t : Task σ κ) : Phase :=
  match t.control.result? with
  | none => .live
  | some (.ok _) => .exited
  | some (.error e) => .died e

end Task

namespace Loop

theorem session?_counted (loop : Loop σ κ) : loop.counted.session? = loop.session? := by
  cases loop <;> rfl

theorem isHandler_counted {ok : Request κ → Prop} (loop : Loop σ κ) :
    loop.counted.IsHandler ok ↔ loop.IsHandler ok := by
  cases loop <;> exact Iff.rfl

end Loop

namespace Machine

section Duties

variable {w : World σ κ} {ok : Request κ → Prop} {thread : Thread} {M M' : Machine σ κ}
  {callers : List (Caller σ κ)}

/-- A program goes on with what it is told, after something that it has asked for. -/
theorem stands_next {handler bottom : Prop} {next : Except Failure Reply → Program σ κ Unit}
    (h : VirtualLooper.Stands ok thread handler bottom callers)
    (hNext : handler → ∀ reply, (next reply).Asks ok) (hBottom : bottom → none = thread.session?)
    (result : Except Failure Reply) : Task.Stands ok thread ⟨.run (next result), callers⟩ :=
  h.imp (fun hHandler => hNext hHandler result) hBottom

theorem stands_exhausted {loop : Loop σ κ} (h : Task.Stands ok thread ⟨.take loop, callers⟩) :
    Task.Stands ok thread ((M.exhausted thread callers loop).tasks thread) := by
  cases loop with
  | all count next =>
    have hTask : (M.exhausted thread callers (.all count next)).tasks thread =
        ⟨.run (next (.ok (.count count))), callers⟩ := if_pos rfl
    rw [hTask]
    exact stands_next h (fun hLoop => hLoop.2) id _
  | one next =>
    have hTask : (M.exhausted thread callers (.one next)).tasks thread =
        ⟨.run (next (.ok (.flag false))), callers⟩ := if_pos rfl
    rw [hTask]
    exact stands_next h (fun hLoop => hLoop.2) id _
  | worker session last =>
    cases last with
    | false =>
      have hTask : (M.exhausted thread callers (.worker session false)).tasks thread =
          ⟨.wait session, callers⟩ := if_pos rfl
      rw [hTask]
      exact h.imp id id
    | true =>
      have hTask : (M.exhausted thread callers (.worker session true)).tasks thread =
          ⟨.ended (.ok ()), callers⟩ := if_pos rfl
      rw [hTask]
      exact h.imp id fun _ => trivial

theorem stands_finished {p : Program σ κ Unit} (result : Except Failure Unit)
    (h : Task.Stands ok thread ⟨.run p, callers⟩) :
    Task.Stands ok thread ((M.finished thread result callers).tasks thread) := by
  cases callers with
  | nil =>
    have hTask : (M.finished thread result []).tasks thread = ⟨.ended result, []⟩ := if_pos rfl
    rw [hTask]
    exact trivial
  | cons c below =>
    have hBelow := h.2
    cases c with
    | handling target tag next =>
      have hTask : (M.finished thread result (.handling target tag next :: below)).tasks thread =
          ⟨.run (next (result.map fun _ => .nothing)), below⟩ := if_pos rfl
      rw [hTask]
      exact stands_next hBelow (fun hCaller => hCaller.2) id _
    | delivery m loop =>
      cases result with
      | ok u =>
        cases loop with
        | one next =>
          have hTask : (M.delivered thread below (.one next)).tasks thread =
              ⟨.run (next (.ok (.flag true))), below⟩ := if_pos rfl
          rw [finished, hTask]
          exact stands_next hBelow (fun hLoop => hLoop.2) id _
        | all count next =>
          have hTask : (M.delivered thread below (.all count next)).tasks thread =
              ⟨.take (.all count next), below⟩ := if_pos rfl
          rw [finished, hTask]
          exact hBelow
        | worker session last =>
          have hTask : (M.delivered thread below (.worker session last)).tasks thread =
              ⟨.take (.worker session last), below⟩ := if_pos rfl
          rw [finished, hTask]
          exact hBelow
      | error e =>
        cases loop with
        | all count next =>
          have hTask : (M.aborted thread e below (.all count next)).tasks thread =
              ⟨.run (next (.error e)), below⟩ := if_pos rfl
          rw [finished, hTask]
          exact stands_next hBelow (fun hLoop => hLoop.2) id _
        | one next =>
          have hTask : (M.aborted thread e below (.one next)).tasks thread =
              ⟨.run (next (.error e)), below⟩ := if_pos rfl
          rw [finished, hTask]
          exact stands_next hBelow (fun hLoop => hLoop.2) id _
        | worker session last =>
          have hTask : (M.aborted thread e below (.worker session last)).tasks thread =
              ⟨.ended (.error e), below⟩ := if_pos rfl
          rw [finished, hTask]
          exact hBelow.imp id fun _ => trivial

theorem stands_idle {session : Nat} (h : Task.Stands ok thread ⟨.wait session, callers⟩) :
    Task.Stands ok thread ((M.idle thread callers session).tasks thread) := by
  simp only [idle]
  split
  · rw [put_tasks_self]
    exact h.imp id id
  · split
    · rw [put_tasks_self]
      exact h.imp id id
    · split
      · rw [put_tasks_self]
        exact h.imp id fun _ => trivial
      · rw [put_tasks_self]
        exact h.imp id id

theorem stands_put {t t' : Task σ κ} {s : State σ κ} (hTask : M.tasks thread = t)
    (h : (M.tasks thread).Stands ok thread) (hStands : t.Stands ok thread → t'.Stands ok thread) :
    ((M.put thread t' s).tasks thread).Stands ok thread := by
  rw [put_tasks_self]
  exact hStands (hTask ▸ h)

theorem stands_answer {c : Control σ κ} {r : Request κ} {result : Except Failure Reply}
    {next : Except Failure Reply → Program σ κ Unit} {s : State σ κ}
    (hTask : M.tasks thread = ⟨c, callers⟩) (h : (M.tasks thread).Stands ok thread)
    (hNext : c.IsHandler ok → ∀ reply, (next reply).Asks ok)
    (hBottom : c.IsBottom thread → none = thread.session?) :
    ((M.answer thread r result next callers s).tasks thread).Stands ok thread := by
  have hTask' : (M.answer thread r result next callers s).tasks thread =
      ⟨.run (next result), callers⟩ := if_pos rfl
  rw [hTask']
  rw [hTask] at h
  exact stands_next h hNext hBottom result

/-- **Whatever a thread does, what it has to do then is as it should be.** -/
theorem stands_of_move (hAsks : w.Asks ok) (hMove : Move w thread M M')
    (h : (M.tasks thread).Stands ok thread) : (M'.tasks thread).Stands ok thread := by
  cases hMove with
  | done hTask => exact stands_finished _ (hTask ▸ h)
  | fail hTask => exact stands_finished _ (hTask ▸ h)
  | load hTask => exact stands_put hTask h fun hRun => hRun.imp (fun hLoad => hLoad _) id
  | store hTask => exact stands_put hTask h fun hRun => hRun.imp id id
  | look hTask => exact stands_put hTask h fun hRun => hRun.imp (fun hLook => hLook _) id
  | reply hTask hReply => exact stands_answer hTask h (fun hAsk => hAsk.2) id
  | askAll hTask hIdle => exact stands_put hTask h fun hRun => hRun.imp id id
  | askNext hTask hIdle => exact stands_put hTask h fun hRun => hRun.imp id id
  | askStop hTask hSession => exact stands_put hTask h fun hRun => hRun.imp id id
  | call hTask =>
    exact stands_put hTask h fun hRun => ⟨hAsks.program _, hRun.imp id id⟩
  | @acquire loop callers hTask hFree =>
    exact stands_put (s := M.state.enter) hTask h fun hLoop => hLoop.imp id id
  | @take loop callers m s hTask hTake =>
    refine stands_put hTask h fun hLoop => hLoop.imp (fun hHandler => ?_) fun hOwn => ?_
    · exact loop.isHandler_counted.2 hHandler
    · exact loop.session?_counted.trans hOwn
  | exhaust hTask hIdle => exact stands_exhausted (hTask ▸ h)
  | deliver hTask =>
    exact stands_put hTask h fun hLoop => ⟨hAsks.delivery _, hLoop.imp id id⟩
  | idle hTask => exact stands_idle (hTask ▸ h)
  | halt hTask => exact stands_put hTask h fun hStop => hStop.imp id id
  | joinSelf hTask hSelf => exact stands_answer hTask h (fun hJoin => hJoin.2) id
  | join hTask hOther hGone => exact stands_answer hTask h (fun hJoin => hJoin.2) id

end Duties

end Machine

end VirtualLooper
