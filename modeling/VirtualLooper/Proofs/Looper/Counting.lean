import Mathlib.Algebra.BigOperators.Ring.Finset
import VirtualLooper.Proofs.Looper.Journal
import VirtualLooper.Proofs.Looper.Session

/-!
# Every delivery is counted once

A run has **shares**: each loop that takes messages has one from when it is entered to when it is
left, and a message that is taken falls to the innermost loop that is going on then.  Shares are
read off a run from outside: how deep loops are inside one another, which messages were taken, and
which answers were given.  No counter is looked at.

`Shared` relates the shares of a run to what the looper and its threads count.  A dispatch counts in
its loop, which is gone when it answers; a worker counts in the record of its session, which outlives
its loops.  It is preserved by every step (`Shared.step`), by cases on what a step does to the loops
(`Pace`).  When no loop is going on, and no dispatch was ended by a failure, it says that what was
answered and what workers have counted add up to all deliveries (`counted_of_run`).
-/

namespace VirtualLooper

variable {σ κ : Type}

/-! ### Shares -/

def Exchange.counted (x : Exchange κ) : Nat :=
  match x.request, x.result with
  | .dispatchAll, .ok (.count n) => n
  | .dispatchNext, .ok (.flag true) => 1
  | _, _ => 0

/-- Does this answer a dispatch that was not ended by a failure? -/
def Exchange.isDispatch (x : Exchange κ) : Bool := x.dispatch?.isSome

theorem Exchange.counted_of_not_isDispatch {x : Exchange κ} (h : x.isDispatch = false) :
    x.counted = 0 := by
  obtain ⟨thread, r, result, time⟩ := x
  cases r with
  | dispatchAll => cases result <;> first | rfl | cases h
  | dispatchNext => cases result <;> first | rfl | cases h
  | _ => rfl

/-- What a loop has taken while it was the innermost, and the session whose worker runs it. -/
structure Share (κ : Type) where
  session? : Option Nat
  messages : List (Message κ)

namespace Share

/-- The number of messages that the worker of a session has to count for this. -/
def countFor (session : Nat) (x : Share κ) : Nat :=
  if x.session? = some session then x.messages.length else 0

/-- The number of messages that a dispatch has to count for this. -/
def ownCount (x : Share κ) : Nat := if x.session? = none then x.messages.length else 0

end Share

/-- The shares of the loops that are going on, innermost first, and of those that are over, oldest
first, with the answer to the dispatch that it was, if that has succeeded. -/
structure Shares (κ : Type) where
  going : List (Share κ)
  closed : List (Share κ × Option (Exchange κ))

namespace Shares

def all (b : Shares κ) : List (Share κ) := b.going ++ b.closed.map Prod.fst

def enter (session? : Option Nat) (b : Shares κ) : Shares κ :=
  { b with going := ⟨session?, []⟩ :: b.going }

def take (ms : List (Message κ)) (b : Shares κ) : Shares κ :=
  match b.going with
  | [] => b
  | x :: below => { b with going := { x with messages := x.messages ++ ms } :: below }

def leave (answer? : Option (Exchange κ)) (b : Shares κ) : Shares κ :=
  match b.going with
  | [] => b
  | x :: below => ⟨below, b.closed ++ [(x, answer?)]⟩

/-- The number of messages that the worker of a session has to count. -/
def countFor (session : Nat) (b : Shares κ) : Nat := (b.all.map (Share.countFor session)).sum

def add (thread : Thread) (M M' : Machine σ κ) (b : Shares κ) : Shares κ :=
  if M.state.depth < M'.state.depth then b.enter (M.tasks thread).control.session?
  else if M'.state.depth < M.state.depth then
    b.leave ((M'.exchanges.drop M.exchanges.length).find? Exchange.isDispatch)
  else b.take (M'.ledger.taken.drop M.ledger.taken.length)

end Shares

def Machine.shares (w : World σ κ) (M : Machine σ κ) (schedule : List Thread) : Shares κ :=
  account w Shares.add schedule M ⟨[], []⟩

/-! ### Counters -/

inductive Counter
  /-- A dispatch has taken so many messages itself. -/
  | dispatch (count : Nat)
  /-- The record of the session counts. -/
  | worker (session : Nat)

/-- Does the counter say what the share says? -/
def Share.Fits (x : Share κ) : Counter → Prop
  | .dispatch count => x.session? = none ∧ x.messages.length = count
  | .worker session => x.session? = some session

/-- The counter of a loop that is, or is not, delivering a message. -/
def Loop.counter (delivering : Nat) : Loop σ κ → Counter
  | all count _ => .dispatch count
  | one _ => .dispatch delivering
  | worker session _ => .worker session

namespace Control

def counters : Control σ κ → List Counter
  | take loop => [loop.counter 0]
  | deliver _ loop => [loop.counter 1]
  | _ => []

/-- A loop that is about to begin has not counted anything yet. -/
def IsFresh : Control σ κ → Prop
  | acquire loop => (⟨loop.session?, []⟩ : Share κ).Fits (loop.counter 0)
  | _ => True

end Control

def Caller.counter? : Caller σ κ → Option Counter
  | delivery _ loop => some (loop.counter 1)
  | handling .. => none

/-- The counters of the loops that a thread is in, innermost first. -/
def Task.counters (t : Task σ κ) : List Counter :=
  t.control.counters ++ t.callers.filterMap Caller.counter?

theorem Task.length_counters (t : Task σ κ) : t.counters.length = t.loops := by
  have hCallers : (t.callers.filterMap Caller.counter?).length = t.running.length := by
    rw [running]
    generalize t.callers = callers
    induction callers with
    | nil => rfl
    | cons c below ih =>
      cases c with
      | delivery m loop => exact congrArg (· + 1) ih
      | handling target tag next => exact ih
  rw [counters, loops, List.length_append, hCallers, Nat.add_comm]
  congr 1
  cases t.control <;> rfl

namespace Machine

def counters (M : Machine σ κ) : List Counter :=
  match M.dispatcher with
  | some thread => (M.tasks thread).counters
  | none => []

theorem counters_of_none {M : Machine σ κ} (h : M.dispatcher = none) : M.counters = [] := by
  simp only [counters, h]

theorem counters_of_some {M : Machine σ κ} {thread : Thread} (h : M.dispatcher = some thread) :
    M.counters = (M.tasks thread).counters := by simp only [counters, h]

/-- While no other thread takes messages, the loops that are going on are those of this thread. -/
theorem Exclusive.counters {M : Machine σ κ} {thread : Thread} (h : Exclusive M)
    (hFree : M.dispatcher = none ∨ M.dispatcher = some thread) :
    M.counters = (M.tasks thread).counters := by
  rcases hFree with hNone | hOwn
  · have hLoops := h.loops thread
    rw [if_neg (by simp [hNone]), ← Task.length_counters, List.length_eq_zero_iff] at hLoops
    rw [counters_of_none hNone, hLoops]
  · exact counters_of_some hOwn

/-! ### What a step does to loops -/

/-- How a loop is left that had a counter: the answers that are given then, and what has happened
until then. -/
inductive Closes (history : List (Occurrence κ)) : Counter → List (Exchange κ) → Prop
  | answered {x : Exchange κ} {count : Nat} (h : x.isDispatch = true) (hCount : x.counted = count) :
      Closes history (.dispatch count) [x]
  | failed {x : Exchange κ} {count : Nat} (h : x.isDispatch = false)
      (hFailed : .aborted ∈ history) : Closes history (.dispatch count) [x]
  | worker {session : Nat} : Closes history (.worker session) []

/-- What a step of a thread does to the loops that it is in. -/
inductive Pace (thread : Thread) (M M' : Machine σ κ) : Prop
  /-- The thread stays in the loops in which it is, and takes nothing. -/
  | stay (hLock : M'.dispatcher = M.dispatcher) (hDepth : M'.state.depth = M.state.depth)
      (hCounters : (M'.tasks thread).counters = (M.tasks thread).counters)
      (hHand : (M'.tasks thread).control.inHand = [])
      (hFresh : (M'.tasks thread).control.IsFresh)
      (xs : List (Exchange κ)) (hExchanges : M'.exchanges = M.exchanges ++ xs)
      (hNone : ∀ x ∈ xs, x.isDispatch = false)
  | enter (loop : Loop σ κ) (hControl : (M.tasks thread).control = .acquire loop)
      (hFree : M.dispatcher = none ∨ M.dispatcher = some thread)
      (hLock : M'.dispatcher = some thread) (hDepth : M'.state.depth = M.state.depth + 1)
      (hTask : M'.tasks thread = ⟨.take loop, (M.tasks thread).callers⟩)
      (hExchanges : M'.exchanges = M.exchanges)
  | take (m : Message κ) (s : State σ κ) (loop : Loop σ κ)
      (hControl : (M.tasks thread).control = .take loop)
      (hTake : M.state.take? thread = some (m, s)) (hState : M'.state = loop.tally s)
      (hLock : M'.dispatcher = M.dispatcher)
      (hTask : M'.tasks thread = ⟨.deliver m loop.counted, (M.tasks thread).callers⟩)
      (hExchanges : M'.exchanges = M.exchanges)
  | leave (c : Counter)
      (hLock : M'.dispatcher = if M.state.depth - 1 = 0 then none else M.dispatcher)
      (hDepth : M'.state.depth = M.state.depth - 1)
      (hCounters : (M.tasks thread).counters = c :: (M'.tasks thread).counters)
      (hHand : (M'.tasks thread).control.inHand = [])
      (hFresh : (M'.tasks thread).control.IsFresh)
      (xs : List (Exchange κ)) (hExchanges : M'.exchanges = M.exchanges ++ xs)
      (hCloses : Closes M'.state.history c xs)

section Paces

variable {w : World σ κ} {thread : Thread} {M M' : Machine σ κ} {callers : List (Caller σ κ)}

/-- A thread that is in no loop of its own right now goes on with something else. -/
theorem pace_put {t t' : Task σ κ} {s : State σ κ} (hTask : M.tasks thread = t)
    (hDepth : s.depth = M.state.depth) (hCounters : t'.counters = t.counters)
    (hHand : t'.control.inHand = []) (hFresh : t'.control.IsFresh) :
    Pace thread M (M.put thread t' s) := by
  refine .stay rfl hDepth ?_ ?_ ?_ [] (List.append_nil _).symm (by simp)
  · rw [put_tasks_self, hTask, hCounters]
  · rwa [put_tasks_self]
  · rwa [put_tasks_self]

/-- It gets an answer that does not answer a dispatch that has succeeded. -/
theorem pace_answer {t : Task σ κ} {r : Request κ} {result : Except Failure Reply}
    {next : Except Failure Reply → Program σ κ Unit} {s : State σ κ} (hTask : M.tasks thread = t)
    (hDepth : s.depth = M.state.depth) (hCounters : callers.filterMap Caller.counter? = t.counters)
    (hNone : (⟨thread, r, result, s.clock.now⟩ : Exchange κ).isDispatch = false) :
    Pace thread M (M.answer thread r result next callers s) := by
  refine .stay rfl hDepth ?_ ?_ ?_ [_] rfl (by simpa using hNone)
  · rw [answer_tasks_self, hTask, ← hCounters]
    rfl
  · rw [answer_tasks_self]
    rfl
  · rw [answer_tasks_self]
    trivial

theorem pace_leave {t : Task σ κ} {c : Control σ κ} {k : Counter} {s : State σ κ}
    {xs : List (Exchange κ)} (hTask : M.tasks thread = t)
    (hCounters : t.counters = k :: callers.filterMap Caller.counter?)
    (hDepth : s.depth = M.state.depth - 1) (hc : c.counters = []) (hHand : c.inHand = [])
    (hFresh : c.IsFresh) (hCloses : Closes s.history k xs) :
    Pace thread M { M.release.put thread ⟨c, callers⟩ s with exchanges := M.exchanges ++ xs } := by
  have hTask' : (M.release.put thread ⟨c, callers⟩ s).tasks thread = ⟨c, callers⟩ :=
    put_tasks_self _ _
  refine .leave k rfl hDepth ?_ ?_ ?_ xs rfl hCloses
  · rw [hTask, hCounters, hTask', Task.counters, hc]
    rfl
  · rwa [hTask']
  · rwa [hTask']

theorem pace_leave_silent {t : Task σ κ} {c : Control σ κ} {session : Nat} {s : State σ κ}
    (hTask : M.tasks thread = t)
    (hCounters : t.counters = .worker session :: callers.filterMap Caller.counter?)
    (hDepth : s.depth = M.state.depth - 1) (hc : c.counters = []) (hHand : c.inHand = [])
    (hFresh : c.IsFresh) : Pace thread M (M.release.put thread ⟨c, callers⟩ s) := by
  have hPace : Pace thread M
      { M.release.put thread ⟨c, callers⟩ s with exchanges := M.exchanges ++ [] } :=
    pace_leave hTask hCounters hDepth hc hHand hFresh .worker
  rwa [List.append_nil] at hPace

theorem pace_exhausted {loop : Loop σ κ} (hTask : M.tasks thread = ⟨.take loop, callers⟩) :
    Pace thread M (M.exhausted thread callers loop) := by
  cases loop with
  | all count next => exact pace_leave hTask rfl rfl rfl rfl trivial (.answered rfl rfl)
  | one next => exact pace_leave hTask rfl rfl rfl rfl trivial (.answered rfl rfl)
  | worker session last =>
    cases last with
    | false => exact pace_leave_silent hTask rfl rfl rfl rfl trivial
    | true => exact pace_leave_silent hTask rfl rfl rfl rfl trivial

theorem pace_finished {p : Program σ κ Unit} (result : Except Failure Unit)
    (hTask : M.tasks thread = ⟨.run p, callers⟩) :
    Pace thread M (M.finished thread result callers) := by
  cases callers with
  | nil => exact pace_put hTask rfl rfl rfl trivial
  | cons c below =>
    cases c with
    | handling target tag next => exact pace_answer hTask rfl rfl rfl
    | delivery m loop =>
      cases result with
      | ok u =>
        cases loop with
        | all count next => exact pace_put hTask rfl rfl rfl trivial
        | one next => exact pace_leave hTask rfl rfl rfl rfl trivial (.answered rfl rfl)
        | worker session last => exact pace_put hTask rfl rfl rfl trivial
      | error e =>
        cases loop with
        | all count next =>
          exact pace_leave hTask rfl rfl rfl rfl trivial (.failed rfl (by simp [State.recordHistory]))
        | one next =>
          exact pace_leave hTask rfl rfl rfl rfl trivial (.failed rfl (by simp [State.recordHistory]))
        | worker session last => exact pace_leave_silent hTask rfl rfl rfl rfl trivial

theorem pace_idle {session : Nat} (hTask : M.tasks thread = ⟨.wait session, callers⟩) :
    Pace thread M (M.idle thread callers session) := by
  simp only [idle]
  split
  · exact pace_put hTask rfl rfl rfl rfl
  · split
    · exact pace_put hTask rfl rfl rfl rfl
    · split
      · exact pace_put hTask rfl rfl rfl trivial
      · exact pace_put hTask rfl rfl rfl rfl

/-- **Every step keeps one of these paces.** -/
theorem pace_of_move (hMove : Move w thread M M') : Pace thread M M' := by
  cases hMove with
  | done hTask => exact pace_finished _ hTask
  | fail hTask => exact pace_finished _ hTask
  | load hTask => exact pace_put hTask rfl rfl rfl trivial
  | store hTask => exact pace_put hTask rfl rfl rfl trivial
  | look hTask => exact pace_put hTask rfl rfl rfl trivial
  | reply hTask hReply =>
    obtain ⟨hDepth, -, hNone⟩ := spec_of_respond hReply _
    exact pace_answer hTask hDepth rfl (by rw [Exchange.isDispatch, hNone]; rfl)
  | askAll hTask hIdle => exact pace_put hTask rfl rfl rfl ⟨rfl, rfl⟩
  | askNext hTask hIdle => exact pace_put hTask rfl rfl rfl ⟨rfl, rfl⟩
  | askStop hTask hSession => exact pace_put hTask rfl rfl rfl trivial
  | call hTask => exact pace_put hTask (depth_atCall _ _) rfl rfl trivial
  | acquire hTask hFree =>
    exact .enter _ (by rw [hTask]) hFree rfl rfl (by rw [hTask]; exact if_pos rfl) rfl
  | @take loop callers m s hTask hTake =>
    exact .take m s loop (by rw [hTask]) hTake rfl rfl
      (by rw [hTask]; exact put_tasks_self _ _) rfl
  | exhaust hTask hIdle => exact pace_exhausted hTask
  | deliver hTask => exact pace_put hTask (depth_atDelivery _ _) rfl rfl trivial
  | idle hTask => exact pace_idle hTask
  | halt hTask => exact pace_put hTask rfl rfl rfl trivial
  | joinSelf hTask hSelf => exact pace_answer hTask rfl rfl rfl
  | join hTask hOther hGone => exact pace_answer hTask rfl rfl rfl

/-- A thread that has no message in its hand after a step has taken none. -/
theorem taken_of_hand (hStep : M.step w thread = some M')
    (hHand : (M'.tasks thread).control.inHand = []) :
    M'.ledger.taken = M.ledger.taken ∧
      ∀ session, M'.state.dispatchedBy session = M.state.dispatchedBy session := by
  have hNot {m : Message κ} {loop : Loop σ κ} {callers : List (Caller σ κ)} :
      M'.tasks thread ≠ ⟨.deliver m loop, callers⟩ := by
    intro hTask
    rw [hTask] at hHand
    cases hHand
  constructor
  · cases turn_of_step hStep with
    | go hEdit => exact hEdit.taken_eq
    | enter hLedger => rw [hLedger]
    | take m q loop hControl hPop hLedger hLock hDepth hTask => exact absurd hTask hNot
    | call m loop p hControl hLedger => rw [hLedger]
    | leave hLedger => rw [hLedger]
  · cases tally_of_move (move_of_step hStep) with
    | keep hSame => exact hSame.dispatchedBy
    | take m loop hControl hTaken hCount hTask => exact absurd hTask hNot

theorem dispatchedBy_tally {m : Message κ} {s s' : State σ κ} {loop : Loop σ κ} {session : Nat}
    (hTake : s.take? thread = some (m, s'))
    (hBegun : loop.session? = some session → s.phase? session ≠ none) :
    (loop.tally s').dispatchedBy session =
      s.dispatchedBy session + if loop.session? = some session then 1 else 0 := by
  have hFrame := State.SameFrame.take hTake
  have hSame : s'.dispatchedBy session = s.dispatchedBy session := by
    rw [State.dispatchedBy, State.worker?, hFrame.workers]
    rfl
  cases loop with
  | worker counting last =>
    rw [← hFrame.phase?] at hBegun
    refine (State.dispatchedBy_countFor hBegun).trans ?_
    rw [hSame]
    show _ = s.dispatchedBy session + if some counting = some session then 1 else 0
    split <;> rfl
  | _ => exact hSame

theorem taken_tally {m : Message κ} {s s' : State σ κ} (loop : Loop σ κ)
    (hTake : s.take? thread = some (m, s')) (xs : List (Exchange κ)) :
    (Ledger.of (loop.tally s') xs).taken = (Ledger.of s xs).taken ++ [m] := by
  obtain ⟨q, -, hLedger⟩ := Ledger.of_take xs hTake
  rw [Ledger.of_tally, hLedger]

theorem history_atCall (call : Call κ) (s : State σ κ) :
    (w.atCall thread call s).history = s.history := by
  cases call with
  | callback c => rfl
  | receiver target tag =>
    rw [World.atCall]
    split <;> rfl

theorem history_of_move (hMove : Move w thread M M') : M.state.history <+: M'.state.history := by
  have hBegins := begins_of_move hMove
  generalize M.event? thread = e at hBegins
  cases hBegins with
  | nothing h => exact h.history
  | reset h =>
    simp only [State.respond] at h
    split at h
    · obtain ⟨-, hState⟩ := Response.reply.inj h
      exact hState ▸ List.prefix_append _ _
    · obtain ⟨-, hState⟩ := Response.reply.inj h
      exact hState ▸ List.prefix_refl _
  | handing h =>
    rw [h, history_atCall]
    exact List.prefix_append _ _
  | @delivery m h =>
    rw [h, World.atDelivery]
    cases m.call? with
    | some call =>
      show _ <+: (w.atCall thread call _).history
      rw [history_atCall]
      exact List.prefix_append _ _
    | none => exact List.prefix_append _ _

end Paces

end Machine

/-! ### Shares and counters -/

namespace Share

variable {x : Share κ} {history : List (Occurrence κ)}

/-- A share that has a loop's counter is that of a worker if the loop is. -/
theorem Fits.session?_eq {loop : Loop σ κ} {delivering : Nat}
    (h : x.Fits (loop.counter delivering)) : x.session? = loop.session? := by
  cases loop with
  | all count next => exact h.1
  | one next => exact h.1
  | worker session last => exact h

theorem Fits.take {loop : Loop σ κ} (h : x.Fits (loop.counter 0)) (m : Message κ) :
    ({ x with messages := x.messages ++ [m] } : Share κ).Fits (loop.counted.counter 1) := by
  cases loop with
  | all count next => exact ⟨h.1, by simp [h.2]⟩
  | one next => exact ⟨h.1, by simp [h.2]⟩
  | worker session last => exact h

/-- How many messages of a share that is over were counted, and by whom. -/
inductive Settled (history : List (Occurrence κ)) : Share κ × Option (Exchange κ) → Prop
  | answered {x : Share κ} {e : Exchange κ} (hOwn : x.session? = none)
      (hCount : e.counted = x.messages.length) : Settled history (x, some e)
  | failed {x : Share κ} (hOwn : x.session? = none) (hFailed : .aborted ∈ history) :
      Settled history (x, none)
  | worker {x : Share κ} {session : Nat} (hSession : x.session? = some session) :
      Settled history (x, none)

theorem Settled.mono {y : Share κ × Option (Exchange κ)} {history' : List (Occurrence κ)}
    (h : Settled history y) (hPrefix : history <+: history') : Settled history' y := by
  cases h with
  | answered hOwn hCount => exact .answered hOwn hCount
  | failed hOwn hFailed => exact .failed hOwn (hPrefix.subset hFailed)
  | worker hSession => exact .worker hSession

theorem Fits.settled {c : Counter} {xs : List (Exchange κ)} (h : x.Fits c)
    (hCloses : Machine.Closes history c xs) :
    Settled history (x, xs.find? Exchange.isDispatch) ∧
      (xs.find? Exchange.isDispatch).toList = xs.filter Exchange.isDispatch := by
  cases hCloses with
  | answered hDispatch hCount =>
    simp only [List.find?_singleton, List.filter_singleton, hDispatch, if_true]
    exact ⟨.answered h.1 (hCount.trans h.2.symm), rfl⟩
  | failed hDispatch hFailed =>
    simp only [List.find?_singleton, List.filter_singleton, hDispatch]
    exact ⟨.failed h.1 hFailed, rfl⟩
  | worker => exact ⟨.worker h, rfl⟩

end Share

/-- The shares of a run are what the looper and its threads have counted. -/
structure Shared (M : Machine σ κ) (b : Shares κ) : Prop where
  fresh : ∀ thread, (M.tasks thread).control.IsFresh
  fits : List.Forall₂ Share.Fits b.going M.counters
  answers : b.closed.filterMap Prod.snd = M.exchanges.filter Exchange.isDispatch
  settled : ∀ y ∈ b.closed, Share.Settled M.state.history y
  counts : ∀ session, M.state.dispatchedBy session = b.countFor session
  begun : ∀ x ∈ b.all, ∀ session, x.session? = some session → M.state.phase? session ≠ none
  messages : (b.all.flatMap Share.messages).Perm M.ledger.taken

namespace Shares

variable {thread : Thread} {M M' : Machine σ κ} {b : Shares κ}

theorem take_nil (b : Shares κ) : b.take [] = b := by
  obtain ⟨going, closed⟩ := b
  cases going with
  | nil => rfl
  | cons x below => simp [take]

theorem add_of_enter (h : M'.state.depth = M.state.depth + 1) :
    b.add thread M M' = b.enter (M.tasks thread).control.session? := by
  rw [add, if_pos (by omega)]

theorem add_of_leave (h : M'.state.depth + 1 = M.state.depth) {xs : List (Exchange κ)}
    (hExchanges : M'.exchanges = M.exchanges ++ xs) :
    b.add thread M M' = b.leave (xs.find? Exchange.isDispatch) := by
  rw [add, if_neg (by omega), if_pos (by omega), hExchanges, List.drop_left]

theorem add_of_same (h : M'.state.depth = M.state.depth) {ms : List (Message κ)}
    (hTaken : M'.ledger.taken = M.ledger.taken ++ ms) : b.add thread M M' = b.take ms := by
  rw [add, if_neg (by omega), if_neg (by omega), hTaken, List.drop_left]

end Shares

/-- Whatever a step does to loops, those that are about to begin have counted nothing, and what has
happened and begun stays so. -/
structure Onward (M M' : Machine σ κ) : Prop where
  fresh : ∀ thread, (M'.tasks thread).control.IsFresh
  history : M.state.history <+: M'.state.history
  begun : ∀ session, M.state.phase? session ≠ none → M'.state.phase? session ≠ none

namespace Shared

open Machine

variable {w : World σ κ} {thread : Thread} {M M' : Machine σ κ} {b : Shares κ}

theorem stay (h : Shared M b) (hOn : Onward M M') (hCounters : M'.counters = M.counters)
    (hAnswers : M'.exchanges.filter Exchange.isDispatch = M.exchanges.filter Exchange.isDispatch)
    (hCounted : ∀ session, M'.state.dispatchedBy session = M.state.dispatchedBy session)
    (hTaken : M'.ledger.taken = M.ledger.taken) : Shared M' b where
  fresh := hOn.fresh
  fits := hCounters ▸ h.fits
  answers := h.answers.trans hAnswers.symm
  settled y hy := (h.settled y hy).mono hOn.history
  counts session := (hCounted session).trans (h.counts session)
  begun x hx session hSession := hOn.begun session (h.begun x hx session hSession)
  messages := hTaken ▸ h.messages

theorem enter (h : Shared M b) (hOn : Onward M M') {session? : Option Nat} {c : Counter}
    (hCounters : M'.counters = c :: M.counters) (hFits : (⟨session?, []⟩ : Share κ).Fits c)
    (hBegun : ∀ session, session? = some session → M.state.phase? session ≠ none)
    (hExchanges : M'.exchanges = M.exchanges)
    (hCounted : ∀ session, M'.state.dispatchedBy session = M.state.dispatchedBy session)
    (hTaken : M'.ledger.taken = M.ledger.taken) : Shared M' (b.enter session?) where
  fresh := hOn.fresh
  fits := hCounters ▸ .cons hFits h.fits
  answers := hExchanges ▸ h.answers
  settled y hy := (h.settled y hy).mono hOn.history
  counts session := by
    rw [hCounted, h.counts]
    simp [Shares.countFor, Shares.all, Shares.enter, Share.countFor]
  begun x hx session hSession := by
    rcases List.mem_cons.1 hx with rfl | hx
    · exact hOn.begun session (hBegun session hSession)
    · exact hOn.begun session (h.begun x hx session hSession)
  messages := hTaken ▸ h.messages

theorem take (h : Shared M b) (hOn : Onward M M') {loop : Loop σ κ} {cs : List Counter}
    {m : Message κ} (hCounters : M.counters = loop.counter 0 :: cs)
    (hCounters' : M'.counters = loop.counted.counter 1 :: cs)
    (hExchanges : M'.exchanges = M.exchanges)
    (hCounted : ∀ session, (loop.session? = some session → M.state.phase? session ≠ none) →
      M'.state.dispatchedBy session =
        M.state.dispatchedBy session + if loop.session? = some session then 1 else 0)
    (hTaken : M'.ledger.taken = M.ledger.taken ++ [m]) : Shared M' (b.take [m]) := by
  have hFits := h.fits
  rw [hCounters] at hFits
  obtain ⟨x, below, hMine, hBelow, hGoing⟩ := List.forall₂_cons_right_iff.1 hFits
  have hTake : b.take [m] =
      { b with going := { x with messages := x.messages ++ [m] } :: below } := by
    rw [Shares.take, hGoing]
  have hAll : b.all = x :: (below ++ b.closed.map Prod.fst) := by rw [Shares.all, hGoing]; rfl
  have hBegun := h.begun
  have hCounts := h.counts
  have hMessages := h.messages
  simp only [Shares.countFor] at hCounts
  rw [hAll] at hBegun hMessages
  rw [hTake]
  refine ⟨hOn.fresh, ?_, hExchanges ▸ h.answers, fun y hy => (h.settled y hy).mono hOn.history,
    fun session => ?_, fun y hy session hSession => hOn.begun session ?_, ?_⟩
  · rw [hCounters']
    exact .cons (hMine.take m) hBelow
  · rw [hCounted session fun hWorker => hBegun x List.mem_cons_self session
      (hMine.session?_eq.trans hWorker), hCounts, hAll, ← hMine.session?_eq]
    simp only [Shares.countFor, Shares.all, List.cons_append, List.map_cons, List.sum_cons,
      Share.countFor]
    split
    · simp only [List.length_append, List.length_singleton]
      omega
    · rfl
  · rcases List.mem_cons.1 hy with rfl | hy
    · exact hBegun x List.mem_cons_self session hSession
    · exact hBegun y (List.mem_cons_of_mem _ hy) session hSession
  · rw [hTaken]
    have hEnd : ((x.messages ++ [m]) ++ (below ++ b.closed.map Prod.fst).flatMap Share.messages).Perm
        ((x.messages ++ (below ++ b.closed.map Prod.fst).flatMap Share.messages) ++ [m]) := by
      rw [List.append_assoc, List.append_assoc]
      exact List.perm_append_comm.append_left _
    exact hEnd.trans (hMessages.append_right [m])

theorem leave (h : Shared M b) (hOn : Onward M M') {c : Counter} {xs : List (Exchange κ)}
    (hCounters : M.counters = c :: M'.counters) (hCloses : Closes M'.state.history c xs)
    (hExchanges : M'.exchanges = M.exchanges ++ xs)
    (hCounted : ∀ session, M'.state.dispatchedBy session = M.state.dispatchedBy session)
    (hTaken : M'.ledger.taken = M.ledger.taken) :
    Shared M' (b.leave (xs.find? Exchange.isDispatch)) := by
  have hFits := h.fits
  rw [hCounters] at hFits
  obtain ⟨x, below, hMine, hBelow, hGoing⟩ := List.forall₂_cons_right_iff.1 hFits
  obtain ⟨hSettled, hAnswer⟩ := hMine.settled hCloses
  have hLeave : b.leave (xs.find? Exchange.isDispatch) =
      ⟨below, b.closed ++ [(x, xs.find? Exchange.isDispatch)]⟩ := by
    rw [Shares.leave, hGoing]
  -- the share is only put elsewhere
  have hAll : (b.leave (xs.find? Exchange.isDispatch)).all.Perm b.all := by
    rw [hLeave, Shares.all, Shares.all, hGoing, List.map_append, ← List.append_assoc]
    exact List.perm_append_singleton x _
  refine ⟨hOn.fresh, ?_, ?_, fun y hy => ?_, fun session => ?_,
    fun y hy session hSession => hOn.begun session (h.begun y (hAll.mem_iff.1 hy) session hSession),
    ?_⟩
  · rw [hLeave]
    exact hBelow
  · rw [hLeave, filterMap_concat, h.answers, hExchanges, List.filter_append, ← hAnswer]
  · rw [hLeave] at hy
    rcases List.mem_append.1 hy with hy | hy
    · exact (h.settled y hy).mono hOn.history
    · rw [List.mem_singleton.1 hy]
      exact hSettled
  · rw [hCounted, h.counts]
    exact ((hAll.map _).sum_eq).symm
  · rw [hTaken]
    exact (hAll.flatMap_right _).trans h.messages

theorem begun_of_acquire (hReach : Reachable w M) (hStep : M.step w thread = some M')
    {loop : Loop σ κ} (hControl : (M.tasks thread).control = .acquire loop) (session : Nat)
    (hSession : loop.session? = some session) : M.state.phase? session ≠ none := by
  have hStands := (manned_of_reachable w.asks_true hReach).stands thread
  rw [Task.Stands, hControl] at hStands
  cases loop with
  | worker own last =>
    obtain rfl := Option.some.inj hSession
    obtain rfl := Thread.eq_worker (hStands.eq_nil id).2
    exact State.phase?_ne_none_iff.2 (hasThread_of_step hStep)
  | _ => cases hSession

theorem counters_of_stay (hStep : M.step w thread = some M')
    (hLock : M'.dispatcher = M.dispatcher)
    (hCounters : (M'.tasks thread).counters = (M.tasks thread).counters) :
    M'.counters = M.counters := by
  cases hOwner : M.dispatcher with
  | none => rw [counters_of_none hOwner, counters_of_none (hLock.trans hOwner)]
  | some other =>
    rw [counters_of_some hOwner, counters_of_some (hLock.trans hOwner)]
    by_cases hOther : other = thread
    · rw [hOther, hCounters]
    · rw [(frame_step hStep).others other hOther]

theorem onward_of_step (hFresh : ∀ other, (M.tasks other).control.IsFresh)
    (hStep : M.step w thread = some M') (hMine : (M'.tasks thread).control.IsFresh) :
    Onward M M' := by
  have hFrame := frame_step hStep
  refine ⟨fun other => ?_, history_of_move (move_of_step hStep), fun session hBegun => ?_⟩
  · by_cases hOther : other = thread
    · exact hOther ▸ hMine
    · rw [hFrame.others other hOther]
      exact hFresh other
  · exact State.phase?_ne_none_iff.2 (hFrame.ages.hasThread (State.phase?_ne_none_iff.1 hBegun))

/-- **The shares of a run stay what was counted.** -/
theorem step (hReach : Reachable w M) (h : Shared M b) (hStep : M.step w thread = some M') :
    Shared M' (b.add thread M M') := by
  have hLock := exclusive_of_reachable hReach
  have hLock' := exclusive_of_reachable (hReach.step thread hStep)
  have hOn := onward_of_step h.fresh hStep
  cases pace_of_move (move_of_step hStep) with
  | stay hSame hDepth hCounters hHand hMine xs hExchanges hNone =>
    obtain ⟨hTaken, hCounted⟩ := taken_of_hand hStep hHand
    rw [Shares.add_of_same hDepth (hTaken.trans (List.append_nil _).symm), Shares.take_nil]
    refine h.stay (hOn hMine) (counters_of_stay hStep hSame hCounters) ?_ hCounted hTaken
    have hNew : xs.filter Exchange.isDispatch = [] :=
      List.filter_eq_nil_iff.2 fun x hx => by simp [hNone x hx]
    rw [hExchanges, List.filter_append, hNew, List.append_nil]
  | enter loop hControl hFree hOwn hDepth hTask hExchanges =>
    obtain ⟨hTaken, hCounted⟩ := taken_of_hand hStep (by rw [hTask]; rfl)
    have hFresh := h.fresh thread
    have hCounters : M'.counters = loop.counter 0 :: M.counters := by
      rw [counters_of_some hOwn, hLock.counters hFree, hTask, Task.counters, Task.counters,
        hControl]
      rfl
    rw [hControl] at hFresh
    rw [Shares.add_of_enter hDepth, hControl]
    exact h.enter (hOn (by rw [hTask]; trivial)) hCounters hFresh
      (begun_of_acquire hReach hStep hControl) hExchanges hCounted hTaken
  | take m s loop hControl hTake hState hSame hTask hExchanges =>
    have hOwn := hLock.owns (Task.loops_pos (by rw [hControl]; exact Nat.one_pos))
    have hTaken : M'.ledger.taken = M.ledger.taken ++ [m] := by
      rw [ledger, hState, hExchanges]
      exact taken_tally loop hTake M.exchanges
    have hDepth : M'.state.depth = M.state.depth := by
      rw [hState]
      exact depth_taken hTake loop
    have hCounters : M.counters =
        loop.counter 0 :: (M.tasks thread).callers.filterMap Caller.counter? := by
      rw [counters_of_some hOwn, Task.counters, hControl]
      rfl
    have hCounters' : M'.counters =
        loop.counted.counter 1 :: (M.tasks thread).callers.filterMap Caller.counter? := by
      rw [counters_of_some (hSame.trans hOwn), hTask]
      rfl
    rw [Shares.add_of_same hDepth hTaken]
    refine h.take (hOn (by rw [hTask]; trivial)) hCounters hCounters' hExchanges
      (fun session hBegun => ?_) hTaken
    rw [hState]
    exact dispatchedBy_tally hTake hBegun
  | leave c hLeft hDepth hCounters hHand hMine xs hExchanges hCloses =>
    obtain ⟨hTaken, hCounted⟩ := taken_of_hand hStep hHand
    have hLoops : 0 < (M.tasks thread).loops := by
      rw [← Task.length_counters, hCounters]
      exact Nat.succ_pos _
    have hOwn := hLock.owns hLoops
    have hFree : M'.dispatcher = none ∨ M'.dispatcher = some thread := by
      rw [hLeft, hOwn]
      split
      · exact Or.inl rfl
      · exact Or.inr rfl
    rw [hLock.loops thread, if_pos hOwn] at hLoops
    rw [Shares.add_of_leave (by omega) hExchanges]
    refine h.leave (hOn hMine) ?_ hCloses hExchanges hCounted hTaken
    rw [counters_of_some hOwn, hCounters, hLock'.counters hFree]

end Shared

/-! ### Sums -/

namespace Share

/-- The messages of shares are counted by dispatches, or by the workers of sessions. -/
theorem length_flatMap {n : Nat} {xs : List (Share κ)}
    (h : ∀ x ∈ xs, ∀ session, x.session? = some session → session < n) :
    (xs.flatMap Share.messages).length =
      (xs.map Share.ownCount).sum +
        ∑ session ∈ Finset.range n, (xs.map (Share.countFor session)).sum := by
  induction xs with
  | nil => simp
  | cons x xs ih =>
    have hRest := ih fun y hy => h y (List.mem_cons_of_mem x hy)
    have hFirst : x.messages.length =
        x.ownCount + ∑ session ∈ Finset.range n, x.countFor session := by
      cases hSession : x.session? with
      | none => simp [ownCount, countFor, hSession]
      | some own =>
        have hLt : own < n := h x List.mem_cons_self own hSession
        simp [ownCount, countFor, hSession, hLt, Finset.sum_ite_eq]
    simp only [List.flatMap_cons, List.length_append, List.map_cons, List.sum_cons,
      Finset.sum_add_distrib, hRest, hFirst]
    omega

/-- If no dispatch was ended by a failure, then they have counted what they were told. -/
theorem sum_ownCount {history : List (Occurrence κ)} (hNone : .aborted ∉ history)
    {ys : List (Share κ × Option (Exchange κ))} (h : ∀ y ∈ ys, Settled history y) :
    (ys.map fun y => y.1.ownCount).sum = ((ys.filterMap Prod.snd).map Exchange.counted).sum := by
  induction ys with
  | nil => rfl
  | cons y ys ih =>
    have hRest := ih fun z hz => h z (List.mem_cons_of_mem y hz)
    cases h y List.mem_cons_self with
    | @answered x e hOwn hCount =>
      have hFirst : x.ownCount = e.counted := by rw [ownCount, if_pos hOwn, hCount]
      simp [hRest, hFirst]
    | failed hOwn hFailed => exact absurd hFailed hNone
    | @worker x session hSession =>
      have hFirst : x.ownCount = 0 := if_neg (by simp [hSession])
      simp [hRest, hFirst]

end Share

theorem Exchange.sum_counted (xs : List (Exchange κ)) :
    ((xs.filter Exchange.isDispatch).map Exchange.counted).sum =
      (xs.map Exchange.counted).sum := by
  induction xs with
  | nil => rfl
  | cons x xs ih =>
    cases hDispatch : x.isDispatch with
    | true => simp [hDispatch, ih]
    | false => simp [hDispatch, ih, counted_of_not_isDispatch hDispatch]

/-! ### Whole runs -/

namespace Machine

/-- Each loop that was entered is over, and was a dispatch, which was told how many messages it had
taken, or a worker's.  These are all dispatches that have answered, and all that workers have
counted.  Together they have taken all messages that were delivered, each of them once. -/
structure Counted (M : Machine σ κ) (b : Shares κ) : Prop where
  going : b.going = []
  loops : ∀ y ∈ b.closed,
    (y.1.session? = none ∧ ∃ x, y.2 = some x ∧ x.counted = y.1.messages.length) ∨
      ((∃ session < M.state.workers.length, y.1.session? = some session) ∧ y.2 = none)
  answers : b.closed.filterMap Prod.snd = M.exchanges.filter Exchange.isDispatch
  workers : ∀ session,
    M.state.dispatchedBy session = (b.closed.map fun y => y.1.countFor session).sum
  messages : (b.closed.flatMap fun y => y.1.messages).Perm (M.ledger.called.map Prod.fst)
  distinct : ((M.ledger.called.map Prod.fst).map (·.seq)).Nodup

theorem shared_of_run {w : World σ κ} {settings : Settings} {fallback : Option Target} {memory : σ}
    {s : State σ κ} (hMake : State.make settings fallback memory = .ok s) {p : Program σ κ Unit}
    {schedule : List Thread} {M : Machine σ κ} (hRun : (start s p).follow w schedule = some M) :
    Shared M ((start s p).shares w schedule) := by
  refine account_induction (P := Shared) (fun hReach h hStep => h.step hReach hStep)
    (.start hMake p) ?_ hRun
  obtain ⟨clock, rfl⟩ := State.spec_of_make hMake
  refine ⟨fun thread => ?_, .nil, rfl, by simp, fun session => rfl, by simp [Shares.all], .nil⟩
  cases thread <;> trivial

/-- **Every delivery is counted once, by the innermost loop that took it.**  Once no loop is going
on, and if no dispatch was ended by a failure, the results of all dispatches and what the workers of
all sessions have counted add up to all messages that were delivered. -/
theorem counted_of_run {w : World σ κ} {settings : Settings} {fallback : Option Target}
    {memory : σ} {s : State σ κ} (hMake : State.make settings fallback memory = .ok s)
    {p : Program σ κ Unit} {schedule : List Thread} {M : Machine σ κ}
    (hRun : (start s p).follow w schedule = some M) (hOver : M.dispatcher = none)
    (hNone : .aborted ∉ M.state.history) :
    M.ledger.called.length = (M.exchanges.map Exchange.counted).sum +
      ∑ session ∈ Finset.range M.state.workers.length, M.state.dispatchedBy session ∧
    Counted M ((start s p).shares w schedule) := by
  have hShared := shared_of_run hMake hRun
  have hKept := kept_of_reachable ((Reachable.start hMake p).follow hRun)
  generalize (start s p).shares w schedule = b at hShared
  have hGoing : b.going = [] := by
    have hFits := hShared.fits
    rw [counters_of_none hOver] at hFits
    exact List.forall₂_nil_right_iff.1 hFits
  have hAll : b.all = b.closed.map Prod.fst := by rw [Shares.all, hGoing]; rfl
  have hTaken : M.ledger.called.map Prod.fst = M.ledger.taken := by
    have hHanded := congrArg (List.map Prod.fst) hKept.handed
    rw [inHand_of_none hOver, List.map_nil, List.append_nil, List.map_map] at hHanded
    rw [← hHanded]
    exact List.map_id _
  have hBegun : ∀ x ∈ b.all, ∀ session, x.session? = some session →
      session < M.state.workers.length := by
    intro x hx session hSession
    simpa [State.hasThread] using
      State.phase?_ne_none_iff.1 (hShared.begun x hx session hSession)
  have hCounts (session : Nat) : M.state.dispatchedBy session =
      (b.closed.map fun y => y.1.countFor session).sum := by
    rw [hShared.counts, Shares.countFor, hAll, List.map_map]
    rfl
  refine ⟨?_, hGoing, fun y hy => ?_, hShared.answers, hCounts, ?_, ?_⟩
  · calc M.ledger.called.length
        = (b.all.flatMap Share.messages).length := by
          rw [hShared.messages.length_eq, ← hTaken, List.length_map]
      _ = (b.all.map Share.ownCount).sum + ∑ session ∈ Finset.range M.state.workers.length,
            (b.all.map (Share.countFor session)).sum := Share.length_flatMap hBegun
      _ = (M.exchanges.map Exchange.counted).sum +
            ∑ session ∈ Finset.range M.state.workers.length, M.state.dispatchedBy session := by
          congr 1
          · rw [← Exchange.sum_counted, ← hShared.answers,
              ← Share.sum_ownCount hNone hShared.settled, hAll, List.map_map]
            rfl
          · exact Finset.sum_congr rfl fun session _ => (hShared.counts session).symm
  · have hMem : y.1 ∈ b.all := hAll ▸ List.mem_map_of_mem hy
    cases hShared.settled y hy with
    | answered hOwn hCount => exact Or.inl ⟨hOwn, _, rfl, hCount⟩
    | failed hOwn hFailed => exact absurd hFailed hNone
    | worker hSession => exact Or.inr ⟨⟨_, hBegun _ hMem _ hSession, hSession⟩, rfl⟩
  · have hMessages := hShared.messages
    rw [hAll, List.flatMap_map] at hMessages
    rwa [hTaken]
  · rw [hTaken]
    exact hKept.conserved.nodup_taken

end Machine

/-! ### A small run -/

/-- One dispatches the next message, and then all, and sends a two; two starts a session, and sends a
zero. -/
def World.nesting : World Unit Nat where
  receive _ _ := .done ()
  invoke
    | 1 => .ask .dispatchNext fun _ => .ask .dispatchAll fun _ =>
        .ask (.enqueue .none (.int 0) none (some 2)) fun _ => .done ()
    | 2 => .ask .start fun _ => .ask (.enqueue .none (.int 0) none (some 0)) fun _ => .done ()
    | _ => .done ()
  records _ := false

/-- A one and two zeros are sent, and all is dispatched; then another zero is sent. -/
def Program.nested : Program Unit Nat Unit :=
  .ask (.enqueue .none (.int 0) none (some 1)) fun _ =>
    .ask (.enqueue .none (.int 0) none (some 0)) fun _ =>
      .ask (.enqueue .none (.int 0) none (some 0)) fun _ =>
        .ask .dispatchAll fun _ =>
          .ask (.enqueue .none (.int 0) none (some 0)) fun _ => .done ()

namespace Machine

/-- Six messages are delivered: by the two dispatches inside the first one each, by the first itself
three, of which the last was sent after a session had begun, and by the worker one. -/
theorem counted_while_nesting :
    ∃ (s : State Unit Nat) (M : Machine Unit Nat), State.make .standard none () = .ok s ∧
      (start s .nested).follow .nesting
        (List.replicate 31 .main ++ List.replicate 5 (.worker 0)) = some M ∧
      M.ledger.called.length = 6 ∧ (M.exchanges.map Exchange.counted).sum = 5 ∧
      M.state.workers.map (·.dispatched) = [1] ∧
      (((start s .nested).shares .nesting
        (List.replicate 31 .main ++ List.replicate 5 (.worker 0))).closed.map fun y =>
          (y.1.session?, y.1.messages.map (·.seq), y.2.map Exchange.counted)) =
        [(none, [1], some 1), (none, [2], some 1), (none, [0, 3, 4], some 3), (some 0, [5], none)] ∧
      Counted M ((start s .nested).shares .nesting
        (List.replicate 31 .main ++ List.replicate 5 (.worker 0))) := by
  have hRun : (after .nesting .standard none () .nested
      (List.replicate 31 .main ++ List.replicate 5 (.worker 0))).map (fun M =>
        (M.dispatcher, M.state.history.all fun o => match o with | .aborted => false | _ => true,
          M.ledger.called.length, (M.exchanges.map Exchange.counted).sum,
          M.state.workers.map (·.dispatched))) = some (none, true, 6, 5, [1]) := by
    decide +kernel
  obtain ⟨M, hAfter, hSeen⟩ := Option.map_eq_some_iff.1 hRun
  simp only [Prod.mk.injEq] at hSeen
  obtain ⟨hOver, hAll, hCalled, hSum, hWorkers⟩ := hSeen
  have hNone : .aborted ∉ M.state.history := fun hFailed => by
    have hOnly := List.all_eq_true.1 hAll _ hFailed
    cases hOnly
  obtain ⟨s, hMake⟩ : ∃ s : State Unit Nat, State.make .standard none () = .ok s := ⟨_, rfl⟩
  rw [after, hMake] at hAfter
  refine ⟨s, M, hMake, hAfter, hCalled, hSum, hWorkers, ?_,
    (counted_of_run hMake hAfter hOver hNone).2⟩
  obtain rfl := Except.ok.inj hMake
  decide +kernel

end Machine

end VirtualLooper
