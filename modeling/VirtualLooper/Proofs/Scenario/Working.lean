import Mathlib.Data.List.Forall2
import VirtualLooper.Proofs.Looper.Alike
import VirtualLooper.Proofs.Looper.Draining
import VirtualLooper.Scenario.Basic

/-!
# The worker of a scenario

While a scenario is played the worker of its session takes a message, looks at the clock and adds a
record, in that order, and the main thread may do anything that it can do in between.  What holds
all the time is that the looper is `InPlay`: nobody is in the middle of a dispatch on the main
thread, no worker is live but the one of the session that is going on, and the messages that were
taken are those that are recorded, in the order in which they were taken, and behind them the one
that the worker has in hand (`Holds`), if it has one.

* `InPlay.workFor`: however much the worker does, the looper stays in play.
* `InPlay.spec_land`: the worker can always put down what it has in hand.
* `InPlay.exists_turn`: a worker with nothing in hand has a turn, and is gone afterwards if it was
  asked to stop.
-/

namespace VirtualLooper.Scenario

/-! ### Workers -/

/-- The only worker that may be live is the one of the session that is going on, and what ends a
worker is a wait that is too long. -/
structure Staffed (settings : Settings) (session : Option Nat) (workers : List Worker) : Prop where
  current : ∀ i, session = some i → i < workers.length
  live : ∀ (i : Nat) (worker : Worker), workers[i]? = some worker → worker.isLive = true →
    session = some i
  died : ∀ (i : Nat) (worker : Worker) e, workers[i]? = some worker → worker.error? = some e →
    settings.checkWait = .error e

namespace Staffed

variable {settings : Settings} {session : Option Nat} {workers : List Worker}

theorem empty (settings : Settings) : Staffed settings none [] :=
  ⟨nofun, fun i _ hAt => (by simp at hAt), fun i _ _ hAt => (by simp at hAt)⟩

theorem modify (h : Staffed settings session workers) (i : Nat) {f : Worker → Worker}
    (hLive : ∀ worker, (f worker).isLive = true → worker.isLive = true)
    (hDied : ∀ worker e, (f worker).error? = some e →
      settings.checkWait = .error e ∨ worker.error? = some e) :
    Staffed settings session (workers.modify i f) where
  current j hj := by
    rw [List.length_modify]
    exact h.current j hj
  live j worker hAt hIsLive := by
    rw [List.getElem?_modify] at hAt
    obtain ⟨before, hBefore, rfl⟩ := Option.map_eq_some_iff.1 hAt
    refine h.live j before hBefore ?_
    split at hIsLive
    · exact hLive before hIsLive
    · exact hIsLive
  died j worker e hAt hError := by
    rw [List.getElem?_modify] at hAt
    obtain ⟨before, hBefore, rfl⟩ := Option.map_eq_some_iff.1 hAt
    split at hError
    · rcases hDied before e hError with hWait | hError
      · exact hWait
      · exact h.died j before e hBefore hError
    · exact h.died j before e hBefore hError

theorem begin (h : Staffed settings none workers) :
    Staffed settings (some workers.length) (workers ++ [Worker.fresh]) where
  current i hi := by
    obtain rfl := Option.some.inj hi
    simp
  live i worker hAt hIsLive := by
    rw [List.getElem?_append] at hAt
    split at hAt
    · cases h.live i worker hAt hIsLive
    · have hLength := (List.getElem?_eq_some_iff.1 hAt).1
      rw [List.length_singleton] at hLength
      congr 1
      omega
  died i worker e hAt hError := by
    rw [List.getElem?_append] at hAt
    split at hAt
    · exact h.died i worker e hAt hError
    · obtain rfl : worker = Worker.fresh := by simpa using List.mem_of_getElem? hAt
      cases hError

theorem close {i : Nat} (h : Staffed settings (some i) workers)
    (hGone : ∀ worker, workers[i]? = some worker → worker.isLive = false) :
    Staffed settings none workers where
  current := nofun
  live j worker hAt hIsLive := by
    obtain rfl := Option.some.inj (h.live j worker hAt hIsLive)
    rw [hGone worker hAt] at hIsLive
    cases hIsLive
  died := h.died

end Staffed

/-- To count one message so many times is to count so many messages. -/
theorem iterate_countFor (i n : Nat) (workers : List Worker) :
    Nat.iterate
        (fun ws : List Worker => ws.modify i fun u => { u with dispatched := u.dispatched + 1 })
        n workers =
      workers.modify i fun u => { u with dispatched := u.dispatched + n } := by
  induction n generalizing workers with
  | zero => exact (List.modify_id i workers).symm
  | succ n ih =>
    rw [Function.iterate_succ_apply, ih, List.modify_modify_eq]
    refine congrArg (workers.modify i) (funext fun u => ?_)
    simp only [Function.comp_apply]
    congr 1
    omega

/-! ### What a worker has in hand -/

/-- A record of a message that was taken: by the same thread, and not before it was taken. -/
structure IsRecordOf (r : Record) (x : Taking) : Prop where
  target : r.target = recorder
  tag : r.tag = x.tag
  thread : r.thread = x.thread
  time : x.time ≤ r.time

theorem target_of_recorded {rs : List Record} {xs : List Taking}
    (h : List.Forall₂ IsRecordOf rs xs) : ∀ r ∈ rs, r.target = recorder := by
  induction h with
  | nil => exact fun r hr => absurd hr List.not_mem_nil
  | cons hHead _ ih => exact List.forall_mem_cons.2 ⟨hHead.target, ih⟩

/-- The thread is the worker of the session that is going on, and live. -/
def AtWork (session : Option Nat) (workers : List Worker) (thread : Thread) : Prop :=
  ∃ i, session = some i ∧ thread = .worker i ∧
    ((workers[i]?).map Worker.isLive).getD false = true

/-- The messages that were taken and are not recorded yet are those that the worker of the session
has in hand.  It has one at most. -/
inductive Holds (session : Option Nat) (workers : List Worker) (now : Int) :
    Hand → List Taking → Prop
  | empty : Holds session workers now .empty []
  | message {m : Message Empty} {x : Taking} (hTag : x.tag = m.tag) (hTime : x.time ≤ now)
      (hWorker : AtWork session workers x.thread) : Holds session workers now (.message m) [x]
  | record {r : Record} {x : Taking} (hRecord : IsRecordOf r x)
      (hWorker : AtWork session workers x.thread) : Holds session workers now (.record r) [x]

theorem AtWork.modify {session : Option Nat} {workers : List Worker} {thread : Thread}
    (h : AtWork session workers thread) (i : Nat) {f : Worker → Worker}
    (hf : ∀ worker, worker.isLive = true → (f worker).isLive = true) :
    AtWork session (workers.modify i f) thread := by
  obtain ⟨j, hSession, hThread, hLive⟩ := h
  refine ⟨j, hSession, hThread, ?_⟩
  rw [List.getElem?_modify]
  cases hWorker : workers[j]? with
  | none => simp [hWorker] at hLive
  | some worker =>
    simp only [hWorker, Option.map_some, Option.getD_some] at hLive ⊢
    split
    · exact hf worker hLive
    · exact hLive

namespace Holds

variable {session : Option Nat} {workers : List Worker} {now : Int} {hand : Hand}
  {late : List Taking}

theorem nothing (hEmpty : hand = .empty) : Holds session workers now hand [] := by
  rw [hEmpty]
  exact .empty

theorem later (h : Holds session workers now hand late) {now' : Int} (hNow : now ≤ now') :
    Holds session workers now' hand late := by
  cases h with
  | empty => exact .empty
  | message hTag hTime hWorker => exact .message hTag (Int.le_trans hTime hNow) hWorker
  | record hRecord hWorker => exact .record hRecord hWorker

theorem modify (h : Holds session workers now hand late) (i : Nat) {f : Worker → Worker}
    (hf : ∀ worker, worker.isLive = true → (f worker).isLive = true) :
    Holds session (workers.modify i f) now hand late := by
  cases h with
  | empty => exact .empty
  | message hTag hTime hWorker => exact .message hTag hTime (hWorker.modify i hf)
  | record hRecord hWorker => exact .record hRecord (hWorker.modify i hf)

theorem length_le_one (h : Holds session workers now hand late) : late.length ≤ 1 := by
  cases h <;> simp

theorem of_none (h : Holds none workers now hand late) : hand = .empty ∧ late = [] := by
  cases h with
  | empty => exact ⟨rfl, rfl⟩
  | message _ _ hWorker =>
    obtain ⟨i, hSession, -⟩ := hWorker
    cases hSession
  | record _ hWorker =>
    obtain ⟨i, hSession, -⟩ := hWorker
    cases hSession

end Holds

/-! ### What holds while a scenario is played -/

theorem quiet_world (strict : Bool) : (world strict).Quiet := ⟨fun _ _ => trivial, nofun⟩

theorem delivery_world (strict : Bool) (m : Message Empty) :
    (world strict).delivery m = .done () := by
  rw [World.delivery]
  cases m.call? with
  | none => rfl
  | some call =>
    cases call with
    | callback c => exact c.elim
    | receiver target tag => rfl

theorem recorded?_world {m : Message Empty} (h : m.target = some recorder) (strict : Bool)
    (thread : Thread) (now : Int) :
    (world strict).recorded? thread now m = some ⟨recorder, m.tag, now, thread⟩ := by
  obtain ⟨due, seq, tag, target, callback⟩ := m
  obtain rfl : target = some recorder := h
  cases callback with
  | none => rfl
  | some c => exact c.elim

theorem dueNow_le (s : Looper) : s.dueNow.length ≤ s.queue.size := by
  rw [← Queue.length_pending]
  exact List.length_filter_le _ _

theorem takings_recordHistory (s : Looper) {o : Occurrence Empty} (ho : o.taking? = none) :
    (s.recordHistory o).takings = s.takings := by
  show (s.history ++ [o]).filterMap Occurrence.taking? = _
  rw [List.filterMap_append, List.filterMap_cons_none ho, List.filterMap_nil, List.append_nil]
  rfl

/-- A looper while a scenario is played.  The messages that were taken are recorded or in the hands
of the worker. -/
structure InPlay (given : Settings) (s : Looper) : Prop where
  settings : s.settings = given
  depth : s.depth = 0
  staffed : Staffed given s.session s.workers
  pending : ∀ m ∈ s.queue.pending, m.target = some recorder
  taken : ∃ early late, s.takings = early ++ late ∧ List.Forall₂ IsRecordOf s.records early ∧
    Holds s.session s.workers s.clock.now s.memory late

namespace InPlay

variable {given : Settings} {s : Looper}

theorem recordsOf_recorder (h : InPlay given s) : s.recordsOf recorder = s.records := by
  obtain ⟨early, late, -, hRecords, -⟩ := h.taken
  exact List.filter_eq_self.2 fun r hr => decide_eq_true (target_of_recorded hRecords r hr)

theorem memory_of_none (h : InPlay given s) (hSession : s.session = none) : s.memory = .empty := by
  obtain ⟨_, _, -, -, hHolds⟩ := h.taken
  exact (hSession ▸ hHolds).of_none.1

theorem taken_of_empty (h : InPlay given s) (hEmpty : s.memory = .empty) :
    List.Forall₂ IsRecordOf s.records s.takings := by
  obtain ⟨early, late, hTakings, hRecords, hHolds⟩ := h.taken
  rw [hEmpty] at hHolds
  cases hHolds
  rwa [hTakings, List.append_nil]

theorem withLog (h : InPlay given s) (log : List (Thread × Notice)) :
    InPlay given { s with log } :=
  ⟨h.settings, h.depth, h.staffed, h.pending, h.taken⟩

theorem note (h : InPlay given s) (thread : Thread) (n : Notice) :
    InPlay given (s.note thread n) :=
  h.withLog _

theorem recordHistory (h : InPlay given s) {o : Occurrence Empty} (ho : o.taking? = none) :
    InPlay given (s.recordHistory o) where
  settings := h.settings
  depth := h.depth
  staffed := h.staffed
  pending := h.pending
  taken := by
    rw [takings_recordHistory s ho]
    exact h.taken

theorem withQueue (h : InPlay given s) (q : Queue Empty)
    (hq : ∀ m ∈ q.pending, m.target = some recorder) : InPlay given { s with queue := q } :=
  ⟨h.settings, h.depth, h.staffed, hq, h.taken⟩

theorem queued (h : InPlay given s) {x : Waiting Empty} (hx : x.target = some recorder) :
    InPlay given (s.queued x) := by
  refine (h.withQueue _ fun m hm => ?_).recordHistory rfl
  rcases List.mem_cons.1 ((s.queue.perm_pending_add _ rfl).mem_iff.1 hm) with rfl | hm
  · exact hx
  · exact h.pending m hm

theorem remove (h : InPlay given s) (tag : Value) (target : Option Target) :
    InPlay given (s.remove tag target).2 := by
  refine (h.withQueue _ fun m hm => ?_).recordHistory rfl
  have hKept := (s.queue.spec_removeTag tag target).2.1.mem_iff.1 hm
  exact h.pending m (List.mem_filter.1 hKept).1

/-- The clock moves, and the worker may hold a message that was taken before. -/
theorem move (h : InPlay given s) (strict : Bool) (thread : Thread) (amount : Value) :
    InPlay given (s.move strict thread amount).2 := by
  obtain ⟨n, log, hPos, hMove⟩ := s.spec_move strict thread amount
  obtain ⟨early, late, hTakings, hRecords, hHolds⟩ := h.taken
  rw [hMove]
  exact ⟨h.settings, h.depth, h.staffed, h.pending, early, late, hTakings, hRecords,
    hHolds.later (Int.le_add_of_nonneg_right hPos)⟩

theorem beginSession (h : InPlay given s) (hSession : s.session = none) (thread : Thread) :
    InPlay given (s.beginSession thread) := by
  obtain ⟨early, late, hTakings, hRecords, hHolds⟩ := h.taken
  obtain ⟨hEmpty, rfl⟩ := (hSession ▸ hHolds).of_none
  exact ⟨h.settings, h.depth, (hSession ▸ h.staffed).begin, h.pending, early, [], hTakings,
    hRecords, .nothing hEmpty⟩

/-- Messages are taken and delivered, and something happens to the workers. -/
theorem served (h : InPlay given s) (hEmpty : s.memory = .empty) {strict : Bool} {thread : Thread}
    {ms : List (Message Empty)} {t : Looper} (hServed : State.Served (world strict) thread ms s t)
    (hStaffed : Staffed given s.session t.workers) : InPlay given t where
  settings := hServed.settings.trans h.settings
  depth := hServed.depth.trans h.depth
  staffed := hServed.session ▸ hStaffed
  pending m hm := h.pending m (hServed.pending.mem_iff.2 (List.mem_append_right ms hm))
  taken := by
    have hMemory : t.memory = .empty := (hServed.memory (delivery_world strict)).trans hEmpty
    have hTarget : ∀ m ∈ ms, m.target = some recorder := fun m hm =>
      h.pending m (hServed.pending.mem_iff.2 (List.mem_append_left _ hm))
    have hTakings : t.takings = s.takings ++
        ms.map fun m => ⟨m.tag, m.seq, m.due, s.clock.now, thread⟩ := by
      rw [State.takings, hServed.history, List.filterMap_append, filterMap_deliveredAt,
        List.map_eq_flatMap]
      rfl
    have hRecords : t.records = s.records ++
        ms.map fun m => ⟨recorder, m.tag, s.clock.now, thread⟩ := by
      rw [hServed.records, List.filterMap_eq_flatMap_toList, List.map_eq_flatMap]
      refine congrArg (s.records ++ ·) (List.flatMap_congr fun m hm => ?_)
      rw [recorded?_world (hTarget m hm)]
      rfl
    refine ⟨t.takings, [], (List.append_nil _).symm, ?_, .nothing hMemory⟩
    rw [hTakings, hRecords]
    refine List.rel_append (h.taken_of_empty hEmpty) ?_
    rw [List.forall₂_map_left_iff, List.forall₂_map_right_iff]
    exact List.forall₂_same.2 fun m _ => ⟨rfl, rfl, rfl, Int.le_refl _⟩

theorem updateWorker (h : InPlay given s) (session : Nat) {f : Worker → Worker}
    (hLive : ∀ worker, (f worker).isLive = worker.isLive)
    (hDied : ∀ worker e, (f worker).error? = some e →
      given.checkWait = .error e ∨ worker.error? = some e) :
    InPlay given (s.updateWorker session f) := by
  obtain ⟨early, late, hTakings, hRecords, hHolds⟩ := h.taken
  have hStaffed := h.staffed.modify session (fun worker => (hLive worker).symm.trans) hDied
  exact ⟨h.settings, h.depth, hStaffed, h.pending, early, late, hTakings, hRecords,
    hHolds.modify session fun worker hWorker => (hLive worker).trans hWorker⟩

/-! ### The end of a worker -/

theorem endWorker (h : InPlay given s) (hEmpty : s.memory = .empty) (session : Nat) {phase : Phase}
    (hGone : ∀ worker : Worker, ({ worker with phase } : Worker).isLive = false)
    (hDied : ∀ (worker : Worker) e, ({ worker with phase } : Worker).error? = some e →
      given.checkWait = .error e) :
    InPlay given (s.updateWorker session fun worker => { worker with phase }) where
  settings := h.settings
  depth := h.depth
  staffed := h.staffed.modify session
    (fun worker hLive => absurd hLive (by rw [hGone worker]; exact Bool.false_ne_true))
    fun worker e he => Or.inl (hDied worker e he)
  pending := h.pending
  taken := ⟨s.takings, [], (List.append_nil _).symm, h.taken_of_empty hEmpty, .nothing hEmpty⟩

theorem exitWorker (h : InPlay given s) (hEmpty : s.memory = .empty) (session : Nat) :
    InPlay given (s.exitWorker session) :=
  (h.endWorker hEmpty session (fun _ => rfl) fun _ _ => by simp [Worker.error?]).note _ _

theorem killWorker (h : InPlay given s) (hEmpty : s.memory = .empty) (session : Nat) {e : Failure}
    (he : given.checkWait = .error e) : InPlay given (s.killWorker session e) := by
  refine ((h.endWorker hEmpty session (fun _ => rfl) fun _ e' he' => ?_).note _ _).note _ _
  rw [he]
  exact congrArg Except.error (Option.some.inj he')

/-! ### Small steps of a worker -/

theorem take (h : InPlay given s) (hEmpty : s.memory = .empty) {session : Nat}
    (hSession : s.session = some session) (hLive : s.isLive session = true) {m : Message Empty}
    {t : Looper} (hTake : s.take? (.worker session) = some (m, t)) :
    InPlay given { t.countFor session with memory := .message m } := by
  obtain ⟨q, hPop, rfl⟩ := State.spec_of_take hTake
  obtain ⟨-, hPerm, -, -⟩ := Queue.spec_of_popAt? hPop
  have hCounted : InPlay given ({ s with queue := q }.countFor session) :=
    (h.withQueue q fun m hm => h.pending m (hPerm.mem_iff.2 (List.mem_cons_of_mem _ hm))
      ).updateWorker session (fun _ => rfl) fun _ _ => Or.inr
  have hWorker : AtWork s.session s.workers (.worker session) := ⟨session, hSession, rfl, hLive⟩
  refine ⟨hCounted.settings, hCounted.depth, hCounted.staffed, hCounted.pending, s.takings, [_],
    ?_, h.taken_of_empty hEmpty, .message (x := ⟨m.tag, m.seq, m.due, s.clock.now, _⟩) rfl
      (Int.le_refl _) (hWorker.modify session fun _ => id)⟩
  show (s.history ++ [_]).filterMap Occurrence.taking? = _
  rw [List.filterMap_append]
  rfl

theorem workOn (h : InPlay given s) {session : Nat} (hSession : s.session = some session)
    (hLive : s.isLive session = true) : InPlay given (workOn session s) := by
  obtain ⟨early, late, hTakings, hRecords, hHolds⟩ := h.taken
  rw [Scenario.workOn]
  cases hMemory : s.memory with
  | message m =>
    rw [hMemory] at hHolds
    cases hHolds with
    | @message _ x hTag hTime hWorker =>
      have hThread : x.thread = .worker session := by
        obtain ⟨i, hCurrent, hThread, -⟩ := hWorker
        rw [hThread, Option.some.inj (hSession.symm.trans hCurrent)]
      refine ⟨h.settings, h.depth, h.staffed, h.pending, early, [x], ?_, hRecords,
        .record ⟨rfl, hTag.symm, hThread.symm, hTime⟩ hWorker⟩
      rw [← hTakings]
      exact takings_recordHistory s rfl
  | record r =>
    rw [hMemory] at hHolds
    cases hHolds with
    | @record _ x hRecord hWorker =>
      exact ⟨h.settings, h.depth, h.staffed, h.pending, early ++ [x], [],
        hTakings.trans (List.append_nil _).symm,
        List.rel_append hRecords (.cons hRecord .nil), .empty⟩
  | empty =>
    simp only
    cases hTake : s.take? (.worker session) with
    | some taken => exact h.take hMemory hSession hLive hTake
    | none =>
      rw [h.settings]
      cases hWait : given.checkWait with
      | error e => exact h.killWorker hMemory session hWait
      | ok _ => exact h

theorem work (h : InPlay given s) : InPlay given (work s) := by
  rw [Scenario.work]
  cases hSession : s.session with
  | none => exact h
  | some session =>
    simp only
    split
    · rename_i hLive
      exact h.workOn hSession hLive
    · exact h

/-- **However much the worker does**, the looper stays in play. -/
theorem workFor (h : InPlay given s) (n : Nat) : InPlay given (workFor n s) := by
  induction n generalizing s with
  | zero => exact h
  | succ n ih => exact ih h.work

theorem work_eq (h : InPlay given s) (hHand : s.memory ≠ .empty) :
    ∃ session, s.session = some session ∧ Scenario.work s = Scenario.workOn session s := by
  obtain ⟨_, _, -, -, hHolds⟩ := h.taken
  have hWorker : ∃ thread, AtWork s.session s.workers thread := by
    cases hMemory : s.memory with
    | empty => exact absurd hMemory hHand
    | _ =>
      rw [hMemory] at hHolds
      cases hHolds
      exact ⟨_, ‹_›⟩
  obtain ⟨thread, session, hSession, -, hLive⟩ := hWorker
  have hLive : s.isLive session = true := hLive
  refine ⟨session, hSession, ?_⟩
  simp only [Scenario.work, hSession, hLive, if_true]

/-- What the worker has in hand it can deliver, which changes neither the queue nor any worker. -/
theorem spec_land (h : InPlay given s) :
    (land s).memory = .empty ∧ (land s).session = s.session ∧ (land s).queue = s.queue ∧
      (land s).workers = s.workers := by
  have hRecord : ∀ (t : Looper) r, InPlay given t → t.memory = .record r →
      Scenario.work t = { t with records := t.records ++ [r], memory := .empty } := by
    intro t r hPlay hMemory
    obtain ⟨session, -, hWork⟩ := hPlay.work_eq (by simp [hMemory])
    rw [hWork, Scenario.workOn, hMemory]
  rw [land]
  cases hMemory : s.memory with
  | empty => exact ⟨hMemory, rfl, rfl, rfl⟩
  | record r =>
    have hLand : Scenario.workFor (Hand.record r).size s = Scenario.work s := rfl
    rw [hLand, hRecord s r h hMemory]
    exact ⟨rfl, rfl, rfl, rfl⟩
  | message m =>
    obtain ⟨session, -, hWork⟩ := h.work_eq (by simp [hMemory])
    have hFirst : Scenario.work s = { s.recordHistory (.called m m.call? (.worker session)) with
        memory := .record ⟨recorder, m.tag, s.clock.now, .worker session⟩ } := by
      rw [hWork, Scenario.workOn, hMemory]
    have hLand : Scenario.workFor (Hand.message m).size s = Scenario.work (Scenario.work s) := rfl
    rw [hLand, hRecord _ _ h.work (by rw [hFirst]), hFirst]
    exact ⟨rfl, rfl, rfl, rfl⟩

/-! ### Turns of a worker -/

/-- In its turn a worker takes all that is due.  Then it looks whether it was asked to stop, and if
it was not, it waits, if it can. -/
theorem exists_drained (h : InPlay given s) (hEmpty : s.memory = .empty) (strict : Bool)
    (session : Nat) {bound : Nat} (hBound : s.dueNow.length < bound) :
    ∃ t, (turn (world strict) bound session s =
        if t.isStopping session then .ok () (t.exitWorker session)
        else
          match given.checkWait with
          | .error e => .ok () (t.killWorker session e)
          | .ok () => .ok () t) ∧
      InPlay given t ∧ t.memory = .empty ∧ t.session = s.session ∧
      t.isStopping session = s.isStopping session := by
  let count (u : Worker) : Worker := { u with dispatched := u.dispatched + s.dueNow.length }
  obtain ⟨t, hDrain, hServed, -, hWorkers⟩ :=
    State.exists_served (quiet_world strict) (perform (world strict) bound (.worker session))
      (.worker session)
      (fun ws => ws.modify session fun u => { u with dispatched := u.dispatched + 1 }) bound s.enter
      hBound
  have hDrain' : drainWith (.worker session) (·.countFor session)
      ((world strict).deliver (perform (world strict) bound (.worker session)) (.worker session))
      bound s.enter = .ok s.dueNow.length t := hDrain
  have hCounted : t.leave.workers = s.workers.modify session count :=
    hWorkers.trans (iterate_countFor session _ s.workers)
  have hPlay : InPlay given t.leave := by
    refine h.served hEmpty hServed.leave ?_
    rw [hCounted]
    exact h.staffed.modify session (fun _ => id) fun _ _ => Or.inr
  refine ⟨t.leave, ?_, hPlay, (hServed.leave.memory (delivery_world strict)).trans hEmpty,
    hServed.session, ?_⟩
  · rw [turn, State.turnWith, hDrain', ← hPlay.settings]
    rfl
  · rw [State.isStopping, State.isStopping, State.worker?, State.worker?, hCounted,
      List.getElem?_modify]
    cases s.workers[session]? <;> simp [count]

theorem isLive_exitWorker (s : Looper) (session : Nat) :
    (s.exitWorker session).isLive session = false := by
  show (((s.workers.modify session _)[session]?).map Worker.isLive).getD false = false
  rw [List.getElem?_modify]
  cases s.workers[session]? <;> simp [Worker.isLive]

theorem exists_last_turn (h : InPlay given s) (hEmpty : s.memory = .empty) (strict : Bool)
    {session bound : Nat} (hBound : s.dueNow.length < bound)
    (hStopping : s.isStopping session = true) :
    ∃ t, turn (world strict) bound session s = .ok () t ∧ InPlay given t ∧ t.memory = .empty ∧
      t.session = s.session ∧ t.isLive session = false := by
  obtain ⟨t, hTurn, hPlay, hMemory, hSession, hSame⟩ := h.exists_drained hEmpty strict session hBound
  rw [hSame, hStopping] at hTurn
  exact ⟨t.exitWorker session, hTurn, hPlay.exitWorker hMemory session, hMemory, hSession,
    isLive_exitWorker t session⟩

end InPlay

end VirtualLooper.Scenario
