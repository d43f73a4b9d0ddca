import Mathlib.Logic.Equiv.Defs
import VirtualLooper.Proofs.Looper.Sending
import VirtualLooper.Proofs.Queue.Image

/-!
# Translation of time

A looper measures time from nowhere: it compares due times with the clock and with each other, and
adds delays to the clock.  So if all times of a looper are shifted by the same amount, and all that
its handlers see and say of times is shifted with them, then it does the same, at shifted times.

A **translation** says by how much time is shifted, and what that makes of the memory of handlers
and of their callbacks.  It acts on everything there is: on messages, requests and replies, on
programs, states and machines.  The shifted program gets to see the looper as the program would see
it before the shift, and its requests are shifted.

* `Translation.enqueueAt_queue`, `popAt?_queue`, `removeTag_queue`: the heap is the same, but for
  the shift.
* `Translation.respond_state`: a shifted request is answered by the shifted reply.
* `Translation.step_machine`, `follow_machine`: the threads of a shifted machine take the shifted
  steps.

There is one place where a looper looks at the clock for its own sake: a move is logged with the
time after it, and one with too many digits cannot be written.  So what is said here of moves is
said of those that can be logged before the shift and after it, or in neither case
(`Exchange.LogsAlike`).
-/

namespace VirtualLooper

/-- Two queues with the same heap that have accepted as many messages are the same. -/
theorem Queue.eq_of_heap {κ : Type} {q q' : Queue κ} (hHeap : q.heap = q'.heap)
    (hAccepted : q.accepted = q'.accepted) : q = q' := by
  obtain ⟨heap, accepted, fresh, distinct⟩ := q
  obtain rfl := hHeap
  obtain rfl := hAccepted
  rfl

/-- A due time as it is given, so much later; what is no time stays as it is. -/
def Value.later (amount : Int) : Value → Value
  | .int n => .int (n + amount)
  | v => v

theorem Value.later_neg (v : Value) (amount : Int) : (v.later amount).later (-amount) = v := by
  cases v with
  | int n =>
    have hBack : n + amount + -amount = n := by omega
    simp only [Value.later, hBack]
  | _ => rfl

/-- A shift of time. -/
structure Translation (σ κ : Type) where
  amount : Int
  /-- What becomes of the memory of handlers. -/
  memory : σ ≃ σ
  /-- What becomes of callbacks. -/
  callback : κ ≃ κ

namespace Translation

variable {σ κ : Type} (T : Translation σ κ)

def symm : Translation σ κ := ⟨-T.amount, T.memory.symm, T.callback.symm⟩

/-! ### Messages -/

def call : Call κ → Call κ
  | .callback c => .callback (T.callback c)
  | .receiver target tag => .receiver target tag

def message (m : Message κ) : Message κ :=
  { m with due := m.due + T.amount, callback := m.callback.map T.callback }

def receipt (r : Receipt) : Receipt := { r with due := r.due + T.amount }

theorem call?_message (m : Message κ) : (T.message m).call? = m.call?.map T.call := by
  obtain ⟨due, seq, tag, target, callback⟩ := m
  cases callback with
  | some c => rfl
  | none => cases target <;> rfl

theorem receipt_message (m : Message κ) : (T.message m).receipt = T.receipt m.receipt := by
  simp only [Message.receipt, message, receipt, Option.isSome_map]

theorem before_message (a b : Message κ) :
    Precedence.before (T.message a) (T.message b) = Precedence.before a b := by
  show (T.message a).before (T.message b) = a.before b
  rw [Bool.eq_iff_iff, Message.before_iff, Message.before_iff]
  simp only [message]
  omega

/-! ### Queues -/

def queue (q : Queue κ) : Queue κ where
  heap := q.heap.map T.before_message
  accepted := q.accepted
  fresh := by
    intro m hm
    rw [Heap.toList_map] at hm
    obtain ⟨x, hx, rfl⟩ := List.mem_map.1 hm
    exact q.fresh x hx
  distinct := by
    rw [Heap.toList_map]
    exact List.pairwise_map.2 q.distinct

@[simp]
theorem pending_queue (q : Queue κ) : (T.queue q).pending = q.pending.map T.message :=
  Heap.toList_map T.before_message q.heap

@[simp]
theorem size_queue (q : Queue κ) : (T.queue q).size = q.size := rfl

@[simp]
theorem nextDue?_queue (q : Queue κ) : (T.queue q).nextDue? = q.nextDue?.map (· + T.amount) := by
  have hFirst : (T.queue q).next? = q.next?.map T.message :=
    Heap.first?_map T.before_message q.heap
  rw [Queue.nextDue?, Queue.nextDue?, hFirst]
  cases q.next? <;> rfl

@[simp]
theorem hasDueAt_queue (q : Queue κ) (now : Int) :
    (T.queue q).hasDueAt (now + T.amount) = q.hasDueAt now := by
  rw [Bool.eq_iff_iff, Queue.hasDueAt_iff, Queue.hasDueAt_iff, pending_queue]
  simp [message]

@[simp]
theorem hasTag_queue (q : Queue κ) (tag : Value) (target : Option Target) :
    (T.queue q).hasTag tag target = q.hasTag tag target := by
  rw [Queue.hasTag, Queue.hasTag, pending_queue, List.any_map]
  rfl

theorem add_queue (q : Queue κ) (m : Message κ) (hm : m.seq = q.accepted) :
    (T.queue q).add (T.message m) hm = T.queue (q.add m hm) :=
  Queue.eq_of_heap (Heap.push_map T.before_message q.heap m) rfl

theorem enqueueAt_queue (q : Queue κ) (tag due : Value) (target : Option Target)
    (callback : Option κ) :
    (T.queue q).enqueueAt tag (due.later T.amount) target (callback.map T.callback) =
      (q.enqueueAt tag due target callback).map fun (m, q) => (T.message m, T.queue q) := by
  cases due with
  | int n =>
    have hAdd := T.add_queue q ⟨n, q.accepted, tag, target, callback⟩ rfl
    simp only [Value.later, Queue.enqueueAt, Except.map, ← hAdd]
    rfl
  | _ => rfl

theorem pop?_queue (q : Queue κ) :
    (T.queue q).pop? = q.pop?.map fun (m, q) => (T.message m, T.queue q) := by
  have hHeap := Heap.pop?_map T.before_message q.heap
  rw [Queue.pop?, Queue.pop?]
  split
  · rename_i hNone
    rw [queue, hHeap, Option.map_eq_none_iff] at hNone
    split
    · rfl
    · rename_i hSome
      rw [hNone] at hSome
      cases hSome
  · rename_i m rest hSome
    rw [queue, hHeap, Option.map_eq_some_iff] at hSome
    obtain ⟨⟨m, rest⟩, hPop, hImage⟩ := hSome
    obtain ⟨rfl, rfl⟩ := Prod.mk.inj hImage
    split
    · rename_i hNone
      rw [hPop] at hNone
      cases hNone
    · rename_i hSome
      obtain ⟨rfl, rfl⟩ := Prod.mk.inj (Option.some.inj (hPop.symm.trans hSome))
      exact congrArg some (Prod.ext rfl (Queue.eq_of_heap rfl rfl))

theorem popAt?_queue (q : Queue κ) (now : Int) :
    (T.queue q).popAt? (now + T.amount) =
      (q.popAt? now).map fun (m, q) => (T.message m, T.queue q) := by
  rw [Queue.popAt?, Queue.popAt?, pop?_queue]
  cases q.pop? with
  | none => rfl
  | some taken =>
    have hDue : (T.message taken.1).due ≤ now + T.amount ↔ taken.1.due ≤ now := by
      simp only [message]
      omega
    simp only [Option.map_some, Option.filter_some, hDue]
    split <;> rfl

theorem removeTag_queue (q : Queue κ) (tag : Value) (target : Option Target) :
    (T.queue q).removeTag tag target =
      ((q.removeTag tag target).1, T.queue (q.removeTag tag target).2) := by
  have hKept : (T.queue q).heap.filter (fun m => !m.hasTag tag target) =
      (q.heap.filter fun m => !m.hasTag tag target).map T.before_message :=
    Heap.filter_map T.before_message _ q.heap
  have hSize : ((T.queue q).heap.filter fun m => !m.hasTag tag target).size =
      (q.heap.filter fun m => !m.hasTag tag target).size := by
    rw [hKept]
    rfl
  simp only [Queue.removeTag, hSize, size_queue]
  split
  · rfl
  · exact Prod.ext rfl (Queue.eq_of_heap hKept rfl)

/-! ### States -/

def record (r : Record) : Record := { r with time := r.time + T.amount }

def occurrence : Occurrence κ → Occurrence κ
  | .accepted m time => .accepted (T.message m) (time + T.amount)
  | .removed ms => .removed (ms.map T.message)
  | .taken m time thread => .taken (T.message m) (time + T.amount) thread
  | .called m call thread => .called (T.message m) (call.map T.call) thread
  | .handed target tag time => .handed target tag (time + T.amount)
  | .forgotten target => .forgotten target
  | .returned count => .returned count
  | .aborted => .aborted
  | .ended session => .ended session

def notice : Notice → Notice
  | .moved amount now => .moved amount (now + T.amount)
  | n => n

def settings (s : Settings) : Settings := { s with startTime := s.startTime.later T.amount }

def sight (s : Sight) : Sight :=
  { s with now := s.now + T.amount, nextDue := s.nextDue.map (· + T.amount) }

def state (s : State σ κ) : State σ κ where
  settings := T.settings s.settings
  fallback := s.fallback
  clock := ⟨s.clock.now + T.amount⟩
  queue := T.queue s.queue
  workers := s.workers
  session := s.session
  depth := s.depth
  records := s.records.map T.record
  log := s.log.map fun entry => (entry.1, T.notice entry.2)
  history := s.history.map T.occurrence
  memory := T.memory s.memory

theorem make_state (settings : Settings) (fallback : Option Target) (memory : σ) {time : Int}
    (hStart : settings.startTime = .int time) (hTime : 0 ≤ time) (hShifted : 0 ≤ time + T.amount) :
    State.make (T.settings settings) fallback (T.memory memory) =
      (State.make settings fallback memory).map T.state := by
  have hBefore : ¬ time < 0 := by omega
  have hAfter : ¬ time + T.amount < 0 := by omega
  have hStart' : (T.settings settings).startTime = .int (time + T.amount) := by
    show settings.startTime.later T.amount = _
    rw [hStart]
    rfl
  simp [State.make, Clock.start, checkNonNegative, hStart, hStart', hBefore, hAfter, Except.map,
    state, Queue.empty, queue, Heap.empty, Heap.map]

section States

variable (s : State σ κ) (thread : Thread)

theorem sight_state : (T.state s).sight thread = T.sight (s.sight thread) := by
  simp [State.sight, sight, state, State.running]

theorem note_state (n : Notice) :
    (T.state s).note thread (T.notice n) = T.state (s.note thread n) := by
  simp [State.note, state]

theorem recordHistory_state (o : Occurrence κ) :
    (T.state s).recordHistory (T.occurrence o) = T.state (s.recordHistory o) := by
  simp [State.recordHistory, state]

theorem accept_state (m : Message κ) (q : Queue κ) :
    (T.state s).accept (T.message m) (T.queue q) = T.state (s.accept m q) := by
  simp [State.accept, State.recordHistory, state, occurrence]

theorem resolve_state (target : Option Target) (callback : Option κ) :
    (T.state s).resolve target (callback.map T.callback) = s.resolve target callback := by
  have hFallback : (T.state s).fallback = s.fallback := rfl
  unfold State.resolve
  rw [hFallback]
  cases target.or s.fallback <;> cases callback <;> rfl

theorem enqueueAt_state (tag due : Value) (target : Option Target) (callback : Option κ) :
    (T.state s).enqueueAt tag (due.later T.amount) target (callback.map T.callback) =
      (s.enqueueAt tag due target callback).map fun (r, s) => (T.receipt r, T.state s) := by
  rw [State.enqueueAt, State.enqueueAt, resolve_state]
  cases s.resolve target callback with
  | error e => rfl
  | ok found =>
    have hQueued : (T.state s).queue.enqueueAt tag (due.later T.amount) found
          (callback.map T.callback) =
        (s.queue.enqueueAt tag due found callback).map fun (m, q) => (T.message m, T.queue q) :=
      T.enqueueAt_queue s.queue tag due found callback
    simp only [bind, Except.bind, hQueued]
    cases s.queue.enqueueAt tag due found callback with
    | error e => rfl
    | ok queued =>
      simp only [Except.map, pure, Except.pure, receipt_message, accept_state]

theorem enqueue_state (tag delay : Value) (target : Option Target) (callback : Option κ) :
    (T.state s).enqueue tag delay target (callback.map T.callback) =
      (s.enqueue tag delay target callback).map fun (r, s) => (T.receipt r, T.state s) := by
  rw [State.enqueue_eq, State.enqueue_eq, resolve_state]
  cases s.resolve target callback with
  | error e => rfl
  | ok found =>
    cases checkNonNegative .delay delay with
    | error e => rfl
    | ok n =>
      have hLater : (T.state s).clock.now + n = s.clock.now + n + T.amount := by
        show s.clock.now + T.amount + n = _
        omega
      simp only [Except.bind, hLater]
      exact T.enqueueAt_state s tag (.int (s.clock.now + n)) target callback

theorem remove_state (tag : Value) (target : Option Target) :
    (T.state s).remove tag target =
      ((s.remove tag target).1, T.state (s.remove tag target).2) := by
  have hGone : (T.state s).queue.pending.filter (fun m => m.hasTag tag target) =
      (s.queue.pending.filter fun m => m.hasTag tag target).map T.message := by
    rw [state, pending_queue, List.filter_map]
    rfl
  have hQueue : (T.state s).queue.removeTag tag target =
      ((s.queue.removeTag tag target).1, T.queue (s.queue.removeTag tag target).2) :=
    T.removeTag_queue s.queue tag target
  simp only [State.remove, hGone, hQueue]
  refine Prod.ext rfl ?_
  exact T.recordHistory_state { s with queue := (s.queue.removeTag tag target).2 }
    (.removed (s.queue.pending.filter fun m => m.hasTag tag target))

theorem take?_state :
    (T.state s).take? thread = (s.take? thread).map (Prod.map T.message T.state) := by
  have hPop : (T.state s).queue.popAt? (T.state s).clock.now =
      (s.queue.popAt? s.clock.now).map fun (m, q) => (T.message m, T.queue q) :=
    T.popAt?_queue s.queue s.clock.now
  rw [State.take?, State.take?, hPop, Option.map_map, Option.map_map]
  refine congrArg (fun f => (s.queue.popAt? s.clock.now).map f) (funext fun x => ?_)
  exact Prod.ext rfl
    (T.recordHistory_state { s with queue := x.2 } (.taken x.1 s.clock.now thread))

/-- Which records are of a receiver does not depend on when they were made. -/
theorem recordsOf_state (target : Target) :
    (T.state s).recordsOf target = (s.recordsOf target).map T.record := by
  simp only [State.recordsOf, Record.of, state, List.filter_map]
  rfl

theorem reset_state (target : Target) : (T.state s).reset target = T.state (s.reset target) := by
  simp only [State.reset, State.recordHistory, state, List.filter_map, List.map_append]
  rfl

theorem record_state (target : Target) (tag : Value) :
    (T.state s).record target tag thread = T.state (s.record target tag thread) := by
  simp [State.record, state, record]

theorem beginSession_state :
    (T.state s).beginSession thread = T.state (s.beginSession thread) := by
  simp [State.beginSession, State.note, state, notice]

theorem endSession_state (session : Nat) :
    (T.state s).endSession session = T.state (s.endSession session) := by
  simp [State.endSession, State.recordHistory, state, occurrence]

theorem exitWorker_state (session : Nat) :
    (T.state s).exitWorker session = T.state (s.exitWorker session) := by
  simp [State.exitWorker, State.note, state, notice, State.updateWorker, State.dispatchedBy,
    State.worker?]

theorem killWorker_state (session : Nat) (e : Failure) :
    (T.state s).killWorker session e = T.state (s.killWorker session e) := by
  simp [State.killWorker, State.note, state, notice, State.updateWorker, State.dispatchedBy,
    State.worker?]

theorem closeSession_state (session : Nat) :
    (T.state s).closeSession thread session = T.state (s.closeSession thread session) := by
  rw [State.closeSession, State.closeSession, endSession_state]
  exact T.note_state (s.endSession session) thread (.stopped (s.dispatchedBy session))

theorem stopResult_state (session : Nat) :
    (T.state s).stopResult session = s.stopResult session := rfl

theorem hasThread_state : (T.state s).hasThread thread = s.hasThread thread := by
  cases thread <;> rfl

end States

/-! ### Replies -/

def reply : Reply → Reply
  | .nothing => .nothing
  | .receipt r => .receipt (T.receipt r)
  | .flag b => .flag b
  | .count n => .count n
  | .time t => .time (t + T.amount)
  | .records rs => .records (rs.map T.record)

def result (r : Except Failure Reply) : Except Failure Reply := r.map T.reply

theorem symm_symm : T.symm.symm = T := by
  show (⟨- -T.amount, T.memory, T.callback⟩ : Translation σ κ) = T
  rw [Int.neg_neg]

theorem symm_time (time : Int) : time + T.amount + T.symm.amount = time := by
  show time + T.amount + -T.amount = time
  omega

theorem symm_record (r : Record) : T.symm.record (T.record r) = r := by
  simp only [record, symm_time]

theorem symm_reply (r : Reply) : T.symm.reply (T.reply r) = r := by
  cases r with
  | records rs =>
    have hRecords : T.symm.record ∘ T.record = id := funext T.symm_record
    simp only [reply, List.map_map, hRecords, List.map_id]
  | _ => simp only [reply, receipt, symm_time]

theorem reply_symm (r : Reply) : T.reply (T.symm.reply r) = r := by
  have hBack := T.symm.symm_reply r
  rwa [symm_symm] at hBack

theorem symm_result (r : Except Failure Reply) : T.symm.result (T.result r) = r := by
  cases r with
  | error e => rfl
  | ok answer => exact congrArg Except.ok (T.symm_reply answer)

/-! ### Requests -/

def request : Request κ → Request κ
  | .enqueue tag delay target callback => .enqueue tag delay target (callback.map T.callback)
  | .enqueueAt tag due target callback =>
    .enqueueAt tag (due.later T.amount) target (callback.map T.callback)
  | .has tag target => .has tag target
  | .remove tag target => .remove tag target
  | .advance amount => .advance amount
  | .dispatchAll => .dispatchAll
  | .dispatchNext => .dispatchNext
  | .start => .start
  | .stop => .stop
  | .handle target tag => .handle target tag
  | .records target used => .records target used
  | .reset target => .reset target

theorem result_stopResult (s : State σ κ) (session : Nat) :
    T.result (s.stopResult session) = s.stopResult session := by
  rw [State.stopResult]
  split
  · rfl
  · split <;> rfl

/-! ### Programs -/

/-- The shifted program, with the given result instead of its own. -/
def program {α β : Type} (f : α → β) : Program σ κ α → Program σ κ β
  | .done a => .done (f a)
  | .fail e => .fail e
  | .load next => .load fun memory => program f (next (T.memory.symm memory))
  | .store memory next => .store (T.memory memory) (program f next)
  | .look next => .look fun sight => program f (next (T.symm.sight sight))
  | .ask r next => .ask (T.request r) fun reply => program f (next (T.symm.result reply))

def next (next : Except Failure Reply → Program σ κ Unit) :
    Except Failure Reply → Program σ κ Unit := fun r => T.program id (next (T.symm.result r))

theorem next_result (next : Except Failure Reply → Program σ κ Unit) (r : Except Failure Reply) :
    T.next next (T.result r) = T.program id (next r) := by
  rw [Translation.next, symm_result]

theorem symm_sight (s : Sight) : T.symm.sight (T.sight s) = s := by
  have hTimes : (fun time => time + T.symm.amount) ∘ (fun time => time + T.amount) = id :=
    funext T.symm_time
  simp only [sight, symm_time, Option.map_map, hTimes, Option.map_id_fun, id_eq]

def world (w : World σ κ) : World σ κ where
  receive target tag := T.program id (w.receive target tag)
  invoke c := T.program id (w.invoke (T.callback.symm c))
  records := w.records
  strictLog := w.strictLog

section Worlds

variable (w : World σ κ) (s : State σ κ) (thread : Thread)

theorem program_world (call : Call κ) :
    (T.world w).program (T.call call) = T.program id (w.program call) := by
  cases call with
  | callback c => simp [World.program, world, Translation.call]
  | receiver target tag => rfl

theorem delivery_world (m : Message κ) :
    (T.world w).delivery (T.message m) = T.program id (w.delivery m) := by
  rw [World.delivery, World.delivery, call?_message]
  cases m.call? with
  | none => rfl
  | some call => exact T.program_world w call

theorem atCall_state (call : Call κ) :
    (T.world w).atCall thread (T.call call) (T.state s) = T.state (w.atCall thread call s) := by
  cases call with
  | callback c => rfl
  | receiver target tag =>
    simp only [World.atCall, Translation.call, world, record_state]
    split <;> rfl

theorem atDelivery_state (m : Message κ) :
    (T.world w).atDelivery thread (T.message m) (T.state s) =
      T.state (w.atDelivery thread m s) := by
  have hCalled : (T.state s).recordHistory (.called (T.message m) (m.call?.map T.call) thread) =
      T.state (s.recordHistory (.called m m.call? thread)) :=
    T.recordHistory_state s (.called m m.call? thread)
  rw [World.atDelivery, World.atDelivery, call?_message, hCalled]
  cases m.call? with
  | none => rfl
  | some call => exact T.atCall_state w _ thread call

end Worlds

end Translation

def Taking.later (amount : Int) (d : Taking) : Taking :=
  { d with due := d.due + amount, time := d.time + amount }

theorem Translation.takings_state {σ κ : Type} (T : Translation σ κ) (s : State σ κ) :
    (T.state s).takings = s.takings.map (Taking.later T.amount) := by
  have hTaking (o : Occurrence κ) :
      (T.occurrence o).taking? = o.taking?.map (Taking.later T.amount) := by
    cases o <;> rfl
  simp only [State.takings, Translation.state, List.filterMap_map, List.map_filterMap]
  exact congrArg (fun f => s.history.filterMap f) (funext hTaking)

/-- Can a move be logged before a shift of time and after it, or in neither case? -/
def Exchange.LogsAlike {κ : Type} (amount : Int) (x : Exchange κ) : Prop :=
  ∀ n : Int, x.request = .advance (.int n) → 0 ≤ n →
    (Notice.moved n (x.time + amount)).isWritable = (Notice.moved n x.time).isWritable

theorem Exchange.logsAlike_of_short {κ : Type} {amount : Int} {x : Exchange κ}
    (hTime : Value.isShort x.time = true) (hShifted : Value.isShort (x.time + amount) = true) :
    x.LogsAlike amount := by
  intro n _ _
  simp only [Notice.isWritable, hTime, hShifted]

namespace Translation

variable {σ κ : Type} (T : Translation σ κ)

/-! ### Answers -/

def response : Response σ κ → Response σ κ
  | .reply result s => .reply (T.result result) (T.state s)
  | .deliverAll => .deliverAll
  | .deliverNext => .deliverNext
  | .stop session => .stop session
  | .call target tag => .call target tag

section Answers

variable (w : World σ κ) (s : State σ κ) (thread : Thread)

theorem advance_state (amount : Value) :
    (T.state s).advance amount = (s.advance amount).map T.state := by
  rw [State.advance, State.advance, Clock.advance, Clock.advance]
  cases checkNonNegative .amount amount with
  | error e => rfl
  | ok n =>
    have hNow : s.clock.now + T.amount + n = s.clock.now + n + T.amount := by omega
    simp only [Except.map, state, hNow]

theorem write_state (strict : Bool) (n : Notice)
    (hWritable : strict = true → (T.notice n).isWritable = n.isWritable) :
    (T.state s).write strict thread (T.notice n) = (s.write strict thread n).map T.state := by
  have hFails : (strict && !(T.notice n).isWritable) = (strict && !n.isWritable) := by
    cases strict with
    | true => rw [hWritable rfl]
    | false => rfl
  rw [State.write, State.write, hFails]
  split
  · rfl
  · exact congrArg Except.ok (T.note_state s thread n)

/-- A move can fail after the clock has moved, if the log is strict and the move cannot be
logged. -/
theorem move_state (strict : Bool) (amount : Value)
    (hLogs : strict = true → (⟨thread, .advance amount, (s.move strict thread amount).1,
      (s.move strict thread amount).2.clock.now⟩ : Exchange κ).LogsAlike T.amount) :
    (T.state s).move strict thread amount =
      (T.result (s.move strict thread amount).1, T.state (s.move strict thread amount).2) := by
  cases hMoved : s.advance amount with
  | error e => simp only [State.move, advance_state, hMoved, Except.map, result]
  | ok moved =>
    obtain ⟨n, hPos, rfl, hClock⟩ := State.spec_of_advance hMoved
    have hNow : moved.clock.now = s.clock.now + n := congrArg (fun s => s.clock.now) hClock
    have hAmount : moved.clock.now - s.clock.now = n := by omega
    have hTime : (s.move strict thread (.int n)).2.clock.now = moved.clock.now := by
      simp only [State.move, hMoved]
      rcases moved.write_eq strict thread
          (.moved (moved.clock.now - s.clock.now) moved.clock.now) with hWrite | ⟨hWrite, -⟩
      · rw [hWrite]
        rfl
      · rw [hWrite]
    have hShifted : (T.state moved).clock.now - (T.state s).clock.now =
        moved.clock.now - s.clock.now := by
      show moved.clock.now + T.amount - (s.clock.now + T.amount) = _
      omega
    have hWrite : (T.state moved).write strict thread
          (.moved (moved.clock.now - s.clock.now) (T.state moved).clock.now) =
        (moved.write strict thread
          (.moved (moved.clock.now - s.clock.now) moved.clock.now)).map T.state := by
      refine T.write_state moved thread strict (.moved _ moved.clock.now) fun hStrict => ?_
      have hWritable := hLogs hStrict n rfl hPos
      rwa [hTime, ← hAmount] at hWritable
    simp only [State.move, advance_state, hMoved, Except.map, hShifted, hWrite]
    cases moved.write strict thread (.moved _ moved.clock.now) <;> rfl

theorem ofExcept_state {α : Type} {f : α → Reply} {g : α → α} (hf : ∀ a, f (g a) = T.reply (f a))
    (o : Except Failure (α × State σ κ)) :
    Response.ofExcept (T.state s)
        ((o.map fun (a, s) => (g a, T.state s)).map fun (a, s) => (f a, s)) =
      T.response (.ofExcept s (o.map fun (a, s) => (f a, s))) := by
  cases o with
  | error e => rfl
  | ok queued => simp only [Except.map, Response.ofExcept, hf]; rfl

/-- **A shifted request is answered by the shifted reply.** -/
theorem respond_state {r : Request κ}
    (hLogs : w.strictLog = true → ∀ result s', s.respond w thread r = .reply result s' →
      (⟨thread, r, result, s'.clock.now⟩ : Exchange κ).LogsAlike T.amount) :
    (T.state s).respond (T.world w) thread (T.request r) = T.response (s.respond w thread r) := by
  cases r with
  | enqueue tag delay target callback =>
    simp only [request, State.respond, enqueue_state]
    exact T.ofExcept_state s (g := T.receipt) (fun _ => rfl) _
  | enqueueAt tag due target callback =>
    simp only [request, State.respond, enqueueAt_state]
    exact T.ofExcept_state s (g := T.receipt) (fun _ => rfl) _
  | has tag target =>
    have hHas : (T.state s).queue.hasTag tag target = s.queue.hasTag tag target :=
      T.hasTag_queue s.queue tag target
    simp only [request, State.respond, hHas]
    rfl
  | remove tag target =>
    simp only [request, State.respond, remove_state]
    rfl
  | advance amount =>
    have hMove := T.move_state s thread w.strictLog amount fun hStrict =>
      hLogs hStrict _ _ rfl
    have hStrict : (T.world w).strictLog = w.strictLog := rfl
    simp only [request, State.respond, hStrict, hMove]
    rfl
  | dispatchAll =>
    have hRunning : (T.state s).running = s.running := rfl
    simp only [request, State.respond, hRunning]
    split <;> rfl
  | dispatchNext =>
    have hRunning : (T.state s).running = s.running := rfl
    simp only [request, State.respond, hRunning]
    split <;> rfl
  | start =>
    have hRunning : (T.state s).running = s.running := rfl
    simp only [request, State.respond, hRunning, beginSession_state]
    split <;> rfl
  | stop =>
    have hSession : (T.state s).session = s.session := rfl
    simp only [request, State.respond, hSession]
    cases s.session <;> rfl
  | handle target tag => rfl
  | records target used =>
    simp only [request, State.respond, world, recordsOf_state]
    split <;> rfl
  | reset target =>
    simp only [request, State.respond, world, reset_state]
    split <;> rfl

end Answers

/-! ### Machines -/

def loop : Loop σ κ → Loop σ κ
  | .all count next => .all count (T.next next)
  | .one next => .one (T.next next)
  | .worker session last => .worker session last

def caller : Caller σ κ → Caller σ κ
  | .delivery m loop => .delivery (T.message m) (T.loop loop)
  | .handling target tag next => .handling target tag (T.next next)

def control : Control σ κ → Control σ κ
  | .run p => .run (T.program id p)
  | .acquire loop => .acquire (T.loop loop)
  | .take loop => .take (T.loop loop)
  | .deliver m loop => .deliver (T.message m) (T.loop loop)
  | .wait session => .wait session
  | .halt session next => .halt session (T.next next)
  | .join session next => .join session (T.next next)
  | .ended result => .ended result

def task (t : Task σ κ) : Task σ κ := ⟨T.control t.control, t.callers.map T.caller⟩

def exchange (x : Exchange κ) : Exchange κ :=
  ⟨x.thread, T.request x.request, T.result x.result, x.time + T.amount⟩

def machine (M : Machine σ κ) : Machine σ κ where
  state := T.state M.state
  tasks thread := T.task (M.tasks thread)
  dispatcher := M.dispatcher
  exchanges := M.exchanges.map T.exchange

section Machines

variable (w : World σ κ) (M : Machine σ κ) (thread : Thread) (callers : List (Caller σ κ))

theorem put_machine (t : Task σ κ) (s : State σ κ) :
    (T.machine M).put thread (T.task t) (T.state s) = T.machine (M.put thread t s) := by
  have hTasks : ((T.machine M).put thread (T.task t) (T.state s)).tasks =
      (T.machine (M.put thread t s)).tasks := by
    funext other
    simp only [Machine.put, machine]
    split <;> rfl
  exact congrArg (fun tasks => (⟨T.state s, tasks, M.dispatcher, M.exchanges.map T.exchange⟩ :
    Machine σ κ)) hTasks

theorem answer_machine (r : Request κ) (result : Except Failure Reply)
    (next : Except Failure Reply → Program σ κ Unit) (s : State σ κ) :
    (T.machine M).answer thread (T.request r) (T.result result) (T.next next)
        (callers.map T.caller) (T.state s) =
      T.machine (M.answer thread r result next callers s) := by
  have hPut := T.put_machine M thread ⟨.run (next result), callers⟩ s
  have hTask : T.task ⟨.run (next result), callers⟩ =
      ⟨.run (T.next next (T.result result)), callers.map T.caller⟩ := by
    rw [next_result]
    rfl
  rw [hTask] at hPut
  simp only [Machine.answer, hPut]
  simp [machine, exchange, state, Machine.put]

theorem exhausted_machine (loop : Loop σ κ) :
    (T.machine M).exhausted thread (callers.map T.caller) (T.loop loop) =
      T.machine (M.exhausted thread callers loop) := by
  cases loop with
  | all count next =>
    have hReturned := T.recordHistory_state M.release.state (.returned count)
    have hNoted := T.note_state (M.release.state.recordHistory (.returned count)) thread
      (.delivered count)
    rw [← hReturned] at hNoted
    have hAnswer := T.answer_machine M.release thread callers .dispatchAll (.ok (.count count)) next
      ((M.release.state.recordHistory (.returned count)).note thread (.delivered count))
    rw [← hNoted] at hAnswer
    exact hAnswer
  | one next =>
    exact T.answer_machine M.release thread callers .dispatchNext (.ok (.flag false)) next
      M.release.state
  | worker session last =>
    cases last with
    | false => exact T.put_machine M.release thread ⟨.wait session, callers⟩ M.release.state
    | true =>
      have hPut := T.put_machine M.release thread ⟨.ended (.ok ()), callers⟩
        (M.release.state.exitWorker session)
      rw [← exitWorker_state] at hPut
      exact hPut

theorem delivered_machine (loop : Loop σ κ) :
    (T.machine M).delivered thread (callers.map T.caller) (T.loop loop) =
      T.machine (M.delivered thread callers loop) := by
  cases loop with
  | one next =>
    have hAnswer := T.answer_machine M.release thread callers .dispatchNext (.ok (.flag true)) next
      (M.release.state.recordHistory (.returned 1))
    rw [← recordHistory_state] at hAnswer
    exact hAnswer
  | all count next => exact T.put_machine M thread ⟨.take (.all count next), callers⟩ M.state
  | worker session last =>
    exact T.put_machine M thread ⟨.take (.worker session last), callers⟩ M.state

theorem aborted_machine (e : Failure) (loop : Loop σ κ) :
    (T.machine M).aborted thread e (callers.map T.caller) (T.loop loop) =
      T.machine (M.aborted thread e callers loop) := by
  cases loop with
  | all count next =>
    have hAnswer := T.answer_machine M.release thread callers .dispatchAll (.error e) next
      (M.release.state.recordHistory .aborted)
    rw [← recordHistory_state] at hAnswer
    exact hAnswer
  | one next =>
    have hAnswer := T.answer_machine M.release thread callers .dispatchNext (.error e) next
      (M.release.state.recordHistory .aborted)
    rw [← recordHistory_state] at hAnswer
    exact hAnswer
  | worker session last =>
    have hPut := T.put_machine M.release thread ⟨.ended (.error e), callers⟩
      (M.release.state.killWorker session e)
    rw [← killWorker_state] at hPut
    exact hPut

theorem finished_machine (result : Except Failure Unit) :
    (T.machine M).finished thread result (callers.map T.caller) =
      T.machine (M.finished thread result callers) := by
  cases callers with
  | nil => exact T.put_machine M thread ⟨.ended result, []⟩ M.state
  | cons c callers =>
    cases c with
    | handling target tag next =>
      have hAnswer := T.answer_machine M thread callers (.handle target tag)
        (result.map fun _ => .nothing) next M.state
      have hResult : T.result (result.map fun _ => Reply.nothing) =
          result.map fun _ => .nothing := by
        cases result <;> rfl
      rw [hResult] at hAnswer
      exact hAnswer
    | delivery m loop =>
      cases result with
      | ok u => exact T.delivered_machine M thread callers loop
      | error e => exact T.aborted_machine M thread callers e loop

theorem ask_machine {r : Request κ} {next : Except Failure Reply → Program σ κ Unit}
    (hLogs : w.strictLog = true →
      ∀ x ∈ (M.ask w thread r next callers).exchanges, x.LogsAlike T.amount) :
    (T.machine M).ask (T.world w) thread (T.request r) (T.next next) (callers.map T.caller) =
      T.machine (M.ask w thread r next callers) := by
  have hRespond := T.respond_state w M.state thread (r := r) ?_
  · have hRespond' : (T.machine M).state.respond (T.world w) thread (T.request r) =
        T.response (M.state.respond w thread r) := hRespond
    rw [Machine.ask, Machine.ask, hRespond']
    cases M.state.respond w thread r with
    | reply result s => exact T.answer_machine M thread callers r result next s
    | deliverAll => exact T.put_machine M thread ⟨.acquire (.all 0 next), callers⟩ M.state
    | deliverNext => exact T.put_machine M thread ⟨.acquire (.one next), callers⟩ M.state
    | stop session => exact T.put_machine M thread ⟨.halt session next, callers⟩ M.state
    | call target tag =>
      have hPut := T.put_machine M thread
        ⟨.run (w.program (.receiver target tag)), .handling target tag next :: callers⟩
        (w.atCall thread (.receiver target tag)
          (M.state.recordHistory (.handed target tag M.state.clock.now)))
      rw [← atCall_state, ← recordHistory_state] at hPut
      exact hPut
  · intro hStrict result s hReply
    refine hLogs hStrict _ ?_
    simp [Machine.ask, hReply, Machine.answer]

theorem proceed_machine {p : Program σ κ Unit}
    (hLogs : w.strictLog = true →
      ∀ x ∈ (M.proceed w thread callers p).exchanges, x.LogsAlike T.amount) :
    (T.machine M).proceed (T.world w) thread (callers.map T.caller) (T.program id p) =
      T.machine (M.proceed w thread callers p) := by
  cases p with
  | done u => exact T.finished_machine M thread callers (.ok ())
  | fail e => exact T.finished_machine M thread callers (.error e)
  | load next =>
    have hPut := T.put_machine M thread ⟨.run (next M.state.memory), callers⟩ M.state
    have hTask : T.task ⟨.run (next M.state.memory), callers⟩ =
        ⟨.run (T.program id (next (T.memory.symm (T.memory M.state.memory)))),
          callers.map T.caller⟩ := by
      rw [Equiv.symm_apply_apply]
      rfl
    rw [hTask] at hPut
    exact hPut
  | store memory next => exact T.put_machine M thread ⟨.run next, callers⟩ { M.state with memory }
  | look next =>
    have hPut := T.put_machine M thread ⟨.run (next (M.state.sight thread)), callers⟩ M.state
    have hTask : T.task ⟨.run (next (M.state.sight thread)), callers⟩ =
        ⟨.run (T.program id (next (T.symm.sight ((T.state M.state).sight thread)))),
          callers.map T.caller⟩ := by
      rw [sight_state, symm_sight]
      rfl
    rw [hTask] at hPut
    exact hPut
  | ask r next => exact T.ask_machine w M thread callers hLogs

theorem idle_machine (session : Nat) :
    (T.machine M).idle thread (callers.map T.caller) session =
      T.machine (M.idle thread callers session) := by
  have hStopping : (T.machine M).state.isStopping session = M.state.isStopping session := rfl
  have hDue : (T.machine M).state.queue.hasDueAt (T.machine M).state.clock.now =
      M.state.queue.hasDueAt M.state.clock.now :=
    T.hasDueAt_queue M.state.queue M.state.clock.now
  have hWait : (T.machine M).state.settings.checkWait = M.state.settings.checkWait := rfl
  simp only [Machine.idle, hStopping, hDue, hWait]
  split
  · exact T.put_machine M thread ⟨.acquire (.worker session true), callers⟩ M.state
  · split
    · exact T.put_machine M thread ⟨.acquire (.worker session false), callers⟩ M.state
    · split
      · rename_i e hFails
        have hPut := T.put_machine M thread ⟨.ended (.error e), callers⟩
          (M.state.killWorker session e)
        rw [← killWorker_state] at hPut
        exact hPut
      · exact T.put_machine M thread ⟨.acquire (.worker session false), callers⟩ M.state

/-- **The shifted machine takes the shifted step**, or has to wait if the machine has to. -/
theorem step_machine
    (hLogs : w.strictLog = true →
      ∀ M', M.step w thread = some M' → ∀ x ∈ M'.exchanges, x.LogsAlike T.amount) :
    (T.machine M).step (T.world w) thread = (M.step w thread).map T.machine := by
  have hThread : (T.machine M).state.hasThread thread = M.state.hasThread thread :=
    T.hasThread_state M.state thread
  cases hBegun : M.state.hasThread thread with
  | false => simp [Machine.step, hThread, hBegun]
  | true =>
    generalize hTask : M.tasks thread = t
    obtain ⟨control, callers⟩ := t
    have hTask' : (T.machine M).tasks thread = ⟨T.control control, callers.map T.caller⟩ :=
      congrArg T.task hTask
    cases control with
    | run p =>
      have hStep : M.step w thread = some (M.proceed w thread callers p) := by
        simp [Machine.step, hBegun, hTask]
      have hProceed := T.proceed_machine w M thread callers fun hStrict => hLogs hStrict _ hStep
      rw [hStep, Option.map_some, ← hProceed]
      simp [Machine.step, hThread, hBegun, hTask', Translation.control]
    | acquire loop =>
      have hEnter : (T.machine M).put thread ⟨.take (T.loop loop), callers.map T.caller⟩
            (T.machine M).state.enter =
          T.machine (M.put thread ⟨.take loop, callers⟩ M.state.enter) :=
        T.put_machine M thread ⟨.take loop, callers⟩ M.state.enter
      simp only [Machine.step, hThread, hBegun, hTask, hTask', Translation.control, if_true, hEnter]
      show (if M.dispatcher = none ∨ M.dispatcher = some thread then _ else none) = _
      split <;> rfl
    | take loop =>
      have hTake : (T.machine M).state.take? thread =
          (M.state.take? thread).map (Prod.map T.message T.state) :=
        T.take?_state M.state thread
      simp only [Machine.step, hThread, hBegun, hTask, hTask', Translation.control, if_true, hTake]
      cases M.state.take? thread with
      | none => exact congrArg some (T.exhausted_machine M thread callers loop)
      | some taken =>
        obtain ⟨m, s⟩ := taken
        have hCounted : (T.loop loop).counted = T.loop loop.counted := by
          cases loop <;> rfl
        have hTally : (T.loop loop).tally (T.state s) = T.state (loop.tally s) := by
          cases loop <;> rfl
        simp only [Option.map_some, Prod.map_apply, hCounted, hTally]
        exact congrArg some (T.put_machine M thread ⟨.deliver m loop.counted, callers⟩ _)
    | deliver m loop =>
      simp only [Machine.step, hThread, hBegun, hTask, hTask', Translation.control, if_true,
        delivery_world]
      have hPut := T.put_machine M thread ⟨.run (w.delivery m), .delivery m loop :: callers⟩
        (w.atDelivery thread m M.state)
      rw [← atDelivery_state] at hPut
      exact congrArg some hPut
    | wait session =>
      simp only [Machine.step, hThread, hBegun, hTask, hTask', Translation.control, if_true,
        idle_machine, Option.map_some]
    | halt session next =>
      simp only [Machine.step, hThread, hBegun, hTask, hTask', Translation.control, if_true]
      exact congrArg some
        (T.put_machine M thread ⟨.join session next, callers⟩ (M.state.requestStop session))
    | join session next =>
      have hLive : (T.machine M).state.isLive session = M.state.isLive session := rfl
      simp only [Machine.step, hThread, hBegun, hTask, hTask', Translation.control, if_true, hLive]
      split
      · have hAnswer := T.answer_machine M thread callers .stop (.error .joinSelf) next
          (M.state.endSession session)
        rw [← endSession_state] at hAnswer
        exact congrArg some hAnswer
      · split
        · rfl
        · have hAnswer := T.answer_machine M thread callers .stop
            ((M.state.closeSession thread session).stopResult session) next
            (M.state.closeSession thread session)
          rw [result_stopResult, ← stopResult_state, ← closeSession_state] at hAnswer
          exact congrArg some hAnswer
    | ended result => simp [Machine.step, hThread, hBegun, hTask, hTask', Translation.control]

/-- Whatever order its threads take, the shifted machine follows the machine. -/
theorem follow_machine {schedule : List Thread}
    (hLogs : w.strictLog = true → ∀ early late M', schedule = early ++ late →
      M.follow w early = some M' → ∀ x ∈ M'.exchanges, x.LogsAlike T.amount) :
    (T.machine M).follow (T.world w) schedule = (M.follow w schedule).map T.machine := by
  induction schedule generalizing M with
  | nil => rfl
  | cons thread schedule ih =>
    have hStep := T.step_machine w M thread ?_
    · rw [Machine.follow, Machine.follow, hStep]
      cases hNext : M.step w thread with
      | none => rfl
      | some next =>
        refine ih next ?_
        intro hStrict early late M' hSplit hFollow
        refine hLogs hStrict (thread :: early) late M' (by rw [hSplit]; rfl) ?_
        rw [Machine.follow, hNext]
        exact hFollow
    · intro hStrict M' hStep
      refine hLogs hStrict [thread] schedule M' rfl ?_
      rw [Machine.follow, hStep]
      rfl

theorem start_machine (s : State σ κ) (p : Program σ κ Unit) :
    Machine.start (T.state s) (T.program id p) = T.machine (Machine.start s p) := by
  have hTasks : (Machine.start (T.state s) (T.program id p)).tasks =
      (T.machine (Machine.start s p)).tasks := by
    funext thread
    cases thread <;> rfl
  exact congrArg (fun tasks => (⟨T.state s, tasks, none, []⟩ : Machine σ κ)) hTasks

/-- **A looper that starts later does the same later.** -/
theorem after_machine {settings : Settings} {time : Int} (hStart : settings.startTime = .int time)
    (hTime : 0 ≤ time) (hShifted : 0 ≤ time + T.amount) (fallback : Option Target) (memory : σ)
    (p : Program σ κ Unit) {schedule : List Thread}
    (hLogs : w.strictLog = true → ∀ early late M, schedule = early ++ late →
      Machine.after w settings fallback memory p early = some M →
        ∀ x ∈ M.exchanges, x.LogsAlike T.amount) :
    Machine.after (T.world w) (T.settings settings) fallback (T.memory memory) (T.program id p)
        schedule = (Machine.after w settings fallback memory p schedule).map T.machine := by
  unfold Machine.after at hLogs ⊢
  rw [T.make_state settings fallback memory hStart hTime hShifted]
  cases hMake : (State.make settings fallback memory : Except Failure (State σ κ)) with
  | error e => rfl
  | ok s =>
    rw [hMake] at hLogs
    simp only [Except.map, start_machine]
    exact T.follow_machine w (Machine.start s p) hLogs

end Machines

end Translation

end VirtualLooper
