import VirtualLooper.Proofs.Looper.Alike
import VirtualLooper.Proofs.Looper.Draining
import VirtualLooper.Proofs.Queue.Agenda

/-!
# Handlers that share a looper

Handlers that share a looper send messages to themselves, ask whether such a message is pending, and
remove such messages, by tag; the clock is moved and all that is due is delivered in between.  They
share the sequence of numbers, the queue and its heap, and may use the same tags.  But what the
others get to know of one of them is nothing: if all of its requests are left out, all messages of
the others are delivered as before, and all that they ask for is answered as before.

The proof compares two loopers that are `Apart` for the handler `A`: the same messages wait in them
in the same order of delivery, but for those of `A`, and but for their numbers (`Agenda.butFor`).
Requests of `A` keep them so (`Apart.own`), as do all other requests, which are answered alike if
another handler makes them (`Apart.other`), and dispatches, which deliver the same messages to the
others (`Apart.dispatch`).
-/

namespace VirtualLooper

variable {σ κ : Type}

/-! ### The requests of handlers -/

/-- A request that a handler makes for itself, a move of the clock, or a dispatch of all that is
due. -/
def Request.IsShared : Request κ → Prop
  | .enqueue _ _ target _ | .enqueueAt _ _ target _ | .has _ target | .remove _ target =>
    target.isSome = true
  | .advance _ | .dispatchAll => True
  | _ => False

/-- The main thread makes requests one after the other: what was answered, and when. -/
def askInTurn (w : World σ κ) (bound : Nat) :
    List (Request κ) → State σ κ → Outcome (State σ κ) (List (Exchange κ))
  | [], s => .ok [] s
  | r :: rs, s =>
    (perform w bound .main r s).attempt fun result s =>
      (askInTurn w bound rs s).map (⟨.main, r, result, s.clock.now⟩ :: ·)

/-! ### What a handler gets to know -/

/-- What was answered to a handler that has asked for messages or removed some. -/
def Exchange.answerTo? (B : Target) (x : Exchange κ) : Option (Except Failure Reply) :=
  match x.request with
  | .has _ target | .remove _ target => if target = some B then some x.result else none
  | _ => none

theorem Exchange.answerTo?_own {A B : Target} {x : Exchange κ} (h : x.request.handler? = some A)
    (hB : B ≠ A) : x.answerTo? B = none := by
  obtain ⟨thread, r, result, time⟩ := x
  cases r with
  | has | remove =>
    refine if_neg fun hTarget => hB ?_
    exact Option.some.inj (hTarget.symm.trans h)
  | _ => rfl

/-- The tag and the callback of a message of a handler that was taken for delivery, and the time
then. -/
def Occurrence.takenFor? (B : Target) : Occurrence κ → Option (Value × Option κ × Int)
  | .taken m time _ => if m.target = some B then some (m.tag, m.callback, time) else none
  | _ => none

def Occurrence.calledFor? (B : Target) : Occurrence κ → Option (Option (Call κ))
  | .called m call _ => if m.target = some B then some call else none
  | _ => none

namespace State

/-- The tags and callbacks of a handler that were delivered, in order, and when. -/
def takenFor (B : Target) (s : State σ κ) : List (Value × Option κ × Int) :=
  s.history.filterMap (Occurrence.takenFor? B)

def calledFor (B : Target) (s : State σ κ) : List (Option (Call κ)) :=
  s.history.filterMap (Occurrence.calledFor? B)

end State

/-- Of two runs, a handler got to know the same. -/
structure SameFor (B : Target) (s s' : State σ κ) : Prop where
  taken : s'.takenFor B = s.takenFor B
  called : s'.calledFor B = s.calledFor B
  records : s'.recordsOf B = s.recordsOf B

namespace SameFor

variable {B : Target} {s s' t t' : State σ κ}

theorem refl (B : Target) (s : State σ κ) : SameFor B s s := ⟨rfl, rfl, rfl⟩

theorem symm (h : SameFor B s s') : SameFor B s' s :=
  ⟨h.taken.symm, h.called.symm, h.records.symm⟩

theorem trans (h : SameFor B s s') (h' : SameFor B s' t) : SameFor B s t :=
  ⟨h'.taken.trans h.taken, h'.called.trans h.called, h'.records.trans h.records⟩

/-- What is neither taken nor delivered does not get known, nor does what waits. -/
theorem recordHistory (s : State σ κ) (q : Queue κ) {o : Occurrence κ}
    (hTaken : o.takenFor? B = none) (hCalled : o.calledFor? B = none) :
    SameFor B s ({ s with queue := q }.recordHistory o) where
  taken := by simp [State.takenFor, State.recordHistory, hTaken]
  called := by simp [State.calledFor, State.recordHistory, hCalled]
  records := rfl

theorem move (B : Target) (s : State σ κ) (strict : Bool) (thread : Thread) (amount : Value) :
    SameFor B s (s.move strict thread amount).2 := by
  obtain ⟨n, log, -, hMove⟩ := s.spec_move strict thread amount
  rw [hMove]
  exact ⟨rfl, rfl, rfl⟩

end SameFor

/-! ### What waits for others -/

namespace Agenda

/-- What waits for others than a handler, in the order of delivery. -/
def butFor (A : Target) (a : Agenda κ) : List (Waiting κ) :=
  (a.pending.filter fun m => m.target ≠ some A).map Message.waiting

/-- What concerns others only, and not the numbers of messages, depends on what waits for others. -/
theorem filterMap_butFor {β : Type} {A : Target} {a a' : Agenda κ}
    (h : a'.butFor A = a.butFor A) {f : Message κ → Option β}
    (hOwn : ∀ m, m.target = some A → f m = none) (hNumber : ∀ m, f (m.waiting.numbered 0) = f m) :
    a'.pending.filterMap f = a.pending.filterMap f := by
  have hOthers (a : Agenda κ) :
      a.pending.filterMap f = (a.butFor A).filterMap fun x => f (x.numbered 0) := by
    rw [butFor, List.filterMap_map, List.filterMap_filter]
    refine congrArg (fun f => a.pending.filterMap f) (funext fun m => ?_)
    by_cases hTarget : m.target = some A
    · simp [hTarget, hOwn m hTarget]
    · simp [hTarget, hNumber m]
  rw [hOthers, hOthers, h]

/-- To keep some of what waits for others is to keep some of what waits. -/
theorem filter_butFor (A : Target) (a : Agenda κ) (p : Waiting κ → Bool) :
    (a.butFor A).filter p =
      butFor A { a with pending := a.pending.filter fun m => p m.waiting } := by
  rw [butFor, butFor, List.filter_map, List.filter_filter, List.filter_filter]
  refine congrArg (fun p => (a.pending.filter p).map Message.waiting) (funext fun m => ?_)
  exact Bool.and_comm _ _

/-- A handler that removes messages leaves to others what waits for them. -/
theorem butFor_drop_own {A : Target} (a : Agenda κ) (tag : Value) :
    butFor A { a with pending := a.pending.filter fun m => !concerns tag (some A) m } =
      a.butFor A := by
  rw [butFor, butFor, List.filter_filter]
  refine congrArg (fun p => (a.pending.filter p).map Message.waiting) (funext fun m => ?_)
  by_cases hTarget : m.target = some A
  · simp [hTarget]
  · simp [concerns, hTarget]

/-- What another handler removes waits for others, by tag and target. -/
theorem butFor_drop (A : Target) (a : Agenda κ) (tag : Value) (target : Option Target) :
    (a.butFor A).filter (fun x => !concerns tag target (x.numbered 0)) =
      butFor A { a with pending := a.pending.filter fun m => !concerns tag target m } :=
  filter_butFor A a _

theorem countP_butFor {A B : Target} {a a' : Agenda κ} (tag : Value) (hB : B ≠ A)
    (h : a'.butFor A = a.butFor A) :
    a'.pending.countP (concerns tag (some B)) = a.pending.countP (concerns tag (some B)) := by
  have hCount (a : Agenda κ) : a.pending.countP (concerns tag (some B)) =
      (a.butFor A).countP fun x => concerns tag (some B) (x.numbered 0) := by
    rw [butFor, List.countP_map, List.countP_filter]
    refine List.countP_congr fun m _ => ?_
    by_cases hTarget : m.target = some A
    · simp [concerns, hTarget, Ne.symm hB]
    · rw [decide_eq_true hTarget, Bool.and_true]
      rfl
  rw [hCount, hCount, h]

end Agenda

def Agenda.insert (a : Agenda κ) (m : Message κ) : Agenda κ :=
  ⟨a.pending.filter (·.before m) ++ m :: a.pending.filter (!·.before m), a.accepted + 1⟩

namespace Shows

variable {q : Queue κ} {a : Agenda κ} {A : Target}

theorem inOrder (q : Queue κ) : Shows q ⟨Message.inOrder q.pending, q.accepted⟩ where
  perm := Message.perm_inOrder q.pending
  sorted := by
    have hDistinct := (Message.perm_inOrder q.pending).symm.pairwise q.distinct fun h => h.symm
    refine ((Message.pairwise_inOrder q.pending).and hDistinct).imp ?_
    intro x y h
    have hOrder := Message.not_before_iff.1 (by simpa using h.1)
    rw [Message.before_iff]
    omega
  accepted := rfl

theorem insert (h : Shows q a) (m : Message κ) (hm : m.seq = q.accepted) :
    Shows (q.add m hm) (a.insert m) := h.add m hm

/-- A message is added before all that is due later, and after all else. -/
theorem butFor_insert (h : Shows q a) {m : Message κ} (hm : m.seq = q.accepted)
    (hTarget : m.target ≠ some A) :
    (a.insert m).butFor A =
      (a.butFor A).filter (·.due ≤ m.due) ++ m.waiting :: (a.butFor A).filter (m.due < ·.due) := by
  -- whatever is pending has a lower number
  have hBefore : ∀ x ∈ a.pending, x.before m = decide (x.due ≤ m.due) := by
    intro x hx
    have hSeq := q.fresh x (h.perm.mem_iff.1 hx)
    rw [Bool.eq_iff_iff, Message.before_iff, decide_eq_true_eq]
    omega
  have hEarly : a.pending.filter (·.before m) = a.pending.filter (·.due ≤ m.due) :=
    List.filter_congr hBefore
  have hLate : a.pending.filter (!·.before m) = a.pending.filter (m.due < ·.due) := by
    refine List.filter_congr ?_
    intro x hx
    rw [hBefore x hx, Bool.eq_iff_iff]
    simp
  rw [Agenda.filter_butFor, Agenda.filter_butFor, Agenda.butFor, Agenda.insert, hEarly, hLate,
    List.filter_append, List.filter_cons_of_pos (by simpa using hTarget), List.map_append,
    List.map_cons]
  rfl

theorem butFor_insert_own (h : Shows q a) {m : Message κ} (hm : m.seq = q.accepted)
    (hTarget : m.target = some A) : (a.insert m).butFor A = a.butFor A := by
  have hSorted := (h.insert m hm).sorted.sublist
    ((List.sublist_cons_self m (a.pending.filter (!·.before m))).append_left
      (a.pending.filter (·.before m)))
  have hSplit : a.pending.filter (·.before m) ++ a.pending.filter (!·.before m) = a.pending :=
    (Message.eq_inOrder (List.filter_append_perm _ _) hSorted).trans
      (Message.eq_inOrder (.refl _) h.sorted).symm
  rw [Agenda.butFor, Agenda.insert, List.filter_append,
    List.filter_cons_of_neg (by simpa using hTarget), ← List.filter_append, hSplit]
  rfl

end Shows

/-! ### The length of a queue -/

namespace State

variable {w : World σ κ}

/-- An answer that is given at once makes the queue longer by one message at most. -/
theorem size_respond {thread : Thread} {r : Request κ} {result : Except Failure Reply}
    {s t : State σ κ} (h : s.respond w thread r = .reply result t) :
    t.queue.size ≤ s.queue.size + 1 := by
  have hEdit := Ledger.edit_respond w [] h
  generalize hFirst : Ledger.of s [] = L at hEdit
  generalize hLast : Ledger.of t ([] ++ [⟨thread, r, result, t.clock.now⟩]) = L' at hEdit
  have hSize : s.queue.size = L.queue.size := by rw [← hFirst]; rfl
  have hSize' : t.queue.size = L'.queue.size := by rw [← hLast]; rfl
  rw [hSize, hSize', ← Queue.length_pending, ← Queue.length_pending]
  cases hEdit with
  | quiet => exact Nat.le_succ _
  | accept m hm => exact Nat.le_of_eq (L.queue.perm_pending_add m hm).length_eq
  | remove tag target =>
    have hLength := (L.queue.spec_removeTag tag target).2.1.length_eq
    exact hLength ▸ Nat.le_succ_of_le (List.length_filter_le _ _)
  | advance => exact Nat.le_succ _

end State

/-! ### Dispatches -/

namespace Agenda

def due (now : Int) (a : Agenda κ) : Agenda κ :=
  { a with pending := a.pending.filter fun m => m.due ≤ now }

def later (now : Int) (a : Agenda κ) : Agenda κ :=
  { a with pending := a.pending.filter fun m => now < m.due }

theorem butFor_due (A : Target) (now : Int) (a : Agenda κ) :
    (a.due now).butFor A = (a.butFor A).filter (·.due ≤ now) :=
  (filter_butFor A a fun x => x.due ≤ now).symm

theorem butFor_later (A : Target) (now : Int) (a : Agenda κ) :
    (a.later now).butFor A = (a.butFor A).filter (now < ·.due) :=
  (filter_butFor A a fun x => now < x.due).symm

end Agenda

namespace State

variable {w : World σ κ}

/-- All that is due was delivered on the main thread, in the order of an agenda. -/
structure Delivered (w : World σ κ) (a : Agenda κ) (s t : State σ κ) : Prop where
  session : t.session = s.session
  clock : t.clock = s.clock
  shows : Shows t.queue (a.later s.clock.now)
  size : t.queue.size ≤ s.queue.size
  history : ∃ n, t.history = s.history ++
    (a.due s.clock.now).pending.flatMap (Message.deliveredAt .main s.clock.now) ++ [.returned n]
  records : t.records = s.records ++
    (a.due s.clock.now).pending.filterMap (w.recorded? .main s.clock.now)

theorem exists_dispatchAll (hQuiet : w.Quiet) {s : State σ κ} {a : Agenda κ}
    (hSession : s.session = none) (hShows : Shows s.queue a) {bound : Nat}
    (hBound : s.queue.size < bound) :
    ∃ t, perform w (bound + 1) .main .dispatchAll s =
        .ok (.count (a.due s.clock.now).pending.length) t ∧ Delivered w a s t := by
  have hFew : s.dueNow.length < bound := by
    refine Nat.lt_of_le_of_lt (List.length_filter_le _ _) ?_
    rwa [Queue.length_pending]
  obtain ⟨t, hAnswer, hServed, hLater, -⟩ := exists_served_all hQuiet hSession .main hFew
  have hDue : Message.inOrder s.dueNow = (a.due s.clock.now).pending :=
    (Message.eq_inOrder (hShows.perm.filter _) (hShows.sorted.filter _)).symm
  have hLength : (a.due s.clock.now).pending.length = s.dueNow.length := by
    rw [← hDue]
    exact (Message.perm_inOrder s.dueNow).length_eq
  rw [hLength]
  refine ⟨_, hAnswer, hServed.session, hServed.clock, ?_, ?_, ⟨s.dueNow.length, ?_⟩, ?_⟩
  · exact hShows.sublist ((hShows.perm.filter _).trans hLater.symm) List.filter_sublist
      hServed.accepted
  · show t.queue.size ≤ s.queue.size
    rw [← Queue.length_pending, ← Queue.length_pending, hServed.pending.length_eq,
      List.length_append]
    exact Nat.le_add_left _ _
  · show t.history ++ [.returned s.dueNow.length] = _
    rw [hServed.history, hDue]
  · show t.records = _
    rw [hServed.records, hDue]

namespace Delivered

variable {s s' t t' : State σ κ} {a a' : Agenda κ}

/-- What is entered in the history about messages is entered as they are taken and delivered. -/
theorem filterMap_history {β : Type} (h : Delivered w a s t) {f : Occurrence κ → Option β}
    (hReturned : ∀ n, f (.returned n) = none) {g : Message κ → Option β}
    (hMessage : ∀ m, (f (.taken m s.clock.now .main)).toList ++
      (f (.called m m.call? .main)).toList = (g m).toList) :
    t.history.filterMap f =
      s.history.filterMap f ++ (a.due s.clock.now).pending.filterMap g := by
  obtain ⟨n, hHistory⟩ := h.history
  rw [hHistory, List.filterMap_append, List.filterMap_append, filterMap_deliveredAt,
    List.filterMap_eq_flatMap_toList g]
  simp [hReturned, hMessage]

/-- A handler that knew the same, and had the same to wait for, knows the same afterwards. -/
theorem sameFor (h : Delivered w a s t) (h' : Delivered w a' s' t') (hClock : s'.clock = s.clock)
    {A B : Target} (hWaiting : a'.butFor A = a.butFor A) (hB : B ≠ A) (hSame : SameFor B s s') :
    SameFor B t t' := by
  have hDue : (a'.due s'.clock.now).butFor A = (a.due s.clock.now).butFor A := by
    rw [Agenda.butFor_due, Agenda.butFor_due, hWaiting, hClock]
  constructor
  · have hTaken {s t : State σ κ} {a : Agenda κ} (h : Delivered w a s t) :=
      h.filterMap_history (f := Occurrence.takenFor? B) (fun _ => rfl)
        (g := fun m => if m.target = some B then some (m.tag, m.callback, s.clock.now) else none)
        fun m => List.append_nil _
    rw [State.takenFor, hTaken h', State.takenFor, hTaken h, hClock]
    refine congrArg₂ (· ++ ·) hSame.taken ?_
    rw [hClock] at hDue
    refine Agenda.filterMap_butFor hDue ?_ fun _ => rfl
    intro m hTarget
    simp [hTarget, Ne.symm hB]
  · have hCalled {s t : State σ κ} {a : Agenda κ} (h : Delivered w a s t) :=
      h.filterMap_history (f := Occurrence.calledFor? B) (fun _ => rfl)
        (g := fun m => if m.target = some B then some m.call? else none)
        fun m => List.nil_append _
    rw [State.calledFor, hCalled h', State.calledFor, hCalled h]
    refine congrArg₂ (· ++ ·) hSame.called ?_
    refine Agenda.filterMap_butFor hDue ?_ fun _ => rfl
    intro m hTarget
    simp [hTarget, Ne.symm hB]
  · rw [recordsOf, recordsOf, Record.of, Record.of, h.records, h'.records, List.filter_append,
      List.filter_append, List.filter_filterMap, List.filter_filterMap, hClock]
    refine congrArg₂ (· ++ ·) hSame.records ?_
    rw [hClock] at hDue
    refine Agenda.filterMap_butFor hDue ?_ fun _ => rfl
    intro m hTarget
    refine Option.filter_eq_none_iff.2 fun r hr => ?_
    have hRecorder := (World.target_of_recorded? hr).symm.trans hTarget
    simpa [Option.some.inj hRecorder] using Ne.symm hB

end Delivered

end State

/-! ### Two loopers -/

namespace State

/-- Two loopers that differ in what concerns the handler `A`, and in the numbers of messages, only:
nothing else waits in one of them that does not wait in the other, and all others know the same. -/
structure Apart (A : Target) (a a' : Agenda κ) (s s' : State σ κ) : Prop where
  session : s.session = none
  session' : s'.session = none
  clock : s'.clock = s.clock
  shows : Shows s.queue a
  shows' : Shows s'.queue a'
  waiting : a'.butFor A = a.butFor A
  same : ∀ B ≠ A, SameFor B s s'

namespace Apart

variable {w : World σ κ} {A : Target} {a a' : Agenda κ} {s s' : State σ κ}

theorem refl (hSession : s.session = none) (h : Shows s.queue a) : Apart A a a s s :=
  ⟨hSession, hSession, rfl, h, h, rfl, fun B _ => .refl B s⟩

theorem symm (h : Apart A a a' s s') : Apart A a' a s' s :=
  ⟨h.session', h.session, h.clock.symm, h.shows', h.shows, h.waiting.symm,
    fun B hB => (h.same B hB).symm⟩

theorem queued_own (h : Apart A a a' s s') {x : Waiting κ} (hx : x.target = some A) :
    ∃ b, Apart A b a' (s.queued x) s' :=
  ⟨a.insert (x.numbered s.queue.accepted), h.session, h.session', h.clock,
    h.shows.insert _ rfl, h.shows', h.waiting.trans (h.shows.butFor_insert_own rfl hx).symm,
    fun B hB => (SameFor.recordHistory s _ rfl rfl).symm.trans (h.same B hB)⟩

theorem queued (h : Apart A a a' s s') {x : Waiting κ} (hx : x.target ≠ some A) :
    ∃ b b', Apart A b b' (s.queued x) (s'.queued x) := by
  refine ⟨a.insert (x.numbered s.queue.accepted), a'.insert (x.numbered s'.queue.accepted),
    h.session, h.session', h.clock, h.shows.insert _ rfl, h.shows'.insert _ rfl, ?_,
    fun B hB => (SameFor.recordHistory s _ rfl rfl).symm.trans
      ((h.same B hB).trans (SameFor.recordHistory s' _ rfl rfl))⟩
  rw [h.shows.butFor_insert rfl hx, h.shows'.butFor_insert rfl hx, h.waiting]
  rfl

theorem remove_own (h : Apart A a a' s s') (tag : Value) :
    ∃ b, Apart A b a' (s.remove tag (some A)).2 s' :=
  ⟨_, h.session, h.session', h.clock, (h.shows.removeTag tag (some A)).2, h.shows',
    h.waiting.trans (a.butFor_drop_own tag).symm,
    fun B hB => (SameFor.recordHistory s _ rfl rfl).symm.trans (h.same B hB)⟩

theorem remove (h : Apart A a a' s s') (tag : Value) {B : Target} (hB : B ≠ A) :
    (s'.remove tag (some B)).1 = (s.remove tag (some B)).1 ∧
      ∃ b b', Apart A b b' (s.remove tag (some B)).2 (s'.remove tag (some B)).2 := by
  obtain ⟨hCount, hShows⟩ := h.shows.removeTag tag (some B)
  obtain ⟨hCount', hShows'⟩ := h.shows'.removeTag tag (some B)
  refine ⟨?_, _, _, h.session, h.session', h.clock, hShows, hShows', ?_,
    fun B hB => (SameFor.recordHistory s _ rfl rfl).symm.trans
      ((h.same B hB).trans (SameFor.recordHistory s' _ rfl rfl))⟩
  · exact hCount'.trans ((Agenda.countP_butFor tag hB h.waiting).trans hCount.symm)
  · rw [← Agenda.butFor_drop, ← Agenda.butFor_drop, h.waiting]

theorem move (h : Apart A a a' s s') (strict : Bool) (amount : Value) :
    (s'.move strict .main amount).1 = (s.move strict .main amount).1 ∧
      Apart A a a' (s.move strict .main amount).2 (s'.move strict .main amount).2 := by
  obtain ⟨clock, log, log', hResult, hs, hs'⟩ := move_congr h.clock strict .main .main amount
  rw [hs, hs']
  exact ⟨hResult, h.session, h.session', rfl, h.shows, h.shows', h.waiting,
    fun B hB => ⟨(h.same B hB).taken, (h.same B hB).called, (h.same B hB).records⟩⟩

/-- The handler makes a request, or it does not. -/
theorem own (h : Apart A a a' s s') {r : Request κ} (hr : r.handler? = some A) :
    ∃ result t b, s.respond w .main r = .reply result t ∧ Apart A b a' t s' := by
  cases r with
  | enqueue | enqueueAt =>
    rcases respond_send w s.clock (by exact trivial) hr with ⟨e, hRefused⟩ | ⟨x, hx, hQueued⟩
    · exact ⟨_, _, a, hRefused s rfl, h⟩
    · obtain ⟨b, hApart⟩ := h.queued_own hx
      exact ⟨_, _, b, hQueued s rfl, hApart⟩
  | has tag target => exact ⟨_, s, a, rfl, h⟩
  | remove tag target =>
    obtain rfl : target = some A := hr
    obtain ⟨b, hApart⟩ := h.remove_own tag
    exact ⟨_, _, b, rfl, hApart⟩
  | _ => cases hr

/-- Both loopers are asked the same by another handler, and give it the same answer. -/
theorem other (h : Apart A a a' s s') {r : Request κ} {B : Target} (hr : r.handler? = some B)
    (hB : B ≠ A) :
    ∃ result result' t t' b b', s.respond w .main r = .reply result t ∧
      s'.respond w .main r = .reply result' t' ∧ Apart A b b' t t' ∧
      ∀ B, (⟨.main, r, result', t'.clock.now⟩ : Exchange κ).answerTo? B =
        (⟨.main, r, result, t.clock.now⟩ : Exchange κ).answerTo? B := by
  cases r with
  | enqueue | enqueueAt =>
    rcases respond_send w s.clock (by exact trivial) hr with ⟨e, hRefused⟩ | ⟨x, hx, hQueued⟩
    · exact ⟨_, _, s, s', a, a', hRefused s rfl, hRefused s' h.clock, h, fun _ => rfl⟩
    · obtain ⟨b, b', hApart⟩ := h.queued (x := x) (by simpa [hx] using hB)
      exact ⟨_, _, _, _, b, b', hQueued s rfl, hQueued s' h.clock, hApart, fun _ => rfl⟩
  | has tag target =>
    obtain rfl : target = some B := hr
    have hSame : s'.queue.hasTag tag (some B) = s.queue.hasTag tag (some B) := by
      rw [h.shows.hasTag, h.shows'.hasTag, Agenda.countP_butFor tag hB h.waiting]
    exact ⟨_, _, s, s', a, a', rfl, rfl, h, fun _ => by rw [hSame]; rfl⟩
  | remove tag target =>
    obtain rfl : target = some B := hr
    obtain ⟨hSame, b, b', hApart⟩ := h.remove tag hB
    exact ⟨_, _, _, _, b, b', rfl, rfl, hApart, fun _ => by rw [hSame]; rfl⟩
  | _ => cases hr

/-- All that is due is delivered in both loopers, the same to all others. -/
theorem dispatch (h : Apart A a a' s s') (hQuiet : w.Quiet) {bound : Nat}
    (hBound : s.queue.size < bound) (hBound' : s'.queue.size < bound) :
    ∃ n n' t t' b b', perform w (bound + 1) .main .dispatchAll s = .ok (.count n) t ∧
      perform w (bound + 1) .main .dispatchAll s' = .ok (.count n') t' ∧ Apart A b b' t t' ∧
      t.queue.size ≤ s.queue.size ∧ t'.queue.size ≤ s'.queue.size := by
  obtain ⟨t, hAnswer, hDelivered⟩ := exists_dispatchAll hQuiet h.session h.shows hBound
  obtain ⟨t', hAnswer', hDelivered'⟩ := exists_dispatchAll hQuiet h.session' h.shows' hBound'
  have hLater : (a'.later s'.clock.now).butFor A = (a.later s.clock.now).butFor A := by
    rw [Agenda.butFor_later, Agenda.butFor_later, h.waiting, h.clock]
  refine ⟨_, _, t, t', a.later s.clock.now, a'.later s'.clock.now, hAnswer, hAnswer', ?_,
    hDelivered.size, hDelivered'.size⟩
  exact ⟨hDelivered.session.trans h.session, hDelivered'.session.trans h.session',
    hDelivered'.clock.trans (h.clock.trans hDelivered.clock.symm), hDelivered.shows,
    hDelivered'.shows, hLater,
    fun B hB => hDelivered.sameFor hDelivered' h.clock h.waiting hB (h.same B hB)⟩

theorem perform_own (h : Apart A a a' s s') {r : Request κ} (hr : r.handler? = some A)
    (bound : Nat) :
    ∃ result t b, perform w (bound + 1) .main r s = .ofResult result t ∧ Apart A b a' t s' ∧
      t.queue.size ≤ s.queue.size + 1 := by
  obtain ⟨result, t, b, hReply, hApart⟩ := h.own (w := w) hr
  exact ⟨result, t, b, perform_of_reply hReply bound, hApart, size_respond hReply⟩

theorem perform_other (h : Apart A a a' s s') (hQuiet : w.Quiet) {r : Request κ}
    (hShared : r.IsShared) (hr : r.handler? ≠ some A) {bound : Nat}
    (hBound : s.queue.size < bound) (hBound' : s'.queue.size < bound) :
    ∃ result result' t t' b b', perform w (bound + 1) .main r s = .ofResult result t ∧
      perform w (bound + 1) .main r s' = .ofResult result' t' ∧ Apart A b b' t t' ∧
      t.queue.size ≤ s.queue.size + 1 ∧ t'.queue.size ≤ s'.queue.size + 1 ∧
      ∀ B, (⟨.main, r, result', t'.clock.now⟩ : Exchange κ).answerTo? B =
        (⟨.main, r, result, t.clock.now⟩ : Exchange κ).answerTo? B := by
  cases hHandler : r.handler? with
  | some B =>
    obtain ⟨result, result', t, t', b, b', hReply, hReply', hApart, hAnswer⟩ :=
      h.other (w := w) hHandler fun hSame => hr (hSame ▸ hHandler)
    exact ⟨result, result', t, t', b, b', perform_of_reply hReply bound,
      perform_of_reply hReply' bound, hApart, size_respond hReply, size_respond hReply', hAnswer⟩
  | none =>
    cases r with
    | enqueue _ _ target _ | enqueueAt _ _ target _ | has _ target | remove _ target =>
      obtain rfl : target = none := hHandler
      cases hShared
    | advance amount =>
      obtain ⟨-, hApart⟩ := h.move w.strictLog amount
      have hReply (s : State σ κ) : s.respond w .main (.advance amount) =
          .reply (s.move w.strictLog .main amount).1 (s.move w.strictLog .main amount).2 := rfl
      exact ⟨_, _, _, _, a, a', perform_of_reply (hReply s) bound,
        perform_of_reply (hReply s') bound, hApart, size_respond (hReply s),
        size_respond (hReply s'), fun _ => rfl⟩
    | dispatchAll =>
      obtain ⟨n, n', t, t', b, b', hAnswer, hAnswer', hApart, hSize, hSize'⟩ :=
        h.dispatch hQuiet hBound hBound'
      exact ⟨.ok (.count n), .ok (.count n'), t, t', b, b', hAnswer, hAnswer', hApart,
        Nat.le_succ_of_le hSize, Nat.le_succ_of_le hSize', fun _ => rfl⟩
    | _ => exact hShared.elim

end Apart

end State

/-! ### Runs -/

/-- Two runs from loopers that are apart, the one without the requests of the handler. -/
theorem State.Apart.exists_askInTurn {w : World σ κ} (hQuiet : w.Quiet) {A : Target} (bound : Nat)
    (rs : List (Request κ)) (hShared : ∀ r ∈ rs, r.IsShared) {a a' : Agenda κ} {s s' : State σ κ}
    (h : Apart A a a' s s') (hBound : s.queue.size + rs.length ≤ bound)
    (hBound' : s'.queue.size + rs.length ≤ bound) :
    ∃ xs xs' t t' b b', askInTurn w (bound + 1) rs s = .ok xs t ∧
      askInTurn w (bound + 1) (rs.filter fun r => r.handler? ≠ some A) s' = .ok xs' t' ∧
      xs.map Exchange.request = rs ∧ Apart A b b' t t' ∧
      ∀ B ≠ A, xs'.filterMap (Exchange.answerTo? B) = xs.filterMap (Exchange.answerTo? B) := by
  induction rs generalizing a a' s s' with
  | nil => exact ⟨[], [], s, s', a, a', rfl, rfl, rfl, h, fun _ _ => rfl⟩
  | cons r rs ih =>
    rw [List.length_cons] at hBound hBound'
    have hRest : ∀ r ∈ rs, r.IsShared := fun r hr => hShared r (List.mem_cons_of_mem _ hr)
    by_cases hr : r.handler? = some A
    · obtain ⟨result, t₁, b₁, hAnswer, hApart₁, hSize⟩ := h.perform_own (w := w) hr bound
      obtain ⟨xs, xs', t, t', b, b', hRun, hRun', hRequests, hApart, hSame⟩ :=
        ih hRest hApart₁ (by omega) (by omega)
      refine ⟨⟨.main, r, result, t₁.clock.now⟩ :: xs, xs', t, t', b, b', ?_, ?_, ?_, hApart, ?_⟩
      · rw [askInTurn, hAnswer, Outcome.attempt_ofResult, hRun]
        rfl
      · rwa [List.filter_cons_of_neg (by simpa using hr)]
      · rw [List.map_cons, hRequests]
      · intro B hB
        rw [List.filterMap_cons_none (Exchange.answerTo?_own hr hB), hSame B hB]
    · have hLess : s.queue.size < bound := by omega
      have hLess' : s'.queue.size < bound := by omega
      obtain ⟨result, result', t₁, t₁', b₁, b₁', hAnswer, hAnswer', hApart₁, hSize, hSize',
        hSame₁⟩ := h.perform_other hQuiet (hShared r List.mem_cons_self) hr hLess hLess'
      obtain ⟨xs, xs', t, t', b, b', hRun, hRun', hRequests, hApart, hSame⟩ :=
        ih hRest hApart₁ (by omega) (by omega)
      refine ⟨⟨.main, r, result, t₁.clock.now⟩ :: xs, ⟨.main, r, result', t₁'.clock.now⟩ :: xs',
        t, t', b, b', ?_, ?_, ?_, hApart, ?_⟩
      · rw [askInTurn, hAnswer, Outcome.attempt_ofResult, hRun]
        rfl
      · rw [List.filter_cons_of_pos (by simpa using hr), askInTurn, hAnswer',
          Outcome.attempt_ofResult, hRun']
        rfl
      · rw [List.map_cons, hRequests]
      · intro B hB
        rw [List.filterMap_cons, List.filterMap_cons, hSame₁ B, hSame B hB]

/-- **Handlers that share a looper do not interfere.**  A looper whose handlers make no requests of
their own accord and do not fail is asked for any number of things: handlers send messages to
themselves, or ask for and remove such messages, by any tags, the clock is moved, and all that is
due is delivered.  If all requests of one handler are left out, every other handler is delivered the
same tags and callbacks at the same times in the same order, and is answered the same. -/
theorem undisturbed {w : World σ κ} (hQuiet : w.Quiet) {s : State σ κ} (hSession : s.session = none)
    {rs : List (Request κ)} (hShared : ∀ r ∈ rs, r.IsShared) {bound : Nat}
    (hBound : s.queue.size + rs.length < bound) (A : Target) :
    ∃ xs xs' t t', askInTurn w bound rs s = .ok xs t ∧
      askInTurn w bound (rs.filter fun r => r.handler? ≠ some A) s = .ok xs' t' ∧
      xs.map Exchange.request = rs ∧ t'.clock = t.clock ∧
      ∀ B ≠ A, SameFor B t t' ∧
        xs'.filterMap (Exchange.answerTo? B) = xs.filterMap (Exchange.answerTo? B) := by
  obtain ⟨bound, rfl⟩ := Nat.exists_eq_add_one_of_ne_zero (Nat.ne_zero_of_lt hBound)
  obtain ⟨xs, xs', t, t', b, b', hRun, hRun', hRequests, hApart, hSame⟩ :=
    (State.Apart.refl (A := A) hSession (.inOrder s.queue)).exists_askInTurn hQuiet bound rs hShared
      (Nat.le_of_lt_succ hBound) (Nat.le_of_lt_succ hBound)
  exact ⟨xs, xs', t, t', hRun, hRun', hRequests, hApart.clock,
    fun B hB => ⟨hApart.same B hB, hSame B hB⟩⟩

def World.still : World Unit Unit where
  receive _ _ := .done ()
  invoke _ := .done ()
  records _ := true

def Reply.isYes : Except Failure Reply → Bool
  | .ok (.flag yes) => yes
  | _ => false

/-- Two handlers use the same tag; the first removes its message after the second has sent two. -/
def Request.sharedTag (first second : Target) : List (Request Unit) :=
  [.enqueue (.str "tick") (.int 0) first none, .enqueue (.str "tick") (.int 0) second none,
    .enqueueAt (.str "tick") (.int (-1)) second (some ()), .remove (.str "tick") first,
    .has (.str "tick") second, .advance (.int 2), .enqueue (.str "tock") (.int 0) first none,
    .dispatchAll, .has (.str "tick") second]

theorem undisturbed_second :
    ∃ (s : State Unit Unit) (xs xs' : List (Exchange Unit)) (t t' : State Unit Unit),
      State.make .standard none () = .ok s ∧
      askInTurn .still 10 (Request.sharedTag (.handler "ada") (.handler "ben")) s = .ok xs t ∧
      askInTurn .still 10 ((Request.sharedTag (.handler "ada") (.handler "ben")).filter
        fun r => r.handler? ≠ some (.handler "ada")) s = .ok xs' t' ∧
      (t'.takenFor (.handler "ben")).map (·.2) = [(some (), 2), (none, 2)] ∧
      (xs'.filterMap (Exchange.answerTo? (.handler "ben"))).map Reply.isYes = [true, false] := by
  have hRun : ∃ s : State Unit Unit, State.make .standard none () = .ok s ∧ s.session = none ∧
      s.queue.size + 9 < 10 ∧
      (match askInTurn .still 10 (Request.sharedTag (.handler "ada") (.handler "ben")) s with
      | .ok xs t => ((t.takenFor (.handler "ben")).map (·.2),
          (xs.filterMap (Exchange.answerTo? (.handler "ben"))).map Reply.isYes)
      | _ => ([], [])) = ([(some (), 2), (none, 2)], [true, false]) :=
    ⟨_, rfl, rfl, Nat.lt_succ_self 9, by decide +kernel⟩
  obtain ⟨s, hMake, hSession, hBound, hKnown⟩ := hRun
  have hShared : ∀ r ∈ Request.sharedTag (.handler "ada") (.handler "ben"), r.IsShared := by
    simp [Request.sharedTag, Request.IsShared]
  obtain ⟨xs, xs', t, t', hAsk, hAsk', -, -, hSame⟩ :=
    undisturbed (w := .still) ⟨fun _ _ => trivial, fun _ => trivial⟩ hSession hShared hBound
      (.handler "ada")
  rw [hAsk] at hKnown
  obtain ⟨hTaken, hAnswers⟩ := Prod.mk.inj hKnown
  obtain ⟨hFor, hAnswered⟩ := hSame (.handler "ben") (by decide)
  exact ⟨s, xs, xs', t, t', hMake, hAsk, hAsk', hFor.taken ▸ hTaken, hAnswered ▸ hAnswers⟩

end VirtualLooper
