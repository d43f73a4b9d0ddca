import Mathlib.Data.List.DropRight
import VirtualLooper.Proofs.Looper.Delivery
import VirtualLooper.Proofs.Looper.Move

/-!
# What receivers record is what has reached them

A run of threads side by side has a **journal**: the deliveries that have begun, the tags that were
handed to receivers past the queue, and the resets, one after the other, each read off the thread
that is about to do it (`Machine.event?`).  The journal does not look at what receivers record.

`records_of_run` says that the two agree at every moment of every run: a receiver that records has
recorded, with the time and the thread of each, the calls of it that have begun since it was last
made to forget.  How a call ends does not matter, nor what it does before it ends, which may be
other deliveries to the same receiver.  The times of the records never go back, and no message is
recorded before it was due.

A call of a receiver and its record are one step of the thread: what is told here is told of runs in
which no other thread comes between the two.
-/

namespace VirtualLooper

variable {σ κ : Type}

namespace Machine

/-! ### Accounts of a run -/

/-- What becomes of an account over a run: `add` says what a step of a thread, from one machine to
the next, makes of it. -/
def account {α : Type} (w : World σ κ) (add : Thread → Machine σ κ → Machine σ κ → α → α) :
    List Thread → Machine σ κ → α → α
  | [], _, a => a
  | thread :: schedule, M, a =>
    match M.step w thread with
    | some M' => account w add schedule M' (add thread M M' a)
    | none => a

/-- What holds of an account at the beginning, and after a step if it holds before, holds after a
run. -/
theorem account_induction {α : Type} {w : World σ κ}
    {add : Thread → Machine σ κ → Machine σ κ → α → α} {P : Machine σ κ → α → Prop}
    (hStep : ∀ {thread : Thread} {M M' : Machine σ κ} {a : α}, Reachable w M → P M a →
      M.step w thread = some M' → P M' (add thread M M' a))
    {schedule : List Thread} {M M' : Machine σ κ} {a : α} (hReach : Reachable w M) (h : P M a)
    (hFollow : M.follow w schedule = some M') : P M' (account w add schedule M a) := by
  induction schedule generalizing M a with
  | nil =>
    obtain rfl := Option.some.inj hFollow
    exact h
  | cons thread schedule ih =>
    obtain ⟨next, hNext, hRest⟩ := Option.bind_eq_some_iff.1 hFollow
    rw [account, hNext]
    exact ih (hReach.step thread hNext) (hStep hReach h hNext) hRest

end Machine

/-! ### Journals -/

/-- Something that concerns receivers, as it begins. -/
inductive Event (κ : Type)
  /-- A message is delivered, at a time and on a thread. -/
  | delivery (m : Message κ) (time : Int) (thread : Thread)
  /-- A receiver is handed a tag past the queue. -/
  | handing (target : Target) (tag : Value) (time : Int) (thread : Thread)
  /-- A receiver is made to forget what it has received. -/
  | reset (target : Target)

namespace Event

def delivered? : Event κ → Option (Message κ)
  | delivery m _ _ => some m
  | _ => none

def time? : Event κ → Option Int
  | delivery _ time _ => some time
  | handing _ _ time _ => some time
  | reset _ => none

def resets (target : Target) : Event κ → Bool
  | reset other => other = target
  | _ => false

/-- The call of a receiver that begins with the event, if one does.  A message that has a callback
calls no receiver. -/
def heard? (target : Target) : Event κ → Option Record
  | delivery ⟨_, _, tag, some other, none⟩ time thread =>
    if other = target then some ⟨target, tag, time, thread⟩ else none
  | handing other tag time thread =>
    if other = target then some ⟨target, tag, time, thread⟩ else none
  | _ => none

theorem time?_of_heard? {target : Target} {e : Event κ} {r : Record}
    (h : e.heard? target = some r) : e.time? = some r.time := by
  cases e with
  | delivery m time thread =>
    obtain ⟨due, seq, tag, other, callback⟩ := m
    cases callback with
    | some c => cases other <;> cases h
    | none =>
      cases other with
      | none => cases h
      | some other =>
        simp only [heard?] at h
        split at h
        · cases h
          rfl
        · cases h
  | handing other tag time thread =>
    simp only [heard?] at h
    split at h
    · cases h
      rfl
    · cases h
  | reset other => cases h

def addTo (target : Target) (rs : List Record) (e : Event κ) : List Record :=
  if e.resets target then [] else rs ++ (e.heard? target).toList

end Event

def sinceReset (target : Target) (journal : List (Event κ)) : List (Event κ) :=
  journal.rtakeWhile fun e => !e.resets target

/-- The calls of a receiver that have begun since it was last made to forget. -/
def heardBy (target : Target) (journal : List (Event κ)) : List Record :=
  (sinceReset target journal).filterMap (Event.heard? target)

theorem heardBy_concat (target : Target) (journal : List (Event κ)) (e : Event κ) :
    heardBy target (journal ++ [e]) = e.addTo target (heardBy target journal) := by
  rw [heardBy, sinceReset, List.rtakeWhile_concat, Event.addTo]
  cases hReset : e.resets target with
  | true => rfl
  | false =>
    rw [Bool.not_false, if_pos rfl, if_neg (by simp), filterMap_concat]
    rfl

namespace Control

/-- What concerns receivers and begins when a thread does this. -/
def event? (thread : Thread) (time : Int) : Control σ κ → Option (Event κ)
  | deliver m _ => some (.delivery m time thread)
  | run (.ask (.handle target tag) _) => some (.handing target tag time thread)
  | run (.ask (.reset target) _) => some (.reset target)
  | _ => none

/-- The messages that begin to be delivered are those that are in the thread's hand. -/
theorem delivered_event? (c : Control σ κ) (thread : Thread) (time : Int) :
    (c.event? thread time).toList.filterMap Event.delivered? = c.inHand := by
  cases c with
  | run p =>
    cases p with
    | ask r next => cases r <;> rfl
    | _ => rfl
  | _ => rfl

end Control

namespace Machine

/-- What concerns receivers and begins with the next step of a thread. -/
def event? (M : Machine σ κ) (thread : Thread) : Option (Event κ) :=
  (M.tasks thread).control.event? thread M.state.clock.now

/-- The events of a run, oldest first. -/
def journal (w : World σ κ) (M : Machine σ κ) (schedule : List Thread) : List (Event κ) :=
  account w (fun thread M _ events => events ++ (M.event? thread).toList) schedule M []

end Machine

/-! ### What a step does to records -/

namespace State

theorem recordsOf_record (s : State σ κ) (target other : Target) (tag : Value) (thread : Thread) :
    (s.record other tag thread).recordsOf target =
      s.recordsOf target ++
        (if other = target then some ⟨target, tag, s.clock.now, thread⟩ else none).toList := by
  by_cases hSame : other = target
  · subst hSame
    simp [recordsOf, Record.of, record]
  · simp [recordsOf, Record.of, record, hSame]

theorem recordsOf_reset (s : State σ κ) (target other : Target) :
    (s.reset other).recordsOf target = if other = target then [] else s.recordsOf target := by
  show Record.of target (s.records.filter fun r => r.target ≠ other) = _
  rw [Record.of, List.filter_filter]
  by_cases hSame : other = target
  · subst hSame
    rw [if_pos rfl, List.filter_eq_nil_iff]
    intro r hr
    simp
  · rw [if_neg hSame, recordsOf, Record.of]
    refine List.filter_congr fun r hr => ?_
    by_cases hTarget : r.target = target
    · simp [hTarget, Ne.symm hSame]
    · simp [hTarget]

/-- What has happened stays in the history, and nothing is recorded or forgotten. -/
structure Keeps (s s' : State σ κ) : Prop where
  history : s.history <+: s'.history
  records : s'.records = s.records

theorem Keeps.refl (s : State σ κ) : s.Keeps s := ⟨List.prefix_refl _, rfl⟩

/-- What is answered at once is recorded by nobody, and makes nobody forget but by a reset. -/
theorem keeps_respond {w : World σ κ} {thread : Thread} {s s' : State σ κ} {r : Request κ}
    {result : Except Failure Reply} (h : s.respond w thread r = .reply result s')
    (hr : ∀ target, r ≠ .reset target) : s.Keeps s' := by
  cases r with
  | enqueue tag delay target callback =>
    rcases Response.ofExcept_map h with ⟨e, -, -, rfl⟩ | ⟨receipt, hSent, rfl⟩
    · exact .refl _
    · obtain ⟨m, hm, -, -, -, -, -, rfl⟩ := State.spec_of_enqueue hSent
      exact ⟨List.prefix_append _ _, rfl⟩
  | enqueueAt tag due target callback =>
    rcases Response.ofExcept_map h with ⟨e, -, -, rfl⟩ | ⟨receipt, hSent, rfl⟩
    · exact .refl _
    · obtain ⟨m, hm, -, -, -, -, -, rfl⟩ := State.spec_of_enqueueAt hSent
      exact ⟨List.prefix_append _ _, rfl⟩
  | advance amount =>
    obtain ⟨-, rfl⟩ := Response.reply.inj h
    obtain ⟨n, log, -, hMove⟩ := s.spec_move w.strictLog thread amount
    rw [hMove]
    exact ⟨List.prefix_refl _, rfl⟩
  | has tag target =>
    obtain ⟨-, rfl⟩ := Response.reply.inj h
    exact .refl _
  | remove tag target =>
    obtain ⟨-, rfl⟩ := Response.reply.inj h
    exact ⟨List.prefix_append _ _, rfl⟩
  | reset target => exact absurd rfl (hr target)
  | handle target tag => cases h
  | _ =>
    simp only [State.respond] at h
    split at h <;> cases h <;> exact ⟨List.prefix_refl _, rfl⟩

/-- Loops take messages, and count them, without a word to receivers. -/
theorem keeps_take {m : Message κ} {s s' : State σ κ} {thread : Thread} (loop : Loop σ κ)
    (h : s.take? thread = some (m, s')) : s.Keeps (loop.tally s') := by
  obtain ⟨q, -, rfl⟩ := spec_of_take h
  cases loop <;> exact ⟨List.prefix_append _ _, rfl⟩

end State

namespace Machine

section Records

variable {w : World σ κ} {thread : Thread} {M M' : Machine σ κ} {target : Target}

/-- A call of a receiver is recorded by that receiver, if it records. -/
theorem recordsOf_atCall (hRecords : w.records target = true) (s : State σ κ) (other : Target)
    (tag : Value) :
    (w.atCall thread (.receiver other tag) s).recordsOf target =
      s.recordsOf target ++
        (if other = target then some ⟨target, tag, s.clock.now, thread⟩ else none).toList := by
  rw [World.atCall]
  split
  · exact s.recordsOf_record target other tag thread
  · rename_i hOther
    have hNe : other ≠ target := fun hSame => hOther (hSame ▸ hRecords)
    rw [if_neg hNe, Option.toList_none, List.append_nil]

/-- A delivery is recorded by the receiver that it calls, if it calls one. -/
theorem recordsOf_atDelivery (hRecords : w.records target = true) (s : State σ κ)
    (m : Message κ) :
    (w.atDelivery thread m s).recordsOf target =
      s.recordsOf target ++
        ((Event.delivery m s.clock.now thread).heard? target).toList := by
  obtain ⟨due, seq, tag, other, callback⟩ := m
  cases callback with
  | some c => cases other <;> exact (List.append_nil _).symm
  | none =>
    cases other with
    | none => exact (List.append_nil _).symm
    | some other => exact recordsOf_atCall hRecords _ other tag

theorem recordsOf_reset_reply (hRecords : w.records target = true) {s s' : State σ κ}
    {other : Target} {result : Except Failure Reply}
    (h : s.respond w thread (.reset other) = .reply result s') :
    s'.recordsOf target = Event.addTo target (s.recordsOf target) (.reset other : Event κ) := by
  have hKept (hNe : other ≠ target) :
      Event.addTo target (s.recordsOf target) (.reset other : Event κ) = s.recordsOf target := by
    simp [Event.addTo, Event.resets, Event.heard?, hNe]
  simp only [State.respond] at h
  split at h
  · obtain ⟨-, rfl⟩ := Response.reply.inj h
    rw [State.recordsOf_reset]
    split
    · rename_i hSame
      simp [Event.addTo, Event.resets, hSame]
    · rename_i hNe
      exact (hKept hNe).symm
  · rename_i hRefused
    -- a receiver that is refused does not record
    obtain ⟨-, rfl⟩ := Response.reply.inj h
    have hNe : other ≠ target := fun hSame => hRefused (hSame ▸ hRecords)
    exact (hKept hNe).symm

theorem keeps_finished (result : Except Failure Unit) (callers : List (Caller σ κ)) :
    M.state.Keeps (M.finished thread result callers).state := by
  cases callers with
  | nil => exact .refl _
  | cons c below =>
    cases c with
    | handling target tag next => exact .refl _
    | delivery m loop =>
      cases result <;> cases loop <;>
        first | exact ⟨List.prefix_refl _, rfl⟩ | exact ⟨List.prefix_append _ _, rfl⟩

theorem keeps_exhausted (loop : Loop σ κ) (callers : List (Caller σ κ)) :
    M.state.Keeps (M.exhausted thread callers loop).state := by
  cases loop with
  | all count next => exact ⟨List.prefix_append _ _, rfl⟩
  | one next => exact ⟨List.prefix_refl _, rfl⟩
  | worker session last => cases last <;> exact ⟨List.prefix_refl _, rfl⟩

theorem keeps_idle (session : Nat) (callers : List (Caller σ κ)) :
    M.state.Keeps (M.idle thread callers session).state := by
  simp only [idle]
  split
  · exact .refl _
  · split
    · exact .refl _
    · split <;> exact ⟨List.prefix_refl _, rfl⟩

/-- A step of a thread, by what begins with it that concerns receivers. -/
inductive Begins (w : World σ κ) (thread : Thread) (M M' : Machine σ κ) : Option (Event κ) → Prop
  | nothing (h : M.state.Keeps M'.state) : Begins w thread M M' none
  | reset {target : Target} {result : Except Failure Reply}
      (h : M.state.respond w thread (.reset target) = .reply result M'.state) :
      Begins w thread M M' (some (.reset target))
  | handing {target : Target} {tag : Value}
      (h : M'.state = w.atCall thread (.receiver target tag)
        (M.state.recordHistory (.handed target tag M.state.clock.now))) :
      Begins w thread M M' (some (.handing target tag M.state.clock.now thread))
  | delivery {m : Message κ} (h : M'.state = w.atDelivery thread m M.state) :
      Begins w thread M M' (some (.delivery m M.state.clock.now thread))

theorem begins_of_move (hMove : Move w thread M M') :
    Begins w thread M M' (M.event? thread) := by
  have hNone {c : Control σ κ} {callers : List (Caller σ κ)} (hTask : M.tasks thread = ⟨c, callers⟩)
      (hc : c.event? thread M.state.clock.now = none) (hKeeps : M.state.Keeps M'.state) :
      Begins w thread M M' (M.event? thread) := by
    rw [event?, hTask, hc]
    exact .nothing hKeeps
  cases hMove with
  | done hTask => exact hNone hTask rfl (keeps_finished _ _)
  | fail hTask => exact hNone hTask rfl (keeps_finished _ _)
  | @reply r next callers result s hTask hReply =>
    cases r with
    | reset other =>
      rw [event?, hTask]
      exact .reset hReply
    | handle other tag => cases hReply
    | _ => exact hNone hTask rfl (State.keeps_respond hReply (by simp))
  | call hTask =>
    rw [event?, hTask]
    exact .handing rfl
  | deliver hTask =>
    rw [event?, hTask]
    exact .delivery rfl
  | @take loop callers m s hTask hTake => exact hNone hTask rfl (State.keeps_take loop hTake)
  | exhaust hTask hIdle => exact hNone hTask rfl (keeps_exhausted _ _)
  | idle hTask => exact hNone hTask rfl (keeps_idle _ _)
  | acquire hTask hFree => exact hNone hTask rfl ⟨List.prefix_refl _, rfl⟩
  | load hTask | look hTask => exact hNone hTask rfl (.refl _)
  | store hTask | halt hTask => exact hNone hTask rfl ⟨List.prefix_refl _, rfl⟩
  | askAll hTask | askNext hTask | askStop hTask => exact hNone hTask rfl (.refl _)
  | joinSelf hTask | join hTask => exact hNone hTask rfl ⟨List.prefix_append _ _, rfl⟩

/-- **A receiver records what concerns it, and nothing else.** -/
theorem recordsOf_of_move (hRecords : w.records target = true) (hMove : Move w thread M M') :
    M'.state.recordsOf target =
      (M.event? thread).toList.foldl (Event.addTo target) (M.state.recordsOf target) := by
  have hBegins := begins_of_move hMove
  generalize M.event? thread = e at hBegins ⊢
  cases hBegins with
  | nothing h =>
    rw [State.recordsOf, h.records]
    rfl
  | reset h => exact recordsOf_reset_reply hRecords h
  | handing h =>
    rw [h]
    exact recordsOf_atCall hRecords _ _ _
  | delivery h =>
    rw [h]
    exact recordsOf_atDelivery hRecords _ _

end Records

/-! ### What a step does to its journal -/

section Steps

variable {w : World σ κ} {thread : Thread} {M M' : Machine σ κ}

theorem due_of_reachable (h : Reachable w M) : ∀ m ∈ M.ledger.taken, m.due ≤ M.state.clock.now := by
  induction h with
  | start h p =>
    obtain ⟨clock, rfl⟩ := State.spec_of_make h
    simp [ledger, Ledger.of, start]
  | @step M M' thread prior h ih =>
    have hNow : M.state.clock.now ≤ M'.state.clock.now := (turn_of_step h).step.now_le
    intro m hm
    rcases takes_of_step h with hSame | ⟨m', hTakes⟩
    · rw [hSame] at hm
      exact Int.le_trans (ih m hm) hNow
    · rw [hTakes.taken] at hm
      rcases List.mem_append.1 hm with hm | hm
      · exact Int.le_trans (ih m hm) hNow
      · obtain rfl := List.mem_singleton.1 hm
        exact Int.le_trans hTakes.due hNow

/-- The call of a message is made when the message has begun to be delivered. -/
theorem called_of_step (h : M.step w thread = some M') :
    M'.ledger.called.map (·.1) =
      M.ledger.called.map (·.1) ++ (M.event? thread).toList.filterMap Event.delivered? := by
  rw [event?, Control.delivered_event?]
  cases turn_of_step h with
  | go hEdit _ _ _ hHand => rw [hEdit.called_eq, hHand, List.append_nil]
  | enter hLedger _ _ _ _ hHand => rw [hLedger, hHand, List.append_nil]
  | take m q loop hControl _ hLedger => rw [hLedger, hControl]; exact (List.append_nil _).symm
  | call m loop p hControl hLedger =>
    rw [hLedger, hControl, List.map_append]
    rfl
  | leave hLedger _ _ _ hHand => rw [hLedger, hHand, List.append_nil]

/-- An event has the time at which it begins, and a message that is delivered was due by then. -/
theorem spec_event? (hReach : Reachable w M) {e : Event κ} (h : M.event? thread = some e) :
    (∀ time ∈ e.time?, time = M.state.clock.now) ∧
      ∀ m time other, e = .delivery m time other → m.due ≤ time := by
  rw [event?] at h
  cases hControl : (M.tasks thread).control with
  | deliver m loop =>
    rw [hControl] at h
    obtain rfl := Option.some.inj h
    have hTaken : m ∈ M.ledger.taken := by
      refine (kept_of_reachable hReach).delivering thread m ?_
      rw [Task.delivering, hControl]
      exact List.mem_cons_self
    refine ⟨fun time hTime => (Option.some.inj hTime).symm, ?_⟩
    intro m' time other hSame
    obtain ⟨rfl, rfl, -⟩ := Event.delivery.inj hSame
    exact due_of_reachable hReach m hTaken
  | run p =>
    rw [hControl] at h
    cases p with
    | ask r next =>
      cases r with
      | handle target tag =>
        obtain rfl := Option.some.inj h
        exact ⟨fun time hTime => (Option.some.inj hTime).symm, by simp⟩
      | reset target =>
        obtain rfl := Option.some.inj h
        exact ⟨by simp [Event.time?], by simp⟩
      | _ => cases h
    | _ => cases h
  | _ =>
    rw [hControl] at h
    cases h

end Steps

/-! ### Whole runs -/

/-- The events of a run are what receivers have recorded and what has been called, in the order of
their times, and nothing was delivered before it was due. -/
structure Told (w : World σ κ) (M : Machine σ κ) (events : List (Event κ)) : Prop where
  records : ∀ target, w.records target = true → M.state.recordsOf target = heardBy target events
  delivered : events.filterMap Event.delivered? = M.ledger.called.map (·.1)
  now : ∀ e ∈ events, ∀ time ∈ e.time?, time ≤ M.state.clock.now
  times : events.Pairwise fun e e' => ∀ time ∈ e.time?, ∀ time' ∈ e'.time?, time ≤ time'
  due : ∀ m time thread, Event.delivery m time thread ∈ events → m.due ≤ time

namespace Told

variable {w : World σ κ} {thread : Thread} {M M' : Machine σ κ} {events : List (Event κ)}

theorem step (hReach : Reachable w M) (h : Told w M events) (hStep : M.step w thread = some M') :
    Told w M' (events ++ (M.event? thread).toList) := by
  have hNow : M.state.clock.now ≤ M'.state.clock.now := (turn_of_step hStep).step.now_le
  have hCalled := called_of_step hStep
  have hRecorded (target : Target) (hTarget : w.records target = true) :=
    recordsOf_of_move hTarget (move_of_step hStep)
  cases hEvent : M.event? thread with
  | none =>
    rw [hEvent] at hCalled
    rw [Option.toList_none, List.append_nil]
    refine ⟨fun target hTarget => ?_, ?_, ?_, h.times, h.due⟩
    · rw [hRecorded target hTarget, hEvent]
      exact h.records target hTarget
    · rw [hCalled, h.delivered]
      exact (List.append_nil _).symm
    · intro e he time hTime
      exact Int.le_trans (h.now e he time hTime) hNow
  | some new =>
    obtain ⟨hTime, hDue⟩ := spec_event? hReach hEvent
    rw [hEvent] at hCalled
    rw [Option.toList_some] at hCalled ⊢
    refine ⟨fun target hTarget => ?_, ?_, ?_, ?_, ?_⟩
    · rw [hRecorded target hTarget, hEvent, heardBy_concat, ← h.records target hTarget]
      rfl
    · rw [List.filterMap_append, h.delivered, hCalled]
    · intro e he time hAt
      rcases List.mem_append.1 he with he | he
      · exact Int.le_trans (h.now e he time hAt) hNow
      · obtain rfl := List.mem_singleton.1 he
        rw [hTime time hAt]
        exact hNow
    · rw [List.pairwise_append]
      refine ⟨h.times, List.pairwise_singleton _ _, ?_⟩
      intro e he e' he' time hAt time' hAt'
      obtain rfl := List.mem_singleton.1 he'
      rw [hTime time' hAt']
      exact h.now e he time hAt
    · intro m time other hMem
      rcases List.mem_append.1 hMem with hMem | hMem
      · exact h.due m time other hMem
      · exact hDue m time other (List.mem_singleton.1 hMem).symm

end Told

theorem told_of_run {w : World σ κ} {settings : Settings} {fallback : Option Target} {memory : σ}
    {s : State σ κ} (hMake : State.make settings fallback memory = .ok s) {p : Program σ κ Unit}
    {schedule : List Thread} {M : Machine σ κ} (hRun : (start s p).follow w schedule = some M) :
    Told w M ((start s p).journal w schedule) := by
  refine account_induction (P := Told w) (fun hReach h hStep => h.step hReach hStep)
    (.start hMake p) ?_ hRun
  obtain ⟨clock, rfl⟩ := State.spec_of_make hMake
  exact ⟨fun _ _ => rfl, rfl, by simp, .nil, by simp⟩

end Machine

theorem pairwise_heardBy {events : List (Event κ)}
    (h : events.Pairwise fun e e' => ∀ time ∈ e.time?, ∀ time' ∈ e'.time?, time ≤ time')
    (target : Target) : (heardBy target events).Pairwise fun r r' => r.time ≤ r'.time := by
  have hSince : (sinceReset target events).Sublist events := (List.rtakeWhile_suffix _ _).sublist
  refine List.Pairwise.filterMap _ (fun e e' hTimes r hr r' hr' => ?_) (h.sublist hSince)
  exact hTimes r.time (Event.time?_of_heard? hr) r'.time (Event.time?_of_heard? hr')

namespace Machine

/-- **What a receiver records is what has reached it**, if calls and their records are not torn
apart.  At every moment of every run of a machine, a receiver that records has recorded the calls of
it that have begun since it was last made to forget, in the order in which they began, each with the
time at which it began.  These times do not go back, and none is before the due time of the message
that was delivered.  All messages that were taken have begun to be delivered, in the order in which
they were taken, but for the one that a thread may have in its hand. -/
theorem records_of_run {w : World σ κ} {settings : Settings} {fallback : Option Target}
    {memory : σ} {s : State σ κ} (hMake : State.make settings fallback memory = .ok s)
    {p : Program σ κ Unit} {schedule : List Thread} {M : Machine σ κ}
    (hRun : (start s p).follow w schedule = some M) :
    (∀ target, w.records target = true →
      M.state.recordsOf target = heardBy target ((start s p).journal w schedule) ∧
      (M.state.recordsOf target).Pairwise (fun r r' => r.time ≤ r'.time) ∧
      ∀ e ∈ sinceReset target ((start s p).journal w schedule), ∀ r ∈ e.heard? target,
        ∀ m ∈ e.delivered?, m.due ≤ r.time) ∧
    ((start s p).journal w schedule).filterMap Event.delivered? ++ M.inHand = M.ledger.taken := by
  have hTold := told_of_run hMake hRun
  have hKept := kept_of_reachable ((Reachable.start hMake p).follow hRun)
  refine ⟨fun target hTarget => ?_, ?_⟩
  · have hRecords := hTold.records target hTarget
    refine ⟨hRecords, ?_, ?_⟩
    · rw [hRecords]
      exact pairwise_heardBy hTold.times target
    · intro e he r hr m hm
      have hMem := (List.rtakeWhile_suffix _ _).subset he
      cases e with
      | delivery m' time thread =>
        obtain rfl := Option.some.inj hm
        rw [← Option.some.inj (Event.time?_of_heard? hr)]
        exact hTold.due m' time thread hMem
      | handing => cases hm
      | reset => cases hm
  · have hHanded := congrArg (List.map Prod.fst) hKept.handed
    rw [List.map_append, List.map_map, List.map_map] at hHanded
    rw [hTold.delivered]
    simpa [Function.comp_def, Message.withCall] using hHanded.symm

end Machine

/-! ### A small run -/

/-- Receivers record.  On zero they send a one, move the clock, dispatch what is due, and fail. -/
def World.recording : World Unit Unit where
  receive target
    | .int 0 =>
      .ask (.enqueue (.int 1) (.int 0) (some target) none) fun _ =>
        .ask (.advance (.int 5)) fun _ => .ask .dispatchAll fun _ => .fail .noReceiver
    | _ => .done ()
  invoke _ := .done ()
  records _ := true

/-- A zero is sent to a receiver, and a callback is posted for it.  All is dispatched, which fails,
and then the receiver is handed a two. -/
def Program.recorded (target : Target) : Program Unit Unit Unit :=
  .ask (.enqueue (.int 0) (.int 0) (some target) none) fun _ =>
    .ask (.enqueue .none (.int 0) (some target) (some ())) fun _ =>
      .ask .dispatchAll fun _ => .ask (.handle target (.int 2)) fun _ => .done ()

namespace Machine

/-- The zero is recorded before the one, though its call is over only afterwards, by a failure. -/
example :
    (after .recording .standard none () (.recorded (.handler "a"))
      (List.replicate 20 .main)).map (fun M =>
        (Value.sameElements ((M.state.recordsOf (.handler "a")).map (·.tag))
          [.int 0, .int 1, .int 2], (M.state.recordsOf (.handler "a")).map (·.time),
          M.ledger.taken.map (·.seq))) = some (true, [0, 5, 5], [0, 1, 2]) := by
  decide +kernel

end Machine

end VirtualLooper
