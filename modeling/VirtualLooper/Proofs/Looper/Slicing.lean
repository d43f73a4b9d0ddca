import VirtualLooper.Proofs.Looper.Noninterference
import VirtualLooper.Proofs.Looper.Resumption

/-!
# Time slices

The clock can be moved in slices, with a dispatch of all that is due after each, or all at once.
Handlers that make no requests and do not fail are delivered the same messages in the same order
either way.

What a slice does is a cut through the agenda: what is due by the end of the slice is delivered, in
the order of the agenda, and what is due later stays (`State.Swept`).  Two cuts, one after the
other, are the later cut alone, since the agenda is sorted: `Agenda.due_later` is the law that
carries the induction over the slices (`State.Swept.append`).  Messages that are due at the very end
of a slice, or were due before the first, need no care of their own.
-/

namespace VirtualLooper

variable {σ κ : Type}

/-- Moves the clock by these amounts, with all that is due delivered after each. -/
def Request.slices (amounts : List Int) : List (Request κ) :=
  amounts.flatMap fun amount => [.advance (.int amount), .dispatchAll]

/-- How far the clock is moved by these amounts. -/
def span (amounts : List Int) : Int := amounts.foldr (· + ·) 0

theorem span_nonneg {amounts : List Int} (h : ∀ x ∈ amounts, 0 ≤ x) : 0 ≤ span amounts := by
  induction amounts with
  | nil => exact Int.le_refl 0
  | cons amount amounts ih =>
    obtain ⟨hAmount, hRest⟩ := List.forall_mem_cons.1 h
    exact Int.add_nonneg hAmount (ih hRest)

theorem span_cons (amount : Int) (amounts : List Int) :
    span (amount :: amounts) = amount + span amounts := rfl

/-! ### Cuts through an agenda -/

theorem Message.filter_filter_of_iff {p q r : Message κ → Prop} [DecidablePred p] [DecidablePred q]
    [DecidablePred r] (h : ∀ m, p m ∧ q m ↔ r m) (ms : List (Message κ)) :
    (ms.filter fun m => q m).filter (fun m => p m) = ms.filter fun m => r m := by
  rw [List.filter_filter]
  refine congrArg (ms.filter ·) (funext fun m => ?_)
  rw [← Bool.decide_and]
  exact decide_eq_decide.2 (h m)

namespace Agenda

theorem later_later (a : Agenda κ) {time time' : Int} (h : time ≤ time') :
    (a.later time).later time' = a.later time' := by
  have hPending : ((a.later time).later time').pending = (a.later time').pending :=
    Message.filter_filter_of_iff (fun m => by omega) a.pending
  exact congrArg (fun ms => { a with pending := ms }) hPending

theorem due_later (a : Agenda κ) (hSorted : a.pending.Pairwise fun x y => x.before y = true)
    {time time' : Int} (h : time ≤ time') :
    (a.due time).pending ++ ((a.later time).due time').pending = (a.due time').pending := by
  have hEarly : (a.due time).pending = (a.due time').pending.filter fun m => m.due ≤ time :=
    (Message.filter_filter_of_iff (fun m => by omega) a.pending).symm
  have hLate : ((a.later time).due time').pending =
      (a.due time').pending.filter fun m => time < m.due := List.filter_comm ..
  have hNot : (fun m : Message κ => decide (time < m.due)) = fun m => !decide (m.due ≤ time) := by
    funext m
    rw [← decide_not, decide_eq_decide, Int.not_le]
  have hAll : (a.due time').pending.Pairwise fun x y => x.before y = true := hSorted.filter _
  rw [hEarly, hLate, hNot]
  -- both lists are in order, and have the same messages in them
  refine (Message.eq_inOrder (List.filter_append_perm _ _) ?_).trans
    (Message.eq_inOrder (.refl _) hAll).symm
  refine List.pairwise_append.2 ⟨hAll.filter _, hAll.filter _, ?_⟩
  intro x hx y hy
  have hx : x.due ≤ time := by simpa using (List.mem_filter.1 hx).2
  have hy : time < y.due := by simpa using (List.mem_filter.1 hy).2
  rw [Message.before_iff]
  omega

end Agenda

/-! ### What receivers record -/

def Record.untimed (r : Record) : Target × Value × Thread := (r.target, r.tag, r.thread)

/-- What a receiver records of a message, but for the time, is the same at any time. -/
theorem World.untimed_recorded? (w : World σ κ) (thread : Thread) (time time' : Int)
    (m : Message κ) :
    (w.recorded? thread time m).map Record.untimed =
      (w.recorded? thread time' m).map Record.untimed := by
  rw [recorded?, recorded?]
  cases m.call? with
  | none => rfl
  | some call =>
    cases call with
    | callback c => rfl
    | receiver target tag =>
      cases hRecords : w.records target with
      | false => simp [hRecords]
      | true => simp [hRecords, Record.untimed]

namespace State

def calledSoFar (s : State σ κ) : List (Message κ × Option (Call κ)) :=
  s.history.filterMap Occurrence.called?

def received (s : State σ κ) : List (Target × Value × Thread) := s.records.map Record.untimed

/-! ### Slices -/

/-- The clock was moved to a time, and all that was due then was delivered, in the order of an
agenda. -/
structure Swept (w : World σ κ) (a : Agenda κ) (time : Int) (s t : State σ κ) : Prop where
  session : t.session = s.session
  clock : t.clock = ⟨time⟩
  shows : Shows t.queue (a.later time)
  taken : t.takenSoFar = s.takenSoFar ++ (a.due time).pending
  called : t.calledSoFar = s.calledSoFar ++ (a.due time).pending.map Message.withCall
  received : t.received = s.received ++ (a.due time).pending.filterMap fun m =>
    (w.recorded? .main 0 m).map Record.untimed

namespace Swept

variable {w : World σ κ} {s t u : State σ κ} {a : Agenda κ} {time time' : Int}

theorem size_le (h : Swept w a time s t) (hShows : Shows s.queue a) :
    t.queue.size ≤ s.queue.size := by
  rw [h.shows.size, hShows.size]
  exact List.length_filter_le _ _

theorem append (h : Swept w a time s t) (h' : Swept w (a.later time) time' t u)
    (hShows : Shows s.queue a) (hTime : time ≤ time') : Swept w a time' s u := by
  have hDue := a.due_later hShows.sorted hTime
  constructor
  case session => exact h'.session.trans h.session
  case clock => exact h'.clock
  case shows =>
    have hRest := h'.shows
    rwa [Agenda.later_later a hTime] at hRest
  case taken => rw [h'.taken, h.taken, List.append_assoc, hDue]
  case called => rw [h'.called, h.called, List.append_assoc, ← List.map_append, hDue]
  case received => rw [h'.received, h.received, List.append_assoc, ← List.filterMap_append, hDue]

end Swept

end State

section Requests

variable {w : World σ κ}

/-- A move by an amount that is not negative moves the clock, even if it cannot be logged. -/
theorem State.move_int (s : State σ κ) (strict : Bool) (thread : Thread) {amount : Int}
    (hAmount : 0 ≤ amount) :
    ∃ log, (s.move strict thread (.int amount)).2 =
      { s with clock := ⟨s.clock.now + amount⟩, log := log } := by
  have hNot : ¬ amount < 0 := by omega
  simp only [move, advance, Clock.advance, checkNonNegative, if_neg hNot, Except.map, write]
  split
  · exact ⟨s.log, rfl⟩
  · rename_i noted hNoted
    split at hNoted
    · cases hNoted
    · cases hNoted
      exact ⟨_, rfl⟩

theorem askInTurn_append {bound : Nat} {rs : List (Request κ)} (rs' : List (Request κ))
    {s t : State σ κ} {xs : List (Exchange κ)} (h : askInTurn w bound rs s = .ok xs t) :
    askInTurn w bound (rs ++ rs') s = (askInTurn w bound rs' t).map (xs ++ ·) := by
  induction rs generalizing s xs with
  | nil =>
    cases h
    show askInTurn w bound rs' t = _
    cases askInTurn w bound rs' t <;> rfl
  | cons r rs ih =>
    rw [askInTurn] at h
    rw [List.cons_append, askInTurn]
    cases hAnswer : perform w bound .main r s with
    | ok reply u =>
      rw [hAnswer] at h
      obtain ⟨ys, hRest, rfl⟩ := Outcome.map_eq_ok.1 h
      simp only [Outcome.attempt, ih hRest]
      cases askInTurn w bound rs' t <;> rfl
    | failed e u =>
      rw [hAnswer] at h
      obtain ⟨ys, hRest, rfl⟩ := Outcome.map_eq_ok.1 h
      simp only [Outcome.attempt, ih hRest]
      cases askInTurn w bound rs' t <;> rfl
    | _ =>
      rw [hAnswer] at h
      cases h

end Requests

namespace State

variable {w : World σ κ}

theorem Delivered.swept {a : Agenda κ} {s t : State σ κ} (h : Delivered w a s t) :
    Swept w a s.clock.now s t where
  session := h.session
  clock := h.clock
  shows := h.shows
  taken := by
    have hTaken := h.filterMap_history (f := Occurrence.taken?) (fun _ => rfl) (g := some)
      fun m => List.append_nil _
    rwa [List.filterMap_some] at hTaken
  called := by
    have hCalled := h.filterMap_history (f := Occurrence.called?) (fun _ => rfl)
      (g := fun m => some m.withCall) fun m => List.nil_append _
    rwa [List.filterMap_eq_map'] at hCalled
  received := by
    rw [received, h.records, List.map_append, List.map_filterMap]
    refine congrArg (fun f => s.received ++ (a.due s.clock.now).pending.filterMap f)
      (funext fun m => ?_)
    exact w.untimed_recorded? .main s.clock.now 0 m

/-- **One slice**: what is due by its end is delivered. -/
theorem exists_slice (hQuiet : w.Quiet) {s : State σ κ} (hSession : s.session = none)
    {a : Agenda κ} (hShows : Shows s.queue a) {amount : Int} (hAmount : 0 ≤ amount) {bound : Nat}
    (hBound : s.queue.size < bound) :
    ∃ xs t, askInTurn w (bound + 1) [.advance (.int amount), .dispatchAll] s = .ok xs t ∧
      xs.filterMap Exchange.dispatch? =
        [.count (a.due (s.clock.now + amount)).pending.length] ∧
      Swept w a (s.clock.now + amount) s t := by
  obtain ⟨log, hMove⟩ := s.move_int w.strictLog .main hAmount
  let moved : State σ κ := { s with clock := ⟨s.clock.now + amount⟩, log := log }
  have hAdvance : perform w (bound + 1) .main (.advance (.int amount)) s =
      .ofResult (s.move w.strictLog .main (.int amount)).1 moved := by
    rw [perform, respond, hMove]
  obtain ⟨t, hAnswer, hDelivered⟩ : ∃ t, perform w (bound + 1) .main .dispatchAll moved =
      .ok (.count (a.due moved.clock.now).pending.length) t ∧ Delivered w a moved t :=
    exists_dispatchAll (s := moved) hQuiet hSession hShows hBound
  refine ⟨[⟨.main, .advance (.int amount), (s.move w.strictLog .main (.int amount)).1, moved.clock.now⟩,
    ⟨.main, .dispatchAll, .ok (.count (a.due moved.clock.now).pending.length), t.clock.now⟩],
    t, ?_, rfl, ?_⟩
  · rw [askInTurn, hAdvance, Outcome.attempt_ofResult, askInTurn, hAnswer]
    rfl
  · obtain ⟨hIdle, hClock, hRest, hTaken, hCalled, hReceived⟩ := hDelivered.swept
    exact ⟨hIdle, hClock, hRest, hTaken, hCalled, hReceived⟩

/-- **Any number of slices**: what is due by the end of the last is delivered, and as many messages
are counted. -/
theorem exists_slices (hQuiet : w.Quiet) {bound : Nat} (amounts : List Int) {amount : Int}
    (hAmounts : ∀ x ∈ amount :: amounts, 0 ≤ x) {s : State σ κ} (hSession : s.session = none)
    {a : Agenda κ} (hShows : Shows s.queue a) (hBound : s.queue.size < bound) :
    ∃ (xs : List (Exchange κ)) (t : State σ κ) (ns : List Nat),
      askInTurn w (bound + 1) (Request.slices (amount :: amounts)) s = .ok xs t ∧
      xs.filterMap Exchange.dispatch? = ns.map Reply.count ∧
      ns.length = amounts.length + 1 ∧
      Ledger.total ns = (a.due (s.clock.now + span (amount :: amounts))).pending.length ∧
      Swept w a (s.clock.now + span (amount :: amounts)) s t := by
  induction amounts generalizing amount s a with
  | nil =>
    obtain ⟨hAmount, -⟩ := List.forall_mem_cons.1 hAmounts
    obtain ⟨xs, t, hRun, hCount, hSwept⟩ := exists_slice hQuiet hSession hShows hAmount hBound
    have hSpan : span [amount] = amount := Int.add_zero amount
    rw [hSpan]
    exact ⟨xs, t, [(a.due (s.clock.now + amount)).pending.length], hRun, hCount, rfl, rfl, hSwept⟩
  | cons next amounts ih =>
    obtain ⟨hAmount, hRest⟩ := List.forall_mem_cons.1 hAmounts
    obtain ⟨xs, t, hRun, hCount, hSwept⟩ := exists_slice hQuiet hSession hShows hAmount hBound
    obtain ⟨ys, u, ns, hRun', hCount', hLength, hSum, hSwept'⟩ :=
      ih hRest (hSwept.session.trans hSession) hSwept.shows
        (Nat.lt_of_le_of_lt (hSwept.size_le hShows) hBound)
    have hPos : 0 ≤ span (next :: amounts) := span_nonneg hRest
    have hNow : t.clock.now + span (next :: amounts) =
        s.clock.now + span (amount :: next :: amounts) := by
      rw [hSwept.clock, span_cons amount, Int.add_assoc]
    have hLe : s.clock.now + amount ≤ s.clock.now + span (amount :: next :: amounts) := by
      rw [span_cons amount]
      omega
    refine ⟨xs ++ ys, u, (a.due (s.clock.now + amount)).pending.length :: ns, ?_, ?_, ?_, ?_, ?_⟩
    · refine (askInTurn_append (Request.slices (next :: amounts)) hRun).trans ?_
      rw [hRun']
      rfl
    · rw [List.filterMap_append, hCount, hCount']
      rfl
    · rw [List.length_cons, List.length_cons, hLength]
    · rw [hNow] at hSum
      rw [← a.due_later hShows.sorted hLe, List.length_append, ← hSum]
      rfl
    · rw [hNow] at hSwept'
      exact hSwept.append hSwept' hShows hLe

end State

/-- **It does not matter how time is sliced.**  A looper is idle, and its handlers make no requests
of their own accord and do not fail.  Its clock is moved by any number of amounts, with a dispatch
of all that is due after each, or by all of them together, with one dispatch in the end.  Both times
the same messages are delivered in the same order, namely all that are due in the end; the same
calls are made, and the same is recorded, but for the times; the clock shows the same, the same is
left pending, and the dispatches count as many messages. -/
theorem sliced {w : World σ κ} (hQuiet : w.Quiet) {s : State σ κ} (hSession : s.session = none)
    {amounts : List Int} (hSome : amounts ≠ []) (hAmounts : ∀ x ∈ amounts, 0 ≤ x) {bound : Nat}
    (hBound : s.queue.size + 1 < bound) :
    ∃ (xs xs' : List (Exchange κ)) (t t' : State σ κ) (ns : List Nat),
      askInTurn w bound (Request.slices amounts) s = .ok xs t ∧
      askInTurn w bound [.advance (.int (span amounts)), .dispatchAll] s = .ok xs' t' ∧
      t.takenSoFar = s.takenSoFar ++
        Message.inOrder (s.queue.pending.filter fun m => m.due ≤ s.clock.now + span amounts) ∧
      t'.takenSoFar = t.takenSoFar ∧ t'.calledSoFar = t.calledSoFar ∧
      t'.received = t.received ∧ t'.queue.pending.Perm t.queue.pending ∧ t'.clock = t.clock ∧
      ns.length = amounts.length ∧ xs.filterMap Exchange.dispatch? = ns.map Reply.count ∧
      xs'.filterMap Exchange.dispatch? = [.count (Ledger.total ns)] := by
  obtain ⟨bound, rfl⟩ := Nat.exists_eq_add_one_of_ne_zero (Nat.ne_zero_of_lt hBound)
  have hBound : s.queue.size < bound := Nat.lt_of_succ_lt_succ hBound
  obtain ⟨amount, amounts, rfl⟩ := List.exists_cons_of_ne_nil hSome
  have hShows := Shows.inOrder s.queue
  obtain ⟨xs, t, ns, hRun, hCounts, hLength, hSum, hSwept⟩ :=
    State.exists_slices hQuiet amounts hAmounts hSession hShows hBound
  obtain ⟨xs', t', hRun', hCount, hSwept'⟩ :=
    State.exists_slice hQuiet hSession hShows (span_nonneg hAmounts) hBound
  refine ⟨xs, xs', t, t', ns, hRun, hRun', ?_, ?_, ?_, ?_, ?_, ?_, hLength, hCounts, ?_⟩
  · rw [hSwept.taken]
    exact congrArg (s.takenSoFar ++ ·)
      (Message.eq_inOrder (hShows.perm.filter _) (hShows.sorted.filter _))
  · rw [hSwept'.taken, hSwept.taken]
  · rw [hSwept'.called, hSwept.called]
  · rw [hSwept'.received, hSwept.received]
  · exact hSwept'.shows.perm.symm.trans hSwept.shows.perm
  · rw [hSwept'.clock, hSwept.clock]
  · rw [hCount, hSum]

/-- One message is due when it is sent, two by the end of a slice that ends at 2, two by 5, and one
after that. -/
def Request.scattered (target : Target) : List (Request Unit) :=
  [.enqueue (.str "noon") (.int 2) target none, .enqueueAt (.str "dusk") (.int 5) target (some ()),
    .enqueueAt (.str "noon") (.int 2) target none, .enqueueAt (.str "dawn") (.int (-3)) target none,
    .enqueue (.str "night") (.int 9) target none, .enqueue (.str "dusk") (.int 5) target none]

theorem sliced_scattered :
    ∃ (s₀ s : State Unit Unit) (sent xs xs' : List (Exchange Unit)) (t t' : State Unit Unit)
        (ns : List Nat),
      State.make .standard none () = .ok s₀ ∧
      askInTurn .still 10 (Request.scattered (.handler "ada")) s₀ = .ok sent s ∧
      askInTurn .still 10 (Request.slices [2, 0, 3]) s = .ok xs t ∧
      askInTurn .still 10 [.advance (.int 5), .dispatchAll] s = .ok xs' t' ∧
      t'.takenSoFar.map (·.seq) = [3, 0, 2, 1, 5] ∧ t'.takenSoFar = t.takenSoFar ∧
      t'.queue.pending.map (·.seq) = [4] ∧ t'.clock.now = 5 ∧
      xs.filterMap Exchange.dispatch? = ns.map Reply.count ∧
      xs'.filterMap Exchange.dispatch? = [.count (Ledger.total ns)] := by
  have hRun : ∃ (s₀ s : State Unit Unit) (sent : List (Exchange Unit)),
      State.make .standard none () = .ok s₀ ∧
      askInTurn .still 10 (Request.scattered (.handler "ada")) s₀ = .ok sent s ∧
      s.session = none ∧ s.queue.size + 1 < 10 ∧
      (match askInTurn .still 10 (Request.slices [2, 0, 3]) s with
      | .ok _ t =>
        (t.takenSoFar.map (·.seq), t.queue.pending.map (·.seq), t.clock.now)
      | _ => ([], [], 0)) = ([3, 0, 2, 1, 5], [4], 5) :=
    ⟨_, _, _, rfl, rfl, rfl, by decide, by decide +kernel⟩
  obtain ⟨s₀, s, sent, hMake, hSent, hSession, hBound, hEnd⟩ := hRun
  have hAmounts : ∀ x ∈ ([2, 0, 3] : List Int), 0 ≤ x := by decide
  obtain ⟨xs, xs', t, t', ns, hAsk, hAsk', -, hTaken, -, -, hPending, hClock, -, hCounts, hCount⟩ :=
    sliced (w := .still) ⟨fun _ _ => trivial, fun _ => trivial⟩ hSession (by decide) hAmounts hBound
  rw [hAsk] at hEnd
  obtain ⟨hSeqs, hRest⟩ := Prod.mk.inj hEnd
  obtain ⟨hLeft, hNow⟩ := Prod.mk.inj hRest
  refine ⟨s₀, s, sent, xs, xs', t, t', ns, hMake, hSent, hAsk, hAsk', ?_, hTaken, ?_, ?_, hCounts,
    hCount⟩
  · rw [hTaken]
    exact hSeqs
  · have hSame := hPending.map (·.seq)
    rw [hLeft] at hSame
    exact List.perm_singleton.1 hSame
  · rw [hClock]
    exact hNow

end VirtualLooper
