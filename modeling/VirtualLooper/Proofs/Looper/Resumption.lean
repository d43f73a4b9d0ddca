import VirtualLooper.Proofs.Looper.Alike

/-!
# Dispatches that are resumed after failures

A failure of a handler ends the dispatch that delivers the message, and another dispatch goes on
where the first one has ended.  Handlers do what they do before they fail, so the deliveries are
those of the same handlers that never fail (`World.calm`, `Delivers.of_calm`).  One dispatch makes
the deliveries up to the first that fails (`Delivers.drain`), and what is left is for the next one:
its first delivery begins in a looper that is alike to the one in which the failure was
(`Delivers.again`).  Since what a dispatch takes is not pending any more, and its number is not
given again, no message is taken twice (`Ledger.Past`).
-/

namespace VirtualLooper

variable {σ κ : Type}

/-! ### Handlers that never fail -/

/-- The same program, which ends where it would fail. -/
def Program.calm : Program σ κ Unit → Program σ κ Unit
  | .done u => .done u
  | .fail _ => .done ()
  | .load next => .load fun memory => (next memory).calm
  | .store memory next => .store memory next.calm
  | .look next => .look fun sight => (next sight).calm
  | .ask r next => .ask r fun reply => (next reply).calm

def World.calm (w : World σ κ) : World σ κ where
  receive target tag := (w.receive target tag).calm
  invoke c := (w.invoke c).calm
  records := w.records
  strictLog := w.strictLog

theorem Program.Asks.calm {ok : Request κ → Prop} {p : Program σ κ Unit} (h : p.Asks ok) :
    p.calm.Asks ok := by
  induction p with
  | done u => exact h
  | fail e => trivial
  | load next ih => exact fun memory => ih memory (h memory)
  | store memory next ih => exact ih h
  | look next ih => exact fun sight => ih sight (h sight)
  | ask r next ih => exact ⟨h.1, fun reply => ih reply (h.2 reply)⟩

theorem World.Asks.calm {w : World σ κ} {ok : Request κ → Prop} (h : w.Asks ok) :
    w.calm.Asks ok :=
  ⟨fun target tag => (h.receive target tag).calm, fun c => (h.invoke c).calm⟩

namespace World

variable (w : World σ κ)

theorem calm_delivery (m : Message κ) : w.calm.delivery m = (w.delivery m).calm := by
  rw [delivery, delivery]
  cases m.call? with
  | none => rfl
  | some call =>
    cases call with
    | callback c => rfl
    | receiver target tag => rfl

theorem calm_atDelivery (thread : Thread) (m : Message κ) (s : State σ κ) :
    w.calm.atDelivery thread m s = w.atDelivery thread m s := by
  rw [atDelivery, atDelivery]
  cases m.call? with
  | none => rfl
  | some call =>
    cases call with
    | callback c => rfl
    | receiver target tag => rfl

theorem calm_respond (thread : Thread) (r : Request κ) (s : State σ κ) :
    s.respond w.calm thread r = s.respond w thread r := by
  cases r <;> rfl

end World

/-! ### Deliveries one after the other -/

/-- From one state to another, messages are taken and delivered one after the other, and that is
what comes of each delivery. -/
inductive Delivers (w : World σ κ) (bound : Nat) (thread : Thread) :
    State σ κ → List (Message κ × Except Failure Unit) → State σ κ → Prop
  | refl (s : State σ κ) : Delivers w bound thread s [] s
  | cons {s t u v : State σ κ} {m : Message κ} {result : Except Failure Unit}
      {ds : List (Message κ × Except Failure Unit)} (hTake : s.take? thread = some (m, t))
      (hDeliver : w.deliver (perform w bound thread) thread m t = .ofResult result u)
      (hRest : Delivers w bound thread u ds v) : Delivers w bound thread s ((m, result) :: ds) v

def NoneFails (ds : List (Message κ × Except Failure Unit)) : Prop := ∀ d ∈ ds, d.2 = .ok ()

theorem NoneFails.nil : NoneFails ([] : List (Message κ × Except Failure Unit)) := by
  simp [NoneFails]

theorem NoneFails.cons {ds : List (Message κ × Except Failure Unit)} (h : NoneFails ds)
    (m : Message κ) : NoneFails ((m, .ok ()) :: ds) := by
  intro d hd
  rcases List.mem_cons.1 hd with rfl | hd
  · rfl
  · exact h d hd

theorem NoneFails.of_cons {d : Message κ × Except Failure Unit}
    {ds : List (Message κ × Except Failure Unit)} (h : NoneFails (d :: ds)) :
    d.2 = .ok () ∧ NoneFails ds :=
  ⟨h d List.mem_cons_self, fun d' hd' => h d' (List.mem_cons_of_mem _ hd')⟩

/-- What delivering all that is due has come to: messages were delivered until none was left, or
until a delivery failed, and that is the failure. -/
def Ends (thread : Thread) (ds : List (Message κ × Except Failure Unit)) (t : State σ κ) :
    Except Failure Nat → Prop
  | .ok n => NoneFails ds ∧ ds.length = n ∧ t.take? thread = none
  | .error e => ∃ before m, NoneFails before ∧ ds = before ++ [(m, .error e)]

def failureOf {α : Type} : Except Failure α → Option Failure
  | .ok _ => none
  | .error e => some e

@[simp]
theorem failureOf_ok {α : Type} (a : α) : failureOf (.ok a) = none := rfl

@[simp]
theorem failureOf_error {α : Type} (e : Failure) :
    failureOf (.error e : Except Failure α) = some e :=
  rfl

/-- What the calls of a dispatch come to that is made again until it does not fail, if these
deliveries are to be made and the call that is going on has already taken some messages: each call
ends by the first delivery that fails, or by none. -/
def rounds : (taken : List (Message κ)) → List (Message κ × Except Failure Unit) →
    List (List (Message κ) × Except Failure Reply)
  | taken, [] => [(taken, .ok (.count taken.length))]
  | taken, (m, .ok _) :: ds => rounds (taken ++ [m]) ds
  | taken, (m, .error e) :: ds => (taken ++ [m], .error e) :: rounds [] ds

/-- One call after the other takes the messages, and their failures are those of the deliveries. -/
theorem spec_rounds (taken : List (Message κ)) (ds : List (Message κ × Except Failure Unit)) :
    (rounds taken ds).flatMap (·.1) = taken ++ ds.map (·.1) ∧
      (rounds taken ds).filterMap (failureOf ·.2) = ds.filterMap (failureOf ·.2) ∧
      (rounds taken ds).length = (ds.filterMap (failureOf ·.2)).length + 1 := by
  induction ds generalizing taken with
  | nil => simp [rounds]
  | cons d ds ih =>
    obtain ⟨m, result⟩ := d
    cases result with
    | ok u =>
      obtain ⟨hTaken, hFailures, hLength⟩ := ih (taken ++ [m])
      refine ⟨?_, ?_, ?_⟩
      · rw [rounds, hTaken, List.map_cons, List.append_assoc]
        rfl
      · simp [rounds, hFailures, List.filterMap_cons]
      · simp [rounds, hLength, List.filterMap_cons]
    | error e =>
      obtain ⟨hTaken, hFailures, hLength⟩ := ih []
      refine ⟨?_, ?_, ?_⟩
      · rw [rounds, List.flatMap_cons, hTaken, List.map_cons, List.append_assoc]
        rfl
      · simp [rounds, hFailures]
      · simp [rounds, hLength]

/-- A call in which no delivery fails is the last one. -/
theorem rounds_of_noneFails {ds : List (Message κ × Except Failure Unit)} (hOk : NoneFails ds)
    (taken : List (Message κ)) :
    rounds taken ds = [(taken ++ ds.map (·.1), .ok (.count (taken.length + ds.length)))] := by
  induction ds generalizing taken with
  | nil => simp [rounds]
  | cons d ds ih =>
    obtain ⟨m, result⟩ := d
    obtain ⟨hFirst, hRest⟩ := hOk.of_cons
    obtain rfl : result = .ok () := hFirst
    rw [rounds, ih hRest]
    have hLength : (taken ++ [m]).length + ds.length = taken.length + (ds.length + 1) := by
      rw [List.length_append, List.length_singleton]
      omega
    rw [hLength, List.map_cons, List.append_assoc, List.singleton_append, List.length_cons]

/-- Otherwise it ends by the first failure, and another call is made. -/
theorem rounds_of_error {ds rest : List (Message κ × Except Failure Unit)}
    (hOk : NoneFails ds) (taken : List (Message κ)) (m : Message κ) (e : Failure) :
    rounds taken (ds ++ (m, .error e) :: rest) =
      (taken ++ ds.map (·.1) ++ [m], .error e) :: rounds [] rest := by
  induction ds generalizing taken with
  | nil => simp [rounds]
  | cons d ds ih =>
    obtain ⟨m', result⟩ := d
    obtain ⟨hFirst, hRest⟩ := hOk.of_cons
    obtain rfl : result = .ok () := hFirst
    rw [List.cons_append, rounds, ih hRest]
    simp

namespace State

def takenSoFar (s : State σ κ) : List (Message κ) := s.history.filterMap Occurrence.taken?

end State

/-- Makes a dispatch again until it does not fail, at most so many times: the messages that each
call has taken, and what it came to. -/
def dispatchAgain (w : World σ κ) (bound : Nat) (thread : Thread) :
    (tries : Nat) → State σ κ →
      Outcome (State σ κ) (List (List (Message κ) × Except Failure Reply))
  | 0, _ => .unfinished
  | tries + 1, s =>
    (perform w bound thread .dispatchAll s).attempt fun result t =>
      let call := (t.takenSoFar.drop s.takenSoFar.length, result)
      match result with
      | .ok _ => .ok [call] t
      | .error _ => (dispatchAgain w bound thread tries t).map (call :: ·)

/-! ### One drain for another -/

section Drains

variable {w : World σ κ} {thread : Thread} {s t : State σ κ}

/-- A plain program comes to a result, and the one that never fails comes to the same state. -/
theorem exists_run_calm (w : World σ κ) (thread : Thread) (bound : Nat) {p : Program σ κ Unit}
    (hAsks : p.Asks Request.IsPlain) (s : State σ κ) :
    ∃ (result : Except Failure Unit) (t : State σ κ),
      p.run (perform w (bound + 1) thread) thread s = .ofResult result t ∧
      p.calm.run (perform w.calm (bound + 1) thread) thread s = .ok () t := by
  induction p generalizing s with
  | done u => exact ⟨.ok u, s, rfl, rfl⟩
  | fail e => exact ⟨.error e, s, rfl, rfl⟩
  | load next ih => exact ih _ (hAsks _) s
  | store memory next ih => exact ih hAsks { s with memory }
  | look next ih => exact ih _ (hAsks _) s
  | ask r next ih =>
    obtain ⟨reply, t₁, t₁', hReply, -⟩ := (State.Alike.refl s).respond w thread thread hAsks.1
    obtain ⟨result, t, hRun, hCalm⟩ := ih reply (hAsks.2 reply) t₁
    refine ⟨result, t, ?_, ?_⟩
    · rw [Program.run, perform_of_reply hReply, Outcome.attempt_ofResult, hRun]
    · rw [Program.calm, Program.run, perform_of_reply ((w.calm_respond thread r s).trans hReply),
        Outcome.attempt_ofResult, hCalm]

theorem exists_deliver_calm (hAsks : w.Asks Request.IsPlain) (thread : Thread) (bound : Nat)
    (m : Message κ) (s : State σ κ) :
    ∃ (result : Except Failure Unit) (t : State σ κ),
      w.deliver (perform w (bound + 1) thread) thread m s = .ofResult result t ∧
      w.calm.deliver (perform w.calm (bound + 1) thread) thread m s = .ok () t := by
  rw [World.deliver, World.deliver, w.calm_delivery, w.calm_atDelivery]
  exact exists_run_calm w thread bound (hAsks.delivery m) _

/-- **What handlers deliver that never fail is delivered by those that may fail.** -/
theorem Delivers.of_calm (hAsks : w.Asks Request.IsPlain) {bound : Nat}
    {ds : List (Message κ × Except Failure Unit)} (h : Delivers w.calm (bound + 1) thread s ds t) :
    ∃ ds', Delivers w (bound + 1) thread s ds' t ∧ ds'.map (·.1) = ds.map (·.1) := by
  induction h with
  | refl s => exact ⟨[], .refl s, rfl⟩
  | @cons s s₁ u t m result ds hTake hCalm hRest ih =>
    obtain ⟨ds', hDelivers, hSame⟩ := ih
    obtain ⟨result', u', hDeliver, hCalm'⟩ := exists_deliver_calm hAsks thread bound m s₁
    have hEnd : Outcome.ofResult result u = .ofResult (.ok ()) u' := hCalm.symm.trans hCalm'
    obtain ⟨-, rfl⟩ := Outcome.ofResult_inj.1 hEnd
    exact ⟨(m, result') :: ds', .cons hTake hDeliver hDelivers, by rw [List.map_cons, hSame]; rfl⟩

theorem Delivers.stays (hAsks : w.Asks Request.IsPlain) {bound : Nat}
    {ds : List (Message κ × Except Failure Unit)} (h : Delivers w (bound + 1) thread s ds t) :
    s.Stays t := by
  induction h with
  | refl s => exact .refl s
  | @cons s s₁ u t m result ds hTake hDeliver hRest ih =>
    obtain ⟨result', u', -, hDeliver', -, -, hStays, -⟩ :=
      (State.Alike.refl s₁).exists_deliver w thread thread bound bound hAsks m (Or.inr ⟨rfl, rfl⟩)
    obtain ⟨-, rfl⟩ := Outcome.ofResult_inj.1 (hDeliver.symm.trans hDeliver')
    exact (State.Stays.take hTake).trans (hStays.trans ih)

/-- A drain takes fewer messages than its bound, which lets it find that nothing is left. -/
theorem lt_of_drainWith {deliver : Message κ → State σ κ → Outcome (State σ κ) Unit} {most n : Nat}
    (h : drainWith thread id deliver most s = .ok n t) : n < most := by
  induction most generalizing s n with
  | zero => cases h
  | succ most ih =>
    rw [drainWith] at h
    cases hTake : s.take? thread with
    | none =>
      rw [hTake] at h
      obtain ⟨rfl, -⟩ := Outcome.ok.inj h
      exact Nat.succ_pos most
    | some taken =>
      rw [hTake] at h
      obtain ⟨u, s₁, -, hRest⟩ := Outcome.bind_eq_ok.1 h
      obtain ⟨k, hDrain, rfl⟩ := Outcome.map_eq_ok.1 hRest
      exact Nat.succ_lt_succ (ih hDrain)

/-- A drain ends when nothing is left or a delivery fails, if it ends. -/
theorem ends_of_drainWith (hAsks : w.Asks Request.IsPlain) (thread : Thread) (bound most : Nat)
    (s : State σ κ) :
    drainWith thread id (w.deliver (perform w (bound + 1) thread) thread) most s = .unfinished ∨
      ∃ (ds : List (Message κ × Except Failure Unit)) (result : Except Failure Nat)
        (t : State σ κ),
        drainWith thread id (w.deliver (perform w (bound + 1) thread) thread) most s =
          .ofResult result t ∧
        Delivers w (bound + 1) thread s ds t ∧ Ends thread ds t result := by
  induction most generalizing s with
  | zero => exact Or.inl rfl
  | succ most ih =>
    rw [drainWith]
    cases hTake : s.take? thread with
    | none => exact Or.inr ⟨[], .ok 0, s, rfl, .refl s, .nil, rfl, hTake⟩
    | some taken =>
      obtain ⟨m, s₁⟩ := taken
      obtain ⟨result, s₂, hDeliver, -⟩ := exists_deliver_calm hAsks thread bound m s₁
      simp only [id, hDeliver]
      cases result with
      | error e =>
        exact Or.inr ⟨[(m, .error e)], .error e, s₂, rfl, .cons hTake hDeliver (.refl s₂), [], m,
          .nil, rfl⟩
      | ok u =>
        rcases ih s₂ with hOn | ⟨ds, result, t, hDrain, hDelivers, hEnds⟩
        · refine Or.inl ?_
          simp only [Outcome.ofResult, Outcome.bind, hOn, Outcome.map]
        · refine Or.inr ⟨(m, .ok u) :: ds, result.map (· + 1), t, ?_,
            .cons hTake hDeliver hDelivers, ?_⟩
          · simp only [Outcome.ofResult, Outcome.bind, hDrain, Outcome.map]
            cases result <;> rfl
          · cases result with
            | ok n =>
              obtain ⟨hOk, rfl, hNone⟩ := hEnds
              exact ⟨hOk.cons m, rfl, hNone⟩
            | error e =>
              obtain ⟨before, m', hOk, rfl⟩ := hEnds
              exact ⟨(m, .ok u) :: before, m', hOk.cons m, rfl⟩

/-- A drain that starts from a looper that is alike, and whose bound is large enough, delivers the
same until a delivery fails. -/
theorem Delivers.drain (hAsks : w.Asks Request.IsPlain) {bound : Nat} (bound' : Nat)
    {ds : List (Message κ × Except Failure Unit)} (h : Delivers w (bound + 1) thread s ds t)
    (hNone : t.take? thread = none) {most : Nat} (hMost : ds.length < most) {s' : State σ κ}
    (hAlike : s.Alike s') (hSession : s'.session = s.session) :
    (∃ t', drainWith thread id (w.deliver (perform w (bound' + 1) thread) thread) most s' =
        .ok ds.length t' ∧ NoneFails ds ∧ t.Alike t' ∧ s'.Stays t') ∨
      ∃ before m e after u u', ds = before ++ (m, .error e) :: after ∧ NoneFails before ∧
        drainWith thread id (w.deliver (perform w (bound' + 1) thread) thread) most s' =
          .failed e u' ∧
        Delivers w (bound + 1) thread u after t ∧ u.Alike u' ∧ s.Stays u ∧ s'.Stays u' := by
  induction h generalizing most s' with
  | refl s =>
    obtain ⟨most, rfl⟩ : ∃ k, most = k + 1 := ⟨most - 1, by omega⟩
    rw [drainWith]
    rcases hAlike.take thread thread with ⟨-, hNone'⟩ | ⟨m, s₁, s₁', hTake, -⟩
    · rw [hNone']
      exact Or.inl ⟨s', rfl, .nil, hAlike, .refl s'⟩
    · rw [hNone] at hTake
      cases hTake
  | @cons s s₁ u t m result ds hTake hDeliver hRest ih =>
    obtain ⟨most, rfl⟩ : ∃ k, most = k + 1 := ⟨most - 1, by omega⟩
    rw [drainWith]
    rcases hAlike.take thread thread with ⟨hNot, -⟩ | ⟨m', s₂, s₁', hTake', hTake₁, hAlike₁⟩
    · rw [hTake] at hNot
      cases hNot
    obtain ⟨rfl, rfl⟩ := Prod.mk.inj (Option.some.inj (hTake.symm.trans hTake'))
    have hFirst := State.Stays.take hTake
    have hSecond := State.Stays.take hTake₁
    obtain ⟨result', u₁, u', hDeliver₁, hDeliver', hAlike₂, hThird, hFourth⟩ :=
      hAlike₁.exists_deliver w thread thread bound bound' hAsks m
        (Or.inr ⟨rfl, by rw [hFirst.session, hSecond.session, hSession]⟩)
    obtain ⟨rfl, rfl⟩ := Outcome.ofResult_inj.1 (hDeliver.symm.trans hDeliver₁)
    have hStays := hFirst.trans hThird
    have hStays' := hSecond.trans hFourth
    simp only [hTake₁, id, hDeliver']
    cases result with
    | error e =>
      -- the drain ends here
      exact Or.inr ⟨[], m, e, ds, u, u', rfl, .nil, rfl, hRest, hAlike₂, hStays,
        hStays'⟩
    | ok v =>
      have hSession' : u'.session = u.session := by
        rw [hStays.session, hStays'.session, hSession]
      rw [List.length_cons] at hMost
      have hLess : ds.length < most := by omega
      rcases ih hNone hLess hAlike₂ hSession' with
        ⟨t', hDrain, hOk, hEnd, hLast⟩ |
        ⟨before, m', e, after, x, x', rfl, hOk, hDrain, hAfter, hEnd, hLast, hLast'⟩
      · refine Or.inl ⟨t', ?_, hOk.cons m, hEnd, hStays'.trans hLast⟩
        simp only [Outcome.ofResult, Outcome.bind, hDrain, Outcome.map]
        rfl
      · refine Or.inr ⟨(m, .ok v) :: before, m', e, after, x, x', rfl, hOk.cons m, ?_, hAfter, hEnd,
          hStays.trans hLast, hStays'.trans hLast'⟩
        simp only [Outcome.ofResult, Outcome.bind, hDrain, Outcome.map]

end Drains

/-! ### What a drain takes -/

namespace Ledger

/-- The message with a number was accepted and is not pending. -/
structure Past (seq : Nat) (L : Ledger κ) : Prop where
  accepted : seq < L.queue.accepted
  gone : ∀ x ∈ L.queue.pending, x.seq ≠ seq

namespace Past

variable {seq : Nat} {L L' : Ledger κ}

theorem edit (h : Past seq L) (hEdit : L.Edit L') : Past seq L' := by
  cases hEdit with
  | quiet => exact h
  | accept m hm hCall dated hDated =>
    refine ⟨Nat.lt_succ_of_lt h.accepted, ?_⟩
    intro x hx
    rcases List.mem_cons.1 ((L.queue.perm_pending_add m hm).mem_iff.1 hx) with rfl | hx
    · have := h.accepted
      omega
    · exact h.gone x hx
  | remove tag target =>
    obtain ⟨-, hKept, hAcc⟩ := L.queue.spec_removeTag tag target
    refine ⟨hAcc ▸ h.accepted, ?_⟩
    intro x hx
    exact h.gone x (List.mem_filter.1 (hKept.mem_iff.1 hx)).1
  | advance amount hPos => exact ⟨h.accepted, h.gone⟩

theorem of_popAt? {m : Message κ} {q : Queue κ} (hPop : L.queue.popAt? L.now = some (m, q))
    (hSeq : seq = m.seq ∨ Past seq L) : Past seq { L with queue := q } := by
  obtain ⟨-, hPerm, -, hAcc⟩ := Queue.spec_of_popAt? hPop
  have hMem : m ∈ L.queue.pending := hPerm.mem_iff.2 List.mem_cons_self
  rcases hSeq with rfl | h
  · refine ⟨?_, ?_⟩
    · rw [hAcc]
      exact L.queue.fresh m hMem
    · intro x hx
      have hDistinct := hPerm.pairwise L.queue.distinct fun hab => hab.symm
      exact ((List.pairwise_cons.1 hDistinct).1 x hx).symm
  · refine ⟨?_, ?_⟩
    · rw [hAcc]
      exact h.accepted
    · intro x hx
      exact h.gone x (hPerm.mem_iff.2 (List.mem_cons_of_mem _ hx))

end Past

end Ledger

section Taken

variable {w : World σ κ} {thread : Thread} {s t : State σ κ}

/-- What holds of a ledger, whatever is edited, holds of it after a plain program. -/
theorem ledger_of_run {P : Ledger κ → Prop} (hEdit : ∀ {L L'}, L.Edit L' → P L → P L')
    {bound : Nat} {p : Program σ κ Unit} (hAsks : p.Asks Request.IsPlain)
    {result : Except Failure Unit} {xs : List (Exchange κ)} (h : P (.of s xs))
    (hRun : p.run (perform w (bound + 1) thread) thread s = .ofResult result t) :
    ∃ ys, P (.of t ys) := by
  induction p generalizing s xs with
  | done u =>
    obtain ⟨-, rfl⟩ := Outcome.ofResult_inj.1 (show Outcome.ofResult (.ok u) s = _ from hRun)
    exact ⟨xs, h⟩
  | fail e =>
    obtain ⟨-, rfl⟩ := Outcome.ofResult_inj.1 (show Outcome.ofResult (.error e) s = _ from hRun)
    exact ⟨xs, h⟩
  | load next ih => exact ih _ (hAsks _) h hRun
  | store memory next ih =>
    exact ih hAsks (show P (.of { s with memory } xs) from h) hRun
  | look next ih => exact ih _ (hAsks _) h hRun
  | ask r next ih =>
    obtain ⟨reply, t₁, t₁', hReply, -⟩ := (State.Alike.refl s).respond w thread thread hAsks.1
    rw [Program.run, perform_of_reply hReply, Outcome.attempt_ofResult] at hRun
    exact ih reply (hAsks.2 reply) (hEdit (Ledger.edit_respond w xs hReply) h) hRun

theorem ledger_of_deliver {P : Ledger κ → Prop} (hEdit : ∀ {L L'}, L.Edit L' → P L → P L')
    (hCall : ∀ {L : Ledger κ} {called}, P L → P { L with called := called })
    (hAsks : w.Asks Request.IsPlain) {bound : Nat} {m : Message κ} {result : Except Failure Unit}
    {xs : List (Exchange κ)} (h : P (.of s xs))
    (hDeliver : w.deliver (perform w (bound + 1) thread) thread m s = .ofResult result t) :
    ∃ ys, P (.of t ys) := by
  have hStart : P (.of (w.atDelivery thread m s) xs) := by
    rw [Ledger.of_atDelivery]
    exact hCall h
  exact ledger_of_run hEdit (hAsks.delivery m) hStart hDeliver

/-- The messages that are delivered were taken one after the other, and none of them twice. -/
theorem Delivers.spec (hAsks : w.Asks Request.IsPlain) {bound : Nat}
    {ds : List (Message κ × Except Failure Unit)} (h : Delivers w (bound + 1) thread s ds t) :
    t.takenSoFar = s.takenSoFar ++ ds.map (·.1) ∧ (ds.map (·.1.seq)).Nodup ∧
      ∀ seq, (Ledger.of s []).Past seq → seq ∉ ds.map (·.1.seq) := by
  induction h with
  | refl s => simp
  | @cons s s₁ u t m result ds hTake hDeliver hRest ih =>
    obtain ⟨hTaken, hNodup, hPast⟩ := ih
    obtain ⟨q, hPop, hLedger⟩ := Ledger.of_take [] hTake
    -- what is past when the message is taken is past when its delivery is over
    have hStart : (Ledger.of s₁ []).taken = s.takenSoFar ++ [m] ∧
        ∀ seq, seq = m.seq ∨ (Ledger.of s []).Past seq → (Ledger.of s₁ []).Past seq := by
      rw [hLedger]
      refine ⟨rfl, ?_⟩
      intro seq hSeq
      have hGone := Ledger.Past.of_popAt? (L := Ledger.of s []) hPop hSeq
      exact ⟨hGone.accepted, hGone.gone⟩
    obtain ⟨ys, hTaken₁, hPast₁⟩ := ledger_of_deliver
      (P := fun L => L.taken = s.takenSoFar ++ [m] ∧
        ∀ seq, seq = m.seq ∨ (Ledger.of s []).Past seq → L.Past seq)
      (fun hEdit hL => ⟨hEdit.taken_eq.trans hL.1, fun seq hSeq => (hL.2 seq hSeq).edit hEdit⟩)
      (fun hL => ⟨hL.1, fun seq hSeq => ⟨(hL.2 seq hSeq).accepted, (hL.2 seq hSeq).gone⟩⟩)
      hAsks hStart hDeliver
    have hTaken₁ : u.takenSoFar = s.takenSoFar ++ [m] := hTaken₁
    have hNext (seq : Nat) (hSeq : seq = m.seq ∨ (Ledger.of s []).Past seq) :
        seq ∉ ds.map (·.1.seq) :=
      hPast seq ⟨(hPast₁ seq hSeq).accepted, (hPast₁ seq hSeq).gone⟩
    refine ⟨?_, ?_, ?_⟩
    · rw [hTaken, hTaken₁, List.append_assoc]
      rfl
    · exact List.nodup_cons.2 ⟨hNext m.seq (Or.inl rfl), hNodup⟩
    · intro seq hSeq hMem
      rcases List.mem_cons.1 hMem with hSame | hMem
      · have hPending := (Queue.spec_of_popAt? hPop).2.1.mem_iff.2 List.mem_cons_self
        exact hSeq.gone m hPending hSame.symm
      · exact hNext seq (Or.inr hSeq) hMem

end Taken

/-! ### One dispatch after the other -/

section Calls

variable {w : World σ κ} {thread : Thread} {s t : State σ κ}

theorem State.Alike.takenSoFar {s s' : State σ κ} (h : s.Alike s') :
    s'.takenSoFar = s.takenSoFar := by
  have hFrom (s : State σ κ) : s.takenSoFar = s.happenings.filterMap Occurrence.taken? := by
    rw [State.takenSoFar, State.happenings, List.filterMap_filterMap]
    congr 1
    funext o
    cases o <;> rfl
  rw [hFrom, hFrom, h.happenings]

/-- A dispatch is over, and the looper is as it is when a drain is over. -/
theorem State.Alike.close {s s' : State σ κ} (h : s.Alike s') {o : Occurrence κ}
    (hNone : o.anonymous? = none) : s.leave.Alike (s'.leave.recordHistory o) := by
  have hLeave : s.leave.Alike s'.leave :=
    ⟨h.fallback, h.clock, h.queue, congrArg (· - 1) h.depth, h.memory, h.records, h.happenings⟩
  exact (hLeave.of_none hNone).2

theorem State.Alike.note {s s' : State σ κ} (h : s.Alike s') (thread : Thread) (n : Notice) :
    s.Alike (s'.note thread n) :=
  ⟨h.fallback, h.clock, h.queue, h.depth, h.memory, h.records, h.happenings⟩

theorem perform_dispatchAll (hIdle : s.session = none) (w : World σ κ) (bound : Nat)
    (thread : Thread) :
    perform w (bound + 1) thread .dispatchAll s =
      (State.closeDispatch (drainWith thread id (w.deliver (perform w bound thread) thread) bound
        s.enter)).bind fun n s => .ok (.count n) (s.note thread (.delivered n)) := by
  have hRunning : s.running = false := by
    rw [State.running, hIdle]
    rfl
  simp only [perform, State.respond, hRunning, Bool.false_eq_true, if_false]

/-- **Dispatches that are made again until one does not fail deliver one message after the other, as
if none had failed.** -/
theorem Delivers.again (hAsks : w.Asks Request.IsPlain) {bound : Nat} {x : State σ κ}
    {ds : List (Message κ × Except Failure Unit)} (h : Delivers w (bound + 1) thread x ds t)
    (hNone : t.take? thread = none) {bound' : Nat} (hBound : ds.length ≤ bound')
    (hAlike : x.Alike s.enter) (hIdle : s.session = none) (hIdle' : x.session = none)
    {tries : Nat} (hTries : (rounds [] ds).length ≤ tries) :
    ∃ t', dispatchAgain w (bound' + 2) thread tries s = .ok (rounds [] ds) t' ∧
      t.leave.Alike t' ∧ t'.session = none := by
  induction tries generalizing x s ds with
  | zero =>
    rw [(spec_rounds [] ds).2.2] at hTries
    omega
  | succ tries ih =>
    have hSince : s.takenSoFar = x.takenSoFar := hAlike.takenSoFar
    have hTaken := (h.spec hAsks).1
    have hSession : s.enter.session = x.session := hIdle.trans hIdle'.symm
    have hMost : ds.length < bound' + 1 := by omega
    rw [dispatchAgain, perform_dispatchAll hIdle]
    rcases h.drain hAsks bound' hNone hMost hAlike hSession with
      ⟨t', hDrain, hOk, hEnd, hStays⟩ |
      ⟨before, m, e, after, u, u', rfl, hOk, hDrain, hAfter, hEnd, hStays, hStays'⟩
    · -- no delivery fails
      let v := (t'.leave.recordHistory (.returned ds.length)).note thread (.delivered ds.length)
      have hOver : t.leave.Alike v := (hEnd.close rfl).note thread _
      have hCall : v.takenSoFar.drop s.takenSoFar.length = ds.map (·.1) := by
        have hSame : v.takenSoFar = t.takenSoFar := hOver.takenSoFar
        rw [hSame, hTaken, hSince, List.drop_left]
      refine ⟨v, ?_, hOver, hStays.session.trans hIdle⟩
      rw [rounds_of_noneFails hOk, hDrain]
      simp only [State.closeDispatch, Outcome.attempt, Outcome.bind, v, List.nil_append,
        List.length_nil, Nat.zero_add] at hCall ⊢
      rw [hCall]
    · -- the first delivery that fails ends the call, and another call goes on
      let v := u'.leave.recordHistory .aborted
      have hDepth : u'.depth = s.depth + 1 := hStays'.depth
      have hOver : u.leave.Alike v := hEnd.close rfl
      have hNext : u.Alike v.enter := by
        refine ⟨hOver.fallback, hOver.clock, hOver.queue, ?_, hOver.memory, hOver.records,
          hOver.happenings⟩
        show u'.depth - 1 + 1 = u.depth
        rw [← hEnd.depth, hDepth]
        omega
      have hCall : v.takenSoFar.drop s.takenSoFar.length = before.map (·.1) ++ [m] := by
        have hAfterTaken := (hAfter.spec hAsks).1
        have hSame : v.takenSoFar = u.takenSoFar := hOver.takenSoFar
        have hSplit : u.takenSoFar ++ after.map (·.1) =
            x.takenSoFar ++ (before.map (·.1) ++ [m]) ++ after.map (·.1) := by
          rw [← hAfterTaken, hTaken]
          simp
        rw [hSame, List.append_cancel_right hSplit, hSince, List.drop_left]
      rw [rounds_of_error hOk] at hTries ⊢
      rw [List.length_cons] at hTries
      rw [List.length_append, List.length_cons] at hBound
      have hBound' : after.length ≤ bound' := by omega
      have hTries' : (rounds [] after).length ≤ tries := by omega
      obtain ⟨t', hAgain, hEnd', hSession'⟩ := ih hAfter hBound' hNext
        (hStays'.session.trans hIdle) (hStays.session.trans hIdle') hTries'
      refine ⟨t', ?_, hEnd', hSession'⟩
      rw [hDrain]
      show (dispatchAgain w (bound' + 2) thread tries v).map
        ((v.takenSoFar.drop s.takenSoFar.length, .error e) :: ·) = _
      rw [hAgain, hCall]
      rfl

/-- A dispatch while no session is going on delivers messages until none is due or a delivery
fails, and then the failure of that delivery is its own. -/
theorem ends_of_dispatchAll (hAsks : w.Asks Request.IsPlain) (hIdle : s.session = none)
    (bound : Nat) (thread : Thread) :
    perform w (bound + 2) thread .dispatchAll s = .unfinished ∨
      ∃ (ds : List (Message κ × Except Failure Unit)) (result : Except Failure Nat)
        (t u : State σ κ),
        perform w (bound + 2) thread .dispatchAll s = .ofResult (result.map .count) t ∧
        Delivers w (bound + 1) thread s.enter ds u ∧ Ends thread ds u result ∧
        u.leave.Alike t ∧ t.session = none := by
  rw [perform_dispatchAll hIdle]
  rcases ends_of_drainWith hAsks thread bound (bound + 1) s.enter with
    hOn | ⟨ds, result, u, hDrain, hDelivers, hEnds⟩
  · exact Or.inl (by rw [hOn]; rfl)
  · have hSession : u.session = none := (hDelivers.stays hAsks).session.trans hIdle
    rw [hDrain]
    cases result with
    | ok n =>
      exact Or.inr ⟨ds, .ok n, _, u, rfl, hDelivers, hEnds,
        ((State.Alike.refl u).close rfl).note thread _, hSession⟩
    | error e =>
      exact Or.inr ⟨ds, .error e, _, u, rfl, hDelivers, hEnds, (State.Alike.refl u).close rfl,
        hSession⟩

/-- If a dispatch ends with handlers that never fail, then what it delivers is what is delivered by
those that may fail until nothing is due. -/
theorem delivers_of_calm (hAsks : w.Asks Request.IsPlain) (hIdle : s.session = none) {bound : Nat}
    {reply : Reply} (hCalm : perform w.calm (bound + 2) thread .dispatchAll s = .ok reply t) :
    ∃ (ds : List (Message κ × Except Failure Unit)) (u : State σ κ),
      Delivers w (bound + 1) thread s.enter ds u ∧ u.take? thread = none ∧
        reply = .count ds.length ∧ ds.length ≤ bound ∧ u.leave.Alike t ∧ t.session = none := by
  rw [perform_dispatchAll hIdle] at hCalm
  obtain ⟨n, v, hClose, hReply⟩ := Outcome.bind_eq_ok.1 hCalm
  obtain ⟨u, hDrain, rfl⟩ := State.closeDispatch_eq_ok.1 hClose
  obtain ⟨rfl, rfl⟩ := Outcome.ok.inj hReply
  rcases ends_of_drainWith hAsks.calm thread bound (bound + 1) s.enter with
    hOn | ⟨calm, result, u', hDrain', hDelivers, hEnds⟩
  · rw [hOn] at hDrain
    cases hDrain
  obtain ⟨rfl, rfl⟩ := Outcome.ofResult_inj.1
    (show Outcome.ofResult result u' = .ofResult (.ok n) u from hDrain'.symm.trans hDrain)
  obtain ⟨-, hCount, hNone⟩ := hEnds
  obtain ⟨ds, hSame, hMessages⟩ := hDelivers.of_calm hAsks
  have hLength : ds.length = n := by
    have hMapped := congrArg List.length hMessages
    rw [List.length_map, List.length_map] at hMapped
    exact hMapped.trans hCount
  have hLess : n < bound + 1 := lt_of_drainWith hDrain
  refine ⟨ds, u', hSame, hNone, by rw [hLength], by omega, ?_, ?_⟩
  · exact ((State.Alike.refl u').close rfl).note thread _
  · exact (hSame.stays hAsks).session.trans hIdle

/-- **A dispatch can be resumed after failures.**  While no session is going on, a dispatch ends by
the first delivery that fails, with its failure, or else when nothing is due.  If it would end with
the same handlers that never failed, then it is made again until it does not fail, and so it is made
once more than deliveries fail: the calls take the same messages in the same order at the same
times, none of them twice, and the looper ends up alike, with no session going on. -/
theorem resumed_dispatch (hAsks : w.Asks Request.IsPlain) (hIdle : s.session = none)
    (thread : Thread) :
    (∀ bound, perform w (bound + 2) thread .dispatchAll s = .unfinished ∨
      ∃ (ds : List (Message κ × Except Failure Unit)) (result : Except Failure Nat)
        (t u : State σ κ),
        perform w (bound + 2) thread .dispatchAll s = .ofResult (result.map .count) t ∧
        Delivers w (bound + 1) thread s.enter ds u ∧ Ends thread ds u result ∧
        u.leave.Alike t ∧ t.session = none) ∧
    ∀ bound reply t, perform w.calm bound thread .dispatchAll s = .ok reply t →
      ∃ ds : List (Message κ × Except Failure Unit),
        (∃ u, Delivers w (bound - 1) thread s.enter ds u ∧ u.leave.Alike t) ∧
        reply = .count ds.length ∧ t.takenSoFar = s.takenSoFar ++ ds.map (·.1) ∧
        (ds.map (·.1.seq)).Nodup ∧
        (rounds [] ds).flatMap (·.1) = ds.map (·.1) ∧
        (rounds [] ds).filterMap (failureOf ·.2) = ds.filterMap (failureOf ·.2) ∧
        (rounds [] ds).length = (ds.filterMap (failureOf ·.2)).length + 1 ∧
        ∀ bound' tries, bound ≤ bound' → (rounds [] ds).length ≤ tries →
          ∃ t', dispatchAgain w bound' thread tries s = .ok (rounds [] ds) t' ∧
            t.Alike t' ∧ t.session = none ∧ t'.session = none := by
  refine ⟨fun bound => ends_of_dispatchAll hAsks hIdle bound thread, ?_⟩
  intro bound reply t hCalm
  -- a dispatch that ends needs a bound for itself, and one for its deliveries
  obtain ⟨b, rfl⟩ : ∃ b, bound = b + 2 := by
    rcases bound with _ | _ | b
    · cases hCalm
    · rw [perform_dispatchAll hIdle] at hCalm
      cases hCalm
    · exact ⟨b, rfl⟩
  obtain ⟨ds, u, hDelivers, hNone, hReply, hMost, hAlike, hIdle'⟩ :=
    delivers_of_calm hAsks hIdle hCalm
  obtain ⟨hTaken, hNodup, -⟩ := hDelivers.spec hAsks
  obtain ⟨hTogether, hFailures, hRounds⟩ := spec_rounds [] ds
  have hEnd : t.takenSoFar = s.takenSoFar ++ ds.map (·.1) := hAlike.takenSoFar.trans hTaken
  refine ⟨ds, ⟨u, hDelivers, hAlike⟩, hReply, hEnd, hNodup, hTogether, hFailures, hRounds, ?_⟩
  intro bound' tries hLe hTries
  obtain ⟨b', rfl⟩ : ∃ b', bound' = b' + 2 := ⟨bound' - 2, by omega⟩
  have hBound' : ds.length ≤ b' := by omega
  obtain ⟨t', hAgain, hAlike', hOver⟩ :=
    hDelivers.again hAsks hNone hBound' (.refl s.enter) hIdle hIdle hTries
  exact ⟨t', hAgain, hAlike.symm.trans hAlike', hIdle', hOver⟩

/-- Receivers do nothing; a callback sends the next one, until there is none left, and then
fails. -/
def World.relay : World Unit Nat where
  receive _ _ := .done ()
  invoke n :=
    if n = 0 then .done ()
    else .ask (.enqueue (.str "next") (.int 0) none (some (n - 1))) fun _ => .fail .noReceiver
  records _ := false

/-- Two deliveries fail and a third one does not: three calls deliver a message each. -/
theorem resumed_relay :
    ∃ (s₀ s t t' : State Unit Nat) (receipt : Reply)
      (calls : List (List (Message Nat) × Except Failure Reply)),
      State.make .standard none () = .ok s₀ ∧
      perform World.relay 1 .main (.enqueue (.str "first") (.int 0) none (some 2)) s₀ =
        .ok receipt s ∧
      perform World.relay.calm 6 .main .dispatchAll s = .ok (.count 3) t ∧
      dispatchAgain World.relay 6 .main 4 s = .ok calls t' ∧ t.Alike t' ∧
      calls.map (·.1.map (·.seq)) = [[0], [1], [2]] ∧
      calls.map (·.2) = [.error .noReceiver, .error .noReceiver, .ok (.count 1)] := by
  have hRun : ∃ (s₀ s t t' : State Unit Nat) (receipt : Reply)
      (calls : List (List (Message Nat) × Except Failure Reply)),
      State.make .standard none () = .ok s₀ ∧
      perform World.relay 1 .main (.enqueue (.str "first") (.int 0) none (some 2)) s₀ =
        .ok receipt s ∧
      perform World.relay.calm 6 .main .dispatchAll s = .ok (.count 3) t ∧
      dispatchAgain World.relay 6 .main 4 s = .ok calls t' ∧
      calls.map (·.1.map (·.seq)) = [[0], [1], [2]] ∧
      calls.map (·.2) = [.error .noReceiver, .error .noReceiver, .ok (.count 1)] ∧
      s.session = none :=
    ⟨_, _, _, _, _, _, rfl, rfl, rfl, rfl, rfl, rfl, rfl⟩
  obtain ⟨s₀, s, t, t', receipt, calls, hMake, hQueue, hCalm, hAgain, hSeqs, hResults, hIdle⟩ :=
    hRun
  have hAsks : World.relay.Asks Request.IsPlain := by
    refine ⟨fun target tag => trivial, fun n => ?_⟩
    show Program.Asks _ (if n = 0 then _ else _)
    split
    · exact trivial
    · exact ⟨trivial, fun _ => trivial⟩
  obtain ⟨ds, -, hCount, -, -, -, -, hLength, hResumed⟩ :=
    (resumed_dispatch hAsks hIdle .main).2 6 (.count 3) t hCalm
  have hThree : ds.length = 3 := (Reply.count.inj hCount).symm
  have hFailures : (ds.filterMap (failureOf ·.2)).length ≤ ds.length := List.length_filterMap_le _ _
  have hTries : (rounds [] ds).length ≤ 4 := by omega
  obtain ⟨u, hSame, hAlike, -⟩ := hResumed 6 4 (Nat.le_refl 6) hTries
  obtain ⟨-, rfl⟩ := Outcome.ok.inj (hAgain.symm.trans hSame)
  exact ⟨s₀, s, t, t', receipt, calls, hMake, hQueue, hCalm, hAgain, hAlike, hSeqs, hResults⟩

end Calls

end VirtualLooper
