import VirtualLooper.Proofs.Looper.Duty

/-!
# More time changes nothing

A run by turns counts down a bound, and is unfinished when it reaches it.  One run **covers** another
if it comes to the same wherever the other one is finished (`Outcome.Covers`); the states in which
the two end may differ in a way that handlers do not see (`Unseen`).  Covering goes through programs
(`Covers.run`), deliveries and drains (`Covers.drain`), so that for a whole looper it is left to
compare requests.  The first such comparison is that of a run with itself: a larger bound never
changes a run that is finished (`perform_le`).
-/

namespace VirtualLooper

variable {σ κ : Type}

namespace Outcome

variable {S α β : Type}

/-- The second run comes to the same as the first, in states that are so related, unless the first
has reached its bound. -/
inductive Covers (R : S → S → Prop) : Outcome S α → Outcome S α → Prop
  | ok {s s' : S} (a : α) (h : R s s') : Covers R (.ok a s) (.ok a s')
  | failed {s s' : S} (e : Failure) (h : R s s') : Covers R (.failed e s) (.failed e s')
  | deadlock : Covers R .deadlock .deadlock
  | unfinished (o : Outcome S α) : Covers R .unfinished o

namespace Covers

variable {R Q : S → S → Prop} {o o' : Outcome S α} {s s' : S}

theorem ofResult (result : Except Failure α) (h : R s s') :
    Covers R (.ofResult result s) (.ofResult result s') := by
  cases result with
  | ok a => exact .ok a h
  | error e => exact .failed e h

theorem refl (hR : ∀ s, R s s) (o : Outcome S α) : Covers R o o := by
  cases o with
  | ok a s => exact .ok a (hR s)
  | failed e s => exact .failed e (hR s)
  | deadlock => exact .deadlock
  | unfinished => exact .unfinished _

theorem attempt {k k' : Except Failure α → S → Outcome S β} (h : Covers R o o')
    (hk : ∀ result s s', R s s' → Covers Q (k result s) (k' result s')) :
    Covers Q (o.attempt k) (o'.attempt k') := by
  cases h with
  | ok a h => exact hk (.ok a) _ _ h
  | failed e h => exact hk (.error e) _ _ h
  | deadlock => exact .deadlock
  | unfinished o => exact .unfinished _

theorem bind {k k' : α → S → Outcome S β} (h : Covers R o o')
    (hk : ∀ a s s', R s s' → Covers R (k a s) (k' a s')) : Covers R (o.bind k) (o'.bind k') := by
  cases h with
  | ok a h => exact hk a _ _ h
  | failed e h => exact .failed e h
  | deadlock => exact .deadlock
  | unfinished o => exact .unfinished _

theorem map (h : Covers R o o') (f : α → β) : Covers R (o.map f) (o'.map f) :=
  h.bind fun a _ _ hR => .ok (f a) hR

theorem exists_end (h : Covers R o o') {result : Except Failure α}
    (hEnd : o = .ofResult result s) : ∃ s', o' = .ofResult result s' ∧ R s s' := by
  cases h with
  | ok a h =>
    obtain ⟨rfl, rfl⟩ := ofResult_inj.1 (show Outcome.ofResult (.ok a) _ = _ from hEnd)
    exact ⟨_, rfl, h⟩
  | failed e h =>
    obtain ⟨rfl, rfl⟩ := ofResult_inj.1 (show Outcome.ofResult (.error e) _ = _ from hEnd)
    exact ⟨_, rfl, h⟩
  | deadlock => cases result <;> cases hEnd
  | unfinished o => cases result <;> cases hEnd

/-- Two runs that end in the same state are the same, or the first has reached its bound. -/
theorem unfinished_or_eq (h : Covers Eq o o') : o = .unfinished ∨ o' = o := by
  cases h with
  | ok a h => exact Or.inr (h ▸ rfl)
  | failed e h => exact Or.inr (h ▸ rfl)
  | deadlock => exact Or.inr rfl
  | unfinished o => exact Or.inl rfl

theorem of_unfinished_or_eq (h : o = .unfinished ∨ o' = o) : Covers Eq o o' := by
  rcases h with rfl | rfl
  · exact .unfinished _
  · exact refl (fun _ => rfl) _

end Covers

/-- From some bound on, a run ends like this. -/
def Finishes (run : Nat → Outcome S α) (result : Except Failure α) (s : S) : Prop :=
  ∃ least, ∀ bound, least ≤ bound → run bound = .ofResult result s

theorem Finishes.unique {run : Nat → Outcome S α} {result result' : Except Failure α} {s s' : S}
    (h : Finishes run result s) (h' : Finishes run result' s') : result = result' ∧ s = s' := by
  obtain ⟨least, hRun⟩ := h
  obtain ⟨least', hRun'⟩ := h'
  exact ofResult_inj.1 ((hRun (max least least') (Nat.le_max_left _ _)).symm.trans
    (hRun' (max least least') (Nat.le_max_right _ _)))

/-- If a larger bound never changes a run, then one bound is enough. -/
theorem finishes_of_le {run : Nat → Outcome S α}
    (hRun : ∀ {bound bound'}, bound ≤ bound' → Covers Eq (run bound) (run bound')) {bound : Nat}
    {result : Except Failure α} {s : S} (h : run bound = .ofResult result s) :
    Finishes run result s := by
  refine ⟨bound, fun bound' hBound => ?_⟩
  obtain ⟨s', hEnd, rfl⟩ := (hRun hBound).exists_end h
  exact hEnd

end Outcome

open Outcome

/-! ### Programs and drains -/

/-- Handlers on a thread cannot tell states apart that are so related. -/
structure Unseen (thread : Thread) (R : State σ κ → State σ κ → Prop) : Prop where
  memory : ∀ {s s'}, R s s' → s'.memory = s.memory
  store : ∀ {s s'}, R s s' → ∀ memory, R { s with memory } { s' with memory }
  sight : ∀ {s s'}, R s s' → s'.sight thread = s.sight thread

theorem unseen_eq (thread : Thread) : Unseen thread (Eq : State σ κ → State σ κ → Prop) where
  memory h := h ▸ rfl
  store h _ := h ▸ rfl
  sight h := h ▸ rfl

namespace Outcome.Covers

variable {R : State σ κ → State σ κ → Prop} {thread : Thread} {s s' : State σ κ}

theorem run {ok : Request κ → Prop}
    {perform perform' : Request κ → State σ κ → Outcome (State σ κ) Reply}
    (hUnseen : Unseen thread R)
    (hPerform : ∀ r, ok r → ∀ s s', R s s' → Covers R (perform r s) (perform' r s'))
    {p : Program σ κ Unit} (hAsks : p.Asks ok) (h : R s s') :
    Covers R (p.run perform thread s) (p.run perform' thread s') := by
  induction p generalizing s s' with
  | done u => exact .ok u h
  | fail e => exact .failed e h
  | load next ih =>
    rw [Program.run, Program.run, hUnseen.memory h]
    exact ih _ (hAsks _) h
  | store memory next ih => exact ih hAsks (hUnseen.store h memory)
  | look next ih =>
    rw [Program.run, Program.run, hUnseen.sight h]
    exact ih _ (hAsks _) h
  | ask r next ih =>
    exact (hPerform r hAsks.1 s s' h).attempt fun reply t t' hR => ih reply (hAsks.2 reply) hR

/-- A drain is covered by another that takes the same, if deliveries are. -/
theorem drain {tally : State σ κ → State σ κ}
    {deliver deliver' : Message κ → State σ κ → Outcome (State σ κ) Unit}
    (hTake : ∀ s s', R s s' → s.take? thread = none ∧ s'.take? thread = none ∨
      ∃ m t t', s.take? thread = some (m, t) ∧ s'.take? thread = some (m, t') ∧
        R (tally t) (tally t'))
    (hDeliver : ∀ m s s', R s s' → Covers R (deliver m s) (deliver' m s')) {most most' : Nat}
    (hMost : most ≤ most') (h : R s s') :
    Covers R (drainWith thread tally deliver most s) (drainWith thread tally deliver' most' s') := by
  induction most generalizing most' s s' with
  | zero => exact .unfinished _
  | succ most ih =>
    obtain ⟨most', rfl⟩ : ∃ k, most' = k + 1 := ⟨most' - 1, by omega⟩
    rw [drainWith, drainWith]
    rcases hTake s s' h with ⟨hNone, hNone'⟩ | ⟨m, t, t', hSome, hSome', hTaken⟩
    · rw [hNone, hNone']
      exact .ok 0 h
    · rw [hSome, hSome']
      exact (hDeliver m _ _ hTaken).bind fun _ u u' hR => (ih (by omega) hR).map _

end Outcome.Covers

/-! ### A larger bound -/

theorem drainWith_le {thread : Thread} {tally : State σ κ → State σ κ}
    {deliver deliver' : Message κ → State σ κ → Outcome (State σ κ) Unit}
    (hDeliver : ∀ m s, Covers Eq (deliver m s) (deliver' m s)) {most most' : Nat}
    (hMost : most ≤ most') (s : State σ κ) :
    Covers Eq (drainWith thread tally deliver most s)
      (drainWith thread tally deliver' most' s) := by
  refine .drain (fun s s' h => ?_) (fun m s s' h => h ▸ hDeliver m s) hMost rfl
  subst h
  cases hTake : s.take? thread with
  | none => exact Or.inl ⟨rfl, rfl⟩
  | some taken => exact Or.inr ⟨taken.1, taken.2, taken.2, rfl, rfl, rfl⟩

theorem turnWith_le {s : State σ κ} {session : Nat}
    {drain drain' : State σ κ → Outcome (State σ κ) Nat}
    (hDrain : ∀ s, Covers Eq (drain s) (drain' s)) :
    Covers Eq (s.turnWith session drain) (s.turnWith session drain') := by
  refine .of_unfinished_or_eq ?_
  rw [State.turnWith, State.turnWith]
  rcases (hDrain s.enter).unfinished_or_eq with hLate | hSame
  · exact Or.inl (by rw [hLate]; rfl)
  · exact Or.inr (by rw [hSame])

theorem stopWith_le {s : State σ κ} {thread : Thread} {session : Nat}
    {turn turn' : State σ κ → Outcome (State σ κ) Unit}
    (hTurn : ∀ s, Covers Eq (turn s) (turn' s)) :
    Covers Eq (s.stopWith thread session turn) (s.stopWith thread session turn') := by
  simp only [State.stopWith]
  split
  · exact .refl (fun _ => rfl) _
  · refine Covers.bind (R := Eq) ?_ fun _ t t' h => h ▸ .refl (fun _ => rfl) _
    split
    · split
      · exact hTurn _
      · exact .deadlock
    · exact .ok () rfl

/-- **A larger bound never changes a run that is finished.** -/
theorem perform_le (w : World σ κ) {bound bound' : Nat} (hBound : bound ≤ bound')
    (thread : Thread) (r : Request κ) (s : State σ κ) :
    Covers Eq (perform w bound thread r s) (perform w bound' thread r s) := by
  induction bound generalizing bound' thread r s with
  | zero => exact .unfinished _
  | succ bound ih =>
    obtain ⟨bound', rfl⟩ : ∃ k, bound' = k + 1 := ⟨bound' - 1, by omega⟩
    have hLess : bound ≤ bound' := by omega
    have hRun (thread : Thread) (p : Program σ κ Unit) (s : State σ κ) :
        Covers Eq (p.run (perform w bound thread) thread s)
          (p.run (perform w bound' thread) thread s) :=
      .run (unseen_eq thread) (fun r _ s s' h => h ▸ ih hLess thread r s) p.asks_true rfl
    have hDrain (thread : Thread) (tally : State σ κ → State σ κ) (s : State σ κ) :
        Covers Eq (drainWith thread tally (w.deliver (perform w bound thread) thread) bound s)
          (drainWith thread tally (w.deliver (perform w bound' thread) thread) bound' s) :=
      drainWith_le (fun m s => hRun thread _ _) hLess s
    simp only [perform]
    cases s.respond w thread r with
    | reply result t => exact .refl (fun _ => rfl) _
    | deliverAll =>
      refine Covers.bind (R := Eq) ?_ fun n t t' h => h ▸ .refl (fun _ => rfl) _
      exact (hDrain thread id s.enter).attempt fun result t t' h => h ▸ .refl (fun _ => rfl) _
    | deliverNext =>
      simp only
      split
      · exact .refl (fun _ => rfl) _
      · refine Covers.map (Covers.attempt (Covers.map (hRun thread _ _) _) ?_) _
        exact fun result t t' h => h ▸ .refl (fun _ => rfl) _
    | stop session => exact stopWith_le fun s => turnWith_le fun s => hDrain _ _ s
    | call target tag => exact (hRun thread _ _).map _

end VirtualLooper
