import VirtualLooper.Proofs.Looper.Turn

/-!
# Machines that go in step

Two machines whose threads run different programs go in step as long as their programs begin in the
same way: each step of the one is a step of the other, in the same state and with the same answers
(`InStep.step`).  How the programs are related is free, but for one thing: what they go on with is
related again.  What a thread runs at the bottom may be related in another way than the handlers
above it, so that a program can be followed into the middle of what it is a part of.
-/

namespace VirtualLooper

variable {σ κ : Type}

/-- Programs that begin in the same way, and go on with what is related. -/
inductive Program.Agrees {α : Type} (R : Program σ κ α → Program σ κ α → Prop) :
    Program σ κ α → Program σ κ α → Prop
  | done (a : α) : Agrees R (.done a) (.done a)
  | fail (e : Failure) : Agrees R (.fail e) (.fail e)
  | load {next next' : σ → Program σ κ α} (h : ∀ memory, R (next memory) (next' memory)) :
      Agrees R (.load next) (.load next')
  | store (memory : σ) {next next' : Program σ κ α} (h : R next next') :
      Agrees R (.store memory next) (.store memory next')
  | look {next next' : Sight → Program σ κ α} (h : ∀ sight, R (next sight) (next' sight)) :
      Agrees R (.look next) (.look next')
  | ask (r : Request κ) {next next' : Except Failure Reply → Program σ κ α}
      (h : ∀ reply, R (next reply) (next' reply)) : Agrees R (.ask r next) (.ask r next')

theorem Program.Agrees.refl {α : Type} {R : Program σ κ α → Program σ κ α → Prop}
    (hR : ∀ p, R p p) (p : Program σ κ α) : p.Agrees R p := by
  cases p with
  | done a => exact .done a
  | fail e => exact .fail e
  | load next => exact .load fun memory => hR (next memory)
  | store memory next => exact .store memory (hR next)
  | look next => exact .look fun sight => hR (next sight)
  | ask r next => exact .ask r fun reply => hR (next reply)

section Lifts

variable (R : Program σ κ Unit → Program σ κ Unit → Prop)

inductive Loop.Lift : Loop σ κ → Loop σ κ → Prop
  | all (count : Nat) {next next' : Except Failure Reply → Program σ κ Unit}
      (h : ∀ reply, R (next reply) (next' reply)) : Lift (.all count next) (.all count next')
  | one {next next' : Except Failure Reply → Program σ κ Unit}
      (h : ∀ reply, R (next reply) (next' reply)) : Lift (.one next) (.one next')
  | worker (session : Nat) (last : Bool) : Lift (.worker session last) (.worker session last)

/-- Threads that are about to do the same, for programs that are related. -/
inductive Control.Lift : Control σ κ → Control σ κ → Prop
  | run {p p' : Program σ κ Unit} (h : R p p') : Lift (.run p) (.run p')
  | acquire {loop loop' : Loop σ κ} (h : loop.Lift R loop') : Lift (.acquire loop) (.acquire loop')
  | take {loop loop' : Loop σ κ} (h : loop.Lift R loop') : Lift (.take loop) (.take loop')
  | deliver (m : Message κ) {loop loop' : Loop σ κ} (h : loop.Lift R loop') :
      Lift (.deliver m loop) (.deliver m loop')
  | wait (session : Nat) : Lift (.wait session) (.wait session)
  | halt (session : Nat) {next next' : Except Failure Reply → Program σ κ Unit}
      (h : ∀ reply, R (next reply) (next' reply)) : Lift (.halt session next) (.halt session next')
  | join (session : Nat) {next next' : Except Failure Reply → Program σ κ Unit}
      (h : ∀ reply, R (next reply) (next' reply)) : Lift (.join session next) (.join session next')
  | ended (result : Except Failure Unit) : Lift (.ended result) (.ended result)

inductive Caller.Lift : Caller σ κ → Caller σ κ → Prop
  | delivery (m : Message κ) {loop loop' : Loop σ κ} (h : loop.Lift R loop') :
      Lift (.delivery m loop) (.delivery m loop')
  | handling (target : Target) (tag : Value)
      {next next' : Except Failure Reply → Program σ κ Unit}
      (h : ∀ reply, R (next reply) (next' reply)) :
      Lift (.handling target tag next) (.handling target tag next')

end Lifts

/-- What two threads will come back to, if what they are about to do is related by `R`: handlers
that are related by `H`, down to what is related by `B`. -/
inductive Below (H B : Program σ κ Unit → Program σ κ Unit → Prop) :
    (R : Program σ κ Unit → Program σ κ Unit → Prop) →
      List (Caller σ κ) → List (Caller σ κ) → Prop
  | bottom : Below H B B [] []
  | above {R : Program σ κ Unit → Program σ κ Unit → Prop} {c c' : Caller σ κ}
      {callers callers' : List (Caller σ κ)} (h : c.Lift R c')
      (hBelow : Below H B R callers callers') : Below H B H (c :: callers) (c' :: callers')

theorem Below.eq {H R : Program σ κ Unit → Program σ κ Unit → Prop}
    {callers callers' : List (Caller σ κ)} (h : Below H H R callers callers') : R = H := by
  cases h <;> rfl

/-- Threads that do the same. -/
structure Task.InStep (H B : Program σ κ Unit → Program σ κ Unit → Prop) (t t' : Task σ κ) :
    Prop where
  lift : ∃ R, t.control.Lift R t'.control ∧ Below H B R t.callers t'.callers

section Reflexive

variable {R : Program σ κ Unit → Program σ κ Unit → Prop} (hR : ∀ p, R p p)
include hR

theorem Loop.Lift.refl (loop : Loop σ κ) : loop.Lift R loop := by
  cases loop with
  | all count next => exact .all count fun reply => hR (next reply)
  | one next => exact .one fun reply => hR (next reply)
  | worker session last => exact .worker session last

theorem Control.Lift.refl (c : Control σ κ) : c.Lift R c := by
  cases c with
  | run p => exact .run (hR p)
  | acquire loop => exact .acquire (.refl hR loop)
  | take loop => exact .take (.refl hR loop)
  | deliver m loop => exact .deliver m (.refl hR loop)
  | wait session => exact .wait session
  | halt session next => exact .halt session fun reply => hR (next reply)
  | join session next => exact .join session fun reply => hR (next reply)
  | ended result => exact .ended result

theorem Below.refl (callers : List (Caller σ κ)) : Below R R R callers callers := by
  induction callers with
  | nil => exact .bottom
  | cons c callers ih =>
    cases c with
    | delivery m loop => exact .above (.delivery m (.refl hR loop)) ih
    | handling target tag next =>
      exact .above (.handling target tag fun reply => hR (next reply)) ih

theorem Task.InStep.refl (t : Task σ κ) : t.InStep R R t :=
  ⟨R, .refl hR t.control, .refl hR t.callers⟩

end Reflexive

/-- Receivers whose programs are related, with the same log. -/
structure World.Lift (H : Program σ κ Unit → Program σ κ Unit → Prop) (w w' : World σ κ) :
    Prop where
  receive : ∀ target tag, H (w.receive target tag) (w'.receive target tag)
  invoke : ∀ c, H (w.invoke c) (w'.invoke c)
  records : w'.records = w.records
  strictLog : w'.strictLog = w.strictLog
  nothing : H (.done ()) (.done ())

theorem World.Lift.refl {H : Program σ κ Unit → Program σ κ Unit → Prop} (hH : ∀ p, H p p)
    (w : World σ κ) : World.Lift H w w :=
  ⟨fun _ _ => hH _, fun _ => hH _, rfl, rfl, hH _⟩

namespace World.Lift

variable {H : Program σ κ Unit → Program σ κ Unit → Prop} {w w' : World σ κ}

theorem program (h : World.Lift H w w') (call : Call κ) : H (w.program call) (w'.program call) := by
  cases call with
  | callback c => exact h.invoke c
  | receiver target tag => exact h.receive target tag

theorem delivery (h : World.Lift H w w') (m : Message κ) :
    H (w.delivery m) (w'.delivery m) := by
  rw [World.delivery, World.delivery]
  cases m.call? with
  | none => exact h.nothing
  | some call => exact h.program call

theorem atCall (h : World.Lift H w w') (thread : Thread) (call : Call κ) (s : State σ κ) :
    w'.atCall thread call s = w.atCall thread call s := by
  cases call with
  | callback c => rfl
  | receiver target tag => rw [World.atCall, World.atCall, h.records]

theorem atDelivery (h : World.Lift H w w') (thread : Thread) (m : Message κ) (s : State σ κ) :
    w'.atDelivery thread m s = w.atDelivery thread m s := by
  rw [World.atDelivery, World.atDelivery]
  cases m.call? with
  | none => rfl
  | some call => exact h.atCall thread call _

theorem respond (h : World.Lift H w w') (thread : Thread) (r : Request κ) (s : State σ κ) :
    s.respond w' thread r = s.respond w thread r := by
  cases r with
  | records target used => rw [State.respond, State.respond, h.records]
  | reset target => rw [State.respond, State.respond, h.records]
  | advance amount => rw [State.respond, State.respond, h.strictLog]
  | _ => rfl

end World.Lift

namespace Machine

/-- Two machines in the same state, whose threads do the same.  Since they go in step, they have
given the same answers. -/
structure InStep (H : Program σ κ Unit → Program σ κ Unit → Prop)
    (B : Thread → Program σ κ Unit → Program σ κ Unit → Prop)
    (prior prior' : List (Exchange κ)) (M M' : Machine σ κ) : Prop where
  state : M'.state = M.state
  dispatcher : M'.dispatcher = M.dispatcher
  tasks : ∀ thread, (M.tasks thread).InStep H (B thread) (M'.tasks thread)
  exchanges : ∃ xs, M.exchanges = prior ++ xs ∧ M'.exchanges = prior' ++ xs

namespace InStep

variable {H R : Program σ κ Unit → Program σ κ Unit → Prop}
  {B : Thread → Program σ κ Unit → Program σ κ Unit → Prop} {prior prior' : List (Exchange κ)}
  {M M' : Machine σ κ} {w w' : World σ κ} {thread : Thread} {callers callers' : List (Caller σ κ)}

theorem put (h : InStep H B prior prior' M M') {t t' : Task σ κ} (hTask : t.InStep H (B thread) t')
    (s : State σ κ) : InStep H B prior prior' (M.put thread t s) (M'.put thread t' s) := by
  refine ⟨rfl, h.dispatcher, ?_, h.exchanges⟩
  intro other
  by_cases hOther : other = thread
  · subst hOther
    rw [put_tasks_self, put_tasks_self]
    exact hTask
  · simp only [Machine.put, if_neg hOther]
    exact h.tasks other

theorem answer (h : InStep H B prior prior' M M') (r : Request κ) (result : Except Failure Reply)
    {next next' : Except Failure Reply → Program σ κ Unit}
    (hNext : ∀ reply, R (next reply) (next' reply))
    (hBelow : Below H (B thread) R callers callers') (s : State σ κ) :
    InStep H B prior prior' (M.answer thread r result next callers s)
      (M'.answer thread r result next' callers' s) := by
  have hPut : InStep H B prior prior' (M.put thread ⟨.run (next result), callers⟩ s)
      (M'.put thread ⟨.run (next' result), callers'⟩ s) :=
    h.put ⟨R, .run (hNext result), hBelow⟩ s
  obtain ⟨xs, hFirst, hSecond⟩ := h.exchanges
  refine ⟨rfl, hPut.dispatcher, hPut.tasks, xs ++ [⟨thread, r, result, s.clock.now⟩], ?_, ?_⟩
  · show M.exchanges ++ _ = _
    rw [hFirst, List.append_assoc]
  · show M'.exchanges ++ _ = _
    rw [hSecond, List.append_assoc]

theorem release (h : InStep H B prior prior' M M') :
    InStep H B prior prior' M.release M'.release where
  state := congrArg State.leave h.state
  dispatcher := by
    simp only [Machine.release]
    rw [h.state, h.dispatcher]
  tasks := h.tasks
  exchanges := h.exchanges

theorem exhausted (h : InStep H B prior prior' M M') {loop loop' : Loop σ κ}
    (hLoop : loop.Lift R loop') (hBelow : Below H (B thread) R callers callers') :
    InStep H B prior prior' (M.exhausted thread callers loop)
      (M'.exhausted thread callers' loop') := by
  have hRelease := h.release
  cases hLoop with
  | all count hNext =>
    simp only [Machine.exhausted, hRelease.state]
    exact hRelease.answer _ _ hNext hBelow _
  | one hNext =>
    simp only [Machine.exhausted, hRelease.state]
    exact hRelease.answer _ _ hNext hBelow _
  | worker session last =>
    cases last with
    | false =>
      simp only [Machine.exhausted, hRelease.state]
      exact hRelease.put ⟨R, .wait session, hBelow⟩ _
    | true =>
      simp only [Machine.exhausted, hRelease.state]
      exact hRelease.put ⟨R, .ended _, hBelow⟩ _

theorem delivered (h : InStep H B prior prior' M M') {loop loop' : Loop σ κ}
    (hLoop : loop.Lift R loop') (hBelow : Below H (B thread) R callers callers') :
    InStep H B prior prior' (M.delivered thread callers loop)
      (M'.delivered thread callers' loop') := by
  have hRelease := h.release
  cases hLoop with
  | all count hNext =>
    simp only [Machine.delivered, h.state]
    exact h.put ⟨R, .take (.all count hNext), hBelow⟩ _
  | one hNext =>
    simp only [Machine.delivered, hRelease.state]
    exact hRelease.answer _ _ hNext hBelow _
  | worker session last =>
    simp only [Machine.delivered, h.state]
    exact h.put ⟨R, .take (.worker session last), hBelow⟩ _

theorem aborted (h : InStep H B prior prior' M M') (e : Failure) {loop loop' : Loop σ κ}
    (hLoop : loop.Lift R loop') (hBelow : Below H (B thread) R callers callers') :
    InStep H B prior prior' (M.aborted thread e callers loop)
      (M'.aborted thread e callers' loop') := by
  have hRelease := h.release
  cases hLoop with
  | all count hNext =>
    simp only [Machine.aborted, hRelease.state]
    exact hRelease.answer _ _ hNext hBelow _
  | one hNext =>
    simp only [Machine.aborted, hRelease.state]
    exact hRelease.answer _ _ hNext hBelow _
  | worker session last =>
    simp only [Machine.aborted, hRelease.state]
    exact hRelease.put ⟨R, .ended _, hBelow⟩ _

theorem finished (h : InStep H B prior prior' M M') (result : Except Failure Unit)
    (hBelow : Below H (B thread) R callers callers') :
    InStep H B prior prior' (M.finished thread result callers)
      (M'.finished thread result callers') := by
  cases hBelow with
  | bottom =>
    simp only [Machine.finished, h.state]
    exact h.put ⟨B thread, .ended result, .bottom⟩ _
  | above hCaller hRest =>
    cases hCaller with
    | handling target tag hNext =>
      simp only [Machine.finished, h.state]
      exact h.answer _ _ hNext hRest _
    | delivery m hLoop =>
      cases result with
      | ok u => exact h.delivered hLoop hRest
      | error e => exact h.aborted e hLoop hRest

theorem ask (h : InStep H B prior prior' M M') (hWorld : World.Lift H w w') (r : Request κ)
    {next next' : Except Failure Reply → Program σ κ Unit}
    (hNext : ∀ reply, R (next reply) (next' reply))
    (hBelow : Below H (B thread) R callers callers') :
    InStep H B prior prior' (M.ask w thread r next callers)
      (M'.ask w' thread r next' callers') := by
  simp only [Machine.ask, h.state, hWorld.respond]
  cases M.state.respond w thread r with
  | reply result s => exact h.answer r result hNext hBelow s
  | deliverAll => exact h.put ⟨R, .acquire (.all 0 hNext), hBelow⟩ _
  | deliverNext => exact h.put ⟨R, .acquire (.one hNext), hBelow⟩ _
  | stop session => exact h.put ⟨R, .halt session hNext, hBelow⟩ _
  | call target tag =>
    simp only [hWorld.atCall]
    exact h.put ⟨H, .run (hWorld.program _), .above (.handling target tag hNext) hBelow⟩ _

theorem proceed (h : InStep H B prior prior' M M') (hWorld : World.Lift H w w')
    {p p' : Program σ κ Unit} (hAgrees : p.Agrees R p')
    (hBelow : Below H (B thread) R callers callers') :
    InStep H B prior prior' (M.proceed w thread callers p) (M'.proceed w' thread callers' p') := by
  cases hAgrees with
  | done u => exact h.finished _ hBelow
  | fail e => exact h.finished _ hBelow
  | load hNext =>
    simp only [Machine.proceed, h.state]
    exact h.put ⟨R, .run (hNext _), hBelow⟩ _
  | store memory hNext =>
    simp only [Machine.proceed, h.state]
    exact h.put ⟨R, .run hNext, hBelow⟩ _
  | look hNext =>
    simp only [Machine.proceed, h.state]
    exact h.put ⟨R, .run (hNext _), hBelow⟩ _
  | ask r hNext => exact h.ask hWorld r hNext hBelow

theorem idle (h : InStep H B prior prior' M M') (session : Nat)
    (hBelow : Below H (B thread) R callers callers') :
    InStep H B prior prior' (M.idle thread callers session) (M'.idle thread callers' session) := by
  have hAgain (last : Bool) : InStep H B prior prior'
      (M.put thread ⟨.acquire (.worker session last), callers⟩ M.state)
      (M'.put thread ⟨.acquire (.worker session last), callers'⟩ M.state) :=
    h.put ⟨R, .acquire (.worker session last), hBelow⟩ _
  simp only [Machine.idle, h.state]
  split
  · exact hAgain true
  · split
    · exact hAgain false
    · split
      · exact h.put ⟨R, .ended _, hBelow⟩ _
      · exact hAgain false

/-- **Machines that are in step stay so, as long as their programs agree.** -/
theorem step (h : InStep H B prior prior' M M') (hWorld : World.Lift H w w')
    (hAgrees : ∀ R p p' callers callers', M.tasks thread = ⟨.run p, callers⟩ →
      M'.tasks thread = ⟨.run p', callers'⟩ → R p p' → Below H (B thread) R callers callers' →
        p.Agrees R p') :
    (M.step w thread = none ∧ M'.step w' thread = none) ∨
      ∃ N N', M.step w thread = some N ∧ M'.step w' thread = some N' ∧
        InStep H B prior prior' N N' := by
  cases hBegun : M.state.hasThread thread with
  | false => exact Or.inl (by simp [Machine.step, h.state, hBegun])
  | true =>
    obtain ⟨R, hControl, hBelow⟩ := (h.tasks thread).lift
    cases hTask : M.tasks thread with
    | mk control callers =>
      cases hTask' : M'.tasks thread with
      | mk control' callers' =>
        simp only [hTask, hTask'] at hControl hBelow
        simp only [Machine.step, h.state, hBegun, hTask, hTask', if_true]
        cases hControl with
        | run hRelated =>
          exact Or.inr ⟨_, _, rfl, rfl,
            h.proceed hWorld (hAgrees _ _ _ _ _ hTask hTask' hRelated hBelow) hBelow⟩
        | @acquire loop loop' hLoop =>
          simp only [h.dispatcher]
          by_cases hFree : M.dispatcher = none ∨ M.dispatcher = some thread
          · simp only [if_pos hFree]
            have hTake : Task.InStep H (B thread) ⟨.take loop, callers⟩ ⟨.take loop', callers'⟩ :=
              ⟨R, .take hLoop, hBelow⟩
            have hPut := h.put hTake M.state.enter
            exact Or.inr ⟨_, _, rfl, rfl, ⟨rfl, rfl, hPut.tasks, hPut.exchanges⟩⟩
          · exact Or.inl (by simp only [if_neg hFree, and_self])
        | @take loop loop' hLoop =>
          cases M.state.take? thread with
          | none => exact Or.inr ⟨_, _, rfl, rfl, h.exhausted hLoop hBelow⟩
          | some taken =>
            have hCounted : loop.counted.Lift R loop'.counted ∧
                loop'.tally taken.2 = loop.tally taken.2 := by
              cases hLoop with
              | all count hNext => exact ⟨.all (count + 1) hNext, rfl⟩
              | one hNext => exact ⟨.one hNext, rfl⟩
              | worker session last => exact ⟨.worker session last, rfl⟩
            refine Or.inr ⟨_, _, rfl, rfl, ?_⟩
            rw [hCounted.2]
            exact h.put ⟨R, .deliver taken.1 hCounted.1, hBelow⟩ _
        | deliver m hLoop =>
          refine Or.inr ⟨_, _, rfl, rfl, ?_⟩
          rw [hWorld.atDelivery]
          exact h.put ⟨H, .run (hWorld.delivery m), .above (.delivery m hLoop) hBelow⟩ _
        | wait session => exact Or.inr ⟨_, _, rfl, rfl, h.idle session hBelow⟩
        | halt session hNext =>
          exact Or.inr ⟨_, _, rfl, rfl, h.put ⟨R, .join session hNext, hBelow⟩ _⟩
        | join session hNext =>
          by_cases hSelf : thread = .worker session
          · simp only [if_pos hSelf]
            exact Or.inr ⟨_, _, rfl, rfl, h.answer _ _ hNext hBelow _⟩
          · simp only [if_neg hSelf]
            cases M.state.isLive session with
            | true => exact Or.inl ⟨rfl, rfl⟩
            | false => exact Or.inr ⟨_, _, rfl, rfl, h.answer _ _ hNext hBelow _⟩
        | ended result => exact Or.inl ⟨rfl, rfl⟩

end InStep

end Machine

end VirtualLooper
